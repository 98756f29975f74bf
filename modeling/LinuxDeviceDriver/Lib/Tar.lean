import Mathlib.Algebra.Order.Ring.Int
import Mathlib.Data.UInt
import LinuxDeviceDriver.Lib.Blit

/-!
# Tar archives

A tar archive is a sequence of blocks of 512 bytes: for each member a header block and then as many
blocks as its data need, the last one filled up. The header has its values in fields at fixed
places, numbers as octal texts, and the sum of its bytes with the sum's own field read as blanks.

`members` reads an archive. `Holds` says which members a part of it holds: parts are put together
by `Holds.append`, `holds_member` is the rule for one member, `header_block` the one for a header
that is given field by field (`Fields`).

A header is often made by printing texts into a zeroed array, each with the zero that ends it. When
every text fits its field, that is the concatenation of the filled-up texts (`slice_printFields`):
a zero that falls into the next field is overwritten or was zero before.
-/

namespace Lib

universe u

/-! ## Texts in fields -/

section Fields

variable {α : Type u} [Zero α]

/-- Print a text at index `a` of an array, with the zero that ends it. -/
def printAt (m : Nat → α) (a : Nat) (text : List α) : Nat → α :=
  blit m (fun i => a + i) (fun i => text.getD i 0) (text.length + 1)

theorem printAt_apply (m : Nat → α) (a : Nat) (text : List α) (x : Nat) :
    printAt m a text x = if a ≤ x ∧ x ≤ a + text.length then text.getD (x - a) 0 else m x := by
  rw [printAt, blit_adjacent]
  refine if_congr ?_ rfl rfl
  omega

/-- A text at the beginning of a field, zeros behind it. -/
def padded (width : Nat) (text : List α) : List α :=
  text ++ List.replicate (width - text.length) 0

theorem length_padded {width : Nat} {text : List α} (h : text.length ≤ width) :
    (padded width text).length = width := by
  rw [padded, List.length_append, List.length_replicate]
  omega

theorem getD_padded (width : Nat) (text : List α) (i : Nat) :
    (padded width text).getD i 0 = text.getD i 0 := by
  simp only [padded, List.getD_eq_getElem?_getD, List.getElem?_append]
  split
  · rfl
  · next hi =>
    rw [List.getElem?_eq_none (Nat.not_lt.mp hi), List.getElem?_replicate]
    split <;> rfl

/-- Print texts into adjacent fields, from index `a` on. -/
def printFields (m : Nat → α) (a : Nat) : List (Nat × List α) → Nat → α
  | [] => m
  | field :: fields => printFields (printAt m a field.2) (a + field.1) fields

/-- What is before the first field stays. -/
theorem printFields_before {x : Nat} (fields : List (Nat × List α)) :
    ∀ {m : Nat → α} {a : Nat}, x < a → printFields m a fields x = m x := by
  induction fields with
  | nil => intro m a _; rfl
  | cons field fields ih =>
    intro m a hx
    rw [printFields, ih (by omega), printAt_apply, if_neg (by omega)]

/-- **Fields**: in an array of zeros, texts that fit leave the filled-up texts. -/
theorem slice_printFields {fields : List (Nat × List α)} (hfit : ∀ f ∈ fields, f.2.length ≤ f.1) :
    ∀ {m : Nat → α} {a : Nat}, (∀ x, a ≤ x → m x = 0) →
      slice (printFields m a fields) a (fields.map Prod.fst).sum =
        fields.flatMap fun f => padded f.1 f.2 := by
  induction fields with
  | nil => intro m a _; rfl
  | cons field fields ih =>
    intro m a hzero
    have hlen : field.2.length ≤ field.1 := hfit field List.mem_cons_self
    -- the zero behind a text that fills its field is the next field's first cell
    have hzero' : ∀ x, a + field.1 ≤ x → printAt m a field.2 x = 0 := by
      intro x hx
      rw [printAt_apply]
      split
      · rw [List.getD_eq_getElem?_getD, List.getElem?_eq_none (by omega)]
        rfl
      · exact hzero x (by omega)
    have hfirst : slice (printFields (printAt m a field.2) (a + field.1) fields) a field.1 =
        padded field.1 field.2 := by
      have hcells : ∀ i, i < (padded field.1 field.2).length →
          printFields (printAt m a field.2) (a + field.1) fields (a + i) =
            (padded field.1 field.2).getD i 0 := by
        intro i hi
        rw [length_padded hlen] at hi
        rw [printFields_before fields (by omega), printAt_apply, getD_padded]
        split
        · rw [Nat.add_sub_cancel_left]
        · rw [hzero (a + i) (by omega), List.getD_eq_getElem?_getD,
            List.getElem?_eq_none (by omega)]
          rfl
      have hslice := slice_eq_list 0 hcells
      rwa [length_padded hlen] at hslice
    rw [List.map_cons, List.sum_cons, slice_add, printFields, hfirst, List.flatMap_cons,
      ih (fun f hf => hfit f (List.mem_cons_of_mem _ hf)) hzero']

end Fields

namespace Tar

/-! ## Reading a header -/

/-- The octal digits at the beginning of a text: their value, on top of what was read before them,
and what is behind them. -/
def octalDigits : List UInt8 → Nat → Nat × List UInt8
  | [], value => (value, [])
  | c :: text, value =>
    if 48 ≤ c ∧ c ≤ 55 then octalDigits text (8 * value + (c.toNat - 48)) else (value, c :: text)

/-- A number: octal digits up to a zero, a blank or the end of the field. -/
def octal (field : List UInt8) : Option Nat :=
  match octalDigits field 0 with
  | (value, []) => some value
  | (value, c :: _) => if c = 0 ∨ c = 32 then some value else none

def byteSum (bytes : List UInt8) : Nat := (bytes.map UInt8.toNat).sum

theorem byteSum_append (l l' : List UInt8) : byteSum (l ++ l') = byteSum l + byteSum l' := by
  simp [byteSum]

/-- The sum of a header's bytes, the eight of the sum itself read as blanks. -/
def checksum (block : List UInt8) : Nat :=
  byteSum (block.take 148) + 8 * 32 + byteSum (block.drop 156)

structure Header where
  name : List UInt8
  mode : Nat
  uid : Nat
  gid : Nat
  size : Nat
  mtime : Nat
  typeflag : UInt8
  deriving DecidableEq, Repr

def field (block : List UInt8) (start width : Nat) : List UInt8 := (block.drop start).take width

/-- A header block whose sum is right. -/
def header (block : List UInt8) : Option Header := do
  let mode ← octal (field block 100 8)
  let uid ← octal (field block 108 8)
  let gid ← octal (field block 116 8)
  let size ← octal (field block 124 12)
  let mtime ← octal (field block 136 12)
  let sum ← octal (field block 148 8)
  if sum = checksum block then
    some ⟨(field block 0 100).takeWhile (· ≠ 0), mode, uid, gid, size, mtime, block.getD 156 0⟩
  else none

/-! ## Reading an archive -/

structure Member where
  header : Header
  data : List UInt8
  deriving DecidableEq, Repr

/-- The length of the blocks that `size` bytes take. -/
def roundUp (size : Nat) : Nat := (size + 511) / 512 * 512

/-- The members of an archive, which ends with the stream or at a block of zeros. -/
def members (stream : List UInt8) : Option (List Member) :=
  if stream = [] then some []
  else if stream.length < 512 then none
  else
    match header (stream.take 512) with
    | none => if (stream.take 512).all (· = 0) then some [] else none
    | some h =>
      if stream.length < 512 + roundUp h.size then none
      else
        (members (stream.drop (512 + roundUp h.size))).map fun rest =>
          ⟨h, (stream.drop 512).take h.size⟩ :: rest
termination_by stream.length
decreasing_by
  rw [List.length_drop]
  omega

/-- A part of an archive that reads as these members, whatever is behind it. -/
def Holds (part : List UInt8) (ms : List Member) : Prop :=
  ∀ rest, members (part ++ rest) = (members rest).map (ms ++ ·)

theorem Holds.append {part part' : List UInt8} {ms ms' : List Member} (h : Holds part ms)
    (h' : Holds part' ms') : Holds (part ++ part') (ms ++ ms') := by
  intro rest
  rw [List.append_assoc, h, h', Option.map_map]
  congr 1
  funext l
  exact (List.append_assoc ms ms' l).symm

theorem holds_nil : Holds [] [] := by
  intro rest
  exact (Option.map_id_apply).symm

/-- The whole of an archive. -/
theorem Holds.members_eq {part : List UInt8} {ms : List Member} (h : Holds part ms) :
    members part = some ms := by
  have hend : members [] = some [] := by rw [members, if_pos rfl]
  have hall := h []
  rw [List.append_nil, hend] at hall
  rw [hall, Option.map_some, List.append_nil]

/-- **One member**: its header, its data and what fills the last block up. -/
theorem holds_member {block data fill : List UInt8} {h : Header} (hblock : block.length = 512)
    (hheader : header block = some h) (hdata : data.length = h.size)
    (hfill : data.length + fill.length = roundUp h.size) :
    Holds (block ++ (data ++ fill)) [⟨h, data⟩] := by
  intro rest
  have hbody : (block ++ (data ++ fill)).length = 512 + roundUp h.size := by
    rw [List.length_append, List.length_append]
    omega
  have hstream : (block ++ (data ++ fill) ++ rest).length =
      512 + roundUp h.size + rest.length := by
    rw [List.length_append, hbody]
  have htake : (block ++ (data ++ fill) ++ rest).take 512 = block := by
    rw [List.append_assoc, List.take_left' hblock]
  have hnonempty : block ++ (data ++ fill) ++ rest ≠ [] := by
    intro hnil
    rw [hnil, List.length_nil] at hstream
    omega
  rw [members, if_neg hnonempty, if_neg (by omega), htake, hheader]
  show (if _ then none else _) = _
  rw [if_neg (by omega), List.drop_left' hbody]
  have hown : ((block ++ (data ++ fill) ++ rest).drop 512).take h.size = data := by
    rw [List.append_assoc, List.drop_left' hblock, List.append_assoc, List.take_left' hdata]
  rw [hown]
  rfl

/-! ## A header by its fields -/

/-- The fields of a header block, each as wide as it has to be. -/
structure Fields where
  name : List UInt8
  mode : List UInt8
  uid : List UInt8
  gid : List UInt8
  size : List UInt8
  mtime : List UInt8
  sum : List UInt8
  tail : List UInt8
  name_len : name.length = 100
  mode_len : mode.length = 8
  uid_len : uid.length = 8
  gid_len : gid.length = 8
  size_len : size.length = 12
  mtime_len : mtime.length = 12
  sum_len : sum.length = 8
  tail_len : tail.length = 356

namespace Fields

variable (f : Fields)

/-- What is before the sum. -/
def front : List UInt8 := f.name ++ f.mode ++ f.uid ++ f.gid ++ f.size ++ f.mtime

def block : List UInt8 := f.front ++ f.sum ++ f.tail

theorem front_length : f.front.length = 148 := by
  simp only [front, List.length_append, f.name_len, f.mode_len, f.uid_len, f.gid_len, f.size_len,
    f.mtime_len]

theorem block_length : f.block.length = 512 := by
  simp only [block, List.length_append, f.front_length, f.sum_len, f.tail_len]

theorem checksum_block : checksum f.block = byteSum f.front + 8 * 32 + byteSum f.tail := by
  have hbefore : (f.front ++ f.sum).length = 156 := by
    rw [List.length_append, f.front_length, f.sum_len]
  rw [checksum, block, List.drop_left' hbefore, List.append_assoc, List.take_left' f.front_length]

end Fields

theorem field_here {text : List UInt8} {width : Nat} (h : text.length = width)
    (behind : List UInt8) : field (text ++ behind) 0 width = text := by
  rw [field, List.drop_zero, List.take_left' h]

theorem field_behind {before : List UInt8} {k : Nat} (h : before.length = k)
    (rest : List UInt8) (start width : Nat) :
    field (before ++ rest) (k + start) width = field rest start width := by
  rw [field, ← List.drop_drop, List.drop_left' h, field]

/-- **A header by its fields**: numbers in octal and the right sum. -/
theorem header_block (f : Fields) {mode uid gid size mtime : Nat}
    (hmode : octal f.mode = some mode) (huid : octal f.uid = some uid)
    (hgid : octal f.gid = some gid) (hsize : octal f.size = some size)
    (hmtime : octal f.mtime = some mtime)
    (hsum : octal f.sum = some (byteSum f.front + 8 * 32 + byteSum f.tail)) :
    header f.block =
      some ⟨f.name.takeWhile (· ≠ 0), mode, uid, gid, size, mtime, f.tail.getD 0 0⟩ := by
  have hparts : f.block =
      f.name ++ (f.mode ++ (f.uid ++ (f.gid ++ (f.size ++ (f.mtime ++ (f.sum ++ f.tail)))))) := by
    simp only [Fields.block, Fields.front, List.append_assoc]
  have hname' : field f.block 0 100 = f.name := by rw [hparts, field_here f.name_len]
  have hmode' : field f.block (100 + 0) 8 = f.mode := by
    rw [hparts, field_behind f.name_len, field_here f.mode_len]
  have huid' : field f.block (100 + (8 + 0)) 8 = f.uid := by
    rw [hparts, field_behind f.name_len, field_behind f.mode_len, field_here f.uid_len]
  have hgid' : field f.block (100 + (8 + (8 + 0))) 8 = f.gid := by
    rw [hparts, field_behind f.name_len, field_behind f.mode_len, field_behind f.uid_len,
      field_here f.gid_len]
  have hsize' : field f.block (100 + (8 + (8 + (8 + 0)))) 12 = f.size := by
    rw [hparts, field_behind f.name_len, field_behind f.mode_len, field_behind f.uid_len,
      field_behind f.gid_len, field_here f.size_len]
  have hmtime' : field f.block (100 + (8 + (8 + (8 + (12 + 0))))) 12 = f.mtime := by
    rw [hparts, field_behind f.name_len, field_behind f.mode_len, field_behind f.uid_len,
      field_behind f.gid_len, field_behind f.size_len, field_here f.mtime_len]
  have hsum' : field f.block (148 + 0) 8 = f.sum := by
    rw [Fields.block, List.append_assoc, field_behind f.front_length, field_here f.sum_len]
  have hflag : f.block.getD 156 0 = f.tail.getD 0 0 := by
    have hbefore : (f.front ++ f.sum).length = 156 := by
      rw [List.length_append, f.front_length, f.sum_len]
    rw [Fields.block, List.getD_eq_getElem?_getD, List.getElem?_append_right (by omega), hbefore,
      List.getD_eq_getElem?_getD]
  simp only [Nat.reduceAdd] at hmode' huid' hgid' hsize' hmtime' hsum'
  simp only [header, hname', hmode', huid', hgid', hsize', hmtime', hsum', hmode, huid, hgid, hsize,
    hmtime, hsum, hflag, f.checksum_block, Option.bind_eq_bind, Option.bind_some, if_true]

end Tar

end Lib
