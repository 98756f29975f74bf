import LinuxDeviceDriver.Numbers
import LinuxDeviceDriver.Lib.Tar

/-!
# The headers of smemcap

`writeheader` prints the header of a member field by field into a zeroed array. `uid` and `gid` may
have eight digits, one more than their field has room for: the zero behind them falls into the next
field, which is printed later. The sum is printed last, over eight blanks that were in its place
while it was taken.

`header_writeheader`: a reader of tar archives gets back the name and the numbers.
-/

namespace LinuxDeviceDriver.Smemcap

open Lib

/-! ## The header -/

/-- `%0<width>o` of an `int`. -/
def octText (width : Nat) (v : Int) : List Byte :=
  let text := digits 8 (v % 2 ^ 32).toNat
  List.replicate (width - text.length) 48 ++ text

/-- A `char` as an `int`. -/
def charValue (signedChar : Bool) (b : Byte) : Int :=
  if signedChar = true ∧ 128 ≤ b.toNat then b.toNat - 256 else b.toNat

/-- The header before its sum is known. -/
def printHeader (path : List Byte) (mode uid gid size mtime : Int) (type : Nat) : Nat → Byte :=
  let header := printAt (fun _ => 0) 0 path
  let header := printAt header 100 (octText 7 (mode % 512)) -- `mode & 0777`
  let header := printAt header 108 (octText 7 uid)
  let header := printAt header 116 (octText 7 gid)
  let header := printAt header 124 (octText 11 size)
  let header := printAt header 136 (octText 7 mtime)
  printAt header 148 (List.replicate 8 32 ++ digits 10 type)

/-- The block that `writeheader` writes. -/
def writeheader (signedChar : Bool) (path : List Byte) (mode uid gid size mtime : Int)
    (type : Nat) : List Byte :=
  let header := printHeader path mode uid gid size mtime type
  let sum := ((slice header 0 512).map (charValue signedChar)).sum
  slice (printAt header 148 (octText 6 sum)) 0 512

/-! ## Octal texts -/

theorem digits_length_le {base : Nat} (hbase : 1 < base) :
    ∀ {k n : Nat}, n < base ^ (k + 1) → (digits base n).length ≤ k + 1 := by
  intro k
  induction k with
  | zero =>
    intro n hn
    rw [digits_of_lt (by simpa using hn)]
    exact Nat.le_refl 1
  | succ k ih =>
    intro n hn
    by_cases hlt : n < base
    · rw [digits_of_lt hlt]
      exact Nat.le_add_left 1 _
    · have hdiv : n / base < base ^ (k + 1) := Nat.div_lt_of_lt_mul (by rwa [Nat.pow_succ'] at hn)
      have hrest := ih hdiv
      rw [digits_of_le hbase (Nat.not_lt.mp hlt), List.length_append]
      exact Nat.succ_le_succ hrest

theorem length_octText (width : Nat) (v : Int) : width ≤ (octText width v).length := by
  simp only [octText, List.length_append, List.length_replicate]
  omega

theorem octText_length_le {width k : Nat} {v : Int} (hwidth : width ≤ k + 1)
    (hv : (v % 2 ^ 32).toNat < 8 ^ (k + 1)) : (octText width v).length ≤ k + 1 := by
  have hdigits := digits_length_le (by decide) hv
  simp only [octText, List.length_append, List.length_replicate]
  omega

/-- One more digit. -/
theorem octalDigits_digit {d : Nat} (hd : d < 8) (rest : List Byte) (value : Nat) :
    Tar.octalDigits (digitByte d :: rest) value = Tar.octalDigits rest (8 * value + d) := by
  have hall : ∀ d : Fin 8, (48 ≤ digitByte d ∧ digitByte d ≤ 55) ∧
      (digitByte d).toNat - 48 = d.val := by decide
  obtain ⟨hdigit, hvalue⟩ := hall ⟨d, hd⟩
  rw [Tar.octalDigits, if_pos hdigit, hvalue]

theorem octalDigits_zeros (k : Nat) (rest : List Byte) :
    Tar.octalDigits (List.replicate k 48 ++ rest) 0 = Tar.octalDigits rest 0 := by
  induction k with
  | zero => rfl
  | succ k ih =>
    have hzero : digitByte 0 = 48 := rfl
    rw [List.replicate_succ, List.cons_append, ← hzero, octalDigits_digit (by decide), hzero]
    exact ih

theorem octalDigits_digits (n : Nat) (rest : List Byte) :
    Tar.octalDigits (digits 8 n ++ rest) 0 = Tar.octalDigits rest n := by
  induction n using Nat.strongRecOn generalizing rest with
  | _ n ih =>
    by_cases hlt : n < 8
    · rw [digits_of_lt hlt, List.singleton_append, octalDigits_digit hlt, Nat.mul_zero,
        Nat.zero_add]
    · have hdiv : n / 8 < n := by omega
      rw [digits_of_le (by decide) (Nat.not_lt.mp hlt), List.append_assoc, List.singleton_append,
        ih _ hdiv, octalDigits_digit (Nat.mod_lt n (by decide)), Nat.div_add_mod]

/-- A printed number is read back, with the end of the field, a zero or a blank behind it. -/
theorem octal_octText (width : Nat) (v : Int) {rest : List Byte}
    (hrest : ∀ c ∈ rest.head?, c = 0 ∨ c = 32) :
    Tar.octal (octText width v ++ rest) = some (v % 2 ^ 32).toNat := by
  have hread : Tar.octalDigits (octText width v ++ rest) 0 = ((v % 2 ^ 32).toNat, rest) := by
    simp only [octText]
    rw [List.append_assoc, octalDigits_zeros, octalDigits_digits]
    cases rest with
    | nil => rfl
    | cons c rest =>
      rw [Tar.octalDigits, if_neg]
      rcases hrest c rfl with rfl | rfl <;> decide
  unfold Tar.octal
  rw [hread]
  cases rest with
  | nil => rfl
  | cons c rest => exact if_pos (hrest c rfl)

theorem octal_padded (field width : Nat) (v : Int) :
    Tar.octal (padded field (octText width v)) = some (v % 2 ^ 32).toNat := by
  refine octal_octText width v fun c hc => .inl ?_
  exact List.eq_of_mem_replicate (List.mem_of_mem_head? hc)

/-! ## The header is a tar header -/

def Ascii (text : List Byte) : Prop := ∀ b ∈ text, b.toNat < 128

instance (text : List Byte) : Decidable (Ascii text) :=
  List.decidableBAll (fun b : Byte => b.toNat < 128) text

theorem Ascii.append {l l' : List Byte} (h : Ascii l) (h' : Ascii l') : Ascii (l ++ l') := by
  intro b hb
  rcases List.mem_append.mp hb with hb | hb
  · exact h b hb
  · exact h' b hb

theorem ascii_replicate (k : Nat) {c : Byte} (hc : c.toNat < 128) : Ascii (List.replicate k c) := by
  intro b hb
  rw [List.eq_of_mem_replicate hb]
  exact hc

theorem ascii_digits {base : Nat} (hlo : 1 < base) (hhi : base ≤ 16) (n : Nat) :
    Ascii (digits base n) := by
  have hdigit : ∀ d, d < base → Ascii [digitByte d] := by
    intro d hd b hb
    have hall : ∀ d : Fin 16, (digitByte d).toNat < 128 := by decide
    rw [List.mem_singleton.mp hb]
    exact hall ⟨d, by omega⟩
  induction n using Nat.strongRecOn with
  | _ n ih =>
    by_cases hlt : n < base
    · rw [digits_of_lt hlt]
      exact hdigit n hlt
    · rw [digits_of_le hlo (Nat.not_lt.mp hlt)]
      exact (ih _ (Nat.div_lt_self (by omega) hlo)).append (hdigit _ (Nat.mod_lt n (by omega)))

theorem ascii_octText (width : Nat) (v : Int) : Ascii (octText width v) :=
  (ascii_replicate _ (by decide)).append (ascii_digits (by decide) (by decide) _)

theorem Ascii.padded {text : List Byte} (h : Ascii text) (width : Nat) :
    Ascii (padded width text) :=
  h.append (ascii_replicate _ (by decide))

/-- Of characters below 128 the sum does not depend on the sign of `char`. -/
theorem charSum_eq (signedChar : Bool) {text : List Byte} (h : Ascii text) :
    (text.map (charValue signedChar)).sum = Tar.byteSum text := by
  induction text with
  | nil => rfl
  | cons b text ih =>
    have hb : b.toNat < 128 := h b List.mem_cons_self
    have hrest := ih fun c hc => h c (List.mem_cons_of_mem b hc)
    have hvalue : charValue signedChar b = b.toNat := if_neg (by omega)
    rw [List.map_cons, List.sum_cons, hrest, hvalue]
    simp [Tar.byteSum]

theorem byteSum_le (text : List Byte) : Tar.byteSum text ≤ 255 * text.length := by
  induction text with
  | nil => exact Nat.le_refl 0
  | cons b text ih =>
    have hb : b.toNat < 256 := b.toNat_lt
    rw [Tar.byteSum, List.map_cons, List.sum_cons, List.length_cons]
    rw [Tar.byteSum] at ih
    omega

theorem takeWhile_padded {text : List Byte} (h : 0 ∉ text) (width : Nat) :
    (padded width text).takeWhile (· ≠ 0) = text := by
  rw [padded, List.takeWhile_append_of_pos (decide_ne_of_notMem h)]
  cases width - text.length with
  | zero => exact List.append_nil text
  | succ k => exact List.append_nil text

/-- What a header has room for: a name of a hundred characters, and user and group numbers of eight
octal digits. -/
structure Fits (path : List Byte) (uid gid : Int) : Prop where
  short : path.length ≤ 100
  string : 0 ∉ path
  ascii : Ascii path
  uid : uid % 2 ^ 32 < 2 ^ 24
  gid : gid % 2 ^ 32 < 2 ^ 24

section Header

variable {path : List Byte} {mode uid gid size mtime : Int} {type : Nat}

/-- Permissions have three digits. -/
theorem mode_fits (mode : Int) : (octText 7 (mode % 512)).length ≤ 8 :=
  octText_length_le (k := 7) (by decide) (by omega)

theorem id_fits {v : Int} (h : v % 2 ^ 32 < 2 ^ 24) : (octText 7 v).length ≤ 8 :=
  octText_length_le (k := 7) (by decide) (by omega)

/-- An `int` has at most eleven digits. -/
theorem int_fits {width : Nat} (hwidth : width ≤ 11) (v : Int) : (octText width v).length ≤ 12 := by
  have heleven : (octText width v).length ≤ 11 := octText_length_le (k := 10) hwidth (by omega)
  omega

/-- The fields of the header; the sum is still to be given. -/
def headerFields (h : Fits path uid gid) (mode size mtime : Int) (htype : type < 10)
    (sum : List Byte) (hsum : sum.length = 8) : Tar.Fields where
  name := padded 100 path
  mode := padded 8 (octText 7 (mode % 512))
  uid := padded 8 (octText 7 uid)
  gid := padded 8 (octText 7 gid)
  size := padded 12 (octText 11 size)
  mtime := padded 12 (octText 7 mtime)
  sum := sum
  tail := padded 356 (digits 10 type)
  name_len := length_padded h.short
  mode_len := length_padded (mode_fits mode)
  uid_len := length_padded (id_fits h.uid)
  gid_len := length_padded (id_fits h.gid)
  size_len := length_padded (int_fits (by decide) size)
  mtime_len := length_padded (int_fits (by decide) mtime)
  sum_len := hsum
  tail_len := length_padded (by simp [digits_of_lt htype])

/-- Before the sum is printed there are blanks in its place. -/
theorem slice_printHeader (h : Fits path uid gid) (mode size mtime : Int) (htype : type < 10)
    (sum : List Byte) (hsum : sum.length = 8) :
    slice (printHeader path mode uid gid size mtime type) 0 148 =
        (headerFields h mode size mtime htype sum hsum).front ∧
      slice (printHeader path mode uid gid size mtime type) 148 8 = List.replicate 8 32 ∧
      slice (printHeader path mode uid gid size mtime type) 156 356 =
        (headerFields h mode size mtime htype sum hsum).tail := by
  let f := headerFields h mode size mtime htype sum hsum
  have htext : (List.replicate 8 (32 : Byte) ++ digits 10 type).length ≤ 364 := by
    simp [digits_of_lt htype]
  have hfit : ∀ g ∈ [(100, path), (8, octText 7 (mode % 512)), (8, octText 7 uid),
      (8, octText 7 gid), (12, octText 11 size), (12, octText 7 mtime),
      (364, List.replicate 8 32 ++ digits 10 type)], g.2.length ≤ g.1 := by
    simp only [List.forall_mem_cons]
    exact ⟨h.short, mode_fits mode, id_fits h.uid, id_fits h.gid, int_fits (by decide) size,
      int_fits (by decide) mtime, htext, List.forall_mem_nil _⟩
  have hall := slice_printFields hfit (m := fun _ => 0) (a := 0) fun _ _ => rfl
  have hlast : padded 364 (List.replicate 8 32 ++ digits 10 type) =
      List.replicate 8 32 ++ f.tail := by
    show _ = List.replicate 8 32 ++ padded 356 (digits 10 type)
    rw [padded, padded, List.append_assoc, List.length_append, List.length_replicate,
      Nat.sub_add_eq]
  have hparts : slice (printHeader path mode uid gid size mtime type) 0 (148 + (8 + 356)) =
      f.front ++ (List.replicate 8 32 ++ f.tail) := by
    simp only [List.map_cons, List.map_nil, List.sum_cons, List.sum_nil, List.flatMap_cons,
      List.flatMap_nil, List.append_nil, hlast] at hall
    simp only [f, Tar.Fields.front, headerFields, List.append_assoc]
    exact hall
  rw [slice_add, slice_add] at hparts
  obtain ⟨hfront, hrest⟩ := List.append_inj hparts (by rw [length_slice, f.front_length])
  obtain ⟨hblanks, htail⟩ := List.append_inj hrest (by rw [length_slice, List.length_replicate])
  exact ⟨hfront, hblanks, htail⟩

/-- The sum fits its field, with a zero behind it, and one blank is left. -/
theorem slice_printSum {m : Nat → Byte} {text : List Byte} (htext : text.length = 6)
    (hblanks : slice m 148 8 = List.replicate 8 32) :
    slice (printAt m 148 text) 0 512 =
      slice m 0 148 ++ (text ++ [0, 32]) ++ slice m 156 356 := by
  have hblank : m 155 = 32 := by
    have hcell := slice_getD m 148 (by decide : 7 < 8) 0
    rw [hblanks] at hcell
    exact hcell.symm
  have hfront : slice (printAt m 148 text) 0 148 = slice m 0 148 := by
    refine slice_congr fun i hi => ?_
    rw [printAt_apply, if_neg (by omega)]
  have htail : slice (printAt m 148 text) 156 356 = slice m 156 356 := by
    refine slice_congr fun i hi => ?_
    rw [printAt_apply, if_neg (by omega)]
  have hsum : slice (printAt m 148 text) 148 8 = text ++ [0, 32] := by
    have hlen : (text ++ [(0 : Byte), 32]).length = 8 := by simp [htext]
    rw [← hlen]
    refine slice_eq_list 0 fun i hi => ?_
    rw [hlen] at hi
    rw [printAt_apply, htext, List.getD_eq_getElem?_getD, List.getD_eq_getElem?_getD]
    obtain hin | rfl | rfl : i < 6 ∨ i = 6 ∨ i = 7 := by omega
    · rw [if_pos (by omega), Nat.add_sub_cancel_left, List.getElem?_append_left (by omega)]
    · rw [if_pos (by omega), List.getElem?_eq_none (by omega),
        List.getElem?_append_right (by omega), htext]
      rfl
    · rw [if_neg (by omega), List.getElem?_append_right (by omega), htext]
      exact hblank
  show slice (printAt m 148 text) 0 (148 + 8 + 356) = _
  rw [slice_add, slice_add, hfront, hsum, htail]

theorem headerFields_ascii (h : Fits path uid gid) (mode size mtime : Int) (htype : type < 10)
    (sum : List Byte) (hsum : sum.length = 8) :
    Ascii (headerFields h mode size mtime htype sum hsum).front ∧
      Ascii (headerFields h mode size mtime htype sum hsum).tail := by
  refine ⟨?_, (ascii_digits (by decide) (by decide) type).padded 356⟩
  have hname : Ascii (padded 100 path ++ padded 8 (octText 7 (mode % 512))) :=
    (h.ascii.padded 100).append ((ascii_octText 7 _).padded 8)
  have hids : Ascii (padded 100 path ++ padded 8 (octText 7 (mode % 512)) ++
      padded 8 (octText 7 uid) ++ padded 8 (octText 7 gid)) :=
    (hname.append ((ascii_octText 7 uid).padded 8)).append ((ascii_octText 7 gid).padded 8)
  exact (hids.append ((ascii_octText 11 size).padded 12)).append
    ((ascii_octText 7 mtime).padded 12)

/-- The sum that `writeheader` takes is the one a reader takes. -/
theorem sum_printHeader (signedChar : Bool) (h : Fits path uid gid) (mode size mtime : Int)
    (htype : type < 10) (sum : List Byte) (hsum : sum.length = 8) :
    ((slice (printHeader path mode uid gid size mtime type) 0 512).map (charValue signedChar)).sum =
      (Tar.byteSum (headerFields h mode size mtime htype sum hsum).front + 8 * 32 +
        Tar.byteSum (headerFields h mode size mtime htype sum hsum).tail : Nat) := by
  obtain ⟨hfront, hblanks, htail⟩ := slice_printHeader h mode size mtime htype sum hsum
  obtain ⟨hascii, hascii'⟩ := headerFields_ascii h mode size mtime htype sum hsum
  have hbytes : slice (printHeader path mode uid gid size mtime type) 0 (148 + 8 + 356) =
      (headerFields h mode size mtime htype sum hsum).front ++ List.replicate 8 32 ++
        (headerFields h mode size mtime htype sum hsum).tail := by
    rw [slice_add, slice_add, hfront, hblanks, htail]
  have hall := (hascii.append (ascii_replicate 8 (c := 32) (by decide))).append hascii'
  rw [hbytes, charSum_eq signedChar hall, Tar.byteSum_append, Tar.byteSum_append]
  rfl

/-- **The header of a member**: one block, with the name and the numbers it was given. -/
theorem header_writeheader (signedChar : Bool) (h : Fits path uid gid) (mode size mtime : Int)
    (htype : type < 10) :
    (writeheader signedChar path mode uid gid size mtime type).length = 512 ∧
      Tar.header (writeheader signedChar path mode uid gid size mtime type) =
        some ⟨path, (mode % 512).toNat, (uid % 2 ^ 32).toNat, (gid % 2 ^ 32).toNat,
          (size % 2 ^ 32).toNat, (mtime % 2 ^ 32).toNat, digitByte type⟩ := by
  let m := printHeader path mode uid gid size mtime type
  let sum := ((slice m 0 512).map (charValue signedChar)).sum
  -- front and tail do not depend on the text of the sum
  let g := headerFields h mode size mtime htype (List.replicate 8 0) rfl
  have hsum : sum = (Tar.byteSum g.front + 8 * 32 + Tar.byteSum g.tail : Nat) :=
    sum_printHeader signedChar h mode size mtime htype (List.replicate 8 0) rfl
  have hbound : Tar.byteSum g.front + 8 * 32 + Tar.byteSum g.tail < 8 ^ 6 := by
    have hfront := byteSum_le g.front
    have htail := byteSum_le g.tail
    rw [g.front_length] at hfront
    rw [g.tail_len] at htail
    omega
  have hvalue : (sum % 2 ^ 32).toNat = Tar.byteSum g.front + 8 * 32 + Tar.byteSum g.tail := by
    omega
  have htext : (octText 6 sum).length = 6 := by
    have hlo := length_octText 6 sum
    have hhi : (octText 6 sum).length ≤ 6 := octText_length_le (k := 5) (by decide) (by omega)
    omega
  have hlen : (octText 6 sum ++ [0, 32]).length = 8 := by rw [List.length_append, htext]; rfl
  let f := headerFields h mode size mtime htype (octText 6 sum ++ [0, 32]) hlen
  have hblock : writeheader signedChar path mode uid gid size mtime type = f.block := by
    obtain ⟨hfront, hblanks, htail⟩ := slice_printHeader h mode size mtime htype _ hlen
    show slice (printAt m 148 (octText 6 sum)) 0 512 =
      f.front ++ (octText 6 sum ++ [0, 32]) ++ f.tail
    rw [slice_printSum htext hblanks, hfront, htail]
  have hsumField : Tar.octal f.sum =
      some (Tar.byteSum f.front + 8 * 32 + Tar.byteSum f.tail) := by
    have hfront : f.front = g.front := rfl
    have htail : f.tail = g.tail := rfl
    rw [hfront, htail, ← hvalue]
    exact octal_octText 6 sum fun c hc => .inl (Option.mem_some.mp hc).symm
  refine ⟨hblock ▸ f.block_length, ?_⟩
  rw [hblock, Tar.header_block f (octal_padded 8 7 _) (octal_padded 8 7 _) (octal_padded 8 7 _)
    (octal_padded 12 11 _) (octal_padded 12 7 _) hsumField]
  have hmode : mode % 512 % 2 ^ 32 = mode % 512 := by omega
  have hflag : f.tail.getD 0 0 = digitByte type := by
    show (padded 356 (digits 10 type)).getD 0 0 = _
    rw [getD_padded, digits_of_lt htype]
    rfl
  have hname : f.name.takeWhile (· ≠ 0) = path := takeWhile_padded h.string 100
  rw [hname, hflag, hmode]

end Header

end LinuxDeviceDriver.Smemcap
