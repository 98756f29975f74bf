import LinuxDeviceDriver.Lib.Blit
import LinuxDeviceDriver.Lib.Loop
import LinuxDeviceDriver.Numbers

/-!
# Dumping a buffer in lines: `asciidump.c`

`print_buf` prints a buffer in lines of 16 bytes, each by a call of `print_hex_ascii_line`. The
length of a line is computed as `line_width % len_rem`, which is `line_width` as long as more
than a line is left, and the last line is printed on the way out.

The calls are recorded as they are made (`Line`); `Line.text` is what a call prints, in columns of
fixed width. `Partition` says that the lines are the buffer, cut every 16 bytes, and that their
texts can be read back: the address, the offset, the bytes, and those that are printable once more
as characters. `print_buf_partition` says that `print_buf` ends with such lines.
-/

namespace LinuxDeviceDriver.Asciidump

open Lib

/-! ## A line -/

/-- A call of `print_hex_ascii_line`: where it starts to read, the bytes it reads, and `offset`. -/
structure Line where
  start : Nat
  bytes : List Byte
  offset : Int
deriving DecidableEq

/-- `%08x` -/
def hex8 (n : Nat) : List Byte :=
  List.replicate (8 - (digits 16 n).length) (digitByte 0) ++ digits 16 n

/-- `%02x` -/
def hex2 (b : Byte) : List Byte := [digitByte (b.toNat / 16), digitByte (b.toNat % 16)]

/-- `isprint` in the C locale. -/
def isprint (b : Byte) : Bool := 0x20 ≤ b && b ≤ 0x7e

/-- `0x%x_%08x `, the address of the line. -/
def baseText (base : BitVec 64) (offset : Int) : List Byte :=
  let addr := base + BitVec.ofInt 64 offset
  48 :: 120 :: digits 16 (addr >>> 32).toNat ++ [95] ++ hex8 (addr.setWidth 32).toNat ++ [32]

/-- `0x%08x  `, the label of the line. -/
def labelText (offset : Int) : List Byte :=
  48 :: 120 :: hex8 (offset % 2 ^ 32).toNat ++ [32, 32]

/-- The bytes of a line from number `i` on in hexadecimal, with a space more after number 7. -/
def cells (i : Nat) (bytes : List Byte) : List Byte :=
  (bytes.zipIdx i).flatMap fun (b, i) => hex2 b ++ [32] ++ if i = 7 then [32] else []

/-- The bytes in hexadecimal, filled up to a whole line. -/
def hexColumns (bytes : List Byte) : List Byte :=
  cells 0 bytes ++
    (if bytes.length < 8 then [32] else []) ++
    (if bytes.length < 16 then List.replicate (3 * (16 - bytes.length)) 32 else [])

/-- `print_hex_ascii_line` -/
def Line.text (base : Option (BitVec 64)) (line : Line) : List Byte :=
  base.elim [] (baseText · line.offset) ++ labelText line.offset ++ hexColumns line.bytes ++
    [32, 32, 32] ++ line.bytes.map (fun b => if isprint b then b else 46) ++ [10]

/-! ## The loop -/

/-- `print_hex_ascii_line(base, ch, len, offset)` -/
def line (mem : Nat → Byte) (ch : Nat) (len offset : Int) : Line :=
  ⟨ch, slice mem ch len.toNat, offset⟩

/-- The local variables of `print_buf`, and the lines printed so far. -/
structure Printing where
  lenRem : Int
  ch : Nat
  offset : Int
  lines : List Line

/-- `line_width` -/
def lineWidth : Int := 16

/-- The body of the loop over the lines. -/
def printBody (mem : Nat → Byte) (s : Printing) : Iter Printing :=
  let lineLen := lineWidth.tmod s.lenRem
  let lines := s.lines ++ [line mem s.ch lineLen s.offset]
  let lenRem := toInt32 (s.lenRem - lineLen)
  let ch := s.ch + lineLen.toNat
  let offset := toInt32 (s.offset + lineWidth)
  if lenRem ≤ lineWidth then .done ⟨lenRem, ch, offset, lines ++ [line mem ch lenRem offset]⟩
  else .next ⟨lenRem, ch, offset, lines⟩

/-- `print_buf`: the lines it prints. -/
def printBuf (mem : Nat → Byte) (buf : Nat) (len : Int) (fuel : Nat) : Option (List Line) :=
  if len ≤ 0 then some []
  else if len ≤ lineWidth then some [line mem buf len 0]
  else (iterate (printBody mem) fuel ⟨len, buf, 0, []⟩).map Printing.lines

/-- What is printed on `stderr`. -/
def printed (base : Option (BitVec 64)) (lines : List Line) : List Byte :=
  lines.flatMap (·.text base)

/-! ## What a line shows -/

theorem parseInteger_zeros (n : Nat) (rest : List Byte) :
    parseInteger 16 (List.replicate n (digitByte 0) ++ rest) 0 = parseInteger 16 rest 0 := by
  induction n with
  | zero => rfl
  | succ n ih =>
    rw [List.replicate_succ, List.cons_append,
      parseInteger_digit (by decide) (Nat.le_refl 16) _ (by decide)]
    exact ih

theorem parseInteger_stop {c : Byte} (hc : digitValue c = none) (rest : List Byte) (res : Nat) :
    parseInteger 16 (c :: rest) res = res := by
  rw [parseInteger, hc]

/-- Eight digits are read as their number. -/
theorem parseInteger_hex8 {n : Nat} (h : n < 2 ^ 32) (rest : List Byte) :
    parseInteger 16 (hex8 n ++ rest) 0 = parseInteger 16 rest n := by
  unfold hex8
  rw [List.append_assoc, parseInteger_zeros,
    parseInteger_digits (by decide) (Nat.le_refl 16) n (by omega)]

theorem length_hex8 {n : Nat} (h : n < 2 ^ 32) : (hex8 n).length = 8 := by
  have hle : (digits 16 n).length ≤ 8 := by
    unfold digits
    rw [List.length_map]
    exact (Nat.length_toDigits_le_iff (by decide) (by decide)).mpr h
  unfold hex8
  rw [List.length_append, List.length_replicate]
  omega

/-- The address in front of a line, read from its text. -/
def readAddress (text : List Byte) : Nat :=
  parseInteger 16 (text.drop 2) 0 * 2 ^ 32 + parseInteger 16 ((text.dropWhile (· ≠ 95)).drop 1) 0

/-- The two halves of the address are the address. -/
theorem baseText_reads (base : BitVec 64) (offset : Nat) :
    readAddress (baseText base offset) = (base + BitVec.ofNat 64 offset).toNat := by
  unfold readAddress baseText
  rw [BitVec.ofInt_natCast]
  dsimp only
  generalize base + BitVec.ofNat 64 offset = addr
  have hhi : (addr >>> 32).toNat = addr.toNat / 2 ^ 32 := by
    rw [BitVec.toNat_ushiftRight, Nat.shiftRight_eq_div_pow]
  have hlo : (addr.setWidth 32).toNat = addr.toNat % 2 ^ 32 := BitVec.toNat_setWidth ..
  have haddr := addr.isLt
  -- no digit is the underscore, at which the search stops
  have hdigits : ∀ c ∈ 48 :: 120 :: digits 16 (addr >>> 32).toNat, decide (c ≠ 95) = true := by
    intro c hc
    rcases List.mem_cons.mp hc with rfl | hc
    · decide
    rcases List.mem_cons.mp hc with rfl | hc
    · decide
    obtain ⟨d, hd, rfl⟩ := mem_digits (by decide) hc
    have hall : ∀ d : Fin 16, decide (digitByte d ≠ 95) = true := by decide
    exact hall ⟨d, hd⟩
  have hdrop : List.dropWhile (fun c : Byte => decide (c ≠ 95))
      (48 :: 120 :: digits 16 (addr >>> 32).toNat ++ [95] ++ hex8 (addr.setWidth 32).toNat ++
        [32]) = 95 :: (hex8 (addr.setWidth 32).toNat ++ [32]) := by
    rw [List.append_assoc, List.append_assoc, List.dropWhile_append_of_pos hdigits]
    rfl
  rw [hdrop, List.drop_one, List.tail_cons, parseInteger_hex8 (BitVec.isLt _),
    parseInteger_stop rfl, List.append_assoc, List.append_assoc, List.cons_append,
    List.cons_append, List.drop_succ_cons, List.drop_succ_cons, List.drop_zero,
    parseInteger_digits (by decide) (Nat.le_refl 16) _ (by omega), List.singleton_append,
    parseInteger_stop rfl, hhi, hlo]
  exact Nat.div_add_mod' addr.toNat (2 ^ 32)

theorem readBytes_hex2 (b : Byte) (rest : List Byte) :
    readBytes (hex2 b ++ rest) = b :: readBytes rest := by
  have hlt := b.toNat_lt
  exact readBytes_pair (digitValue_digitByte (by omega)) (digitValue_digitByte (by omega)) rest

theorem cells_cons (i : Nat) (b : Byte) (l : List Byte) :
    cells i (b :: l) = hex2 b ++ (32 :: (if i = 7 then [32] else []) ++ cells (i + 1) l) := by
  unfold cells
  rw [List.zipIdx_cons, List.flatMap_cons]
  simp only [List.append_assoc, List.cons_append, List.nil_append]

/-- The cells are the bytes. -/
theorem readBytes_cells (i : Nat) (l rest : List Byte) :
    readBytes (cells i l ++ rest) = l ++ readBytes rest := by
  have hblank : digitValue 32 = none := by decide
  induction l generalizing i with
  | nil => rfl
  | cons b l ih =>
    rw [cells_cons, List.append_assoc, readBytes_hex2, List.cons_append, List.cons_append,
      readBytes_skip hblank, List.append_assoc]
    by_cases hi : i = 7
    · rw [if_pos hi, List.singleton_append, readBytes_skip hblank, ih, List.cons_append]
    · rw [if_neg hi, List.nil_append, ih, List.cons_append]

/-- The columns are the bytes. -/
theorem readBytes_hexColumns (bytes : List Byte) : readBytes (hexColumns bytes) = bytes := by
  have hblank : digitValue 32 = none := by decide
  have hfill : ∀ c ∈ (if bytes.length < 8 then [32] else []) ++
      (if bytes.length < 16 then List.replicate (3 * (16 - bytes.length)) 32 else []),
      digitValue c = none := by
    intro c hc
    have hspace : c = 32 := by
      rcases List.mem_append.mp hc with hc | hc <;> split at hc
      · exact List.mem_singleton.mp hc
      · cases hc
      · exact List.eq_of_mem_replicate hc
      · cases hc
    rw [hspace, hblank]
  have hnothing := readBytes_skip_all hfill []
  rw [List.append_nil] at hnothing
  unfold hexColumns
  rw [List.append_assoc, readBytes_cells, hnothing]
  exact List.append_nil bytes

theorem length_labelText (offset : Int) : (labelText offset).length = 12 := by
  have hlt : (offset % 2 ^ 32).toNat < 2 ^ 32 := by omega
  unfold labelText
  rw [List.length_append, List.length_cons, List.length_cons, length_hex8 hlt]
  rfl

/-- Three characters for each byte, and one more where number 7 is among them. -/
theorem length_cells (i : Nat) (l : List Byte) :
    (cells i l).length = 3 * l.length + if i ≤ 7 ∧ 7 < i + l.length then 1 else 0 := by
  induction l generalizing i with
  | nil =>
    rw [if_neg (by simp)]
    rfl
  | cons b l ih =>
    rw [cells_cons, List.length_append, List.length_append, ih]
    simp only [hex2, List.length_cons, List.length_nil]
    by_cases hi : i = 7
    · rw [if_pos hi, if_neg (by omega), if_pos (by omega)]
      simp only [List.length_cons, List.length_nil]
      omega
    · rw [if_neg hi, List.length_nil]
      split <;> split <;> omega

/-- The columns are filled up to the same width. -/
theorem length_hexColumns {bytes : List Byte} (h : bytes.length ≤ 16) :
    (hexColumns bytes).length = 49 := by
  unfold hexColumns
  rw [List.length_append, List.length_append, length_cells]
  by_cases height : bytes.length < 8
  · rw [if_neg (by omega), if_pos height, if_pos (by omega), List.length_singleton,
      List.length_replicate]
    omega
  by_cases hfull : bytes.length < 16
  · rw [if_pos (by omega), if_neg height, if_pos hfull, List.length_nil, List.length_replicate]
    omega
  · rw [if_pos (by omega), if_neg height, if_neg hfull, List.length_nil]
    omega

section Text

variable (l : Line)

theorem text_some (base : BitVec 64) :
    l.text (some base) = baseText base l.offset ++ l.text none := by
  simp only [Line.text, Option.elim_some, Option.elim_none, List.nil_append, List.append_assoc]

/-- The label is the offset. -/
theorem text_label {offset : Nat} (hoffset : l.offset = offset) (h : offset < 2 ^ 32) :
    parseInteger 16 ((l.text none).drop 2) 0 = offset := by
  have hnat : ((offset : Int) % 2 ^ 32).toNat = offset := by omega
  unfold Line.text labelText
  rw [hoffset, hnat]
  simp only [Option.elim_none, List.nil_append, List.cons_append, List.append_assoc,
    List.drop_succ_cons, List.drop_zero]
  rw [parseInteger_hex8 h, parseInteger_stop rfl]

/-- Columns 12 to 60 are the bytes. -/
theorem text_columns (h : l.bytes.length ≤ 16) :
    readBytes (((l.text none).drop 12).take 49) = l.bytes := by
  have htext : l.text none = labelText l.offset ++ (hexColumns l.bytes ++
      ([32, 32, 32] ++ l.bytes.map (fun b => if isprint b then b else 46) ++ [10])) := by
    simp only [Line.text, Option.elim_none, List.nil_append, List.append_assoc]
  rw [htext, List.drop_left' (length_labelText _), List.take_left' (length_hexColumns h),
    readBytes_hexColumns]

/-- From column 64 on, a printable byte stands for itself. -/
theorem text_chars (h : l.bytes.length ≤ 16) {i : Nat} {b : Byte} (hb : l.bytes[i]? = some b)
    (hprint : isprint b = true) : (l.text none)[64 + i]? = some b := by
  have htext : l.text none = (labelText l.offset ++ hexColumns l.bytes ++ [32, 32, 32]) ++
      (l.bytes.map (fun b => if isprint b then b else 46) ++ [10]) := by
    simp only [Line.text, Option.elim_none, List.nil_append, List.append_assoc]
  have hwidth : (labelText l.offset ++ hexColumns l.bytes ++ [32, 32, 32]).length = 64 := by
    rw [List.length_append, List.length_append, length_labelText, length_hexColumns h]
    rfl
  have hlt : i < (l.bytes.map (fun b => if isprint b then b else 46)).length := by
    rw [List.length_map]
    exact (List.getElem?_eq_some_iff.mp hb).1
  rw [htext, List.getElem?_append_right (by omega), hwidth, Nat.add_sub_cancel_left,
    List.getElem?_append_left hlt, List.getElem?_map, hb, Option.map_some, if_pos hprint]

end Text

/-! ## No binary data -/

/-- All characters are printable. -/
def Printable (text : List Byte) : Prop := ∀ c ∈ text, isprint c = true

instance (text : List Byte) : Decidable (Printable text) :=
  List.decidableBAll (fun c => isprint c = true) text

theorem Printable.append {text text' : List Byte} (h : Printable text) (h' : Printable text') :
    Printable (text ++ text') :=
  fun c hc => (List.mem_append.mp hc).elim (h c) (h' c)

theorem isprint_digitByte {d : Nat} (h : d < 16) : isprint (digitByte d) = true := by
  have hall : ∀ d : Fin 16, isprint (digitByte d) = true := by decide
  exact hall ⟨d, h⟩

theorem printable_digits (n : Nat) : Printable (digits 16 n) := by
  intro c hc
  obtain ⟨d, hd, rfl⟩ := mem_digits (by decide) hc
  exact isprint_digitByte hd

theorem printable_replicate {c : Byte} (hc : isprint c = true) (n : Nat) :
    Printable (List.replicate n c) := by
  intro c' hc'
  rw [List.eq_of_mem_replicate hc']
  exact hc

theorem printable_hex8 (n : Nat) : Printable (hex8 n) :=
  (printable_replicate (isprint_digitByte (by decide)) _).append (printable_digits n)

theorem printable_hex2 (b : Byte) : Printable (hex2 b) := by
  have hlt := b.toNat_lt
  intro c hc
  rcases List.mem_pair.mp hc with rfl | rfl
  · exact isprint_digitByte (by omega)
  · exact isprint_digitByte (by omega)

theorem printable_cells (i : Nat) (bytes : List Byte) : Printable (cells i bytes) := by
  intro c hc
  obtain ⟨⟨b, i⟩, -, hc⟩ := List.mem_flatMap.mp hc
  refine ((printable_hex2 b).append (by decide)).append ?_ c hc
  split <;> decide

theorem printable_hexColumns (bytes : List Byte) : Printable (hexColumns bytes) := by
  have hnothing : Printable [] := by decide
  refine ((printable_cells 0 bytes).append ?_).append ?_
  · split <;> decide
  · split
    · exact printable_replicate (by decide) _
    · exact hnothing

/-- A line is printable up to its newline. -/
theorem text_printable (base : Option (BitVec 64)) (l : Line) :
    ∃ text, l.text base = text ++ [10] ∧ Printable text := by
  have hradix : Printable [48, 120] := by decide
  have haddress : Printable (base.elim [] (baseText · l.offset)) := by
    cases base with
    | none => exact (by decide : Printable [])
    | some base =>
      have hbar : Printable [95] := by decide
      have hblank : Printable [32] := by decide
      exact (((hradix.append (printable_digits _)).append hbar).append (printable_hex8 _)).append
        hblank
  have hlabel : Printable (labelText l.offset) :=
    (hradix.append (printable_hex8 _)).append (by decide)
  have hblanks : Printable [32, 32, 32] := by decide
  have hchars : Printable (l.bytes.map fun b => if isprint b then b else 46) := by
    intro c hc
    obtain ⟨b, -, rfl⟩ := List.mem_map.mp hc
    split
    · next hb => exact hb
    · decide
  exact ⟨_, rfl, (((haddress.append hlabel).append (printable_hexColumns _)).append hblanks).append
    hchars⟩

/-! ## Lines that are the buffer -/

/-- The lines are the `len` bytes from `buf` on, cut every 16 bytes, and their texts say so. -/
structure Partition (mem : Nat → Byte) (buf len : Nat) (lines : List Line) : Prop where
  start : ∀ k l, lines[k]? = some l → l.start = buf + 16 * k ∧ l.offset = ((16 * k : Nat) : Int)
  /-- With a base, the address stands in front. -/
  address : ∀ k l, lines[k]? = some l → ∀ base, ∃ addr, l.text (some base) = addr ++ l.text none ∧
    readAddress addr = (base + BitVec.ofNat 64 (16 * k)).toNat
  label : ∀ k l, lines[k]? = some l → parseInteger 16 ((l.text none).drop 2) 0 = 16 * k
  inside : ∀ l ∈ lines, l.bytes = slice mem l.start l.bytes.length
  shown : ∀ l ∈ lines, readBytes (((l.text none).drop 12).take 49) = l.bytes
  chars : ∀ l ∈ lines, ∀ i b, l.bytes[i]? = some b → isprint b = true →
    (l.text none)[64 + i]? = some b
  printable : ∀ base, ∀ c ∈ printed base lines, isprint c = true ∨ c = 10
  full : ∀ k l, lines[k]? = some l → k + 1 < lines.length → l.bytes.length = 16
  last : ∀ k l, lines[k]? = some l → k + 1 = lines.length →
    1 ≤ l.bytes.length ∧ l.bytes.length ≤ 16
  whole : lines.flatMap Line.bytes = slice mem buf len

section Cut

variable (mem : Nat → Byte) (buf len : Nat)

/-- The line number `k` of a buffer. -/
def lineAt (k : Nat) : Line :=
  ⟨buf + 16 * k, slice mem (buf + 16 * k) (min 16 (len - 16 * k)), (16 * k : Nat)⟩

/-- The first `n` lines of a buffer. -/
def firstLines (n : Nat) : List Line := (List.range n).map (lineAt mem buf len)

theorem firstLines_succ (n : Nat) :
    firstLines mem buf len (n + 1) = firstLines mem buf len n ++ [lineAt mem buf len n] := by
  unfold firstLines
  rw [List.range_succ, List.map_append, List.map_singleton]

@[simp] theorem length_firstLines (n : Nat) : (firstLines mem buf len n).length = n := by
  unfold firstLines
  rw [List.length_map, List.length_range]

theorem getElem?_firstLines {n k : Nat} {l : Line} (h : (firstLines mem buf len n)[k]? = some l) :
    k < n ∧ l = lineAt mem buf len k := by
  obtain ⟨hk, hl⟩ := List.getElem?_eq_some_iff.mp h
  rw [length_firstLines] at hk
  refine ⟨hk, ?_⟩
  rw [← hl]
  simp only [firstLines, List.getElem_map, List.getElem_range]

theorem length_lineAt (k : Nat) : (lineAt mem buf len k).bytes.length = min 16 (len - 16 * k) :=
  length_slice ..

theorem firstLines_bytes (n : Nat) :
    (firstLines mem buf len n).flatMap Line.bytes = slice mem buf (min len (16 * n)) := by
  induction n with
  | zero =>
    rw [Nat.mul_zero, Nat.min_zero]
    rfl
  | succ n ih =>
    rw [firstLines_succ, List.flatMap_append, ih, List.flatMap_singleton]
    by_cases hn : 16 * n ≤ len
    · have hlen : min len (16 * (n + 1)) = 16 * n + min 16 (len - 16 * n) := by omega
      rw [Nat.min_eq_right hn, hlen, slice_add]
      rfl
    · -- nothing is left for this line
      have hempty : (lineAt mem buf len n).bytes = [] := by
        unfold lineAt
        rw [Nat.sub_eq_zero_of_le (by omega), Nat.min_zero]
        rfl
      rw [hempty, List.append_nil, Nat.min_eq_left (by omega), Nat.min_eq_left (by omega)]

theorem firstLines_partition {n : Nat} (hlo : 16 * (n - 1) < len) (hhi : len ≤ 16 * n)
    (hfits : len < 2 ^ 32) :
    Partition mem buf len (firstLines mem buf len n) where
  start := by
    intro k l hl
    obtain ⟨-, rfl⟩ := getElem?_firstLines mem buf len hl
    exact ⟨rfl, rfl⟩
  label := by
    intro k l hl
    obtain ⟨hk, rfl⟩ := getElem?_firstLines mem buf len hl
    exact text_label _ rfl (by omega)
  address := by
    intro k l hl base
    obtain ⟨-, rfl⟩ := getElem?_firstLines mem buf len hl
    exact ⟨_, text_some _ base, baseText_reads base (16 * k)⟩
  shown := by
    intro l hl
    obtain ⟨k, -, rfl⟩ := List.mem_map.mp hl
    exact text_columns _ (by rw [length_lineAt]; omega)
  chars := by
    intro l hl i b hb
    obtain ⟨k, -, rfl⟩ := List.mem_map.mp hl
    exact text_chars _ (by rw [length_lineAt]; omega) hb
  printable := by
    intro base c hc
    obtain ⟨l, -, hc⟩ := List.mem_flatMap.mp hc
    obtain ⟨text, htext, hprintable⟩ := text_printable base l
    rw [htext] at hc
    rcases List.mem_append.mp hc with hc | hc
    · exact .inl (hprintable c hc)
    · exact .inr (List.mem_singleton.mp hc)
  inside := by
    intro l hl
    obtain ⟨k, -, rfl⟩ := List.mem_map.mp hl
    rw [length_lineAt]
    rfl
  full := by
    intro k l hl hk
    obtain ⟨-, rfl⟩ := getElem?_firstLines mem buf len hl
    rw [length_firstLines] at hk
    rw [length_lineAt]
    omega
  last := by
    intro k l hl hk
    obtain ⟨-, rfl⟩ := getElem?_firstLines mem buf len hl
    rw [length_firstLines] at hk
    rw [length_lineAt]
    omega
  whole := by rw [firstLines_bytes, Nat.min_eq_left hhi]

end Cut

/-! ## The loop head -/

section Loop

variable {mem : Nat → Byte} {buf len : Nat}

/-- At the loop head, `k` lines have been printed and more than one is left. -/
structure Head (mem : Nat → Byte) (buf len k : Nat) (s : Printing) : Prop where
  more : 16 * k + 16 < len
  lenRem : s.lenRem = (len - 16 * k : Nat)
  ch : s.ch = buf + 16 * k
  offset : s.offset = (16 * k : Nat)
  lines : s.lines = firstLines mem buf len k

/-- `print_hex_ascii_line` as it is called for the line number `k`. -/
theorem line_eq_lineAt (mem : Nat → Byte) (buf len k : Nat) {n : Int}
    (h : n = (min 16 (len - 16 * k) : Nat)) :
    line mem (buf + 16 * k) n (16 * k : Nat) = lineAt mem buf len k := by
  unfold line lineAt
  rw [h, Int.toNat_natCast]

theorem printBody_pass (hlen : len < 2 ^ 31 - 16) {k : Nat} {s : Printing}
    (h : Head mem buf len k s) :
    (∃ s', printBody mem s = .done s' ∧ Partition mem buf len s'.lines) ∨
    (∃ s', printBody mem s = .next s' ∧ (∃ k', Head mem buf len k' s') ∧
      s'.lenRem.toNat < s.lenRem.toNat) := by
  obtain ⟨lenRem, ch, offset, lines⟩ := s
  obtain ⟨hmore, rfl, rfl, rfl, rfl⟩ := h
  -- more than a line is left, so the remainder is the width of a line
  have hwidth : lineWidth.tmod ((len - 16 * k : Nat) : Int) = 16 :=
    Int.tmod_eq_of_lt (by decide) (show (16 : Int) < _ by omega)
  have hrem : toInt32 (((len - 16 * k : Nat) : Int) - 16) = (len - 16 * (k + 1) : Nat) := by
    rw [toInt32_of_range (by omega) (by omega)]
    omega
  have hoffset : toInt32 (((16 * k : Nat) : Int) + lineWidth) = (16 * (k + 1) : Nat) := by
    show toInt32 (((16 * k : Nat) : Int) + 16) = _
    rw [toInt32_of_range (by omega) (by omega)]
    omega
  have hch : buf + 16 * k + (16 : Int).toNat = buf + 16 * (k + 1) := by
    show buf + 16 * k + 16 = _
    omega
  have hlines : firstLines mem buf len k ++ [line mem (buf + 16 * k) 16 (16 * k : Nat)] =
      firstLines mem buf len (k + 1) := by
    rw [line_eq_lineAt mem buf len k (by omega), firstLines_succ]
  unfold printBody
  dsimp only
  rw [hwidth, hrem, hoffset, hch, hlines]
  by_cases hlast : ((len - 16 * (k + 1) : Nat) : Int) ≤ lineWidth
  · rw [if_pos hlast]
    change ((len - 16 * (k + 1) : Nat) : Int) ≤ 16 at hlast
    refine .inl ⟨_, rfl, ?_⟩
    dsimp only
    rw [line_eq_lineAt mem buf len (k + 1) (by omega), ← firstLines_succ]
    exact firstLines_partition mem buf len (by omega) (by omega) (by omega)
  · rw [if_neg hlast]
    change ¬ ((len - 16 * (k + 1) : Nat) : Int) ≤ 16 at hlast
    refine .inr ⟨_, rfl, ⟨k + 1, by omega, rfl, rfl, rfl, rfl⟩, ?_⟩
    show (((len - 16 * (k + 1) : Nat) : Int)).toNat < (((len - 16 * k : Nat) : Int)).toNat
    omega

end Loop

/-- **`print_buf`** ends, and its lines are the buffer, cut every 16 bytes and labelled with their
offsets. -/
theorem print_buf_partition (mem : Nat → Byte) (buf len : Nat) (hlo : 1 ≤ len)
    (hhi : len < 2 ^ 31 - 16) :
    ∃ enough lines, (∀ fuel, enough ≤ fuel → printBuf mem buf len fuel = some lines) ∧
      Partition mem buf len lines := by
  have hpos : ¬ (len : Int) ≤ 0 := by omega
  by_cases hone : (len : Int) ≤ lineWidth
  · refine ⟨0, firstLines mem buf len 1, fun fuel _ => ?_, ?_⟩
    · unfold printBuf
      rw [if_neg hpos, if_pos hone]
      change (len : Int) ≤ 16 at hone
      have hline := line_eq_lineAt mem buf len 0 (n := len) (by omega)
      exact congrArg (fun l => some [l]) hline
    · change (len : Int) ≤ 16 at hone
      exact firstLines_partition mem buf len (by omega) (by omega) (by omega)
  · have hentry : Head mem buf len 0 ⟨len, buf, 0, []⟩ := by
      change ¬ (len : Int) ≤ 16 at hone
      exact ⟨by omega, rfl, rfl, rfl, rfl⟩
    have hpass : ∀ s, (∃ k, Head mem buf len k s) → _ := fun s ⟨k, h⟩ => printBody_pass hhi h
    obtain ⟨enough, s, hrun, hpartition⟩ :=
      iterate_total_wf (measure fun s : Printing => s.lenRem.toNat).wf hpass ⟨0, hentry⟩
    refine ⟨enough, s.lines, fun fuel hfuel => ?_, hpartition⟩
    unfold printBuf
    rw [if_neg hpos, if_neg hone, hrun fuel hfuel]
    rfl

theorem print_buf_partition_forty :
    ∃ enough lines, (∀ fuel, enough ≤ fuel →
        printBuf (fun i => UInt8.ofNat i) 0x100 40 fuel = some lines) ∧
      Partition (fun i => UInt8.ofNat i) 0x100 40 lines :=
  print_buf_partition (fun i => UInt8.ofNat i) 0x100 40 (by decide) (by decide)

example : ((printBuf (fun i => UInt8.ofNat i) 0x100 40 3).map fun lines =>
    lines.map fun l => (l.start, l.bytes.length, l.offset)) =
      some [(0x100, 16, 0), (0x110, 16, 16), (0x120, 8, 32)] := by decide

end LinuxDeviceDriver.Asciidump
