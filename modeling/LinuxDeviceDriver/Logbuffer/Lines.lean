import LinuxDeviceDriver.Lib.Lines
import LinuxDeviceDriver.Logbuffer.Show

/-!
# Lines that cross a cut

What `logbuffer_show` is for: print the log line by line, without carriage
returns, long lines shortened. `logLines` says this of a whole text.

`process_logbuffer` does it for its piece (`processLogbuffer_printed`). The line
it is in the middle of is lost at the end of the piece, so a line that crosses a
cut is printed without its beginning. `logbuffer_show_lines_iff` says exactly for
which logs this cannot be seen.
-/

namespace LinuxDeviceDriver.Logbuffer

open Lib

/-- Carriage returns are left out. -/
def strip (text : List Byte) : List Byte := text.filter (· ≠ cr)

/-- The longest line that is printed in full. -/
def lineMax : Nat := logbuffSize - 2

/-- A line as it is printed. -/
def shown (l : List Byte) : List Byte := l.take lineMax ++ [lf]

/-- **Specification**: the lines of a log, from one scan of the whole text. -/
def logLines (text : List Byte) : List (List Byte) := (lines lf (strip text)).map shown

/-- The text between `start` and `end`. -/
def Log.text (log : Log) : List Byte :=
  slice log.byte (sizeofLogbuff + log.start) (log.stop - log.start)

/-! ## The line buffer -/

/-- The line buffer holds the beginning of the line `pending`, as much as fits. -/
structure Holds (s : LineState) (pending : List Byte) : Prop where
  idx : s.idx = min pending.length lineMax
  buffer : slice s.buffer 0 s.idx = pending.take lineMax

theorem Holds.length_take {s : LineState} {pending : List Byte} (h : Holds s pending) :
    (pending.take lineMax).length = s.idx := by
  rw [List.length_take, h.idx, Nat.min_comm]

theorem holds_empty (buffer : Nat → Byte) (printed : List (List Byte)) :
    Holds ⟨buffer, 0, printed⟩ [] := ⟨rfl, rfl⟩

/-- Storing behind the line keeps what is there. -/
theorem slice_update_above (buffer : Nat → Byte) {n k : Nat} (h : n ≤ k) (c : Byte) :
    slice (Function.update buffer k c) 0 n = slice buffer 0 n := by
  refine slice_congr fun i hi => ?_
  exact Function.update_of_ne (by omega) _ _

/-- A character of the line. -/
theorem Holds.char {s : LineState} {pending : List Byte} (h : Holds s pending) {c : Byte}
    (hcr : c ≠ cr) (hlf : c ≠ lf) :
    Holds (lineStep s c) (pending ++ [c]) ∧ (lineStep s c).printed = s.printed := by
  have hidx := h.idx
  simp only [lineStep, if_neg hcr, if_neg hlf]
  by_cases hfull : lineMax ≤ pending.length
  · -- the last place is overwritten, and nothing else changes
    have hmax : s.idx = lineMax := by rw [hidx, Nat.min_eq_right hfull]
    have hback : s.idx + 1 ≥ logbuffSize - 1 := by
      rw [hmax]
      decide
    rw [if_pos hback]
    refine ⟨⟨?_, ?_⟩, rfl⟩
    · show s.idx + 1 - 1 = _
      rw [List.length_append, hmax]
      omega
    · show slice _ 0 (s.idx + 1 - 1) = _
      rw [Nat.add_sub_cancel, slice_update_above _ (Nat.le_refl _), h.buffer,
        List.take_append_of_le_length hfull]
  · have hlen : s.idx = pending.length := by
      rw [hidx]
      omega
    have hroom : ¬ s.idx + 1 ≥ logbuffSize - 1 := by
      have hsize : logbuffSize - 1 = lineMax + 1 := rfl
      omega
    rw [if_neg hroom]
    refine ⟨⟨?_, ?_⟩, rfl⟩
    · show s.idx + 1 = _
      rw [List.length_append, hlen]
      simp only [List.length_singleton]
      omega
    · show slice _ 0 (s.idx + 1) = _
      have hbuffer := h.buffer
      rw [List.take_of_length_le (by omega)] at hbuffer
      rw [slice_add, slice_update_above _ (Nat.le_refl _), hbuffer,
        List.take_of_length_le (by rw [List.length_append, List.length_singleton]; omega)]
      simp [slice]

/-- The string in a buffer that ends with a newline and a NUL. -/
theorem cString_line {buffer : Nat → Byte} {l : List Byte} (hlen : l.length < logbuffSize)
    (hbuffer : slice buffer 0 l.length = l) (hend : buffer l.length = 0)
    (hnul : ∀ c ∈ l, c ≠ 0) : cString buffer = l := by
  have hsplit : (List.range logbuffSize).map buffer =
      l ++ 0 :: slice buffer (l.length + 1) (logbuffSize - l.length - 1) := by
    have hall : (List.range logbuffSize).map buffer = slice buffer 0 logbuffSize := by
      simp [slice]
    obtain ⟨k, hk⟩ := Nat.exists_eq_add_of_lt hlen
    rw [hall, hk, Nat.add_assoc, Nat.add_comm k 1, slice_add, hbuffer, slice_add]
    have hk' : l.length + (1 + k) - l.length - 1 = k := by omega
    rw [hk', Nat.zero_add]
    simp [slice, hend]
  rw [cString, hsplit]
  exact takeWhile_append_stop (fun hmem => hnul 0 hmem rfl) _

/-- The newline: the line is printed, and the buffer is empty again. -/
theorem Holds.newline {s : LineState} {pending : List Byte} (h : Holds s pending)
    (hnul : ∀ c ∈ pending, c ≠ 0) :
    Holds (lineStep s lf) [] ∧
      (lineStep s lf).printed = s.printed ++ [shown pending] := by
  have hcr : lf ≠ cr := by decide
  have hroom : ¬ 0 ≥ logbuffSize - 1 := by decide
  simp only [lineStep, if_neg hcr, if_true, if_neg hroom]
  refine ⟨holds_empty _ _, ?_⟩
  have hidx : s.idx ≤ lineMax := by
    rw [h.idx]
    omega
  have hlen : (shown pending).length = s.idx + 1 := by
    rw [shown, List.length_append, h.length_take, List.length_singleton]
  have hline : cString (Function.update (Function.update s.buffer s.idx lf) (s.idx + 1) 0) =
      shown pending := by
    refine cString_line ?_ ?_ ?_ ?_
    · have hsize : logbuffSize = lineMax + 2 := rfl
      omega
    · rw [hlen, slice_update_above _ (Nat.le_refl _), slice_add,
        slice_update_above _ (Nat.le_refl _), h.buffer]
      simp [slice, shown]
    · rw [hlen, Function.update_self]
    · intro c hc
      rcases List.mem_append.mp hc with htake | hlf
      · exact hnul c (List.mem_of_mem_take htake)
      · rw [List.mem_singleton.mp hlf]
        decide
  rw [hline]

/-- The loop of `process_logbuffer`, from the middle of a line on. -/
theorem foldl_lineStep (text : List Byte) :
    ∀ {s : LineState} {pending : List Byte}, Holds s pending → (∀ c ∈ pending, c ≠ 0) →
      (∀ c ∈ text, c ≠ 0) →
      (text.foldl lineStep s).printed =
        s.printed ++ (linesFrom lf pending (strip text)).map shown := by
  induction text with
  | nil =>
    intro s pending _ _ _
    exact (List.append_nil _).symm
  | cons c text ih =>
    intro s pending h hpending htext
    have hrest : ∀ c ∈ text, c ≠ 0 := fun c hc => htext c (List.mem_cons_of_mem _ hc)
    rw [List.foldl_cons]
    by_cases hcr : c = cr
    · have hstep : lineStep s c = s := if_pos hcr
      have hstrip : strip (c :: text) = strip text := List.filter_cons_of_neg (by simpa using hcr)
      rw [hstep, hstrip]
      exact ih h hpending hrest
    · have hstrip : strip (c :: text) = c :: strip text :=
        List.filter_cons_of_pos (by simpa using hcr)
      rw [hstrip, linesFrom]
      by_cases hlf : c = lf
      · subst hlf
        obtain ⟨hempty, hprinted⟩ := h.newline hpending
        rw [if_pos rfl, ih hempty (by simp) hrest, hprinted, List.append_assoc]
        rfl
      · obtain ⟨hchar, hprinted⟩ := h.char hcr hlf
        have hpending' : ∀ x ∈ pending ++ [c], x ≠ 0 := by
          intro x hx
          rcases List.mem_append.mp hx with hx | hx
          · exact hpending x hx
          · rw [List.mem_singleton.mp hx]
            exact htext c (List.mem_cons_self ..)
        rw [if_neg hlf, ih hchar hpending' hrest, hprinted]

/-! ## One piece -/

/-- The indices of `local_buffer` that the loop body stores to. -/
def lineWrites (s : LineState) (c : Byte) : List Nat :=
  if c = cr then [] else if c = lf then [s.idx, s.idx + 1] else [s.idx]

/-- Those of the whole loop. -/
def loopWrites : LineState → List Byte → List Nat
  | _, [] => []
  | s, c :: text => lineWrites s c ++ loopWrites (lineStep s c) text

/-- All other bytes of `local_buffer` stay as they are. -/
theorem lineStep_frame {s : LineState} {c : Byte} {i : Nat} (h : i ∉ lineWrites s c) :
    (lineStep s c).buffer i = s.buffer i := by
  unfold lineWrites at h
  unfold lineStep
  by_cases hcr : c = cr
  · rw [if_pos hcr]
  rw [if_neg hcr] at h ⊢
  by_cases hlf : c = lf
  · rw [if_pos hlf] at h
    simp only [List.mem_cons, List.not_mem_nil, or_false, not_or] at h
    simp only [if_pos hlf]
    split <;>
      exact (Function.update_of_ne h.2 _ _).trans (Function.update_of_ne h.1 _ _)
  · rw [if_neg hlf, List.mem_singleton] at h
    simp only [if_neg hlf]
    split <;> exact Function.update_of_ne h _ _

theorem foldl_lineStep_frame (text : List Byte) {s : LineState} {i : Nat}
    (h : i ∉ loopWrites s text) : (text.foldl lineStep s).buffer i = s.buffer i := by
  induction text generalizing s with
  | nil => rfl
  | cons c text ih =>
    obtain ⟨hnow, hlater⟩ := not_or.mp (mt List.mem_append.mpr h)
    rw [List.foldl_cons, ih hlater]
    exact lineStep_frame hnow

/-- The index stays below the last two places, -/
theorem lineStep_idx {s : LineState} (h : s.idx ≤ lineMax) (c : Byte) :
    (lineStep s c).idx ≤ lineMax := by
  have hsize : logbuffSize = lineMax + 2 := rfl
  unfold lineStep
  split
  · exact h
  dsimp only
  split
  · rw [if_neg (by dsimp only; omega)]
    exact Nat.zero_le _
  · dsimp only
    split
    · show s.idx + 1 - 1 ≤ lineMax
      omega
    · show s.idx + 1 ≤ lineMax
      omega

/-- which are left for the newline and the NUL. -/
theorem loopWrites_lt (text : List Byte) {s : LineState} (h : s.idx ≤ lineMax) :
    ∀ i ∈ loopWrites s text, i < logbuffSize := by
  have hsize : logbuffSize = lineMax + 2 := rfl
  induction text generalizing s with
  | nil => exact fun i hi => absurd hi List.not_mem_nil
  | cons c text ih =>
    intro i hi
    rcases List.mem_append.mp hi with hnow | hlater
    · unfold lineWrites at hnow
      split at hnow
      · cases hnow
      split at hnow
      · simp only [List.mem_cons, List.not_mem_nil, or_false] at hnow
        omega
      · rw [List.mem_singleton.mp hnow]
        omega
    · exact ih (lineStep_idx h c) i hlater

/-- The characters `process_logbuffer` is given. -/
def piece (byte : Nat → Byte) (base size : Nat) : List Byte :=
  (List.range size).map fun logIdx => byte (toUInt64 (base + logIdx))

theorem piece_eq_slice (byte : Nat → Byte) {base size : Nat} (hbase : base + size ≤ 2 ^ 64) :
    piece byte base size = slice byte base size := by
  refine List.map_congr_left fun i hi => ?_
  have hi := List.mem_range.mp hi
  rw [toUInt64_of_lt (by omega)]

theorem processLogbuffer_eq (junk : Nat → Byte) (name : List Byte) (byte : Nat → Byte)
    {base size : Nat} (hsize : size ≤ logbuffLen) :
    (processLogbuffer (some junk) name byte base size).1 =
      ((piece byte base size).foldl lineStep ⟨junk, 0, []⟩).printed.map (.line name) := by
  have htext : ((List.range size).map fun logIdx =>
      toUInt64 (base + (logIdx &&& logbuffMask))).map byte = piece byte base size := by
    rw [List.map_map]
    refine List.map_congr_left fun i hi => ?_
    have hi := List.mem_range.mp hi
    show byte (toUInt64 (base + (i &&& logbuffMask))) = _
    rw [logIdx_and_mask (by omega)]
  simp only [processLogbuffer, htext]

/-- `process_logbuffer` prints the lines of its piece. -/
theorem processLogbuffer_lines (junk : Nat → Byte) (name : List Byte) (byte : Nat → Byte)
    {base size : Nat} (hsize : size ≤ logbuffLen) (hnul : ∀ c ∈ piece byte base size, c ≠ 0) :
    (processLogbuffer (some junk) name byte base size).1 =
      (logLines (piece byte base size)).map (.line name) := by
  rw [processLogbuffer_eq junk name byte hsize,
    foldl_lineStep _ (holds_empty junk []) (by simp) hnul, List.nil_append]
  rfl

/-- The same for a piece inside of the mapping. -/
theorem processLogbuffer_printed (junk : Nat → Byte) (name : List Byte) (byte : Nat → Byte)
    {base size : Nat} (hsize : size ≤ logbuffLen) (hbase : base + size ≤ 2 ^ 64)
    (hnul : ∀ i, i < size → byte (base + i) ≠ 0) :
    (processLogbuffer (some junk) name byte base size).1 =
      (logLines (slice byte base size)).map (.line name) := by
  rw [← piece_eq_slice byte hbase]
  refine processLogbuffer_lines junk name byte hsize fun c hc => ?_
  rw [piece_eq_slice byte hbase] at hc
  obtain ⟨i, hi, rfl⟩ := List.mem_map.mp hc
  exact hnul i (List.mem_range.mp hi)

theorem length_shown_lt (l : List Byte) : (shown l).length < logbuffSize := by
  have hsize : logbuffSize = lineMax + 2 := rfl
  rw [shown, List.length_append, List.length_take, List.length_singleton]
  omega

/-- **One piece of the log**: with a line buffer, `process_logbuffer` never stores outside of it
and leaves what is behind it alone, finds the end of every string it prints inside of it, and
prints the lines of the piece, one for each newline, without carriage returns and cut to
`LOGBUFF_SIZE - 2`. -/
theorem process_logbuffer_piece (junk : Nat → Byte) (name : List Byte) (byte : Nat → Byte)
    (base : Nat) {size : Nat} (hsize : size ≤ logbuffLen)
    (hnul : ∀ c ∈ piece byte base size, c ≠ 0) :
    (∀ i ∈ loopWrites ⟨junk, 0, []⟩ (piece byte base size), i < logbuffSize) ∧
    (∀ i, logbuffSize ≤ i →
      ((piece byte base size).foldl lineStep ⟨junk, 0, []⟩).buffer i = junk i) ∧
    (∀ l ∈ logLines (piece byte base size), l.length < logbuffSize) ∧
    (processLogbuffer (some junk) name byte base size).1 =
      (logLines (piece byte base size)).map (.line name) := by
  have hwrites : ∀ i ∈ loopWrites ⟨junk, 0, []⟩ (piece byte base size), i < logbuffSize :=
    loopWrites_lt _ (Nat.zero_le _)
  refine ⟨hwrites, fun i hi => ?_, fun l hl => ?_, processLogbuffer_lines junk name byte hsize hnul⟩
  · exact foldl_lineStep_frame _ fun hmem => Nat.not_lt.mpr hi (hwrites i hmem)
  · obtain ⟨line, -, rfl⟩ := List.mem_map.mp hl
    exact length_shown_lt line

/-- A piece of six characters with a carriage return, and with text behind its newline. -/
theorem process_logbuffer_piece_crlf :
    (processLogbuffer (some fun _ => 7) [120] (fun i => [97, 98, 13, 10, 99, 100].getD i 65) 0
      6).1 = [.line [120] [97, 98, 10]] :=
  (process_logbuffer_piece (fun _ => 7) [120] (fun i => [97, 98, 13, 10, 99, 100].getD i 65) 0
    (by decide) (List.forall_mem_ne'.mpr (by decide))).2.2.2

/-! ## All pieces -/

/-- What is printed for the pieces from number `n` on. -/
def pieceOutputs (kmalloc : Nat → Option (Nat → Byte)) (name : List Byte) :
    Nat → List (List Byte) → List Printed
  | _, [] => []
  | n, piece :: rest =>
    (match kmalloc n with
      | none => [.kmallocFailed]
      | some _ => (logLines piece).map (.line name)) ++ pieceOutputs kmalloc name (n + 1) rest

section Loop

variable {kmalloc : Nat → Option (Nat → Byte)} {name : List Byte} {log : Log} {memSize : Nat}

/-- The text from `offset` on. -/
def Log.textFrom (log : Log) (offset : Nat) : List Byte :=
  slice log.byte (sizeofLogbuff + offset) (log.stop - offset)

/-- The first piece of the text from `offset` on. -/
theorem chunks_textFrom {offset : Nat} (hlt : offset < log.stop) :
    chunks logbuffLen (log.textFrom offset) =
      slice log.byte (sizeofLogbuff + offset) (min logbuffLen (log.stop - offset)) ::
        chunks logbuffLen (log.textFrom (offset + min logbuffLen (log.stop - offset))) := by
  have hpos : 0 < (log.textFrom offset).length := by
    rw [Log.textFrom, length_slice]
    omega
  rw [chunks_of_pos (by decide) hpos, Log.textFrom]
  rcases Nat.le_total logbuffLen (log.stop - offset) with hle | hle
  · rw [slice_take _ _ hle, slice_drop _ _ hle, Nat.min_eq_left hle, Log.textFrom, Nat.add_assoc,
      Nat.sub_sub]
  · have hlen : (slice log.byte (sizeofLogbuff + offset) (log.stop - offset)).length ≤
        logbuffLen := by
      rwa [length_slice]
    have hend : log.stop - (offset + (log.stop - offset)) = 0 := by omega
    rw [List.take_of_length_le hlen, List.drop_of_length_le hlen, Nat.min_eq_right hle,
      Log.textFrom, hend]
    rfl

/-- What is still to come completes the output. -/
structure ShowInv (kmalloc : Nat → Option (Nat → Byte)) (name : List Byte) (log : Log)
    (total : List Printed) (s : ShowState) : Prop where
  start_le : log.start ≤ s.offset
  offset_le : s.offset ≤ log.stop
  fits : Fits s.offset log.stop
  output : s.printed ++ pieceOutputs kmalloc name s.pieces
    (chunks logbuffLen (log.textFrom s.offset)) = total

/-- One pass prints one piece. -/
theorem showBody_pass (kmalloc : Nat → Option (Nat → Byte)) (name : List Byte)
    (hfit : log.stop + sizeofLogbuff ≤ memSize) (hmem : memSize < 2 ^ 64)
    (hnul : ∀ i, log.start ≤ i → i < log.stop → log.byte (sizeofLogbuff + i) ≠ 0)
    (total : List Printed) (s : ShowState) (h : ShowInv kmalloc name log total s) :
    Pass (showBody kmalloc name log memSize) (ShowInv kmalloc name log total)
      (fun s => s.printed = total) (fun s => log.stop - s.offset) s := by
  have hstart := h.start_le
  have hoffset := h.offset_le
  have houtput := h.output
  unfold Pass showBody
  rw [toUInt64_of_lt (by omega : sizeofLogbuff + s.offset < 2 ^ 64)]
  by_cases hmore : s.offset < log.stop
  · rw [if_pos ⟨hmore, by omega⟩, pieceSize_of_fits hmore h.fits]
    have hfits := h.fits.next log.stop_lt hmore
    rw [chunks_textFrom hmore, pieceOutputs, ← List.append_assoc] at houtput
    have hpos : 0 < min logbuffLen (log.stop - s.offset) := by
      have hlen : logbuffLen = 0x8000 := rfl
      omega
    have hle := Nat.min_le_right logbuffLen (log.stop - s.offset)
    have hsize := Nat.min_le_left logbuffLen (log.stop - s.offset)
    generalize min logbuffLen (log.stop - s.offset) = size at *
    have hpiece : (processLogbuffer (kmalloc s.pieces) name log.byte (sizeofLogbuff + s.offset)
        size).1 = match kmalloc s.pieces with
          | none => [.kmallocFailed]
          | some _ => (logLines (slice log.byte (sizeofLogbuff + s.offset) size)).map
              (.line name) := by
      cases kmalloc s.pieces with
      | none => rfl
      | some junk =>
        refine processLogbuffer_printed junk name log.byte hsize (by omega) fun i hi => ?_
        rw [Nat.add_assoc]
        exact hnul (s.offset + i) (by omega) (by omega)
    refine Or.inr ⟨_, rfl, ⟨?_, ?_, ?_, ?_⟩, ?_⟩
    all_goals
      simp only [toUInt64_of_lt (by omega : s.offset + size < 2 ^ 64)]
    · omega
    · omega
    · exact hfits
    · rw [hpiece]
      exact houtput
    · omega
  · rw [if_neg fun hboth => hmore hboth.1]
    refine Or.inl ⟨s, rfl, ?_⟩
    have hlen : log.stop - s.offset = 0 := by omega
    rw [Log.textFrom, hlen] at houtput
    simpa [slice, pieceOutputs] using houtput

/-- The check of the range lets a log pass that lies inside the region. -/
theorem showLog_eq_iterate (htag : log.tag = logbuffMagic) (hle : log.start ≤ log.stop)
    (hfit : log.stop + sizeofLogbuff ≤ memSize) (hmem : memSize < 2 ^ 64) (fuel : Nat) :
    showLog kmalloc name log memSize fuel =
      (iterate (showBody kmalloc name log memSize) fuel ⟨log.start, 0, log.banner, []⟩).map
        fun s => (s.printed, s.reads) := by
  have hrange : ¬ (log.start > log.stop ∨ toUInt64 (log.stop + sizeofLogbuff) > memSize) := by
    rw [toUInt64_of_lt (by omega)]
    omega
  exact showLog_accepted htag hrange kmalloc name fuel

/-- **What `logbuffer_show` prints**, piece by piece: it ends, and however long it was
given, this is the output. -/
theorem showLog_printed (kmalloc : Nat → Option (Nat → Byte)) (name : List Byte)
    (htag : log.tag = logbuffMagic) (hle : log.start ≤ log.stop)
    (hfit : log.stop + sizeofLogbuff ≤ memSize) (hmem : memSize < 2 ^ 64)
    (hnul : ∀ i, log.start ≤ i → i < log.stop → log.byte (sizeofLogbuff + i) ≠ 0)
    (hfits : Fits log.start log.stop) :
    (∃ fuel r, showLog kmalloc name log memSize fuel = some r) ∧
    ∀ {fuel r}, showLog kmalloc name log memSize fuel = some r →
      r.1 = log.banner ++ pieceOutputs kmalloc name 0 (chunks logbuffLen log.text) := by
  have hpass := showBody_pass kmalloc name hfit hmem hnul
    (log.banner ++ pieceOutputs kmalloc name 0 (chunks logbuffLen log.text))
  have hentry : ShowInv kmalloc name log _ ⟨log.start, 0, log.banner, []⟩ :=
    ⟨Nat.le_refl _, hle, hfits, rfl⟩
  constructor
  · obtain ⟨s, hs, -⟩ := iterate_total hpass hentry (Nat.lt_succ_self _)
    refine ⟨log.stop - log.start + 1, (s.printed, s.reads), ?_⟩
    rw [showLog_eq_iterate htag hle hfit hmem, hs]
    rfl
  · intro fuel r hr
    rw [showLog_eq_iterate htag hle hfit hmem] at hr
    obtain ⟨s, hs, rfl⟩ := Option.map_eq_some_iff.mp hr
    exact iterate_of_pass hpass hentry hs

end Loop

/-! ## Cuts that do not show -/

/-- A line of which `cut` is lost and `l` is left is printed the same: nothing is lost,
or what is left is already too long and begins like the whole line. -/
def Harmless (cut l : List Byte) : Prop :=
  cut = [] ∨ lineMax ≤ l.length ∧ (cut ++ l).take lineMax = l.take lineMax

theorem shown_eq_iff (cut l : List Byte) : shown (cut ++ l) = shown l ↔ Harmless cut l := by
  unfold shown Harmless
  rw [List.append_left_inj]
  constructor
  · intro htake
    rcases cut.eq_nil_or_concat with hnil | ⟨_, _, hcut⟩
    · exact Or.inl hnil
    · have hpos : 0 < cut.length := by simp [hcut]
      have hlen := congrArg List.length htake
      rw [List.length_take, List.length_take, List.length_append] at hlen
      exact Or.inr ⟨by omega, htake⟩
  · rintro (rfl | ⟨-, htake⟩)
    · rfl
    · exact htake

/-- At the beginning of every piece, the line that goes on there is printed the same
without what the earlier pieces have of it. -/
def CutsHarmless (text : List Byte) : Prop :=
  ∀ before piece after, chunks logbuffLen text = before ++ piece :: after →
    ∀ l, (lines lf (strip piece)).head? = some l →
      Harmless (unfinished lf (strip before.flatten)) l

theorem strip_flatten (pieces : List (List Byte)) :
    strip pieces.flatten = (pieces.map strip).flatten := List.filter_flatten ..

/-- Printing the pieces one by one, against printing the text as a whole. -/
theorem flatMap_logLines_iff (text : List Byte) :
    (chunks logbuffLen text).flatMap logLines = logLines text ↔ CutsHarmless text := by
  have hflatten := flatten_chunks (n := logbuffLen) (by decide) text
  have hscan := flatMap_lines_iff lf shown ((chunks logbuffLen text).map strip)
  rw [← strip_flatten, hflatten, List.flatMap_map] at hscan
  refine Iff.trans hscan ⟨fun h before piece after heq l hl => ?_, fun h => ?_⟩
  · have hcut := h (before.map strip) (strip piece) (after.map strip) (by rw [heq]; simp) l hl
    rwa [← strip_flatten, shown_eq_iff] at hcut
  · intro before piece after heq l hl
    obtain ⟨before', rest', hchunks, rfl, hrest⟩ := List.map_eq_append_iff.mp heq
    obtain ⟨piece', after', rfl, rfl, rfl⟩ := List.map_eq_cons_iff.mp hrest
    rw [← strip_flatten, shown_eq_iff]
    exact h before' piece' after' hchunks l hl

theorem line_injective (name : List Byte) : Function.Injective (Printed.line name) := by
  intro l l' h
  exact (Printed.line.inj h).2

/-- Only lines are printed iff `kmalloc` succeeds for every piece. -/
theorem pieceOutputs_eq_iff (kmalloc : Nat → Option (Nat → Byte)) (name : List Byte)
    (pieces : List (List Byte)) :
    ∀ (n : Nat) (expected : List (List Byte)),
      pieceOutputs kmalloc name n pieces = expected.map (.line name) ↔
        (∀ i, i < pieces.length → (kmalloc (n + i)).isSome) ∧
          pieces.flatMap logLines = expected := by
  induction pieces with
  | nil =>
    intro n expected
    rw [pieceOutputs, List.flatMap_nil, eq_comm, List.map_eq_nil_iff, eq_comm]
    exact ⟨fun h => ⟨fun i hi => absurd hi (Nat.not_lt_zero i), h⟩, fun h => h.2⟩
  | cons piece pieces ih =>
    intro n expected
    rw [pieceOutputs, List.flatMap_cons]
    cases halloc : kmalloc n with
    | none =>
      constructor
      · intro h
        have hmem : Printed.kmallocFailed ∈ expected.map (Printed.line name) := by
          rw [← h]
          exact List.mem_append_left _ (List.mem_singleton_self _)
        obtain ⟨l, -, hl⟩ := List.mem_map.mp hmem
        cases hl
      · rintro ⟨hsome, -⟩
        have hfirst := hsome 0 (Nat.zero_lt_succ _)
        rw [Nat.add_zero, halloc] at hfirst
        cases hfirst
    | some junk =>
      constructor
      · intro h
        obtain ⟨first, rest, rfl, hfirst, hrest⟩ := List.map_eq_append_iff.mp h.symm
        obtain ⟨hsome, hlines⟩ := (ih (n + 1) rest).mp hrest.symm
        rw [hlines, (line_injective name).list_map hfirst]
        refine ⟨fun i hi => ?_, rfl⟩
        cases i with
        | zero => rw [Nat.add_zero, halloc]; rfl
        | succ i =>
          rw [← Nat.add_assoc, Nat.add_right_comm]
          exact hsome i (Nat.lt_of_succ_lt_succ hi)
      · rintro ⟨hsome, rfl⟩
        have hrest := (ih (n + 1) (pieces.flatMap logLines)).mpr ⟨fun i hi => ?_, rfl⟩
        · rw [hrest, List.map_append]
        · rw [Nat.add_right_comm, Nat.add_assoc]
          exact hsome (i + 1) (Nat.succ_lt_succ hi)

/-- **Printing in pieces.** For a log that lies inside its region, `logbuffer_show` ends
and prints the lines of the whole text exactly when the last piece, filled up, stays below
2^64, `kmalloc` succeeds for every piece, and no line is changed by the cut it crosses. -/
theorem logbuffer_show_lines_iff {kmalloc : Nat → Option (Nat → Byte)} {name : List Byte}
    {log : Log} {memSize : Nat} (htag : log.tag = logbuffMagic) (hle : log.start ≤ log.stop)
    (hfit : log.stop + sizeofLogbuff ≤ memSize) (hmem : memSize < 2 ^ 64)
    (hnul : ∀ i, log.start ≤ i → i < log.stop → log.byte (sizeofLogbuff + i) ≠ 0) :
    (∃ fuel reads, showLog kmalloc name log memSize fuel =
        some (log.banner ++ (logLines log.text).map (.line name), reads)) ↔
      Fits log.start log.stop ∧
        (∀ i, i < (chunks logbuffLen log.text).length → (kmalloc i).isSome) ∧
        CutsHarmless log.text := by
  constructor
  · rintro ⟨fuel, reads, hr⟩
    have hfits : Fits log.start log.stop := by
      by_contra hnot
      rw [showLog_eq_iterate htag hle hfit hmem,
        showBody_diverges hle hfit hmem hnot fuel log.start_lt rfl] at hr
      cases hr
    have hprinted := (showLog_printed kmalloc name htag hle hfit hmem hnul hfits).2 hr
    have hpieces := (pieceOutputs_eq_iff kmalloc name _ 0 _).mp
      (List.append_cancel_left hprinted).symm
    simp only [Nat.zero_add] at hpieces
    exact ⟨hfits, hpieces.1, (flatMap_logLines_iff log.text).mp hpieces.2⟩
  · rintro ⟨hfits, halloc, hcuts⟩
    obtain ⟨⟨fuel, r, hr⟩, hprinted⟩ := showLog_printed kmalloc name
      htag hle hfit hmem hnul hfits
    have hlines := (pieceOutputs_eq_iff kmalloc name _ 0 _).mpr
      ⟨by simpa using halloc, (flatMap_logLines_iff log.text).mpr hcuts⟩
    refine ⟨fuel, r.2, ?_⟩
    rw [hr, ← hlines, ← hprinted hr]

/-- A log of one piece has no cuts. -/
theorem cutsHarmless_of_le {text : List Byte} (h : text.length ≤ logbuffLen) :
    CutsHarmless text := by
  intro before piece after heq l _
  left
  rcases Nat.eq_zero_or_pos text.length with hnil | hpos
  · rw [List.eq_nil_of_length_eq_zero hnil, chunks_nil] at heq
    simp at heq
  · rw [chunks_of_le hpos h] at heq
    cases before with
    | nil => rfl
    | cons b before => simp at heq

/-- A log of three bytes: `ab`, newline. -/
def shortLog : Log where
  tag := logbuffMagic
  start := 0
  stop := 3
  byte := fun i => if i = 40 then 97 else if i = 41 then 98 else 10
  start_lt := by decide
  stop_lt := by decide

theorem logbuffer_show_lines_iff_short :
    ∃ fuel reads, showLog (fun _ => some fun _ => 255) [117] shortLog 64 fuel =
      some (shortLog.banner ++ [.line [117] [97, 98, 10]], reads) := by
  have hnul : ∀ i, shortLog.start ≤ i → i < shortLog.stop →
      shortLog.byte (sizeofLogbuff + i) ≠ 0 := by
    intro i _ hi
    have hbyte : ∀ i < 3, shortLog.byte (sizeofLogbuff + i) ≠ 0 := by decide
    exact hbyte i hi
  have hcuts : CutsHarmless shortLog.text :=
    cutsHarmless_of_le (by rw [Log.text, length_slice]; decide)
  have hfit : shortLog.stop + sizeofLogbuff ≤ 64 := by decide
  exact (logbuffer_show_lines_iff rfl (by decide) hfit (by decide) hnul).mpr
    ⟨by unfold Fits; decide, fun _ _ => rfl, hcuts⟩

/-- A log whose only line crosses a cut: 32768 times `a`, then `b`, newline. -/
def longLog : Log where
  tag := logbuffMagic
  start := 0
  stop := logbuffLen + 2
  byte := fun i => if i < sizeofLogbuff + logbuffLen then 97
    else if i = sizeofLogbuff + logbuffLen then 98 else 10
  start_lt := by decide
  stop_lt := by decide

theorem longLog_text : longLog.text = List.replicate logbuffLen 97 ++ [98, 10] := by
  have hhead : slice longLog.byte sizeofLogbuff logbuffLen = List.replicate logbuffLen 97 := by
    refine List.eq_replicate_iff.mpr ⟨length_slice _ _ _, fun c hc => ?_⟩
    obtain ⟨i, hi, rfl⟩ := List.mem_map.mp hc
    exact if_pos (Nat.add_lt_add_left (List.mem_range.mp hi) _)
  have htail : slice longLog.byte (sizeofLogbuff + logbuffLen) 2 = [98, 10] := by decide
  show slice longLog.byte sizeofLogbuff (logbuffLen + 2) = _
  rw [slice_add, hhead, htail]

theorem strip_as (n : Nat) : strip (List.replicate n 97) = List.replicate n 97 :=
  List.filter_eq_self.mpr fun c hc => by
    rw [List.eq_of_mem_replicate hc]
    decide

theorem lf_notMem_as (n : Nat) : lf ∉ List.replicate n 97 := fun h => by
  have heq := List.eq_of_mem_replicate h
  revert heq
  decide

/-- The whole text has one line, of which 2046 characters fit. -/
theorem longLog_logLines : logLines longLog.text = [List.replicate lineMax 97 ++ [lf]] := by
  obtain ⟨hlines, hunfinished⟩ := unfinishedFrom_of_notMem (lf_notMem_as logbuffLen) []
  have hline : lines lf (strip longLog.text) = [List.replicate logbuffLen 97 ++ [98]] := by
    have hrest : strip [98, 10] = [98, 10] := by decide
    rw [longLog_text, strip, List.filter_append]
    show lines lf (strip _ ++ strip _) = _
    rw [strip_as, hrest, lines, linesFrom_append, hlines, hunfinished]
    rfl
  have htake : (List.replicate logbuffLen (97 : Byte) ++ [98]).take lineMax =
      List.replicate lineMax 97 := by
    rw [List.take_append_of_le_length (by rw [List.length_replicate]; decide),
      List.take_replicate, Nat.min_eq_left (by decide)]
  rw [logLines, hline, List.map_singleton, shown, htake]

/-- The first piece prints nothing; the second has `b` left of the line. -/
theorem longLog_pieces (junk : Nat → Byte) (name : List Byte) :
    pieceOutputs (fun _ => some junk) name 0 (chunks logbuffLen longLog.text) =
      [.line name [98, 10]] := by
  have hlen : (List.replicate logbuffLen (97 : Byte)).length = logbuffLen :=
    List.length_replicate
  have hchunks : chunks logbuffLen longLog.text = [List.replicate logbuffLen 97, [98, 10]] := by
    rw [longLog_text, chunks_of_pos (by decide) (by simp), List.take_left' hlen,
      List.drop_left' hlen, chunks_of_le (by decide) (by decide)]
  have hfirst : logLines (List.replicate logbuffLen 97) = [] := by
    rw [logLines, strip_as, lines, (unfinishedFrom_of_notMem (lf_notMem_as _) []).1]
    rfl
  have hsecond : logLines [98, 10] = [[98, 10]] := by decide
  rw [hchunks]
  simp only [pieceOutputs, hfirst, hsecond]
  rfl

/-- The line that crosses the cut is printed without its beginning: `b` instead of 2046
times `a`. -/
theorem logbuffer_show_cuts_line :
    ∃ fuel reads, showLog (fun _ => some fun _ => 0) [117] longLog 0x9000 fuel =
        some (longLog.banner ++ [.line [117] [98, 10]], reads) ∧
      longLog.banner ++ (logLines longLog.text).map (.line [117]) =
        longLog.banner ++ [.line [117] (List.replicate 2046 97 ++ [10])] ∧
      [Printed.line [117] [98, 10]] ≠ [.line [117] (List.replicate 2046 97 ++ [10])] := by
  have hnul : ∀ i, longLog.start ≤ i → i < longLog.stop →
      longLog.byte (sizeofLogbuff + i) ≠ 0 := by
    intro i _ _
    simp only [longLog]
    split
    · decide
    · split <;> decide
  have hfits : Fits longLog.start longLog.stop := by
    unfold Fits
    decide
  have hfit : longLog.stop + sizeofLogbuff ≤ 0x9000 := by decide
  obtain ⟨⟨fuel, r, hr⟩, hprinted⟩ := showLog_printed (fun _ => some fun _ => 0) [117] rfl
    (by decide) hfit (by decide) hnul hfits
  have hr₁ := hprinted hr
  rw [longLog_pieces] at hr₁
  refine ⟨fuel, r.2, by rw [hr, ← hr₁], ?_, ?_⟩
  · rw [longLog_logLines]
    rfl
  · intro heq
    have hlen := congrArg List.length (Printed.line.inj (List.cons.inj heq).1).2
    rw [List.length_append, List.length_replicate] at hlen
    cases hlen

end LinuxDeviceDriver.Logbuffer
