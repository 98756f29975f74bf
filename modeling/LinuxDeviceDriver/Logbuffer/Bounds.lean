import LinuxDeviceDriver.Logbuffer.Show

/-!
# Which bytes `logbuffer_show` reads

The header is whatever a boot loader has left in memory. The driver compares
`log->end + sizeof(logbuff_t)` with the size of the region, but the sum is taken
modulo 2^64: an `end` close to 2^64 passes the check. The other sums of the
function wrap around as well, in the loop condition and in the size of a piece.

`logbuffer_show_in_region_iff` says for which headers the loop ends and reads
nothing outside of the text area: `RegionSafe`. Its last case are headers that
pass the check by the wrap around and still do no harm, because the pieces happen
to end where the region ends.
-/

namespace LinuxDeviceDriver.Logbuffer

open Lib

/-- Index `i` lies in the text area of the region. -/
def InText (memSize i : Nat) : Prop := sizeofLogbuff ≤ i ∧ i < memSize

/-- The headers with which `logbuffer_show` stays inside the region. -/
def RegionSafe (start stop memSize : Nat) : Prop :=
  stop ≤ start ∨
  (stop + sizeofLogbuff < 2 ^ 64 ∧ (memSize < stop + sizeofLogbuff ∨ Fits start stop)) ∨
  (2 ^ 64 ≤ stop + sizeofLogbuff ∧ start + sizeofLogbuff < 2 ^ 64 ∧
    (memSize ≤ start + sizeofLogbuff ∨ logbuffLen ∣ memSize - (start + sizeofLogbuff)))

/-! ## One piece -/

section Piece

variable {localBuffer : Option (Nat → Byte)} {name : List Byte} {byte : Nat → Byte}
  {base size : Nat}

/-- A piece is read where it lies. -/
theorem processLogbuffer_reads_mem (hsize : size ≤ logbuffLen) (hbase : base + size ≤ 2 ^ 64)
    {i : Nat} (hi : i ∈ (processLogbuffer localBuffer name byte base size).2) :
    base ≤ i ∧ i < base + size := by
  cases localBuffer with
  | none => cases hi
  | some junk =>
    obtain ⟨j, hj, rfl⟩ := List.mem_map.mp hi
    have hj := List.mem_range.mp hj
    rw [logIdx_and_mask (by omega), toUInt64_of_lt (by omega)]
    omega

/-- With a line buffer, all of it is read. -/
theorem mem_processLogbuffer_reads {junk : Nat → Byte} (hsize : size ≤ logbuffLen) {j : Nat}
    (hj : j < size) :
    toUInt64 (base + j) ∈ (processLogbuffer (some junk) name byte base size).2 := by
  refine List.mem_map.mpr ⟨j, List.mem_range.mpr hj, ?_⟩
  rw [logIdx_and_mask (by omega)]

theorem pieceSize_le {offset stop : Nat} (hlt : offset < stop) :
    pieceSize offset stop ≤ logbuffLen := by
  have hlen : logbuffLen = 0x8000 := rfl
  unfold pieceSize toUInt64
  split <;> omega

theorem pieceSize_pos {offset stop : Nat} (hlt : offset < stop) : 0 < pieceSize offset stop := by
  unfold pieceSize
  split
  · omega
  · decide

end Piece

section Loop

variable {kmalloc : Nat → Option (Nat → Byte)} {name : List Byte} {log : Log} {memSize : Nat}

/-- The state behind a pass. -/
theorem showBody_next {s : ShowState} (hlt : s.offset < log.stop)
    (hin : toUInt64 (sizeofLogbuff + s.offset) < memSize) :
    showBody kmalloc name log memSize s = .next
      { offset := toUInt64 (s.offset + pieceSize s.offset log.stop)
        pieces := s.pieces + 1
        printed := s.printed ++ (processLogbuffer (kmalloc s.pieces) name log.byte
          (toUInt64 (sizeofLogbuff + s.offset)) (pieceSize s.offset log.stop)).1
        reads := s.reads ++ (processLogbuffer (kmalloc s.pieces) name log.byte
          (toUInt64 (sizeofLogbuff + s.offset)) (pieceSize s.offset log.stop)).2 } :=
  if_pos ⟨hlt, hin⟩

/-! ## Headers that do no harm -/

/-- The loop inside a range `[.., limit)` of positions that the region covers. -/
structure SafeInv (memSize limit : Nat) (s : ShowState) : Prop where
  offset_le : s.offset ≤ limit
  reads : ∀ i ∈ s.reads, InText memSize i

/-- A piece that ends before the limit. -/
theorem SafeInv.pass {limit : Nat} {s : ShowState} (h : SafeInv memSize limit s)
    (hlimit : limit + sizeofLogbuff ≤ memSize) (hmem : memSize < 2 ^ 64)
    (hlt : s.offset < log.stop)
    (hend : s.offset + pieceSize s.offset log.stop ≤ limit) :
    ∃ s', showBody kmalloc name log memSize s = .next s' ∧ SafeInv memSize limit s' ∧
      s'.offset = s.offset + pieceSize s.offset log.stop := by
  have hsize := pieceSize_le hlt
  have hpos := pieceSize_pos hlt
  have hbase : toUInt64 (sizeofLogbuff + s.offset) = sizeofLogbuff + s.offset :=
    toUInt64_of_lt (by omega)
  have hoffset : toUInt64 (s.offset + pieceSize s.offset log.stop) =
    s.offset + pieceSize s.offset log.stop := toUInt64_of_lt (by omega)
  rw [showBody_next hlt (by omega)]
  refine ⟨_, rfl, ⟨by rw [hoffset]; exact hend, fun i hi => ?_⟩, hoffset⟩
  rcases List.mem_append.mp hi with hi | hi
  · exact h.reads i hi
  · have hread := processLogbuffer_reads_mem hsize (by omega) hi
    unfold InText
    omega

/-- The loop ends, and every read was in the text. -/
def EndsInText (kmalloc : Nat → Option (Nat → Byte)) (name : List Byte) (log : Log)
    (memSize : Nat) (s : ShowState) : Prop :=
  ∃ fuel s', iterate (showBody kmalloc name log memSize) fuel s = some s' ∧
    ∀ i ∈ s'.reads, InText memSize i

/-- A position behind which nothing is read. -/
theorem endsInText_of_done {s : ShowState}
    (hdone : ¬ (s.offset < log.stop ∧ toUInt64 (sizeofLogbuff + s.offset) < memSize))
    (hreads : ∀ i ∈ s.reads, InText memSize i) : EndsInText kmalloc name log memSize s := by
  have hbody : showBody kmalloc name log memSize s = .done s := if_neg hdone
  exact ⟨1, s, iterate_of_done hbody 0, hreads⟩

/-- No sum wraps around: the pieces go up to `end`. -/
theorem endsInText_of_fits (hfit : log.stop + sizeofLogbuff ≤ memSize) (hmem : memSize < 2 ^ 64)
    {s : ShowState} (h : SafeInv memSize log.stop s) (hfits : Fits s.offset log.stop) :
    EndsInText kmalloc name log memSize s := by
  have hpass : ∀ s, SafeInv memSize log.stop s ∧ Fits s.offset log.stop →
      Pass (showBody kmalloc name log memSize)
        (fun s => SafeInv memSize log.stop s ∧ Fits s.offset log.stop)
        (fun s => ∀ i ∈ s.reads, InText memSize i) (fun s => log.stop - s.offset) s := by
    rintro s ⟨h, hfits⟩
    by_cases hlt : s.offset < log.stop
    · have hsize := pieceSize_of_fits hlt hfits
      have hpos := pieceSize_pos hlt
      have hnext := hfits.next log.stop_lt hlt
      obtain ⟨s', hs', hinv, hoffset⟩ := h.pass hfit hmem hlt (by omega)
      rw [← hsize, ← hoffset] at hnext
      refine Or.inr ⟨s', hs', ⟨hinv, hnext⟩, ?_⟩
      show log.stop - s'.offset < log.stop - s.offset
      omega
    · exact Or.inl ⟨s, if_neg fun hboth => hlt hboth.1, h.reads⟩
  obtain ⟨s', hs', hreads⟩ := iterate_total hpass ⟨h, hfits⟩ (Nat.lt_succ_self _)
  exact ⟨_, s', hs', hreads⟩

/-- `end` is close to 2^64, and the pieces end where the region ends. -/
theorem endsInText_of_dvd (hwrap : 2 ^ 64 ≤ log.stop + sizeofLogbuff) (hmem : memSize < 2 ^ 64)
    {s : ShowState} (h : SafeInv memSize (memSize - sizeofLogbuff) s)
    (hsize : sizeofLogbuff ≤ memSize)
    (hdvd : logbuffLen ∣ memSize - (s.offset + sizeofLogbuff)) :
    EndsInText kmalloc name log memSize s := by
  have hlen : logbuffLen = 0x8000 := rfl
  have hpass : ∀ s, SafeInv memSize (memSize - sizeofLogbuff) s ∧
        logbuffLen ∣ memSize - (s.offset + sizeofLogbuff) →
      Pass (showBody kmalloc name log memSize)
        (fun s => SafeInv memSize (memSize - sizeofLogbuff) s ∧
          logbuffLen ∣ memSize - (s.offset + sizeofLogbuff))
        (fun s => ∀ i ∈ s.reads, InText memSize i) (fun s => memSize - s.offset) s := by
    rintro s ⟨h, hdvd⟩
    have hoffset := h.offset_le
    by_cases hlt : s.offset + sizeofLogbuff < memSize
    · have hfull : s.offset + logbuffLen + sizeofLogbuff ≤ memSize := by
        rw [hlen] at hdvd ⊢
        omega
      have hpiece : pieceSize s.offset log.stop = logbuffLen := by
        refine if_neg ?_
        rw [toUInt64_of_lt (by omega)]
        omega
      have hstop : s.offset < log.stop := by omega
      obtain ⟨s', hs', hinv, hnext⟩ := h.pass (by omega) hmem hstop (by omega)
      rw [hpiece] at hnext
      refine Or.inr ⟨s', hs', ⟨hinv, ?_⟩, ?_⟩
      · rw [hnext]
        rw [hlen] at hdvd ⊢
        omega
      · show memSize - s'.offset < memSize - s.offset
        omega
    · have hhead : ¬ (s.offset < log.stop ∧
          toUInt64 (sizeofLogbuff + s.offset) < memSize) := by
        rw [toUInt64_of_lt (by omega)]
        omega
      exact Or.inl ⟨s, if_neg hhead, h.reads⟩
  obtain ⟨s', hs', hreads⟩ := iterate_total hpass ⟨h, hdvd⟩ (Nat.lt_succ_self _)
  exact ⟨_, s', hs', hreads⟩

/-- The loop of a safe header that has passed the check of the range. -/
theorem endsInText_of_safe (hsize : sizeofLogbuff < memSize) (hmem : memSize < 2 ^ 64)
    (hrange : ¬ (log.start > log.stop ∨ toUInt64 (log.stop + sizeofLogbuff) > memSize))
    {s : ShowState} (hoffset : s.offset = log.start) (hreads : s.reads = [])
    (hsafe : RegionSafe log.start log.stop memSize) : EndsInText kmalloc name log memSize s := by
  have hnone : ∀ i ∈ s.reads, InText memSize i := by
    rw [hreads]
    exact fun i hi => nomatch hi
  rw [not_or] at hrange
  rw [← hoffset] at hsafe hrange
  rcases hsafe with hempty | ⟨hsum, hcase⟩ | ⟨hwrap, hsum, hcase⟩
  · exact endsInText_of_done (by omega) hnone
  · rw [toUInt64_of_lt hsum] at hrange
    have hfits := hcase.resolve_left (by omega)
    exact endsInText_of_fits (by omega) hmem ⟨by omega, hnone⟩ hfits
  · by_cases hbeyond : memSize ≤ s.offset + sizeofLogbuff
    · refine endsInText_of_done (fun hboth => ?_) hnone
      rw [toUInt64_of_lt (by omega)] at hboth
      omega
    · exact endsInText_of_dvd hwrap hmem ⟨by omega, hnone⟩ (by omega)
        (hcase.resolve_left hbeyond)

/-! ## Headers that do harm -/

/-- A read outside of the text has happened. -/
def Strayed (memSize : Nat) (s : ShowState) : Prop := ∃ i ∈ s.reads, ¬ InText memSize i

/-- A read outside of the text is about to happen: in front of it (the position has
wrapped around), or behind it (the pieces do not end where the region ends). -/
def WillStray (log : Log) (memSize : Nat) (s : ShowState) : Prop :=
  s.offset < log.stop ∧ s.offset < 2 ^ 64 ∧
    (2 ^ 64 ≤ s.offset + sizeofLogbuff ∨
      s.offset + sizeofLogbuff < memSize ∧
        ¬ logbuffLen ∣ memSize - (s.offset + sizeofLogbuff))

/-- One pass goes astray, or comes closer to it. -/
theorem WillStray.next (junk : Nat → Byte) (name : List Byte)
    (hwrap : 2 ^ 64 ≤ log.stop + sizeofLogbuff)
    (hsize : sizeofLogbuff < memSize) (hmem : memSize < 2 ^ 64) {s : ShowState}
    (h : WillStray log memSize s) :
    ∃ s', showBody (fun _ => some junk) name log memSize s = .next s' ∧
      (Strayed memSize s' ∨ WillStray log memSize s') := by
  have hlen : logbuffLen = 0x8000 := rfl
  have hhdr : sizeofLogbuff = 40 := rfl
  obtain ⟨hlt, hoffset, hcase⟩ := h
  have hle := pieceSize_le hlt
  have hpos := pieceSize_pos hlt
  rcases hcase with hbefore | ⟨hin, hdvd⟩
  · -- the first byte of the piece is one of the header
    have hbase : toUInt64 (sizeofLogbuff + s.offset) = sizeofLogbuff + s.offset - 2 ^ 64 := by
      unfold toUInt64
      omega
    rw [showBody_next hlt (by omega)]
    refine ⟨_, rfl, Or.inl ⟨_, List.mem_append_right _ (mem_processLogbuffer_reads hle hpos), ?_⟩⟩
    rw [hbase]
    unfold InText toUInt64
    omega
  · have hbase : toUInt64 (sizeofLogbuff + s.offset) = sizeofLogbuff + s.offset :=
      toUInt64_of_lt (by omega)
    rw [showBody_next hlt (by omega)]
    refine ⟨_, rfl, ?_⟩
    by_cases hend : memSize < sizeofLogbuff + s.offset + pieceSize s.offset log.stop
    · -- the piece reaches over the end of the region
      left
      have hj : memSize - (sizeofLogbuff + s.offset) < pieceSize s.offset log.stop := by omega
      refine ⟨_, List.mem_append_right _ (mem_processLogbuffer_reads hle hj), ?_⟩
      rw [hbase]
      unfold InText toUInt64
      omega
    · right
      have hfull : pieceSize s.offset log.stop = logbuffLen := by
        revert hend
        unfold pieceSize
        split <;> omega
      have hnext : toUInt64 (s.offset + logbuffLen) = s.offset + logbuffLen :=
        toUInt64_of_lt (by omega)
      simp only [WillStray, hfull, hnext]
      rw [hlen] at hdvd ⊢
      omega

/-- What has been read stays read. -/
theorem Strayed.next {s s' : ShowState} (h : Strayed memSize s)
    (hs' : showBody kmalloc name log memSize s = .next s') : Strayed memSize s' := by
  obtain ⟨i, hi, hout⟩ := h
  by_cases hcond : s.offset < log.stop ∧ toUInt64 (sizeofLogbuff + s.offset) < memSize
  · rw [showBody_next hcond.1 hcond.2] at hs'
    rw [← Iter.next.inj hs']
    exact ⟨i, List.mem_append_left _ hi, hout⟩
  · rw [showBody, if_neg hcond] at hs'
    cases hs'

/-- Whatever the fuel: when the loop ends, a read was outside of the text. -/
theorem strayed_of_willStray {junk : Nat → Byte} (hwrap : 2 ^ 64 ≤ log.stop + sizeofLogbuff)
    (hsize : sizeofLogbuff < memSize) (hmem : memSize < 2 ^ 64) {s s' : ShowState}
    (h : WillStray log memSize s) {fuel : Nat}
    (hs' : iterate (showBody (fun _ => some junk) name log memSize) fuel s = some s') :
    Strayed memSize s' := by
  refine iterate_done (I := fun s => Strayed memSize s ∨ WillStray log memSize s) ?_ ?_
    (Or.inr h) hs'
  · rintro s s' (hs | hs) hbody
    · exact Or.inl (hs.next hbody)
    · obtain ⟨s₁, hs₁, hcase⟩ := hs.next junk name hwrap hsize hmem
      rw [Iter.next.inj (hbody.symm.trans hs₁)]
      exact hcase
  · rintro s s' (hs | hs) hbody
    · unfold showBody at hbody
      split at hbody
      · cases hbody
      · cases hbody
        exact hs
    · obtain ⟨s₁, hs₁, -⟩ := hs.next junk name hwrap hsize hmem
      exact absurd (hbody.symm.trans hs₁) (by simp)

end Loop

/-- **The bytes `logbuffer_show` reads.** Whatever `kmalloc` answers, the loop ends and
reads bytes of the text area only: exactly for the headers of `RegionSafe`. -/
theorem logbuffer_show_in_region_iff {log : Log} {memSize : Nat}
    (htag : log.tag = logbuffMagic) (hsize : sizeofLogbuff < memSize) (hmem : memSize < 2 ^ 64)
    (name : List Byte) :
    (∀ kmalloc, ∃ fuel printed reads,
        showLog kmalloc name log memSize fuel = some (printed, reads) ∧
        ∀ i ∈ reads, InText memSize i) ↔
      RegionSafe log.start log.stop memSize := by
  have hhdr : sizeofLogbuff = 40 := rfl
  have hstart := log.start_lt
  have hstop := log.stop_lt
  constructor
  · intro hall
    by_contra hnot
    unfold RegionSafe at hnot
    have hlt : log.start < log.stop := by omega
    obtain ⟨fuel, printed, reads, hshow, hreads⟩ := hall fun _ => some fun _ => 0
    by_cases hwrap : 2 ^ 64 ≤ log.stop + sizeofLogbuff
    · have hrange : ¬ (log.start > log.stop ∨ toUInt64 (log.stop + sizeofLogbuff) > memSize) := by
        unfold toUInt64
        omega
      rw [showLog_accepted htag hrange] at hshow
      obtain ⟨s, hs, hout⟩ := Option.map_eq_some_iff.mp hshow
      cases hout
      have hstray : WillStray log memSize
          ⟨log.start, 0, log.banner, []⟩ := by
        refine ⟨hlt, hstart, ?_⟩
        show 2 ^ 64 ≤ log.start + sizeofLogbuff ∨ log.start + sizeofLogbuff < memSize ∧
          ¬ logbuffLen ∣ memSize - (log.start + sizeofLogbuff)
        by_cases hbefore : 2 ^ 64 ≤ log.start + sizeofLogbuff
        · exact Or.inl hbefore
        · exact Or.inr ⟨by omega,
            fun hdvd => hnot (Or.inr (Or.inr ⟨hwrap, by omega, Or.inr hdvd⟩))⟩
      obtain ⟨i, hi, hstrayed⟩ := strayed_of_willStray hwrap hsize hmem hstray hs
      exact hstrayed (hreads i hi)
    · have hfits : ¬ Fits log.start log.stop := fun hfits =>
        hnot (Or.inr (Or.inl ⟨by omega, Or.inr hfits⟩))
      have hfit : log.stop + sizeofLogbuff ≤ memSize := by omega
      have hrange : ¬ (log.start > log.stop ∨ toUInt64 (log.stop + sizeofLogbuff) > memSize) := by
        rw [toUInt64_of_lt (by omega)]
        omega
      rw [showLog_accepted htag hrange, showBody_diverges (by omega) hfit hmem hfits fuel
        hstart rfl] at hshow
      cases hshow
  · intro hsafe kmalloc
    by_cases hrange : log.start > log.stop ∨ toUInt64 (log.stop + sizeofLogbuff) > memSize
    · refine ⟨0, log.banner ++ [.outOfRange], [], ?_, fun i hi => nomatch hi⟩
      rw [showLog, if_neg (not_not_intro htag), if_pos hrange]
      rfl
    · have hends : EndsInText kmalloc name log memSize
          ⟨log.start, 0, log.banner, []⟩ :=
        endsInText_of_safe hsize hmem hrange rfl rfl hsafe
      obtain ⟨fuel, s, hs, hreads⟩ := hends
      refine ⟨fuel, s.printed, s.reads, ?_, hreads⟩
      rw [showLog_accepted htag hrange, hs]
      rfl

/-- A header with the right tag: the text goes from the first byte up to `stop`. -/
def headerUpTo (stop : Nat) (hstop : stop < 2 ^ 64) : Log where
  tag := logbuffMagic
  start := 0
  stop := stop
  byte := fun _ => 0
  start_lt := Nat.two_pow_pos 64
  stop_lt := hstop

theorem logbuffer_show_in_region_iff_small :
    ∃ fuel printed reads,
      showLog (fun _ => none) [117] (headerUpTo 24 (by decide)) 64 fuel =
        some (printed, reads) ∧ ∀ i ∈ reads, InText 64 i :=
  (logbuffer_show_in_region_iff rfl (by decide) (by decide) [117]).mpr
    (Or.inr (Or.inl ⟨by decide, Or.inr (by unfold Fits; decide)⟩)) fun _ => none

/-- `end` is the largest `__u64`. -/
def lastHeader : Log := headerUpTo (2 ^ 64 - 1) (by decide)

/-- The first piece of `lastHeader` has 32768 bytes, although the region has 64. -/
theorem lastHeader_next :
    ∃ s, showBody (fun _ => some fun _ => 0) [117] lastHeader 64
        ⟨lastHeader.start, 0, lastHeader.banner, []⟩ = .next s ∧ s.offset = logbuffLen ∧
        64 ∈ s.reads := by
  have hpiece : pieceSize 0 lastHeader.stop = logbuffLen := if_neg (by decide)
  refine ⟨_, showBody_next (by decide) (by decide), ?_, List.mem_append_right _ ?_⟩
  · show toUInt64 (0 + pieceSize 0 lastHeader.stop) = logbuffLen
    rw [hpiece]
    rfl
  · have hread : toUInt64 (sizeofLogbuff + 24) = 64 := rfl
    rw [← hread]
    exact mem_processLogbuffer_reads (Nat.le_of_eq hpiece) (by rw [hpiece]; decide)

/-- The check passes, since `end + 40` is 39 modulo 2^64; a byte behind the region is read. -/
theorem logbuffer_show_leaves_region :
    ∃ fuel printed reads,
      showLog (fun _ => some fun _ => 0) [117] lastHeader 64 fuel = some (printed, reads) ∧
        64 ∈ reads ∧ ¬ InText 64 64 := by
  have hrange : ¬ (lastHeader.start > lastHeader.stop ∨
      toUInt64 (lastHeader.stop + sizeofLogbuff) > 64) := by decide
  obtain ⟨s, hnext, hoffset, hread⟩ := lastHeader_next
  have hdone : showBody (fun _ => some fun _ => 0) [117] lastHeader 64 s = .done s := by
    refine if_neg ?_
    rw [hoffset]
    decide
  refine ⟨2, s.printed, s.reads, ?_, hread, fun h => Nat.lt_irrefl 64 h.2⟩
  rw [showLog_accepted rfl hrange, iterate_of_next hnext 1, iterate_of_done hdone 0]
  rfl

end LinuxDeviceDriver.Logbuffer
