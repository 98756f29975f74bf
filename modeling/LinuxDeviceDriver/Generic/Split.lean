import LinuxDeviceDriver.Generic.Masked

/-!
# 64-bit registers on 32-bit builds

Without `CONFIG_64BIT` a 64-bit register is accessed as two adjacent 32-bit words,
in the byte order of the build. The same register on a 64-bit build is accessed at
once. The two builds are compared over the same content (`words`).

Writing agrees (`ga_reg_write64_split`): the demotion to a plain write is decided
for each half on its own, but a half whose mask is not full is merged, and a half
whose mask is full is the value.

Reading does not (`ga_reg_read64_split_iff`): the halves are put together with `&`
instead of `|`, so every read gives 0.
-/

namespace LinuxDeviceDriver.Generic

open Lib

/-- Two independent 32-bit memory words at `addr` and `addr + 4`. -/
structure RegPair {σ : Type} (exec : (c : RegCmd) → σ → c.Answer × σ) (addr : Iomem)
    (first second : σ → BitVec 32) : Prop where
  first_memory : RegMemory exec .w32 addr first
  second_memory : RegMemory exec .w32 (addr + 4) second
  first_keeps : Keeps exec .w32 addr second
  second_keeps : Keeps exec .w32 (addr + 4) first

/-- The 64-bit content of two adjacent words. -/
def words (order : ByteOrder) (first second : BitVec 32) : BitVec 64 :=
  match order with
  | .little => second ++ first
  | .big => first ++ second

/-! ## Halves -/

theorem lowHalf_eq (x : BitVec 64) : lowHalf x = x.setWidth 32 := by
  have hmask : (0x00000000ffffffff : BitVec 64).setWidth 32 = BitVec.allOnes 32 := by decide
  rw [lowHalf, BitVec.setWidth_and, hmask, BitVec.and_allOnes]

theorem highHalf_append_lowHalf (x : BitVec 64) : highHalf x ++ lowHalf x = x := by
  refine BitVec.eq_of_getLsbD_eq fun i hi => ?_
  rw [BitVec.getLsbD_append, lowHalf_eq, highHalf]
  by_cases hlow : i < 32
  · simp [hlow]
  · have hi' : i - 32 < 32 := by omega
    have hsum : 32 + (i - 32) = i := by omega
    simp [hlow, hi', hsum]

theorem lowHalf_append (x y : BitVec 32) : lowHalf (x ++ y) = y := by
  refine BitVec.eq_of_getLsbD_eq fun i hi => ?_
  rw [lowHalf_eq, BitVec.getLsbD_setWidth, BitVec.getLsbD_append]
  simp [hi]

theorem highHalf_append (x y : BitVec 32) : highHalf (x ++ y) = x := by
  refine BitVec.eq_of_getLsbD_eq fun i hi => ?_
  rw [highHalf, BitVec.getLsbD_setWidth, BitVec.getLsbD_ushiftRight, BitVec.getLsbD_append]
  simp [hi]

theorem words_injective (order : ByteOrder) {a b a' b' : BitVec 32}
    (h : words order a b = words order a' b') : a = a' ∧ b = b' := by
  have hlow := congrArg lowHalf h
  have hhigh := congrArg highHalf h
  cases order with
  | little => exact ⟨by simpa [words, lowHalf_append] using hlow,
      by simpa [words, highHalf_append] using hhigh⟩
  | big => exact ⟨by simpa [words, highHalf_append] using hhigh,
      by simpa [words, lowHalf_append] using hlow⟩

/-- The halves of a register are updated independently. -/
theorem updated_append (options : BitVec 32) (old old' : BitVec 32) (mask value : BitVec 64) :
    updated options (old ++ old' : BitVec 64) mask value =
      updated options old (highHalf mask) (highHalf value) ++
        updated options old' (lowHalf mask) (lowHalf value) := by
  have hmask := highHalf_append_lowHalf mask
  have hvalue := highHalf_append_lowHalf value
  unfold updated
  split
  · rw [← and_append, hmask, hvalue]
  · rw [← merge_append, hmask, hvalue]

/-- Under the mask there is the value, whatever the options. -/
theorem updated_and_mask {n : Nat} (options : BitVec 32) (old mask value : BitVec n) :
    updated options old mask value &&& mask = value &&& mask := by
  unfold updated
  split
  · rw [BitVec.and_assoc, BitVec.and_self]
  · exact merge_and_mask old mask value

/-- A shifted upper half and a lower half have no bit in common. -/
theorem shiftLeft_and_low (msv lsv : BitVec 32) :
    (msv.setWidth 64 <<< 32) &&& lsv.setWidth 64 = (0 : BitVec 64) := by
  refine BitVec.eq_of_getLsbD_eq fun i hi => ?_
  rw [BitVec.getLsbD_and, BitVec.getLsbD_shiftLeft, BitVec.getLsbD_setWidth,
    BitVec.getLsbD_setWidth]
  by_cases hlow : i < 32
  · simp [hlow]
  · simp [BitVec.getLsbD_of_ge lsv i (Nat.le_of_not_lt hlow)]

/-! ## Writing -/

section Pair

variable {σ : Type} {exec : (c : RegCmd) → σ → c.Answer × σ} {addr : Iomem}
  {first second : σ → BitVec 32}

/-- All about one word. -/
theorem gaRegWrite32_spec {content : σ → BitVec 32} (hmem : RegMemory exec .w32 addr content)
    {options : BitVec 32} (hoptions : Documented options) {mask value : BitVec 32} {s s' : σ}
    {rc : Modified} (hrun : (gaRegWrite32 addr mask value options).run exec s = (rc, s')) :
    content s' = updated options (content s) mask value ∧ rc.Sound (content s) (content s') ∧
      ∀ {α : Type} {other : σ → α}, Keeps exec .w32 addr other → other s' = other s := by
  have hall : (0xffffffff : BitVec Width.w32.bits) = BitVec.allOnes Width.w32.bits := rfl
  unfold gaRegWrite32 at hrun
  refine ⟨?_, gaDefineRegWrite_sound hmem hrun, fun hkeeps => ?_⟩
  · have hcontent := gaDefineRegWrite_content hmem hall hoptions mask value s
    rwa [hrun] at hcontent
  · have hother := gaDefineRegWrite_keeps hkeeps 0xffffffff mask value options s
    rwa [hrun] at hother

/-- Both words of a pair, written one after the other. -/
theorem RegPair.write (hpair : RegPair exec addr first second) {options : BitVec 32}
    (hoptions : Documented options) (mask₁ value₁ mask₂ value₂ : BitVec 32) (s : σ) :
    ∃ (rc₁ rc₂ : Modified) (s' : σ),
      (do let rc1 ← gaRegWrite32 addr mask₁ value₁ options
          let rc2 ← gaRegWrite32 (addr + 4) mask₂ value₂ options
          return rc1.both rc2 : RegProg Modified).run exec s = (rc₁.both rc₂, s') ∧
      first s' = updated options (first s) mask₁ value₁ ∧
      second s' = updated options (second s) mask₂ value₂ ∧
      rc₁.Sound (first s) (first s') ∧ rc₂.Sound (second s) (second s') := by
  obtain ⟨rc₁, s₁, hrun₁⟩ : ∃ rc₁ s₁,
    (gaRegWrite32 addr mask₁ value₁ options).run exec s = (rc₁, s₁) := ⟨_, _, rfl⟩
  obtain ⟨rc₂, s₂, hrun₂⟩ : ∃ rc₂ s₂,
    (gaRegWrite32 (addr + 4) mask₂ value₂ options).run exec s₁ = (rc₂, s₂) := ⟨_, _, rfl⟩
  obtain ⟨hfirst, hsound₁, hkeeps₁⟩ := gaRegWrite32_spec hpair.first_memory hoptions hrun₁
  obtain ⟨hsecond, hsound₂, hkeeps₂⟩ := gaRegWrite32_spec hpair.second_memory hoptions hrun₂
  rw [hkeeps₁ hpair.first_keeps] at hsecond hsound₂
  refine ⟨rc₁, rc₂, s₂, ?_, ?_, hsecond, ?_, hsound₂⟩
  · simp only [Prog.run_bind, hrun₁, hrun₂, Prog.run_pure]
  · rw [hkeeps₂ hpair.second_keeps, hfirst]
  · rw [hkeeps₂ hpair.second_keeps]
    exact hsound₁

/-- The code of the whole, from the codes of the halves. -/
theorem Modified.Sound.both {α : Type} {f : BitVec 32 → BitVec 32 → α}
    (hinj : ∀ {a b a' b'}, f a b = f a' b' → a = a' ∧ b = b') {rc₁ rc₂ : Modified}
    {a a' b b' : BitVec 32} (h₁ : rc₁.Sound a a') (h₂ : rc₂.Sound b b') :
    (rc₁.both rc₂).Sound (f a b) (f a' b') := by
  unfold Modified.both
  split
  · next hsure =>
    refine ⟨nofun, fun _ heq => ?_⟩
    rcases hsure with hsure | hsure
    · exact h₁.sure hsure (hinj heq).1
    · exact h₂.sure hsure (hinj heq).2
  · next hsure =>
    split
    · exact ⟨nofun, nofun⟩
    · next hmaybe =>
      refine ⟨fun _ => ?_, nofun⟩
      have hnone₁ : rc₁ = .none := by cases rc₁ <;> simp_all
      have hnone₂ : rc₂ = .none := by cases rc₂ <;> simp_all
      rw [h₁.none hnone₁, h₂.none hnone₂]

/-- The split write, in either byte order. -/
theorem RegPair.write64 (hpair : RegPair exec addr first second) (order : ByteOrder)
    {options : BitVec 32} (hoptions : Documented options) (mask value : BitVec 64) (s : σ) :
    ∃ rc s', (gaRegWrite64 (.split order) addr mask value options).run exec s = (rc, s') ∧
      words order (first s') (second s') =
        updated options (words order (first s) (second s)) mask value ∧
      rc.Sound (words order (first s) (second s)) (words order (first s') (second s')) := by
  cases order with
  | little =>
    obtain ⟨rc₁, rc₂, s', hrun, hfirst, hsecond, hsound₁, hsound₂⟩ :=
      hpair.write hoptions (lowHalf mask) (lowHalf value) (highHalf mask) (highHalf value) s
    refine ⟨_, s', hrun, ?_, hsound₁.both (words_injective .little) hsound₂⟩
    simp only [words]
    rw [hfirst, hsecond, updated_append]
  | big =>
    obtain ⟨rc₁, rc₂, s', hrun, hfirst, hsecond, hsound₁, hsound₂⟩ :=
      hpair.write hoptions (highHalf mask) (highHalf value) (lowHalf mask) (lowHalf value) s
    refine ⟨_, s', hrun, ?_, hsound₁.both (words_injective .big) hsound₂⟩
    simp only [words]
    rw [hfirst, hsecond, updated_append]

/-! ## Reading -/

/-- Whatever is in the registers. -/
theorem gaRegRead64_split (exec : (c : RegCmd) → σ → c.Answer × σ) (order : ByteOrder)
    (addr : Iomem) (mask : BitVec 64) (s : σ) :
    ((gaRegRead64 (.split order) addr mask).run exec s).1 = 0 := by
  cases order <;>
  · simp only [gaRegRead64, Prog.run_bind, Prog.run_pure]
    exact shiftLeft_and_low _ _

end Pair

section Builds

variable {σ τ : Type} {p q : Nat} {bus : Bus σ p} {info : IoaddrInfo σ p} {addr : Iomem}
  {first second : σ → BitVec 32}

/-- **Writing 64 bits as two words** leaves the content the native write leaves, and its
return code is right. -/
theorem ga_reg_write64_split {bus₆₄ : Bus τ q} {info₆₄ : IoaddrInfo τ q} {addr₆₄ : Iomem}
    {content : τ → BitVec 64}
    (hnative : RegMemory (execReg bus₆₄ info₆₄) .w64 addr₆₄ content)
    (hpair : RegPair (execReg bus info) addr first second) (order : ByteOrder)
    {options : BitVec 32} (hoptions : Documented options) (mask value : BitVec 64) (s : σ) (t : τ)
    (hsame : words order (first s) (second s) = content t) :
    ∃ rc s', (gaRegWrite64 (.split order) addr mask value options).run (execReg bus info) s =
        (rc, s') ∧
      words order (first s') (second s') = content
        ((gaRegWrite64 .native addr₆₄ mask value options).run (execReg bus₆₄ info₆₄) t).2 ∧
      rc.Sound (words order (first s) (second s)) (words order (first s') (second s')) := by
  obtain ⟨rc, s', hrun, hcontent, hsound⟩ := hpair.write64 order hoptions mask value s
  refine ⟨rc, s', hrun, ?_, hsound⟩
  rw [hcontent, hsame]
  exact (gaDefineRegWrite_content hnative rfl hoptions mask value t).symm

/-- **Reading 64 bits as two words** gives the bits under the mask, as the native read does,
exactly when none of them is set. After a masked write the value is in the register, and
the same holds of the value. -/
theorem ga_reg_read64_split_iff {bus₆₄ : Bus τ q} {info₆₄ : IoaddrInfo τ q} {addr₆₄ : Iomem}
    {content : τ → BitVec 64}
    (hnative : RegMemory (execReg bus₆₄ info₆₄) .w64 addr₆₄ content)
    (hpair : RegPair (execReg bus info) addr first second) (order : ByteOrder)
    (mask : BitVec 64) (s : σ) (t : τ)
    (hsame : words order (first s) (second s) = content t) :
    (((gaRegRead64 (.split order) addr mask).run (execReg bus info) s).1 =
        words order (first s) (second s) &&& mask ↔
      words order (first s) (second s) &&& mask = 0) ∧
    (((gaRegRead64 (.split order) addr mask).run (execReg bus info) s).1 =
        ((gaRegRead64 .native addr₆₄ mask).run (execReg bus₆₄ info₆₄) t).1 ↔
      words order (first s) (second s) &&& mask = 0) ∧
    ∀ value options, Documented options → ∃ rc s',
      (gaRegWrite64 (.split order) addr mask value options).run (execReg bus info) s = (rc, s') ∧
      words order (first s') (second s') &&& mask = value &&& mask ∧
      (((gaRegRead64 (.split order) addr mask).run (execReg bus info) s').1 = value &&& mask ↔
        value &&& mask = 0) := by
  have hread : ((gaRegRead64 .native addr₆₄ mask).run (execReg bus₆₄ info₆₄) t).1 =
    content t &&& mask := gaDefineRegRead_run hnative mask t
  refine ⟨?_, ?_, fun value options hoptions => ?_⟩
  · rw [gaRegRead64_split, eq_comm]
  · rw [gaRegRead64_split, hread, hsame, eq_comm]
  · obtain ⟨rc, s', hrun, hcontent, -⟩ := hpair.write64 order hoptions mask value s
    refine ⟨rc, s', hrun, ?_, ?_⟩
    · rw [hcontent, updated_and_mask]
    · rw [gaRegRead64_split, eq_comm]

end Builds

/-! ## A memory of words -/

/-- Every address has a word of its own; other widths see a part of it, or zeros above. -/
def wordMemory : Bus (Iomem → BitVec 32) 32 where
  rawRead := fun w addr s => ((s addr).setWidth w.bits, s)
  rawWrite := fun _ val addr s => Function.update s addr (val.setWidth 32)
  pageSize := 4096
  vmallocToPage := fun _ => none

theorem wordMemory_pair : RegPair (execReg wordMemory .zero) 0 (fun s => s 0) fun s => s 4 where
  first_memory := ⟨fun _ => BitVec.setWidth_eq _, fun _ => rfl, fun _ _ => BitVec.setWidth_eq _⟩
  second_memory := ⟨fun _ => BitVec.setWidth_eq _, fun _ => rfl, fun _ _ => BitVec.setWidth_eq _⟩
  first_keeps := ⟨fun _ => rfl, fun _ _ => rfl⟩
  second_keeps := ⟨fun _ => rfl, fun _ _ => rfl⟩

/-- The mask is full in the lower half only. -/
theorem ga_reg_write64_split_low :
    ∃ rc s', (gaRegWrite64 (.split .little) 0 0x00000001ffffffff 0x0000000300000002
        gaReadWriteAlways).run (execReg wordMemory .zero) (fun _ => 0) = (rc, s') ∧
      words .little (s' 0) (s' 4) = BitVec.setWidth 64
        ((gaRegWrite64 .native 0 0x00000001ffffffff 0x0000000300000002 gaReadWriteAlways).run
          (execReg singleRegister .zero) 0).2 := by
  have hoptions : Documented gaReadWriteAlways := Or.inr (by unfold ReadsFirst; decide)
  have hsame : words .little 0 0 = BitVec.setWidth 64 (0 : BitVec 64) := by decide
  obtain ⟨rc, s', hrun, hcontent, -⟩ := ga_reg_write64_split (singleRegister_memory .w64 0)
    wordMemory_pair .little hoptions 0x00000001ffffffff 0x0000000300000002 (fun _ => 0) 0 hsame
  exact ⟨rc, s', hrun, hcontent⟩

/-- Nothing is set under the mask. -/
theorem ga_reg_read64_split_iff_zero :
    ((gaRegRead64 (.split .big) 0 0x00000000000000f0).run (execReg wordMemory .zero)
      (fun _ => 0x0000000f)).1 = 0 := by
  have hsame : words .big 0x0000000f 0x0000000f =
    BitVec.setWidth 64 (0x0000000f0000000f : BitVec 64) := by decide
  have hiff := (ga_reg_read64_split_iff (singleRegister_memory .w64 0) wordMemory_pair .big
    0x00000000000000f0 (fun _ => 0x0000000f) 0x0000000f0000000f hsame).1
  have hzero : words .big 0x0000000f 0x0000000f &&& 0x00000000000000f0 = 0 := by decide
  exact (hiff.mpr hzero).trans hzero

/-- Both words hold 1, and all bits are asked for: the result is 0 in either byte order. -/
theorem ga_reg_read64_split_loses :
    ((gaRegRead64 (.split .little) 0 0xffffffffffffffff).run (execReg wordMemory .zero)
        (fun _ => 1)).1 = 0 ∧
    ((gaRegRead64 (.split .big) 0 0xffffffffffffffff).run (execReg wordMemory .zero)
        (fun _ => 1)).1 = 0 ∧
    words .little 1 1 &&& 0xffffffffffffffff = 0x0000000100000001 ∧
    words .big 1 1 &&& 0xffffffffffffffff = 0x0000000100000001 := by
  refine ⟨?_, ?_, ?_, ?_⟩ <;> decide

end LinuxDeviceDriver.Generic
