import LinuxDeviceDriver.Limitfs.Accounting

/-!
# How far limitfs lets its files grow

`limitfs_write` compares `cur_size` with `max_size` before it writes, and never looks at how much it
is about to write. So the limit is not a bound, but it is not without effect either: above it
nothing grows any more. What is left open is the last write that was let through
(`limitfs_overshoot`).

This needs `cur_size` to be right (`Accountable`, and a `get_dir_size` that gives the total) and a
bound `B` on what one write adds behind the end of its file. Truncations are not looked at by the
code at all; they may only shorten here.
-/

namespace LinuxDeviceDriver.Limitfs

open Lib

/-- No write adds more than `B` bytes to its file, and no truncation makes a file longer. -/
structure Modest (cfg : Config) (B : Nat) (w : World) (op : Op) : Prop where
  accountable : Accountable cfg w op
  write : ∀ h path size offset calls, op = .write h path size offset calls →
    ∀ fi d ino n, w.handles h = some fi → w.fds fi.fh = some d → d.ino = some ino →
      w.tree.fileSize ino = some n → offset + size ≤ n + B
  truncate : ∀ path size fail, op = .truncate path size fail → ∀ e n, w.tree.find path = some e →
    e.node = .file n → size.toNat ≤ n

section Growth

variable {cfg : Config} {B : Nat} {w w' : World} {path : Path}

/-- Above the limit a write is refused. -/
theorem write_refused {size offset : Nat} {fi : FileInfo} {calls : WriteCalls}
    (hreal : isVirtual path = false) (hover : cfg.maxSize < w.curSize) :
    limitfsWrite cfg path size offset fi calls w =
      (SysError.enobufs.neg, w.closeFd fi.fh) := by
  unfold limitfsWrite
  rw [hreal, if_neg Bool.false_ne_true, if_pos hover]

/-- **One operation** makes the files no larger, or it is a write below the limit. -/
theorem step_grows {op : Op} (hexact : Exact w) (hguard : Modest cfg B w op)
    (hstep : step cfg w op = some w') :
    w'.tree.total ≤ w.tree.total ∨
      w.tree.total ≤ cfg.maxSize ∧ w'.tree.total ≤ w.tree.total + B := by
  rcases step_total hstep with
    hle | ⟨h, path, size, offset, calls, fi, rfl, hfi, rfl⟩ | ⟨path, size, fail, rfl, rfl⟩
  · exact .inl hle
  · by_cases hover : cfg.maxSize < w.curSize
    · left
      cases hvirtual : isVirtual path with
      | true =>
        unfold limitfsWrite
        rw [hvirtual, if_pos rfl]
      | false =>
        rw [write_refused hvirtual hover]
        exact Nat.le_refl _
    · right
      rw [hexact] at hover
      have hroom := hguard.write h path size offset calls rfl
      exact ⟨Nat.not_lt.mp hover, write_grows fun d ino n => hroom fi d ino n hfi⟩
  · exact .inl (truncate_grows (B := 0) (hguard.truncate path size fail rfl))

end Growth

/-- **The limit is exceeded by one write at most.** With `cur_size` right, and no write that adds
more than `B` bytes, the files never hold more than `max_size + B` bytes, or than what they held at
first; and as long as they hold more than `max_size`, no operation makes them larger. -/
theorem limitfs_overshoot (cfg : Config) (B : Nat) {w₀ w : World}
    (h₀ : w₀.curSize = w₀.tree.total) (hreach : Reach (step cfg) (Modest cfg B) w₀ w) :
    w.tree.total ≤ max (cfg.maxSize + B) w₀.tree.total ∧
    (cfg.maxSize < w.tree.total → ∀ op w', Modest cfg B w op → step cfg w op = some w' →
      w'.tree.total ≤ w.tree.total) := by
  have hexact : Exact w := hreach.invariant (I := Exact) h₀ fun h hguard hstep =>
    step_exact h hguard.accountable hstep
  constructor
  · refine (hreach.invariant
      (I := fun w => Exact w ∧ w.tree.total ≤ max (cfg.maxSize + B) w₀.tree.total)
      ⟨h₀, Nat.le_max_right ..⟩ ?_).2
    rintro w w' op ⟨hright, hbound⟩ hguard hstep
    refine ⟨step_exact hright hguard.accountable hstep, ?_⟩
    rcases step_grows hright hguard hstep with hle | ⟨hbelow, hle⟩ <;> omega
  · intro hover op w' hguard hstep
    rcases step_grows hexact hguard hstep with hle | ⟨hbelow, -⟩
    · exact hle
    · omega

/-- The file `a` of the sample, opened. -/
def openedA : World := (mounted sampleConfig sampleTree).openHandle 0 ["a"] 3 none

theorem openedA_modest :
    Modest sampleConfig 10 (mounted sampleConfig sampleTree) (.openFile 0 ["a"] 3 none) := by
  refine ⟨⟨⟨by decide, ?_⟩, fun _ _ _ hop => Op.noConfusion hop,
      fun _ _ _ _ _ hop => Op.noConfusion hop, fun _ _ _ _ _ hop => Op.noConfusion hop⟩,
    fun _ _ _ _ _ hop => Op.noConfusion hop, fun _ _ _ hop => Op.noConfusion hop⟩
  intro w' hstep
  obtain rfl : openedA = w' := Option.some.inj hstep
  decide

theorem openedA_write_modest :
    Modest sampleConfig 10 openedA (.write 0 ["a"] 10 10 ⟨none, .ok 10, none⟩) := by
  refine ⟨⟨⟨by decide, ?_⟩, fun _ _ _ hop => Op.noConfusion hop, ?_, ?_⟩, ?_,
    fun _ _ _ hop => Op.noConfusion hop⟩
  · intro w' hstep
    obtain ⟨w, hw, htotal⟩ : ∃ w, step sampleConfig openedA
        (.write 0 ["a"] 10 10 ⟨none, .ok 10, none⟩) = some w ∧ w.tree.total = 25 := ⟨_, rfl, rfl⟩
    obtain rfl : w = w' := Option.some.inj (hw.symm.trans hstep)
    rw [htotal]
    decide
  · intro h path size offset calls hop e hreaches
    cases hop
    cases hreaches.named
    exact ⟨10, rfl⟩
  · intro h path size offset calls hop e fi d count hreaches hhandle hd _
    cases hop
    cases hreaches.named
    cases hhandle
    cases hd
    exact ⟨rfl, rfl⟩
  · intro h path size offset calls hop fi d ino n hhandle hd hino hn
    cases hop
    cases hhandle
    cases hd
    cases hino
    cases hn
    decide

/-- 15 of 20 bytes are used, and a write of 10 bytes is let through. -/
theorem limitfs_overshoot_ten :
    ∃ w, Reach (step sampleConfig) (Modest sampleConfig 10) (mounted sampleConfig sampleTree) w ∧
      w.tree.total = 25 ∧
      w.tree.total ≤ max (20 + 10) (mounted sampleConfig sampleTree).tree.total := by
  obtain ⟨w, hstep, htotal⟩ : ∃ w, step sampleConfig openedA
      (.write 0 ["a"] 10 10 ⟨none, .ok 10, none⟩) = some w ∧ w.tree.total = 25 := ⟨_, rfl, rfl⟩
  have hopen : step sampleConfig (mounted sampleConfig sampleTree) (.openFile 0 ["a"] 3 none) =
      some openedA := rfl
  have hreach := (Reach.init.tail openedA_modest hopen).tail openedA_write_modest hstep
  exact ⟨w, hreach, htotal, (limitfs_overshoot sampleConfig 10 rfl hreach).1⟩

end LinuxDeviceDriver.Limitfs
