import Mathlib.Order.Nat
import Mathlib.Data.Nat.Find
import LinuxDeviceDriver.Lib.Loop
import LinuxDeviceDriver.Memutil.Transfer

/-!
# What a restartable transfer delivers

`safe_read` and `safe_write` of `mem_ops.c` and the `safe_write` of `calamares_bin.c` are one loop.
Its variable `ret` has the result of the last call, decides whether the loop goes on, and in the
end decides what is returned. Here the loop is kept with that variable, and a call may return
any count up to the request: a `Port` is at the other end, where `safeTransfer` has a `Channel`
(`safeTransfer_restart` takes a transfer of the latter to this loop).

`Midway` holds at the loop head: `ret` is -1 there only while something is left. From it follows
`Told`, what the return value says about the bytes moved and the calls made. Calls that are
interrupted do not get a transfer further, so the passes are counted down by what is left and
by the number of calls up to the next that is not interrupted.
-/

namespace LinuxDeviceDriver.Memutil

open Lib

/-! ## The loop -/

/-- The local variables, the file, the number of calls made and the messages printed. -/
structure Restart (σ : Type) where
  ret : Int
  len : Int
  buf : Nat
  file : σ
  calls : Nat
  msgs : List String

section Functions

variable {σ : Type} (w : Width)

/-- One pass; `results k` is what the call number `k` does, `report` what is printed on an error. -/
def restartBody (p : Port σ) (results : Nat → Io) (report : List String) (st : Restart σ) :
    Iter (Restart σ) :=
  if st.len = 0 then .done st
  else
    match results st.calls with
    -- `continue`, with something left: `ret` is set again before it is tested
    | .eintr => .next { st with ret := -1, calls := st.calls + 1 }
    | .error => .done { st with ret := -1, calls := st.calls + 1, msgs := st.msgs ++ report }
    | .moved n =>
      let ret := min n (w.unsigned st.len)
      if ret = 0 then .done { st with ret := 0, calls := st.calls + 1 }
      else
        .next { st with
          ret := ret
          len := w.signed (st.len - ret)
          buf := st.buf + ret
          file := p.move st.file st.buf ret
          calls := st.calls + 1 }

/-- The return value: `ret` or `count - len`. -/
def Restart.value (count : Nat) (st : Restart σ) : Int :=
  if st.ret = -1 then st.ret else w.signed (count - st.len)

/-- The function: its return value and how it leaves everything. -/
def restart (p : Port σ) (results : Nat → Io) (report : List String) (file : σ) (buf count : Nat)
    (fuel : Nat) : Option (Int × Restart σ) :=
  (iterate (restartBody w p results report) fuel ⟨0, w.signed count, buf, file, 0, []⟩).map
    fun st => (st.value w count, st)

/-- `safe_write` of `mem_ops.c` -/
def MemOps.safeWrite (mem : Nat → Byte) (results : Nat → Io) (buf count : Nat) :
    (fuel : Nat) → Option (Int × Restart (List Byte)) :=
  restart w (sink mem) results [] [] buf count

/-- `safe_read` of `mem_ops.c` -/
def MemOps.safeRead (stream : Nat → Byte) (results : Nat → Io) (mem : Nat → Byte)
    (buf count : Nat) : (fuel : Nat) → Option (Int × Restart ((Nat → Byte) × Nat)) :=
  restart w (source stream) results [] (mem, 0) buf count

/-- `safe_write` of `calamares_bin.c`; `strerror` is the text of the error. -/
def CalamaresBin.safeWrite (mem : Nat → Byte) (results : Nat → Io) (fd : Int) (buf count : Nat)
    (errstr strerror : String) : (fuel : Nat) → Option (Int × Restart (List Byte)) :=
  restart w (sink mem) results [errstr ++ " (" ++ strerror ++ ") (fd=" ++ toString fd ++ ")\r\n"]
    [] buf count

end Functions

/-! ## What the return value tells -/

/-- What `ret` says when `done` bytes were moved by `calls` calls. -/
structure Told (results : Nat → Io) (count done : Nat) (ret : Int) (calls : Nat) : Prop where
  le : done ≤ count
  value : ret = -1 ∨ ret = done
  all : ret = count ↔ done = count
  short : 0 ≤ ret → ret < count → ∃ k, calls = k + 1 ∧ results k = .moved 0
  failed : ret = -1 ↔ ∃ k, k < calls ∧ results k = .error

section Told

variable {results : Nat → Io} {count done calls : Nat}

/-- One more call that did not fail. -/
theorem noError_succ (hnone : ∀ k, k < calls → results k ≠ .error)
    (hlast : results calls ≠ .error) : ∀ k, k < calls + 1 → results k ≠ .error := by
  intro k hk
  rcases Nat.lt_succ_iff_lt_or_eq.mp hk with hk | rfl
  · exact hnone k hk
  · exact hlast

theorem Told.finished (hnone : ∀ k, k < calls → results k ≠ .error) :
    Told results count count count calls where
  le := Nat.le_refl count
  value := .inr rfl
  all := iff_of_true rfl rfl
  short := fun _ hlt => absurd hlt (Int.lt_irrefl _)
  failed := by
    refine iff_of_false (by omega) ?_
    rintro ⟨k, hk, herror⟩
    exact hnone k hk herror

theorem Told.stopped (hlt : done < count) (hzero : results calls = .moved 0)
    (hnone : ∀ k, k < calls → results k ≠ .error) :
    Told results count done done (calls + 1) where
  le := Nat.le_of_lt hlt
  value := .inr rfl
  all := Int.ofNat_inj
  short := fun _ _ => ⟨calls, rfl, hzero⟩
  failed := by
    refine iff_of_false (by omega) ?_
    rintro ⟨k, hk, herror⟩
    exact noError_succ hnone (by rw [hzero]; exact fun heq => by cases heq) k hk herror

theorem Told.broken (hlt : done < count) (herror : results calls = .error) :
    Told results count done (-1) (calls + 1) where
  le := Nat.le_of_lt hlt
  value := .inl rfl
  all := iff_of_false (by omega) (Nat.ne_of_lt hlt)
  short := fun hnonneg _ => absurd hnonneg (by decide)
  failed := iff_of_true rfl ⟨calls, Nat.lt_succ_self calls, herror⟩

end Told

/-! ## The loop head -/

theorem Width.signed_of_lt (w : Width) {n : Nat} (h : n < 2 ^ 31) : w.signed n = n := by
  unfold Width.signed
  cases w <;> simp only [Width.bits] <;> rw [Int.bmod_def] <;> split <;> omega

section Head

variable {σ : Type} {w : Width} {p : Port σ} {results : Nat → Io} {report : List String}
variable {s : σ} {buf count : Nat}

/-- At the loop head, `done` bytes have been moved, and no call has failed. -/
structure Midway (p : Port σ) (results : Nat → Io) (s : σ) (buf count done : Nat)
    (st : Restart σ) : Prop where
  le : done ≤ count
  len : st.len = (count - done : Nat)
  pointer : st.buf = buf + done
  file : st.file = p.move s buf done
  noError : ∀ k, k < st.calls → results k ≠ .error
  left : st.ret = -1 → done < count

/-- How the loop leaves. -/
def Left (w : Width) (p : Port σ) (results : Nat → Io) (s : σ) (buf count : Nat)
    (st : Restart σ) : Prop :=
  ∃ done, st.file = p.move s buf done ∧ Told results count done (st.value w count) st.calls

/-- The next call that is not interrupted. -/
def nextAnswer (hagain : ∀ k, ∃ j, k ≤ j ∧ results j ≠ .eintr) (k : Nat) : Nat :=
  Nat.find (hagain k)

theorem nextAnswer_succ (hagain : ∀ k, ∃ j, k ≤ j ∧ results j ≠ .eintr) {k : Nat}
    (hk : results k = .eintr) :
    nextAnswer hagain (k + 1) - (k + 1) < nextAnswer hagain k - k := by
  obtain ⟨hle, hanswer⟩ := Nat.find_spec (hagain k)
  have hne : Nat.find (hagain k) ≠ k := fun heq => hanswer (by rw [heq, hk])
  have hfind : Nat.find (hagain (k + 1)) ≤ Nat.find (hagain k) :=
    Nat.find_min' _ ⟨by omega, hanswer⟩
  unfold nextAnswer
  omega

/-- Less is left, or as much with the next answer nearer. -/
def Sooner (hagain : ∀ k, ∃ j, k ≤ j ∧ results j ≠ .eintr) : Restart σ → Restart σ → Prop :=
  InvImage (Prod.Lex (· < ·) (· < ·)) fun st =>
    (st.len.toNat, nextAnswer hagain st.calls - st.calls)

theorem restartBody_pass (w : Width) (report : List String) (hcount : count < 2 ^ 31)
    (hagain : ∀ k, ∃ j, k ≤ j ∧ results j ≠ .eintr) {done : Nat} {st : Restart σ}
    (h : Midway p results s buf count done st) :
    (∃ st', restartBody w p results report st = .done st' ∧ Left w p results s buf count st') ∨
    (∃ st', restartBody w p results report st = .next st' ∧
      (∃ done', Midway p results s buf count done' st') ∧ Sooner hagain st' st) := by
  unfold restartBody
  by_cases hlen : st.len = 0
  · -- nothing is left, so `ret` is not -1
    rw [if_pos hlen]
    have hle := h.le
    have hzero : count - done = 0 := Int.ofNat_inj.mp (h.len.symm.trans hlen)
    obtain rfl : done = count := by omega
    have hret : st.ret ≠ -1 := fun hret => Nat.lt_irrefl done (h.left hret)
    have hvalue : st.value w done = done := by
      unfold Restart.value
      rw [if_neg hret, hlen, Int.sub_zero, w.signed_of_lt hcount]
    refine .inl ⟨st, rfl, done, h.file, ?_⟩
    rw [hvalue]
    exact .finished h.noError
  · rw [if_neg hlen]
    have hlt : done < count := by
      have hlen' := h.len
      omega
    cases hresult : results st.calls with
    | eintr =>
      refine .inr ⟨_, rfl, ⟨done, h.le, h.len, h.pointer, h.file, ?_, fun _ => hlt⟩, ?_⟩
      · exact noError_succ h.noError (by rw [hresult]; exact fun heq => by cases heq)
      · exact Prod.Lex.right _ (nextAnswer_succ hagain hresult)
    | error => exact .inl ⟨_, rfl, done, h.file, .broken hlt hresult⟩
    | moved n =>
      dsimp only
      have hreq : w.unsigned st.len = count - done := by
        rw [h.len, w.unsigned_of_lt (by cases w <;> simp only [Width.bits] <;> omega)]
      rw [hreq]
      by_cases hmoved : min n (count - done) = 0
      · rw [if_pos hmoved]
        have hvalue : w.signed (count - st.len) = done := by
          rw [h.len, Int.ofNat_sub h.le, sub_sub_cancel, w.signed_of_lt (by omega)]
        obtain rfl : n = 0 := by omega
        refine .inl ⟨_, rfl, done, h.file, ?_⟩
        have hstopped := Told.stopped hlt hresult h.noError
        rw [← hvalue] at hstopped
        exact hstopped
      · rw [if_neg hmoved]
        have hlen' : w.signed (st.len - (min n (count - done) : Nat)) =
            (count - (done + min n (count - done)) : Nat) := by
          rw [h.len, ← Int.ofNat_sub (Nat.min_le_right _ _), w.signed_of_lt (by omega),
            Nat.sub_sub]
        refine .inr ⟨_, rfl, ⟨done + min n (count - done), ?_, hlen', ?_, ?_, ?_, ?_⟩, ?_⟩
        · omega
        · show st.buf + _ = _
          rw [h.pointer, Nat.add_assoc]
        · show p.move st.file st.buf _ = _
          rw [h.file, h.pointer, p.move_add]
        · exact noError_succ h.noError (by rw [hresult]; exact fun heq => by cases heq)
        · intro hret
          change ((min n (count - done) : Nat) : Int) = -1 at hret
          omega
        · refine Prod.Lex.left _ _ ?_
          show (w.signed _).toNat < _
          rw [hlen', h.len]
          omega

/-- **Every sequence of results**: the function returns, and what it returns is told. -/
theorem restart_total (w : Width) (p : Port σ) (report : List String) (s : σ) (buf : Nat)
    (hcount : count < 2 ^ 31) (hagain : ∀ k, ∃ j, k ≤ j ∧ results j ≠ .eintr) :
    ∃ enough r, (∀ fuel, enough ≤ fuel → restart w p results report s buf count fuel = some r) ∧
      ∃ done, r.2.file = p.move s buf done ∧ Told results count done r.1 r.2.calls := by
  have hentry : Midway p results s buf count 0 ⟨0, w.signed count, buf, s, 0, []⟩ :=
    { le := Nat.zero_le count
      len := w.signed_of_lt hcount
      pointer := rfl
      file := (p.move_zero s buf).symm
      noError := fun k hk => absurd hk (Nat.not_lt_zero k)
      left := fun hret => absurd (show (0 : Int) = -1 from hret) (by decide) }
  have hpass : ∀ st, (∃ done, Midway p results s buf count done st) → _ :=
    fun st ⟨done, h⟩ => restartBody_pass w report hcount hagain h
  obtain ⟨enough, st, hrun, hleft⟩ :=
    iterate_total_wf (InvImage.wf _ (Prod.lex Nat.lt_wfRel Nat.lt_wfRel).wf) hpass ⟨0, hentry⟩
  refine ⟨enough, (st.value w count, st), fun fuel hfuel => ?_, hleft⟩
  unfold restart
  rw [hrun fuel hfuel]
  rfl

end Head

/-! ## Transfers with a regular file -/

section Transfer

variable {σ : Type} {w : Width} {c : Channel σ} {count : Nat}

/-- The loop from the call number `k` on does not look at the results of earlier calls. -/
theorem restart_results_congr {p : Port σ} {results results' : Nat → Io} {report : List String}
    {k : Nat} (hagree : ∀ j, k ≤ j → results' j = results j) (fuel : Nat) {st : Restart σ}
    (hst : k ≤ st.calls) :
    iterate (restartBody w p results' report) fuel st =
      iterate (restartBody w p results report) fuel st := by
  refine iterate_congr (I := fun st => k ≤ st.calls) (fun {st} hst => ?_) (fun {st st'} hst h => ?_)
    fuel hst
  · unfold restartBody
    rw [hagree st.calls hst]
  · unfold restartBody at h
    split at h
    · cases h
    · split at h
      · cases h
        exact Nat.le_succ_of_le hst
      · cases h
      · dsimp only at h
        split at h
        · cases h
        · cases h
          exact Nat.le_succ_of_le hst

/-- From `st₀` on, the loop ends with `r` for some results of the calls. -/
def Attains (w : Width) (p : Port σ) (count : Nat) (st₀ : Restart σ) (r : Int × σ × Nat) : Prop :=
  ∃ results fuel st, iterate (restartBody w p results []) fuel st₀ = some st ∧
    r = (st.value w count, st.file, st.buf)

theorem Attains.ended {p : Port σ} {st₀ : Restart σ} (results : Nat → Io) (st : Restart σ)
    (h : restartBody w p results [] st₀ = .done st) :
    Attains w p count st₀ (st.value w count, st.file, st.buf) :=
  ⟨results, 1, st, iterate_of_done h 0, rfl⟩

/-- The loop takes `answer` from its next call, and what follows from later ones. -/
theorem Attains.next {p : Port σ} {st₀ st₁ : Restart σ} {r : Int × σ × Nat} (answer : Io)
    (hcalls : st₁.calls = st₀.calls + 1)
    (hbody : ∀ results, results st₀.calls = answer → restartBody w p results [] st₀ = .next st₁)
    (h : Attains w p count st₁ r) : Attains w p count st₀ r := by
  obtain ⟨later, fuel, st, hrun, hr⟩ := h
  have hagree : ∀ j, st₀.calls + 1 ≤ j → Function.update later st₀.calls answer j = later j :=
    fun j hj => Function.update_of_ne (by omega) ..
  refine ⟨Function.update later st₀.calls answer, fuel + 1, st, ?_, hr⟩
  rw [iterate_of_next (hbody _ (Function.update_self ..)),
    restart_results_congr hagree fuel (Nat.le_of_eq hcalls.symm)]
  exact hrun

/-- Nothing is left: the loop ends before a call. -/
theorem Attains.finished {p : Port σ} {st₀ : Restart σ} (hlen : st₀.len = 0)
    (hret : st₀.ret ≠ -1) :
    Attains w p count st₀ (w.signed (count - st₀.len), st₀.file, st₀.buf) := by
  have hended : Attains w p count st₀ (st₀.value w count, st₀.file, st₀.buf) :=
    .ended (fun _ => .eintr) st₀ (if_pos hlen)
  rwa [Restart.value, if_neg hret] at hended

/-- A transfer with a channel is a run of the loop, for results that are cut to what the channel
has or takes. -/
theorem safeTransfer_restart (io : List Io) :
    ∀ {s : σ} {buf : Nat} {len : Int} {r : Int × σ × Nat} (ret : Int) (k : Nat),
      safeTransfer w c count io s buf len = some r → (ret = -1 → len ≠ 0) →
      Attains w c.toPort count ⟨ret, len, buf, s, k, []⟩ r := by
  induction io with
  | nil =>
    intro s buf len r ret k h hret
    unfold safeTransfer at h
    split at h
    · next hlen =>
      cases h
      exact .finished hlen fun hneg => hret hneg hlen
    · cases h
  | cons io rest ih =>
    intro s buf len r ret k h hret
    unfold safeTransfer at h
    split at h
    · next hlen =>
      cases h
      exact .finished hlen fun hneg => hret hneg hlen
    · next hlen =>
      cases io with
      | eintr =>
        refine .next .eintr rfl (fun results hresult => ?_) (ih (-1) (k + 1) h fun _ => hlen)
        unfold restartBody
        rw [if_neg hlen]
        dsimp only at hresult ⊢
        rw [hresult]
      | error =>
        cases h
        exact .ended (fun _ => .error) ⟨-1, len, buf, s, k + 1, []⟩ (if_neg hlen)
      | moved n =>
        dsimp only at h
        generalize hmoved : min n (min maxRwCount (min (w.unsigned len) (c.most s))) = moved at h
        have hcut : min moved (w.unsigned len) = moved := by omega
        split at h
        · next hzero =>
          cases h
          refine .ended (fun _ => .moved 0) ⟨0, len, buf, s, k + 1, []⟩ ?_
          unfold restartBody
          rw [if_neg hlen]
          exact if_pos (Nat.zero_min _)
        · next hpos =>
          refine .next (.moved moved) rfl (fun results hresult => ?_)
            (ih moved (k + 1) h fun hneg => absurd hneg (by omega))
          unfold restartBody
          rw [if_neg hlen]
          dsimp only at hresult ⊢
          rw [hresult]
          dsimp only
          rw [hcut, if_neg hpos]

end Transfer

/-! ## The three functions -/

/-- **Restartable transfers**: whatever the calls return, as long as they are not interrupted for
ever, the functions return; the bytes accepted are the first ones of the buffer in their order,
the bytes read are at the start of the buffer in theirs, and the return value says how many. -/
theorem restartable_transfers_exact (w : Width) (mem stream : Nat → Byte) (results : Nat → Io)
    (buf count : Nat) (fd : Int) (errstr strerror : String) (hcount : count < 2 ^ 31)
    (hagain : ∀ k, ∃ j, k ≤ j ∧ results j ≠ .eintr) :
    (∃ enough r, (∀ fuel, enough ≤ fuel →
        MemOps.safeWrite w mem results buf count fuel = some r) ∧
      ∃ done, r.2.file = slice mem buf done ∧ Told results count done r.1 r.2.calls) ∧
    (∃ enough r, (∀ fuel, enough ≤ fuel →
        CalamaresBin.safeWrite w mem results fd buf count errstr strerror fuel = some r) ∧
      ∃ done, r.2.file = slice mem buf done ∧ Told results count done r.1 r.2.calls) ∧
    (∃ enough r, (∀ fuel, enough ≤ fuel →
        MemOps.safeRead w stream results mem buf count fuel = some r) ∧
      ∃ done, slice r.2.file.1 buf done = slice stream 0 done ∧ r.2.file.2 = done ∧
        (∀ x, x < buf ∨ buf + done ≤ x → r.2.file.1 x = mem x) ∧
        Told results count done r.1 r.2.calls) := by
  refine ⟨restart_total w (sink mem) [] [] buf hcount hagain,
    restart_total w (sink mem) _ [] buf hcount hagain, ?_⟩
  obtain ⟨enough, r, hrun, done, hfile, htold⟩ :=
    restart_total w (source stream) [] (mem, 0) buf hcount hagain
  have hmem : ∀ x, r.2.file.1 x =
      blit mem (fun i => buf + i) (fun i => stream (0 + i)) done x := fun x => by rw [hfile]; rfl
  refine ⟨enough, r, hrun, done, ?_, ?_, ?_, htold⟩
  · refine slice_congr fun i hi => ?_
    rw [hmem, blit_adjacent, if_pos (by omega)]
    congr 2
    omega
  · rw [hfile]
    exact Nat.zero_add done
  · intro x hx
    rw [hmem, blit_adjacent, if_neg (by omega)]

/-- Every other call is interrupted, and the others move up to three bytes. -/
def threeByThree (k : Nat) : Io := if k % 2 = 0 then .eintr else .moved 3

theorem restartable_transfers_five :
    ∃ enough r, (∀ fuel, enough ≤ fuel →
        MemOps.safeWrite .w64 (fun i => UInt8.ofNat i) threeByThree 0x10 5 fuel = some r) ∧
      ∃ done, r.2.file = slice (fun i => UInt8.ofNat i) 0x10 done ∧
        Told threeByThree 5 done r.1 r.2.calls := by
  have hagain : ∀ k, ∃ j, k ≤ j ∧ threeByThree j ≠ .eintr := by
    intro k
    refine ⟨2 * k + 1, by omega, ?_⟩
    unfold threeByThree
    rw [if_neg (by omega)]
    exact fun heq => by cases heq
  exact (restartable_transfers_exact .w64 (fun i => UInt8.ofNat i) (fun _ => 0) threeByThree 0x10 5
    3 "write" "I/O error" (by decide) hagain).1

example : (MemOps.safeWrite .w64 (fun i => UInt8.ofNat i) threeByThree 0x10 5 5).map
    (fun r => (r.1, r.2.file)) = some (5, [0x10, 0x11, 0x12, 0x13, 0x14]) := by decide

end LinuxDeviceDriver.Memutil
