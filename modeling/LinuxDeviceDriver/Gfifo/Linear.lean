import LinuxDeviceDriver.Lib.Linear
import LinuxDeviceDriver.Gfifo.Settling

/-!
# The calls of the driver are linearizable

Every interleaving of reads, writes and `MEM_CLEAR`s, statement by statement, looks to the tasks as
if each call were one step on a bounded queue of bytes. `Serves` is that queue: what a call may
answer, given the queued bytes, and what is queued afterwards. It has no statements, no mutex and no
wait queues.

A call takes effect in one of its statements (`takes`): the transfer, the test that sends a
non-blocking caller away, the look at the pending signals that ends a sleep, or the `memset` of
`MEM_CLEAR`. What is read and written is then the queue's own business: as long as nobody clears,
the bytes read are the bytes written, in order, up to those that are still queued
(`Legal.stream`).
-/

namespace LinuxDeviceDriver.Gfifo.WaitQueue

open Lib

/-! ## The sequential queue -/

inductive Operation
  | call (c : Call)
  | memClear

/-- A call that has taken effect: what it returns, and what reached the user's buffer. -/
structure Entry where
  op : Operation
  ret : Except Errno Nat
  out : List Byte

/-- What its task is told. -/
def Entry.seen (e : Entry) : Operation × Except Errno Nat := (e.op, e.ret)

/-- A reader waits for bytes, a writer for room. -/
def Call.WaitsFor (cap : Nat) (queue : List Byte) : Call → Prop
  | .read _ => queue = []
  | .write _ _ => queue.length = cap

inductive Serves (cap : Nat) (queue : List Byte) : Entry → List Byte → Prop
  | read {req : UserReq} {n : Nat} : queue ≠ [] → n = min req.size queue.length →
      Serves cap queue ⟨.call (.read req), .ok n, queue.take n⟩ (queue.drop n)
  | write {buf : Nat → Byte} {req : UserReq} {n : Nat} : queue.length ≠ cap →
      n = min req.size (cap - queue.length) →
      Serves cap queue ⟨.call (.write buf req), .ok n, []⟩ (queue ++ slice buf 0 n)
  | fault {c : Call} {out : List Byte} : ¬ Call.WaitsFor cap queue c → out <+: queue →
      Serves cap queue ⟨.call c, .error .efault, out⟩ queue
  | again {c : Call} : Call.WaitsFor cap queue c → c.nonblock = true →
      Serves cap queue ⟨.call c, .error .eagain, []⟩ queue
  | interrupted {c : Call} : c.nonblock = false →
      Serves cap queue ⟨.call c, .error .erestartsys, []⟩ queue
  | memClear : Serves cap queue ⟨.memClear, .ok 0, []⟩ (List.replicate queue.length 0)

theorem Serves.length_le {cap : Nat} {queue queue' : List Byte} {e : Entry}
    (h : Serves cap queue e queue') (hle : queue.length ≤ cap) : queue'.length ≤ cap := by
  cases h with
  | read =>
    rw [List.length_drop]
    exact (Nat.sub_le _ _).trans hle
  | write _ hn =>
    rw [List.length_append, length_slice]
    omega
  | fault | again | interrupted => exact hle
  | memClear => rwa [List.length_replicate]

/-- The bytes that a call has brought in. -/
def Entry.taken (e : Entry) : List Byte :=
  match e.op, e.ret with
  | .call (.write buf _), .ok n => slice buf 0 n
  | _, _ => []

/-- The bytes that a call has brought out. -/
def Entry.given (e : Entry) : List Byte :=
  match e.op, e.ret with
  | .call (.read _), .ok _ => e.out
  | _, _ => []

/-- In a history without `MEM_CLEAR` no byte is lost, doubled or overtaken. -/
theorem Legal.stream {cap : Nat} {log : List Entry} {queue : List Byte}
    (h : Legal (Serves cap) [] log queue) (hclear : ∀ e ∈ log, e.op ≠ .memClear) :
    log.flatMap Entry.taken = log.flatMap Entry.given ++ queue := by
  induction h with
  | nil => rfl
  | @snoc log queue queue' e _ hserves ih =>
    have hlog := ih fun e he => hclear e (List.mem_append_left _ he)
    have hlast := hclear e (List.mem_append_right _ List.mem_cons_self)
    rw [List.flatMap_append, List.flatMap_append, List.flatMap_singleton, List.flatMap_singleton,
      hlog]
    cases hserves with
    | read _ _ =>
      show _ ++ [] = _ ++ queue.take _ ++ queue.drop _
      rw [List.append_nil, List.append_assoc, List.take_append_drop]
    | write _ _ =>
      show _ ++ queue ++ slice _ 0 _ = _ ++ [] ++ (queue ++ slice _ 0 _)
      rw [List.append_nil, List.append_assoc]
    | @fault c out _ _ => cases c <;> simp [Entry.taken, Entry.given]
    | @again c _ _ => cases c <;> simp [Entry.taken, Entry.given]
    | @interrupted c _ => cases c <;> simp [Entry.taken, Entry.given]
    | memClear => exact absurd rfl hlast

/-! ## The effects of the calls -/

/-- The bytes between `mem` and `mem + cur_len`. -/
def queued (dev : GfifoDev) : List Byte := slice dev.mem 0 dev.curLen

@[simp] theorem length_queued (dev : GfifoDev) : (queued dev).length = dev.curLen :=
  length_slice ..

/-- What a transfer leaves in the user's buffer. -/
def Call.out (dev : GfifoDev) : Call → List Byte
  | .read req => (gfifoReadBody dev req).2.1
  | .write _ _ => []

variable {Tid : Type} [DecidableEq Tid] {gfifoSize : Nat}

/-- The effect of the next statement of a task on its call. -/
def takes (gfifoSize : Nat) (s : Sys Tid) (t : Tid) : Option Entry :=
  match s.pc t with
  | .test c =>
    if c.side.blocked gfifoSize s.dev && c.nonblock then
      some ⟨.call c, .error .eagain, []⟩
    else none
  | .signalPending c =>
    if s.sigPending t then some ⟨.call c, .error .erestartsys, []⟩ else none
  | .transfer c => some ⟨.call c, (c.body gfifoSize s.dev).1, Call.out s.dev c⟩
  | .clearMemset => some ⟨.memClear, .ok 0, []⟩
  | _ => none

/-- What a task is told by its next statement. -/
def tells (s : Sys Tid) (t : Tid) : Option (Operation × Except Errno Nat) :=
  match s.pc t with
  | .setRunning c ret => some (.call c, ret)
  | .clearUnlock => some (.memClear, .ok 0)
  | _ => none

def effect (gfifoSize : Nat) (s : Sys Tid) : Action Tid → Option (Tid × Entry)
  | .run t => (takes gfifoSize s t).map (Prod.mk t)
  | _ => none

def answer (s : Sys Tid) : Action Tid → Option (Tid × (Operation × Except Errno Nat))
  | .run t => (tells s t).map (Prod.mk t)
  | _ => none

/-- What has taken effect and is still to be told. -/
def Pc.pending : Pc → List (Operation × Except Errno Nat)
  | wakeUp c ret | out c ret | out2 c ret | setRunning c ret => [(.call c, ret)]
  | clearUnlock => [(.memClear, .ok 0)]
  | _ => []

section Effects

variable {dev : GfifoDev} {c : Call}

theorem waitsFor_queued_iff (c : Call) :
    Call.WaitsFor gfifoSize (queued dev) c ↔ c.side.blocked gfifoSize dev = true := by
  cases c with
  | read req =>
    show queued dev = [] ↔ (dev.curLen == 0) = true
    rw [← List.length_eq_zero_iff, length_queued, beq_iff_eq]
  | write buf req =>
    show (queued dev).length = gfifoSize ↔ (dev.curLen == gfifoSize) = true
    rw [length_queued, beq_iff_eq]

theorem readBody_out_prefix (dev : GfifoDev) (req : UserReq) :
    (gfifoReadBody dev req).2.1 <+: queued dev := by
  have hcount := clampCount_eq_min req dev.curLen
  have hout : (gfifoReadBody dev req).2.1 =
      slice dev.mem 0 (min req.userOk (clampCount req.size dev.curLen)) := by
    unfold gfifoReadBody gfifoReadBodyWith
    simp only []
    split <;> rfl
  rw [hout, queued, ← slice_take dev.mem 0 (show _ ≤ dev.curLen by omega)]
  exact List.take_prefix _ _

/-- A transfer serves its call. -/
theorem body_serves (htested : c.side.blocked gfifoSize dev = false) :
    Serves gfifoSize (queued dev) ⟨.call c, (c.body gfifoSize dev).1, Call.out dev c⟩
      (queued (c.body gfifoSize dev).2) := by
  have hready : ¬ Call.WaitsFor gfifoSize (queued dev) c := by
    rw [waitsFor_queued_iff, htested]
    exact Bool.false_ne_true
  cases c with
  | read req =>
    rcases gfifoReadBody_spec dev req with ⟨out, hbody⟩ | ⟨n, dev', hbody, hdone⟩
    · have hout := readBody_out_prefix dev req
      simp only [Call.body, Call.out, hbody] at hout ⊢
      exact .fault hready hout
    · have hn : n = min req.size (queued dev).length := by rw [length_queued, hdone.count]
      have hle : n ≤ dev.curLen := hdone.count ▸ Nat.min_le_right _ _
      have hout : slice dev.mem 0 n = (queued dev).take n := (slice_take dev.mem 0 hle).symm
      have hrest : queued dev' = (queued dev).drop n := by
        rw [queued, hdone.curLen, hdone.rest, queued, slice_drop dev.mem 0 hle, Nat.zero_add]
      simp only [Call.body, Call.out, hbody, hout, hrest]
      exact .read hready hn
  | write buf req =>
    rcases gfifoWriteBody_spec gfifoSize dev buf req with
      ⟨dev', hbody, hkeep⟩ | ⟨n, dev', hbody, hdone⟩
    · have hsame : queued dev' = queued dev := by rw [queued, hkeep.curLen, hkeep.kept, queued]
      simp only [Call.body, Call.out, hbody, hsame]
      exact .fault hready List.nil_prefix
    · have hn : n = min req.size (gfifoSize - (queued dev).length) := by
        rw [length_queued, hdone.count]
      have hlonger : queued dev' = queued dev ++ slice buf 0 n := by
        rw [queued, hdone.curLen, slice_add, hdone.kept, Nat.zero_add, hdone.appended, queued]
      simp only [Call.body, Call.out, hbody, hlonger]
      exact .write hready hn

theorem memClear_serves (hle : dev.curLen ≤ gfifoSize) :
    Serves gfifoSize (queued dev) ⟨.memClear, .ok 0, []⟩
      (queued (gfifoMemClear gfifoSize dev)) := by
  have hzero : queued (gfifoMemClear gfifoSize dev) =
      List.replicate (queued dev).length 0 := by
    rw [length_queued]
    refine List.eq_replicate_iff.mpr ⟨length_queued _, fun b hb => ?_⟩
    obtain ⟨i, hi, rfl⟩ := List.mem_map.mp hb
    have hi : i < dev.curLen := List.mem_range.mp hi
    show blit dev.mem id (fun _ => 0) gfifoSize (0 + i) = 0
    rw [Nat.zero_add]
    exact blit_lane dev.mem id _ (fun j _ hij => hij) (hi.trans_le hle)
  rw [hzero]
  exact .memClear

end Effects

/-! ## Interleavings -/

section Interleavings

variable {s s' : Sys Tid} {t : Tid} {p : Pc}

theorem Sys.acquire_moves (hstep : s.acquire t p = some s') :
    s'.dev = s.dev ∧ s'.pc = Function.update s.pc t p := by
  unfold Sys.acquire at hstep
  split at hstep
  · cases hstep
    exact ⟨rfl, rfl⟩
  · cases hstep

theorem Sys.enter_moves (hstep : s.enter t p = some s') :
    (s.pc t).pending = [] ∧ s'.dev = s.dev ∧ s'.pc = Function.update s.pc t p := by
  unfold Sys.enter at hstep
  split at hstep
  case h_1 hpc | h_2 hpc =>
    cases hstep
    exact ⟨by rw [hpc]; rfl, rfl, rfl⟩
  case h_3 => cases hstep

/-- A statement serves a call, or the queue is left alone. -/
theorem runTask_serves (hinv : Inv gfifoSize s) (hblocking : ∀ u, (s.pc u).Blocking)
    (hle : s.dev.curLen ≤ gfifoSize) (hstep : runTask gfifoSize s t = some s') :
    (takes gfifoSize s t = none ∧ s'.dev = s.dev) ∨
      ∃ e, takes gfifoSize s t = some e ∧ Serves gfifoSize (queued s.dev) e (queued s'.dev) := by
  have htested := hinv.tested t
  have hcall := hblocking t
  cases runTask_ran hstep with
  | lock hpc hacquire | relock hpc hacquire | clearLock hpc hacquire =>
    exact .inl ⟨by simp only [takes, hpc], (Sys.acquire_moves hacquire).1⟩
  | goAway hpc hblocked hnonblock =>
    refine .inr ⟨_, ?_, .again ((waitsFor_queued_iff _).mpr hblocked) hnonblock⟩
    simp only [takes, hpc, hblocked, hnonblock, Bool.and_self, if_true]
  | goToSleep hpc _ hnonblock =>
    refine .inl ⟨?_, rfl⟩
    simp only [takes, hpc, hnonblock, Bool.and_false, Bool.false_eq_true, if_false]
  | pass hpc hblocked =>
    refine .inl ⟨?_, rfl⟩
    simp only [takes, hpc, hblocked, Bool.false_and, Bool.false_eq_true, if_false]
  | interrupted hpc hsignal =>
    rw [hpc] at hcall
    exact .inr ⟨_, by simp only [takes, hpc, hsignal, if_true], .interrupted hcall⟩
  | woken hpc hsignal =>
    exact .inl ⟨by simp only [takes, hpc, hsignal, Bool.false_eq_true, if_false], rfl⟩
  | transferred hpc | faulted hpc =>
    rw [hpc] at htested
    exact .inr ⟨_, by simp only [takes, hpc], body_serves htested⟩
  | clearMemset hpc => exact .inr ⟨_, by simp only [takes, hpc], memClear_serves hle⟩
  | addWaitQueue hpc | setInterruptible hpc | unlockToSleep hpc | schedule hpc =>
    exact .inl ⟨by simp only [takes, hpc], rfl⟩
  | wakeUp hpc | out hpc | out2 hpc | setRunning hpc | clearUnlock hpc =>
    exact .inl ⟨by simp only [takes, hpc], rfl⟩

/-- The books of all tasks are kept when those of the running one are. -/
theorem books_update {e : Option Entry} {r : Option (Operation × Except Errno Nat)}
    (hpc : s'.pc = Function.update s.pc t p)
    (hown : (s.pc t).pending ++ e.toList.map Entry.seen = r.toList ++ p.pending) (u : Tid) :
    (s.pc u).pending ++ (entriesOf u (e.map (Prod.mk t)).toList).map Entry.seen =
      entriesOf u (r.map (Prod.mk t)).toList ++ (s'.pc u).pending := by
  rw [hpc]
  by_cases hu : u = t
  · subst hu
    rw [Function.update_self]
    cases e <;> cases r <;> simpa using hown
  · rw [Function.update_of_ne hu]
    cases e <;> cases r <;> simp [entriesOf_other hu]

/-- A call is told what it did. -/
theorem runTask_books (hstep : runTask gfifoSize s t = some s') (u : Tid) :
    (s.pc u).pending ++
        (entriesOf u ((takes gfifoSize s t).map (Prod.mk t)).toList).map Entry.seen =
      entriesOf u ((tells s t).map (Prod.mk t)).toList ++ (s'.pc u).pending := by
  cases runTask_ran hstep with
  | lock hpc hacquire | relock hpc hacquire | clearLock hpc hacquire =>
    refine books_update (Sys.acquire_moves hacquire).2 ?_ u
    simp [takes, tells, hpc, Pc.pending]
  | goAway hpc hblocked hnonblock =>
    refine books_update rfl ?_ u
    simp [takes, tells, hpc, hblocked, hnonblock, Pc.pending, Entry.seen]
  | goToSleep hpc _ hnonblock =>
    refine books_update rfl ?_ u
    simp [takes, tells, hpc, hnonblock, Pc.pending]
  | pass hpc hblocked =>
    refine books_update rfl ?_ u
    simp [takes, tells, hpc, hblocked, Pc.pending]
  | interrupted hpc hsignal | woken hpc hsignal =>
    refine books_update rfl ?_ u
    simp [takes, tells, hpc, hsignal, Pc.pending, Entry.seen]
  | transferred hpc | faulted hpc | clearMemset hpc =>
    refine books_update rfl ?_ u
    simp [takes, tells, hpc, Pc.pending, Entry.seen]
  | addWaitQueue hpc | setInterruptible hpc | unlockToSleep hpc | schedule hpc =>
    refine books_update rfl ?_ u
    simp [takes, tells, hpc, Pc.pending]
  | wakeUp hpc | out hpc | out2 hpc | setRunning hpc | clearUnlock hpc =>
    refine books_update rfl ?_ u
    simp [takes, tells, hpc, Pc.pending]

theorem step_books {a : Action Tid} (hstep : step gfifoSize s a = some s') (u : Tid) :
    (s.pc u).pending ++ (entriesOf u (effect gfifoSize s a).toList).map Entry.seen =
      entriesOf u (answer s a).toList ++ (s'.pc u).pending := by
  cases a with
  | call t c | memClear t =>
    obtain ⟨hidle, -, hpc⟩ := Sys.enter_moves hstep
    exact books_update (e := none) (r := none) hpc (by rw [hidle]; rfl) u
  | run t => exact runTask_books hstep u
  | signal t =>
    cases hstep
    simp [effect, answer]

/-- The queue behind a state of the driver. -/
structure Holds (gfifoSize : Nat) (s : Sys Tid) (queue : List Byte) : Prop where
  inv : Inv gfifoSize s
  blocking : ∀ u, (s.pc u).Blocking
  queue_eq : queued s.dev = queue
  length_le : queue.length ≤ gfifoSize

theorem step_holds {a : Action Tid} {queue : List Byte} (h : Holds gfifoSize s queue)
    (hstep : step gfifoSize s a = some s') :
    (effect gfifoSize s a = none ∧ Holds gfifoSize s' queue) ∨
      ∃ t e queue', effect gfifoSize s a = some (t, e) ∧ Serves gfifoSize queue e queue' ∧
        Holds gfifoSize s' queue' := by
  have hinv := step_inv h.inv hstep
  have hblocking := step_blocking h.blocking hstep
  have hquiet : s'.dev = s.dev → Holds gfifoSize s' queue := fun hdev =>
    ⟨hinv, hblocking, by rw [hdev, h.queue_eq], h.length_le⟩
  cases a with
  | call t c | memClear t => exact .inl ⟨rfl, hquiet (Sys.enter_moves hstep).2.1⟩
  | signal t =>
    cases hstep
    exact .inl ⟨rfl, hquiet rfl⟩
  | run t =>
    obtain ⟨hinv', hblocking', rfl, hle⟩ := h
    rw [length_queued] at hle
    rcases runTask_serves hinv' hblocking' hle hstep with ⟨hnone, hdev⟩ | ⟨e, hsome, hserves⟩
    · exact .inl ⟨by rw [effect, hnone, Option.map_none], hquiet hdev⟩
    · refine .inr ⟨t, e, queued s'.dev, by rw [effect, hsome, Option.map_some], hserves, ?_⟩
      exact ⟨hinv, hblocking, rfl, hserves.length_le (by rwa [length_queued])⟩

/-- **Linearizability.** In every interleaving of reads, writes and `MEM_CLEAR`s the calls that have
taken effect are a legal history of the bounded queue, which then holds what the device holds; every
task was told what its part of that history says, except for the last call that it will be told; and
if nobody has cleared, the bytes written are those read and then those still queued. -/
theorem gfifo_linearizable
    {x : Traced (Sys Tid) Tid Entry (Operation × Except Errno Nat)}
    (h : Reach (Traced.step (step gfifoSize) (effect gfifoSize) answer) anyStep (.start .fresh) x) :
    Legal (Serves gfifoSize) [] (x.log.map Prod.snd) (queued x.sys.dev) ∧
    (queued x.sys.dev).length ≤ gfifoSize ∧
    (∀ t, (entriesOf t x.log).map Entry.seen =
      entriesOf t x.returned ++ (x.sys.pc t).pending) ∧
    ((∀ e ∈ x.log.map Prod.snd, e.op ≠ .memClear) →
      (x.log.map Prod.snd).flatMap Entry.taken =
        (x.log.map Prod.snd).flatMap Entry.given ++ queued x.sys.dev) := by
  have hfresh : Holds gfifoSize (.fresh : Sys Tid) [] :=
    ⟨Inv.fresh gfifoSize, fun _ => trivial, rfl, Nat.zero_le _⟩
  obtain ⟨⟨queue, hlegal, hholds⟩, htold⟩ :=
    linearizes (Serves gfifoSize) (fun (s : Sys Tid) t => (s.pc t).pending) hfresh (fun _ => rfl)
      step_holds step_books h
  rw [hholds.queue_eq]
  exact ⟨hlegal, hholds.length_le, htold, Legal.stream hlegal⟩

end Interleavings

/-- A reader falls asleep, a writer brings eleven bytes, and the reader takes seven of them. -/
def readerIsServed : List (Action Bool) :=
  .call true (.read ⟨7, false, 7, by decide⟩) :: List.replicate 5 (.run true) ++
    .call false (.write (fun i => .ofNat (i + 1)) ⟨11, false, 11, by decide⟩) ::
    List.replicate 8 (.run false) ++ List.replicate 9 (.run true)

theorem gfifo_linearizable_two_calls :
    ∃ x,
      runFrom (Traced.step (step 16) (effect 16) answer) (.start .fresh) readerIsServed = some x ∧
      (entriesOf true x.log).map Entry.seen = entriesOf true x.returned ∧
      [1, 2, 3, 4, 5, 6, 7, 8, 9, 10, 11] =
        (x.log.map Prod.snd).flatMap Entry.given ++ queued x.sys.dev := by
  obtain ⟨x, hrun, hback, hops, htaken⟩ : ∃ x,
      runFrom (Traced.step (step 16) (effect 16) answer) (.start .fresh) readerIsServed = some x ∧
      (x.sys.pc true).pending = [] ∧
      (x.log.map Prod.snd).map Entry.op =
        [.call (.write (fun i => .ofNat (i + 1)) ⟨11, false, 11, by decide⟩),
          .call (.read ⟨7, false, 7, by decide⟩)] ∧
      (x.log.map Prod.snd).flatMap Entry.taken = [1, 2, 3, 4, 5, 6, 7, 8, 9, 10, 11] :=
    ⟨_, rfl, rfl, rfl, by decide⟩
  obtain ⟨-, -, htold, hstream⟩ := gfifo_linearizable (reach_runFrom hrun)
  refine ⟨x, hrun, ?_, ?_⟩
  · rw [htold, hback, List.append_nil]
  · rw [← htaken]
    refine hstream fun e he hclear => ?_
    have hmem := List.mem_map_of_mem (f := Entry.op) he
    rw [hops, hclear] at hmem
    simp at hmem

end LinuxDeviceDriver.Gfifo.WaitQueue
