import Mathlib.Data.List.Nodup
import LinuxDeviceDriver.Lib.Transition
import LinuxDeviceDriver.Led.Panel

/-!
# LED updates on the workqueue

With `use_workqueue` set, `dev_leds_brightness_set` allocates a work item, fills it and queues
it. The item is reached through `priv->works`, which all calls share and every statement reads
anew, so calls on different LEDs can fill each other's items.

The module has the statements of the calls and of the worker one by one. `Alone` says that no
other call is between its `kzalloc` and its `queue_work` when a call allocates. Under it the
calls are one after the other in the heap (`Inv`): what has been performed, the item the worker
has, the items that wait and the one that is being filled make up the calls that were issued, in
their order.

One lemma per statement keeps `Inv`; `heap_update` is what they share.
-/

namespace LinuxDeviceDriver.Led.Queue

open Lib Generic

/-! ## State -/

/-- `struct dev_work`; `initialized` and `pending` are those of its `work`. -/
structure Item (n : Nat) where
  cdev : Option (Fin n)
  value : Brightness
  initialized : Bool
  pending : Bool
deriving DecidableEq

/-- A work item as `kzalloc` returns it. -/
def Item.zero {n : Nat} : Item n := ⟨none, 0, false, false⟩

/-- The statement a call of `dev_leds_brightness_set` is at. -/
inductive Pc
  | idle
  | kzalloc (ledValue : Brightness)
  | test (ledValue : Brightness)
  | initWork (ledValue : Brightness)
  | setCdev (ledValue : Brightness)
  | setValue (ledValue : Brightness)
  | queueWork (ledValue : Brightness)
deriving DecidableEq

/-- The statement of `dev_led_set_work` the worker is at. -/
inductive WorkerPc
  | idle
  | set (item : Nat)
  | kfree (item : Nat)
deriving DecidableEq

/-- The device, with at most one call on each of its `n` LEDs. `issued` are the calls whose
allocation succeeded, `performed` those the worker has seen to. `fault` is set by an access
through a null pointer or to freed memory, by an item initialized while it is queued or queued
before it is, and by a work item without a LED. -/
structure State (n : Nat) (σ : Type) where
  callers : Fin n → Pc
  worker : WorkerPc
  works : Option Nat
  heap : Nat → Option (Item n)
  allocated : Nat
  queue : List Nat
  regs : σ
  issued : List (Fin n × Brightness)
  performed : List (Fin n × Brightness)
  fault : Bool

def State.start (n : Nat) {σ : Type} (regs : σ) : State n σ :=
  ⟨fun _ => .idle, .idle, none, fun _ => none, 0, [], regs, [], [], false⟩

inductive Event (n : Nat)
  | call (i : Fin n) (ledValue : Brightness)
  | kzalloc (i : Fin n) (succeeds : Bool)
  | run (i : Fin n)
  | work

section Step

variable {n : Nat} {σ : Type}

def State.goto (s : State n σ) (i : Fin n) (pc : Pc) : State n σ :=
  { s with callers := Function.update s.callers i pc }

/-- Change the item that `priv->works` points to. -/
def State.modifyWorks (s : State n σ) (f : Item n → Item n) : State n σ :=
  match s.works with
  | none => { s with fault := true }
  | some k =>
    match s.heap k with
    | none => { s with fault := true }
    | some item => { s with heap := Function.update s.heap k (some (f item)) }

/-- `priv->works = kzalloc(...)` -/
def State.kzalloc (s : State n σ) (i : Fin n) (ledValue : Brightness) : Bool → State n σ
  | true =>
    { s with
      works := some s.allocated
      heap := Function.update s.heap s.allocated (some .zero)
      allocated := s.allocated + 1
      issued := s.issued ++ [(i, ledValue)] }
  | false => { s with works := none }

/-- `INIT_WORK(&priv->works->work, dev_led_set_work)` -/
def State.initWork (s : State n σ) : State n σ :=
  match s.works.bind s.heap with
  | some ⟨_, _, _, true⟩ => { s with fault := true }
  | _ => s.modifyWorks fun item => { item with initialized := true }

/-- `queue_work(priv->workqueue, &priv->works->work)`: an item that waits already stays where it
is. -/
def State.queueWork (s : State n σ) : State n σ :=
  match s.works with
  | none => { s with fault := true }
  | some k =>
    match s.heap k with
    | none => { s with fault := true }
    | some item =>
      if item.pending then s
      else if !item.initialized then { s with fault := true }
      else
        { s with
          heap := Function.update s.heap k (some { item with pending := true })
          queue := s.queue ++ [k] }

/-- The next statement of the call on LED `i`. -/
def State.run (s : State n σ) (i : Fin n) : Option (State n σ) :=
  match s.callers i with
  | .test ledValue =>
    some (if s.works = none then s.goto i .idle else s.goto i (.initWork ledValue))
  | .initWork ledValue => some (s.initWork.goto i (.setCdev ledValue))
  | .setCdev ledValue =>
    some ((s.modifyWorks fun item => { item with cdev := some i }).goto i (.setValue ledValue))
  | .setValue ledValue =>
    some ((s.modifyWorks fun item => { item with value := ledValue }).goto i (.queueWork ledValue))
  | .queueWork _ => some (s.queueWork.goto i .idle)
  | _ => none

variable (exec : (c : RegCmd) → σ → c.Answer × σ) (leds : Leds)

/-- `_dev_leds_brightness_set(led_queued_work->cdev, led_queued_work->value)` -/
def State.perform (s : State n σ) (k : Nat) : State n σ :=
  match s.heap k with
  | some ⟨some i, ledValue, _, _⟩ =>
    { s with
      regs := ((_devLedsBrightnessSet (leds i) ledValue).run exec s.regs).2
      performed := s.performed ++ [(i, ledValue)] }
  | _ => { s with fault := true }

/-- The next step of the worker. -/
def State.work (s : State n σ) : Option (State n σ) :=
  match s.worker with
  | .idle =>
    match s.queue with
    | [] => none
    | k :: queue =>
      some
        { s with
          queue := queue
          heap := Function.update s.heap k
            ((s.heap k).map fun item => { item with pending := false })
          worker := .set k }
  | .set k => some { s.perform exec leds k with worker := .kfree k }
  | .kfree k => some { s with heap := Function.update s.heap k none, worker := .idle }

def step (s : State n σ) : Event n → Option (State n σ)
  | .call i ledValue =>
    if s.callers i = .idle then some (s.goto i (.kzalloc ledValue)) else none
  | .kzalloc i succeeds =>
    match s.callers i with
    | .kzalloc ledValue => some ((s.kzalloc i ledValue succeeds).goto i (.test ledValue))
    | _ => none
  | .run i => s.run i
  | .work => s.work exec leds

/-! ## The calls one at a time -/

/-- Between `kzalloc` and `queue_work`. -/
def Pc.inside : Pc → Bool
  | idle => false
  | kzalloc _ => false
  | _ => true

/-- No other call is filling an item when one allocates. -/
def Alone (s : State n σ) : Event n → Prop
  | .kzalloc i _ => ∀ j, j ≠ i → (s.callers j).inside = false
  | _ => True

instance (s : State n σ) (e : Event n) : Decidable (Alone s e) := by
  cases e <;> unfold Alone <;> infer_instance

end Step

/-! ## The invariant -/

section Invariant

variable {n : Nat} {σ : Type} {exec : (c : RegCmd) → σ → c.Answer × σ} {leds : Leds} {regs : σ}
variable {s : State n σ} {r w b : List (Fin n × Brightness)}

/-- The item of a call while it waits. -/
def Item.queued (c : Fin n × Brightness) : Item n := ⟨some c.1, c.2, true, true⟩

/-- The item of a call once the worker has it. -/
def Item.taken (c : Fin n × Brightness) : Item n := ⟨some c.1, c.2, true, false⟩

/-- The value of a call that fills an item, and what the item holds before its statement. -/
def Pc.filling (i : Fin n) : Pc → Option (Brightness × Item n)
  | test ledValue => some (ledValue, .zero)
  | initWork ledValue => some (ledValue, .zero)
  | setCdev ledValue => some (ledValue, ⟨none, 0, true, false⟩)
  | setValue ledValue => some (ledValue, ⟨some i, 0, true, false⟩)
  | queueWork ledValue => some (ledValue, ⟨some i, ledValue, true, false⟩)
  | _ => none

theorem Pc.inside_of_filling {i : Fin n} {pc : Pc} {x : Brightness × Item n}
    (h : pc.filling i = some x) : pc.inside = true := by
  cases pc <;> first | rfl | cases h

theorem Pc.pending_of_filling {i : Fin n} {pc : Pc} {v : Brightness} {item : Item n}
    (h : pc.filling i = some (v, item)) : item.pending = false := by
  cases pc <;> cases h <;> rfl

def WorkerPc.item : WorkerPc → Option Nat
  | idle => none
  | set k => some k
  | kfree k => some k

/-- The call the worker is about to perform. -/
def Works (heap : Nat → Option (Item n)) (r : List (Fin n × Brightness)) : WorkerPc → Prop
  | .idle => r = []
  | .set k => ∃ c, heap k = some (.taken c) ∧ r = [c]
  | .kfree k => (∃ c, heap k = some (.taken c)) ∧ r = []

/-- The call on LED `i` fills the item at `priv->works`, or is about to see that it has none. -/
def Fills (s : State n σ) (i : Fin n) (b : List (Fin n × Brightness)) : Prop :=
  ∃ v item, (s.callers i).filling i = some (v, item) ∧
    ((∃ k, s.works = some k ∧ s.heap k = some item ∧ s.worker.item ≠ some k ∧ b = [(i, v)]) ∨
      (s.callers i = .test v ∧ s.works = none ∧ b = []))

/-- At most one call is between `kzalloc` and `queue_work`. -/
def Building (s : State n σ) (b : List (Fin n × Brightness)) : Prop :=
  (b = [] ∧ ∀ j, (s.callers j).inside = false) ∨
    ∃ i, (∀ j, j ≠ i → (s.callers j).inside = false) ∧ Fills s i b

/-- The calls that were issued: performed, with the worker (`r`), waiting (`w`), being built
(`b`). -/
structure Inv (exec : (c : RegCmd) → σ → c.Answer × σ) (leds : Leds) (regs : σ) (s : State n σ)
    (r w b : List (Fin n × Brightness)) : Prop where
  fault : s.fault = false
  fresh : ∀ k, s.allocated ≤ k → s.heap k = none
  nodup : s.queue.Nodup
  regs : s.regs = s.performed.foldl
    (fun regs c => ((_devLedsBrightnessSet (leds c.1) c.2).run exec regs).2) regs
  works : Works s.heap r s.worker
  queue : s.queue.map s.heap = w.map fun c => some (.queued c)
  building : Building s b
  issued : s.issued = s.performed ++ r ++ w ++ b

theorem inv_start (exec : (c : RegCmd) → σ → c.Answer × σ) (leds : Leds) (n : Nat) (regs : σ) :
    Inv exec leds regs (State.start n regs) [] [] [] where
  fault := rfl
  fresh _ _ := rfl
  nodup := List.nodup_nil
  regs := rfl
  works := rfl
  queue := rfl
  building := Or.inl ⟨rfl, fun _ => rfl⟩
  issued := rfl

/-! ### The heap -/

theorem Inv.lt_allocated (h : Inv exec leds regs s r w b) {k : Nat} {item : Item n}
    (hk : s.heap k = some item) : k < s.allocated := by
  by_contra hge
  have hnone := h.fresh k (Nat.le_of_not_lt hge)
  rw [hk] at hnone
  cases hnone

/-- Only items that wait are in the queue. -/
theorem Inv.notMem_queue (h : Inv exec leds regs s r w b) {k : Nat}
    (hk : ∀ c, s.heap k ≠ some (.queued c)) : k ∉ s.queue := by
  intro hmem
  have hheap : s.heap k ∈ w.map fun c => some (.queued c) := h.queue ▸ List.mem_map_of_mem hmem
  obtain ⟨c, -, hc⟩ := List.mem_map.mp hheap
  exact hk c hc.symm

theorem notQueued_of_pending {item : Item n} (hpending : item.pending = false)
    (c : Fin n × Brightness) : some item ≠ some (.queued c) := by
  intro hsame
  cases hsame
  cases hpending

theorem Inv.notMem_of_pending (h : Inv exec leds regs s r w b) {k : Nat} {item : Item n}
    (hheap : s.heap k = some item) (hpending : item.pending = false) : k ∉ s.queue := by
  refine h.notMem_queue fun c => ?_
  rw [hheap]
  exact notQueued_of_pending hpending c

/-- Whatever is done to an allocated item, the memory behind stays unused. -/
theorem Inv.fresh_update (h : Inv exec leds regs s r w b) {k : Nat} {item : Item n}
    (hheap : s.heap k = some item) (item' : Option (Item n)) :
    ∀ k', s.allocated ≤ k' → Function.update s.heap k item' k' = none := by
  intro k' hk'
  have hne : k' ≠ k := Nat.ne_of_gt (Nat.lt_of_lt_of_le (h.lt_allocated hheap) hk')
  rw [Function.update_of_ne hne]
  exact h.fresh k' hk'

/-- Changes of the heap outside the queue. -/
theorem map_update_heap {queue : List Nat} {k : Nat} (hk : k ∉ queue) (heap : Nat → Option (Item n))
    (item : Option (Item n)) : queue.map (Function.update heap k item) = queue.map heap := by
  refine List.map_congr_left fun k' hk' => ?_
  have hne : k' ≠ k := fun hsame => hk (hsame ▸ hk')
  exact Function.update_of_ne hne ..

/-- Changes of the heap that do not concern the worker. -/
theorem Works.update {heap : Nat → Option (Item n)} {worker : WorkerPc} (h : Works heap r worker)
    {k : Nat} (hk : worker.item ≠ some k) (item : Option (Item n)) :
    Works (Function.update heap k item) r worker := by
  cases worker with
  | idle => exact h
  | set k' =>
    have hne : k' ≠ k := fun hsame => hk (congrArg some hsame)
    obtain ⟨c, hc, hr⟩ := h
    exact ⟨c, (Function.update_of_ne hne ..).trans hc, hr⟩
  | kfree k' =>
    have hne : k' ≠ k := fun hsame => hk (congrArg some hsame)
    obtain ⟨⟨c, hc⟩, hr⟩ := h
    exact ⟨⟨c, (Function.update_of_ne hne ..).trans hc⟩, hr⟩

theorem Works.item {heap : Nat → Option (Item n)} {worker : WorkerPc} (h : Works heap r worker)
    {k : Nat} (hk : worker.item = some k) : ∃ c, heap k = some (.taken c) := by
  cases worker with
  | idle => cases hk
  | set k' =>
    cases hk
    obtain ⟨c, hc, -⟩ := h
    exact ⟨c, hc⟩
  | kfree k' =>
    cases hk
    exact h.1

/-- The call that is inside is the one that builds. -/
theorem Building.fills (h : Building s b) {i : Fin n} (hi : (s.callers i).inside = true) :
    (∀ j, j ≠ i → (s.callers j).inside = false) ∧ Fills s i b := by
  rcases h with ⟨-, houtside⟩ | ⟨i', hothers, hfills⟩
  · exact absurd ((houtside i).symm.trans hi) Bool.false_ne_true
  · have hsame : i = i' := by
      by_contra hne
      exact absurd ((hothers i hne).symm.trans hi) Bool.false_ne_true
    subst hsame
    exact ⟨hothers, hfills⟩

/-- Past the test, there is an item. -/
theorem Fills.item {i : Fin n} (h : Fills s i b) {v : Brightness} {item : Item n}
    (hfilling : (s.callers i).filling i = some (v, item)) (htest : s.callers i ≠ .test v) :
    b = [(i, v)] ∧ ∃ k, s.works = some k ∧ s.heap k = some item ∧ s.worker.item ≠ some k := by
  obtain ⟨v', item', hfilling', hitem | ⟨hpc, -⟩⟩ := h
  · cases hfilling.symm.trans hfilling'
    obtain ⟨k, hworks, hheap, hworker, hb⟩ := hitem
    exact ⟨hb, k, hworks, hheap, hworker⟩
  · cases hfilling.symm.trans hfilling'
    exact absurd hpc htest

theorem modifyWorks_eq {k : Nat} {item : Item n} (hworks : s.works = some k)
    (hheap : s.heap k = some item) (f : Item n → Item n) :
    s.modifyWorks f = { s with heap := Function.update s.heap k (some (f item)) } := by
  unfold State.modifyWorks
  rw [hworks]
  dsimp only
  rw [hheap]

/-! ### The calls -/

theorem goto_self (s : State n σ) (i : Fin n) (pc : Pc) : (s.goto i pc).callers i = pc :=
  Function.update_self ..

theorem goto_of_ne (s : State n σ) {i j : Fin n} (hj : j ≠ i) (pc : Pc) :
    (s.goto i pc).callers j = s.callers j :=
  Function.update_of_ne hj ..

theorem goto_others {i : Fin n} (hothers : ∀ j, j ≠ i → (s.callers j).inside = false) (pc : Pc) :
    ∀ j, j ≠ i → ((s.goto i pc).callers j).inside = false := by
  intro j hj
  rw [goto_of_ne s hj]
  exact hothers j hj

/-- The call leaves, and nobody is inside. -/
theorem goto_outside {i : Fin n} (hothers : ∀ j, j ≠ i → (s.callers j).inside = false) {pc : Pc}
    (hpc : pc.inside = false) : ∀ j, ((s.goto i pc).callers j).inside = false := by
  intro j
  by_cases hj : j = i
  · subst hj
    rw [goto_self]
    exact hpc
  · exact goto_others hothers pc j hj

/-- One of the statements that fill the item. -/
theorem Inv.fill (h : Inv exec leds regs s r w b) {i : Fin n} {v : Brightness} {item : Item n}
    {pc : Pc} {f : Item n → Item n} (hfilling : (s.callers i).filling i = some (v, item))
    (htest : s.callers i ≠ .test v) (hnext : pc.filling i = some (v, f item)) :
    Inv exec leds regs ((s.modifyWorks f).goto i pc) r w b := by
  obtain ⟨hothers, hfills⟩ := h.building.fills (Pc.inside_of_filling hfilling)
  obtain ⟨hb, k, hworks, hheap, hworker⟩ := hfills.item hfilling htest
  have hqueue := h.notMem_of_pending hheap (Pc.pending_of_filling hfilling)
  rw [modifyWorks_eq hworks hheap]
  refine ⟨h.fault, h.fresh_update hheap _, h.nodup, h.regs, h.works.update hworker _, ?_, ?_,
    h.issued⟩
  · exact (map_update_heap hqueue s.heap _).trans h.queue
  · refine Or.inr ⟨i, goto_others hothers pc, v, f item, ?_,
      Or.inl ⟨k, hworks, Function.update_self .., hworker, hb⟩⟩
    rw [goto_self]
    exact hnext

/-- A call that moves on between two statements outside. -/
theorem Inv.goto_outside (h : Inv exec leds regs s r w b) {i : Fin n} {pc : Pc}
    (hnow : (s.callers i).inside = false) (hnext : pc.inside = false) :
    Inv exec leds regs (s.goto i pc) r w b := by
  have houtside : ∀ j, (s.callers j).inside = false →
      ((s.goto i pc).callers j).inside = false := by
    intro j hj
    by_cases hji : j = i
    · subst hji
      rw [goto_self]
      exact hnext
    · rw [goto_of_ne s hji]
      exact hj
  refine ⟨h.fault, h.fresh, h.nodup, h.regs, h.works, h.queue, ?_, h.issued⟩
  rcases h.building with ⟨hb, hall⟩ | ⟨i', hothers, v, item, hfilling, hfills⟩
  · exact Or.inl ⟨hb, fun j => houtside j (hall j)⟩
  · have hne : i' ≠ i := by
      rintro rfl
      exact Bool.false_ne_true (hnow.symm.trans (Pc.inside_of_filling hfilling))
    refine Or.inr ⟨i', fun j hj => houtside j (hothers j hj), v, item, ?_, ?_⟩
    · rw [goto_of_ne s hne]
      exact hfilling
    · rw [goto_of_ne s hne]
      exact hfills

/-- Nobody is inside when a call allocates. -/
theorem Inv.building_nil (h : Inv exec leds regs s r w b)
    (houtside : ∀ j, (s.callers j).inside = false) : b = [] := by
  rcases h.building with ⟨hb, -⟩ | ⟨i, -, v, item, hfilling, -⟩
  · exact hb
  · exact absurd ((houtside i).symm.trans (Pc.inside_of_filling hfilling)) Bool.false_ne_true

theorem Inv.kzalloc (h : Inv exec leds regs s r w b) {i : Fin n} {v : Brightness}
    (hpc : s.callers i = .kzalloc v) (halone : ∀ j, j ≠ i → (s.callers j).inside = false)
    (succeeds : Bool) :
    ∃ b', Inv exec leds regs ((s.kzalloc i v succeeds).goto i (.test v)) r w b' := by
  have hnone := h.fresh s.allocated (Nat.le_refl _)
  -- this call is not inside yet, and no other is
  have hb : b = [] := by
    refine h.building_nil fun j => ?_
    by_cases hj : j = i
    · rw [hj, hpc]
      rfl
    · exact halone j hj
  subst hb
  have hothers := goto_others halone (.test v)
  have hself := goto_self s i (.test v)
  cases succeeds with
  | false =>
    refine ⟨[], h.fault, h.fresh, h.nodup, h.regs, h.works, h.queue, ?_, h.issued⟩
    exact Or.inr ⟨i, hothers, v, .zero, congrArg (Pc.filling i) hself, Or.inr ⟨hself, rfl, rfl⟩⟩
  | true =>
    -- unused memory is neither with the worker nor in the queue
    have hworker : s.worker.item ≠ some s.allocated := by
      intro hitem
      obtain ⟨c, hc⟩ := h.works.item hitem
      exact Option.some_ne_none _ (hc.symm.trans hnone)
    have hqueue : s.allocated ∉ s.queue := by
      refine h.notMem_queue fun c => ?_
      rw [hnone]
      exact (Option.some_ne_none _).symm
    refine ⟨[(i, v)], h.fault, fun k hk => ?_, h.nodup, h.regs, h.works.update hworker _, ?_, ?_,
      ?_⟩
    · have hlt : s.allocated < k := hk
      exact (Function.update_of_ne (Nat.ne_of_gt hlt) ..).trans (h.fresh k (Nat.le_of_lt hlt))
    · exact (map_update_heap hqueue s.heap _).trans h.queue
    · refine Or.inr ⟨i, hothers, v, .zero, congrArg (Pc.filling i) hself,
        Or.inl ⟨s.allocated, rfl, Function.update_self .., hworker, rfl⟩⟩
    · exact congrArg (· ++ [(i, v)]) (h.issued.trans (List.append_nil _))

/-- `if (priv->works == NULL)` -/
theorem Inv.test (h : Inv exec leds regs s r w b) {i : Fin n} {v : Brightness}
    (hpc : s.callers i = .test v) :
    Inv exec leds regs
      (if s.works = none then s.goto i .idle else s.goto i (.initWork v)) r w b := by
  have hfilling : (s.callers i).filling i = some (v, .zero) := by rw [hpc]; rfl
  obtain ⟨hothers, v', item, hfilling', hfills⟩ :=
    h.building.fills (Pc.inside_of_filling hfilling)
  cases hfilling.symm.trans hfilling'
  -- with an item the call goes on to fill it, without one it returns
  rcases hfills with ⟨k, hworks, hheap, hworker, hb⟩ | ⟨-, hworks, hb⟩
  · rw [if_neg (by rw [hworks]; exact Option.some_ne_none k)]
    refine ⟨h.fault, h.fresh, h.nodup, h.regs, h.works, h.queue, ?_, h.issued⟩
    refine Or.inr ⟨i, goto_others hothers _, v, .zero, ?_, Or.inl ⟨k, hworks, hheap, hworker, hb⟩⟩
    rw [goto_self]
    rfl
  · rw [if_pos hworks]
    exact ⟨h.fault, h.fresh, h.nodup, h.regs, h.works, h.queue,
      Or.inl ⟨hb, Queue.goto_outside hothers rfl⟩, h.issued⟩

/-- The item of the call joins the queue. -/
theorem Inv.queueWork (h : Inv exec leds regs s r w b) {i : Fin n} {v : Brightness}
    (hpc : s.callers i = .queueWork v) :
    Inv exec leds regs (s.queueWork.goto i .idle) r (w ++ [(i, v)]) [] := by
  have hfilling : (s.callers i).filling i = some (v, ⟨some i, v, true, false⟩) := by rw [hpc]; rfl
  have htest : s.callers i ≠ .test v := by rw [hpc]; exact Pc.noConfusion
  obtain ⟨hothers, hfills⟩ := h.building.fills (Pc.inside_of_filling hfilling)
  obtain ⟨hb, k, hworks, hheap, hworker⟩ := hfills.item hfilling htest
  have hqueue := h.notMem_of_pending hheap rfl
  have hqueued : s.queueWork =
      { s with
        heap := Function.update s.heap k (some (.queued (i, v)))
        queue := s.queue ++ [k] } := by
    unfold State.queueWork
    rw [hworks]
    dsimp only
    rw [hheap]
    rfl
  rw [hqueued]
  refine ⟨h.fault, h.fresh_update hheap _, ?_, h.regs, h.works.update hworker _, ?_, ?_, ?_⟩
  · rw [← List.concat_eq_append]
    exact h.nodup.concat hqueue
  · show (s.queue ++ [k]).map (Function.update s.heap k (some (.queued (i, v)))) = _
    rw [List.map_append, map_update_heap hqueue, h.queue, List.map_singleton, List.map_append,
      List.map_singleton, Function.update_self]
  · exact Or.inl ⟨rfl, Queue.goto_outside hothers rfl⟩
  · show s.issued = s.performed ++ r ++ (w ++ [(i, v)]) ++ []
    rw [h.issued, hb, List.append_nil, List.append_assoc]

/-! ### The worker -/

/-- The call that builds is not concerned. -/
theorem Building.worker (h : Building s b) {s' : State n σ} (hcallers : s'.callers = s.callers)
    (hworks : s'.works = s.works)
    (hkeep : ∀ k item, s.heap k = some item → item.pending = false → s.worker.item ≠ some k →
      s'.heap k = some item ∧ s'.worker.item ≠ some k) : Building s' b := by
  unfold Building Fills at *
  rw [hcallers, hworks]
  rcases h with hnobody | ⟨i, hothers, v, item, hfilling, ⟨k, hk, hheap, hworker, hb⟩ | hnull⟩
  · exact Or.inl hnobody
  · obtain ⟨hheap', hworker'⟩ := hkeep k item hheap (Pc.pending_of_filling hfilling) hworker
    exact Or.inr ⟨i, hothers, v, item, hfilling, Or.inl ⟨k, hk, hheap', hworker', hb⟩⟩
  · exact Or.inr ⟨i, hothers, v, item, hfilling, Or.inr hnull⟩

/-- The worker takes the first item. -/
theorem Inv.take (h : Inv exec leds regs s r w b) {k : Nat} {queue : List Nat}
    (hworker : s.worker = .idle) (hqueue : s.queue = k :: queue) :
    ∃ c w', w = c :: w' ∧
      Inv exec leds regs
        { s with
          queue := queue
          heap := Function.update s.heap k
            ((s.heap k).map fun item => { item with pending := false })
          worker := .set k } [c] w' b := by
  have hmap := h.queue
  have hnodup := h.nodup
  have hr : r = [] := by
    have hworks := h.works
    rw [hworker] at hworks
    exact hworks
  rw [hqueue] at hmap hnodup
  obtain ⟨hnotMem, hnodup⟩ := List.nodup_cons.mp hnodup
  -- the first item in the queue is that of the first call that waits
  obtain _ | ⟨c, w'⟩ := w
  · cases hmap
  · obtain ⟨hheap, hrest⟩ := List.cons.inj hmap
    rw [hheap]
    refine ⟨c, w', rfl, h.fault, h.fresh_update hheap _, hnodup, h.regs, ?_, ?_, ?_, ?_⟩
    · exact ⟨c, Function.update_self .., rfl⟩
    · exact (map_update_heap hnotMem s.heap _).trans hrest
    · -- an item that is being filled is not pending, so it is not this one
      refine h.building.worker rfl rfl fun k' item hk' hpending _ => ?_
      have hne : k' ≠ k := by
        rintro rfl
        exact notQueued_of_pending hpending c (hk'.symm.trans hheap)
      refine ⟨(Function.update_of_ne hne ..).trans hk', ?_⟩
      exact fun hsame => hne (Option.some.inj hsame).symm
    · refine h.issued.trans ?_
      rw [hr, List.append_nil, List.append_assoc s.performed [c] w', List.singleton_append]

/-- The worker performs its call. -/
theorem Inv.perform (h : Inv exec leds regs s r w b) {k : Nat} (hworker : s.worker = .set k) :
    Inv exec leds regs { s.perform exec leds k with worker := .kfree k } [] w b := by
  have hworks := h.works
  rw [hworker] at hworks
  obtain ⟨c, hheap, hr⟩ := hworks
  have hperform : s.perform exec leds k =
      { s with
        regs := ((_devLedsBrightnessSet (leds c.1) c.2).run exec s.regs).2
        performed := s.performed ++ [c] } := by
    unfold State.perform
    rw [hheap]
    rfl
  rw [hperform]
  refine ⟨h.fault, h.fresh, h.nodup, ?_, ⟨⟨c, hheap⟩, rfl⟩, h.queue, ?_, ?_⟩
  · show _ = List.foldl _ _ (s.performed ++ [c])
    rw [List.foldl_append, ← h.regs]
    rfl
  · refine h.building.worker rfl rfl fun k' item hk' _ hne => ⟨hk', ?_⟩
    rw [hworker] at hne
    exact hne
  · show s.issued = s.performed ++ [c] ++ [] ++ w ++ b
    rw [h.issued, hr, List.append_nil]

/-- The item is freed; nobody else has it. -/
theorem Inv.kfree (h : Inv exec leds regs s r w b) {k : Nat} (hworker : s.worker = .kfree k) :
    Inv exec leds regs { s with heap := Function.update s.heap k none, worker := .idle } r w b := by
  have hworks := h.works
  rw [hworker] at hworks
  obtain ⟨⟨c, hheap⟩, hr⟩ := hworks
  have hqueue := h.notMem_of_pending hheap rfl
  refine ⟨h.fault, h.fresh_update hheap none, h.nodup, h.regs, hr, ?_, ?_, h.issued⟩
  · exact (map_update_heap hqueue s.heap _).trans h.queue
  · refine h.building.worker rfl rfl fun k' item hk' _ hne => ?_
    rw [hworker] at hne
    have hne' : k' ≠ k := fun hsame => hne (congrArg some hsame.symm)
    exact ⟨(Function.update_of_ne hne' ..).trans hk', (Option.some_ne_none k').symm⟩

/-! ### Steps and runs -/

/-- The item is not pending when it is initialized. -/
theorem Inv.initWork (h : Inv exec leds regs s r w b) {i : Fin n} {v : Brightness}
    (hpc : s.callers i = .initWork v) :
    Inv exec leds regs (s.initWork.goto i (.setCdev v)) r w b := by
  have hfilling : (s.callers i).filling i = some (v, .zero) := by rw [hpc]; rfl
  have htest : s.callers i ≠ .test v := by rw [hpc]; exact Pc.noConfusion
  obtain ⟨-, k, hworks, hheap, -⟩ :=
    (h.building.fills (Pc.inside_of_filling hfilling)).2.item hfilling htest
  have hinit : s.initWork = s.modifyWorks fun item => { item with initialized := true } := by
    unfold State.initWork
    rw [hworks, Option.bind_some, hheap]
    rfl
  rw [hinit]
  exact h.fill hfilling htest rfl

theorem Inv.run (h : Inv exec leds regs s r w b) {i : Fin n} {s' : State n σ}
    (hrun : s.run i = some s') : ∃ w' b', Inv exec leds regs s' r w' b' := by
  unfold State.run at hrun
  split at hrun
  · next v hpc =>
    cases hrun
    exact ⟨w, b, h.test hpc⟩
  · next v hpc =>
    cases hrun
    exact ⟨w, b, h.initWork hpc⟩
  · next v hpc =>
    cases hrun
    have hfilling : (s.callers i).filling i = some (v, ⟨none, 0, true, false⟩) := by rw [hpc]; rfl
    exact ⟨w, b, h.fill hfilling (by rw [hpc]; exact Pc.noConfusion) rfl⟩
  · next v hpc =>
    cases hrun
    have hfilling : (s.callers i).filling i = some (v, ⟨some i, 0, true, false⟩) := by rw [hpc]; rfl
    exact ⟨w, b, h.fill hfilling (by rw [hpc]; exact Pc.noConfusion) rfl⟩
  · next v hpc =>
    cases hrun
    exact ⟨_, _, h.queueWork hpc⟩
  · cases hrun

theorem Inv.work (h : Inv exec leds regs s r w b) {s' : State n σ}
    (hwork : s.work exec leds = some s') : ∃ r' w', Inv exec leds regs s' r' w' b := by
  unfold State.work at hwork
  split at hwork
  · next hworker =>
    split at hwork
    · cases hwork
    · next k queue hqueue =>
      cases hwork
      obtain ⟨c, w', -, htake⟩ := h.take hworker hqueue
      exact ⟨_, _, htake⟩
  · next k hworker =>
    cases hwork
    exact ⟨_, _, h.perform hworker⟩
  · next k hworker =>
    cases hwork
    exact ⟨_, _, h.kfree hworker⟩

theorem step_inv {e : Event n} {s' : State n σ} (h : ∃ r w b, Inv exec leds regs s r w b)
    (halone : Alone s e) (hstep : step exec leds s e = some s') :
    ∃ r w b, Inv exec leds regs s' r w b := by
  obtain ⟨r, w, b, h⟩ := h
  cases e with
  | call i v =>
    dsimp only [step] at hstep
    split at hstep
    · next hidle =>
      cases hstep
      exact ⟨r, w, b, h.goto_outside (by rw [hidle]; rfl) rfl⟩
    · cases hstep
  | kzalloc i succeeds =>
    dsimp only [step] at hstep
    split at hstep
    · next v hpc =>
      cases hstep
      obtain ⟨b', h'⟩ := h.kzalloc hpc halone succeeds
      exact ⟨r, w, b', h'⟩
    · cases hstep
  | run i =>
    obtain ⟨w', b', h'⟩ := h.run hstep
    exact ⟨r, w', b', h'⟩
  | work =>
    obtain ⟨r', w', h'⟩ := h.work hstep
    exact ⟨r', w', b, h'⟩

/-! ## What the LEDs show -/

/-- The call an item stands for. -/
def Item.call (item : Item n) : Option (Fin n × Brightness) :=
  item.cdev.map fun cdev => (cdev, item.value)

def WorkerPc.next : WorkerPc → List Nat
  | set k => [k]
  | _ => []

/-- The calls that the item with the worker and the items in the queue stand for. -/
def State.outstanding (s : State n σ) : List (Option (Fin n × Brightness)) :=
  (s.worker.next ++ s.queue).map fun k => (s.heap k).bind Item.call

/-- The value of the last call on LED `i`. -/
def lastCall (calls : List (Fin n × Brightness)) (i : Fin n) : Option Brightness :=
  calls.foldl (fun last c => if c.1 = i then some c.2 else last) none

theorem Inv.outstanding_eq (h : Inv exec leds regs s r w b) :
    s.outstanding = (r ++ w).map some := by
  have hworker : s.worker.next.map (fun k => (s.heap k).bind Item.call) = r.map some := by
    have hworks := h.works
    cases hcase : s.worker with
    | idle =>
      rw [hcase] at hworks
      cases hworks
      rfl
    | set k =>
      rw [hcase] at hworks
      obtain ⟨c, hheap, rfl⟩ := hworks
      show [(s.heap k).bind Item.call] = [some c]
      rw [hheap]
      rfl
    | kfree k =>
      rw [hcase] at hworks
      obtain ⟨-, rfl⟩ := hworks
      rfl
  have hqueue : s.queue.map (fun k => (s.heap k).bind Item.call) = w.map some := by
    have hmap := congrArg (List.map fun item => Option.bind item Item.call) h.queue
    rw [List.map_map, List.map_map] at hmap
    exact hmap
  unfold State.outstanding
  rw [List.map_append, hworker, hqueue, List.map_append]

/-- The registers after direct calls one after the other. -/
theorem foldl_set (calls : List (Fin n × Brightness)) (regs : σ) :
    (calls.map fun c => Op.set c.1 c.2).foldl (Bank.apply exec) ⟨leds, regs⟩ =
      ⟨leds, calls.foldl
        (fun regs c => ((_devLedsBrightnessSet (leds c.1) c.2).run exec regs).2) regs⟩ := by
  induction calls generalizing regs with
  | nil => rfl
  | cons c calls ih => exact ih _

theorem apply_set_enabled (p : Panel) (j : Fin n) (v : Brightness) :
    (p.apply (.set j v)).enabled = p.enabled := by
  unfold Panel.apply
  dsimp only
  split <;> rfl

theorem apply_set_last {p : Panel} {i : Fin n} (hon : p.enabled i = true) (j : Fin n)
    (v : Brightness) : (p.apply (.set j v)).last i = if j = i then some v else p.last i := by
  unfold Panel.apply
  dsimp only
  by_cases hj : j = i
  · subst hj
    rw [if_pos hon, if_pos rfl]
    exact Function.update_self ..
  · have hne : (i : Nat) ≠ j := fun hsame => hj (Fin.ext hsame.symm)
    rw [if_neg hj]
    split
    · exact Function.update_of_ne hne ..
    · rfl

theorem foldl_last (calls : List (Fin n × Brightness)) {p : Panel} {i : Fin n}
    (hon : p.enabled i = true) :
    ((calls.map fun c => Op.set c.1 c.2).foldl Panel.apply p).last i =
      calls.foldl (fun last c => if c.1 = i then some c.2 else last) (p.last i) := by
  induction calls generalizing p with
  | nil => rfl
  | cons c calls ih =>
    have hon' : (p.apply (.set c.1 c.2)).enabled i = true := by
      rw [apply_set_enabled]
      exact hon
    refine (ih hon').trans ?_
    rw [apply_set_last hon, List.foldl_cons]

/-- After the calls were performed one after the other, an enabled LED shows its last. -/
theorem get_lastCall {content : Iomem → σ → BitVec 8} (hmem : MemoryLike exec content)
    (hbits : SingleBits n leds) {calls : List (Fin n × Brightness)} {i : Fin n} {v : Brightness}
    (hon : (leds i).disabled = false) (hlast : lastCall calls i = some v) :
    ((_devLedsBrightnessGet (leds i)).run exec (calls.foldl
      (fun regs c => ((_devLedsBrightnessSet (leds c.1) c.2).run exec regs).2) regs)).1 =
        if v ≠ 0 then ledFull else ledOff := by
  have henabled : (Panel.initial leds).enabled i = true := by
    show (!(leds i).disabled) = true
    rw [hon]
    rfl
  have hrun := refines_run hmem hbits (calls.map fun c => Op.set c.1 c.2)
    (refines_initial content n leds regs)
  rw [foldl_set] at hrun
  refine hrun.get hmem hbits i.isLt ((foldl_last calls henabled).trans hlast) ?_
  rw [hrun.enabled_eq, hon]
  rfl

/-- **LED updates on the workqueue.** As long as no call allocates its item while another fills
one, whatever else the calls and the worker do: nothing goes wrong; every call whose allocation
succeeded was performed, or has one item with its LED and value, or is still filling it; and when
all items are done, every LED shows its last value. -/
theorem led_updates_in_order {s : State n σ}
    (hreach : Reach (step exec leds) Alone (State.start n regs) s) :
    s.fault = false ∧
    (∃ building : List (Fin n × Brightness),
      s.issued.map some = s.performed.map some ++ s.outstanding ++ building.map some ∧
      ∀ c ∈ building, (s.callers c.1).inside = true) ∧
    (s.outstanding = [] → (∀ i, (s.callers i).inside = false) →
      ∀ content, MemoryLike exec content → SingleBits n leds →
        ∀ (i : Fin n) (v : Brightness), (leds i).disabled = false → lastCall s.issued i = some v →
          ((_devLedsBrightnessGet (leds i)).run exec s.regs).1 =
            if v ≠ 0 then ledFull else ledOff) := by
  obtain ⟨r, w, b, h⟩ := hreach.invariant ⟨[], [], [], inv_start exec leds n regs⟩ step_inv
  refine ⟨h.fault, ⟨b, ?_, ?_⟩, ?_⟩
  · rw [h.outstanding_eq, h.issued, List.map_append, List.map_append, List.map_append,
      List.map_append, List.append_assoc (s.performed.map some)]
  · intro c hc
    rcases h.building with ⟨rfl, -⟩ | ⟨i, -, v, item, hfilling, hfills⟩
    · cases hc
    · have hi : c.1 = i := by
        rcases hfills with ⟨k, -, -, -, rfl⟩ | ⟨-, -, rfl⟩
        · rw [List.mem_singleton.mp hc]
        · cases hc
      rw [hi]
      exact Pc.inside_of_filling hfilling
  · intro hdone houtside content hmem hbits i v hon hlast
    rw [h.outstanding_eq] at hdone
    have hrest : r ++ w = [] := List.map_eq_nil_iff.mp hdone
    have hissued : s.issued = s.performed := by
      rw [h.issued, h.building_nil houtside, List.append_nil, List.append_assoc, hrest,
        List.append_nil]
    rw [hissued] at hlast
    rw [h.regs]
    exact get_lastCall hmem hbits hon hlast

end Invariant

/-! ## Two LEDs -/

/-- A call on LED `i` from its allocation to its end. -/
def fillAndQueue (i : Fin 2) : List (Event 2) :=
  [.kzalloc i true, .run i, .run i, .run i, .run i, .run i]

/-- Both calls have begun; each fills its item alone, and the worker does the first in between. -/
theorem led_updates_in_order_two :
    ∃ s, runFrom (checked (step (execReg byteMemory .zero) twoLeds) fun s e => decide (Alone s e))
        (State.start 2 fun _ => 0x02)
        ([.call 0 255, .call 1 7] ++ fillAndQueue 1 ++ [.work] ++ fillAndQueue 0 ++
          [.work, .work, .work, .work, .work]) = some s ∧
      s.issued = [(1, 7), (0, 255)] ∧
      ((_devLedsBrightnessGet (twoLeds 0)).run (execReg byteMemory .zero) s.regs).1 = ledFull ∧
      ((_devLedsBrightnessGet (twoLeds 1)).run (execReg byteMemory .zero) s.regs).1 = ledFull := by
  obtain ⟨s, hrun, hissued, hdone, houtside⟩ :
      ∃ s, runFrom (checked (step (execReg byteMemory .zero) twoLeds) fun s e => decide (Alone s e))
          (State.start 2 fun _ => 0x02)
          ([.call 0 255, .call 1 7] ++ fillAndQueue 1 ++ [.work] ++ fillAndQueue 0 ++
            [.work, .work, .work, .work, .work]) = some s ∧
        s.issued = [(1, 7), (0, 255)] ∧ s.outstanding = [] ∧
        ∀ i, (s.callers i).inside = false := ⟨_, rfl, rfl, rfl, by decide⟩
  have hreach := reach_checked (fun _ _ => of_decide_eq_true) hrun
  obtain ⟨-, -, hshows⟩ := led_updates_in_order hreach
  have hget := hshows hdone houtside _ byteMemory_memoryLike twoLeds_singleBits
  refine ⟨s, hrun, hissued, hget 0 255 rfl ?_, hget 1 7 rfl ?_⟩
  · rw [hissued]
    rfl
  · rw [hissued]
    rfl

/-- The calls alternate: both fill and queue the second item, which has LED 1 in the end. LED 0
was told to go on and stays off. -/
theorem led_update_lost :
    ∃ s, runFrom (step (execReg byteMemory .zero) twoLeds) (State.start 2 fun _ => 0x02)
        [.call 0 255, .call 1 255, .kzalloc 0 true, .kzalloc 1 true, .run 0, .run 1, .run 0, .run 1,
          .run 0, .run 1, .run 0, .run 1, .run 0, .run 1, .work, .work, .work] = some s ∧
      s.issued = [(0, 255), (1, 255)] ∧ s.performed = [(1, 255)] ∧ s.outstanding = [] ∧
      (∀ i, s.callers i = .idle) ∧ s.worker = .idle ∧ s.fault = false ∧
      ((_devLedsBrightnessGet (twoLeds 0)).run (execReg byteMemory .zero) s.regs).1 = ledOff :=
  ⟨_, rfl, rfl, rfl, rfl, by decide, rfl, rfl, rfl⟩

end LinuxDeviceDriver.Led.Queue
