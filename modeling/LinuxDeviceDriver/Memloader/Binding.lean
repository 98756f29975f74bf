import LinuxDeviceDriver.Lib.Transition

/-!
# Binding the memloader driver

`memloader_probe` allocates `struct memloader_info` and shows two directories in sysfs: `fw`, the
kobject of the firmware context (when the device tree asks for firmware), and `memloader`. From the
moment a directory is there, user space may read and write its files, and every such call uses
`struct memloader_info`. `memloader_remove`, and a probe that fails late, take the directories away
and free the structure.

`kobject_del` first makes a directory inaccessible and then waits for the calls that are under way;
`kobject_put` of the last reference does the same. A step of the driver core is one statement or
one half of such a removal, and the calls of user space go on in between.

Each point of probe and remove means something for the structure and the directories (`AtPoint`),
and the invariant is that the state keeps to it.
-/

namespace LinuxDeviceDriver.Memloader.Binding

open Lib

/-- The kobjects: `fwctx.kobj` and `kobj`. -/
inductive Kobj
  | fw
  | memloader
deriving DecidableEq

/-- How far `struct memloader_info` is set up: zeroed, with load address and callbacks, and with
the defaults of the firmware context. -/
inductive Stage
  | zeroed
  | addressed
  | ready
deriving DecidableEq

/-- What the functions that `memloader_probe` calls give. -/
structure ProbeEnv where
  kzalloc : Bool
  loadAddress : Bool
  /-- `fw_get_parameters`: an error, 0 for no firmware, or 1. -/
  parameters : Int
  addFw : Bool
  addMemloader : Bool

inductive Pc
  | unbound
  /-- In `memloader_probe`, before `of_get_property`. -/
  | property (env : ProbeEnv)
  /-- At the entry of `fw_initialize`. -/
  | defaults (env : ProbeEnv)
  /-- Before `kobject_add` of `fw`. -/
  | addFw (env : ProbeEnv)
  /-- Before `kobject_init_and_add` of `memloader`. -/
  | addMemloader (env : ProbeEnv)
  | bound
  /-- In `memloader_remove`, before `kobject_put`. -/
  | put
  /-- `kobject_put` waits for the calls under way. -/
  | putWait
  /-- At the entry of `fw_cleanup`, in `memloader_remove` or behind `fw_clean`. -/
  | cleanup
  /-- `kobject_del` waits for the calls under way. -/
  | delWait
  /-- Before `devm_kfree`. -/
  | free

structure State (T : Type) where
  pc : Pc
  info : Option Stage
  /-- `fwctx.kobj_added` -/
  kobjAdded : Bool
  accessible : Kobj → Bool
  /-- The threads in a call on a file of the directory. -/
  users : Kobj → List T
  /-- Somebody has used a structure that is not there or not set up. -/
  fault : Bool

inductive Action (T : Type)
  | probe (env : ProbeEnv)
  | remove
  | run
  | enter (t : T) (k : Kobj)
  | access (t : T) (k : Kobj)
  | leave (t : T) (k : Kobj)

section System

variable {T : Type} [DecidableEq T]

def State.start : State T := ⟨.unbound, none, false, fun _ => false, fun _ => [], false⟩

/-- One statement of the driver core. -/
def State.run (s : State T) : Option (State T) :=
  match s.pc with
  | .unbound => none
  | .bound => none
  | .property env =>
    if env.loadAddress then some { s with pc := .defaults env, info := some .addressed }
    else some { s with pc := .free }
  | .defaults env =>
    let s := { s with info := some .ready }
    if env.parameters < 0 then some { s with pc := .free }
    else if env.parameters = 0 then some { s with pc := .addMemloader env }
    else some { s with pc := .addFw env }
  | .addFw env =>
    if env.addFw then
      some { s with
        pc := .addMemloader env
        kobjAdded := true
        accessible := Function.update s.accessible .fw true }
    else some { s with pc := .free }
  | .addMemloader env =>
    if env.addMemloader then
      some { s with pc := .bound, accessible := Function.update s.accessible .memloader true }
    else some { s with pc := .cleanup }
  | .put =>
    some { s with pc := .putWait, accessible := Function.update s.accessible .memloader false }
  | .putWait => if s.users .memloader = [] then some { s with pc := .cleanup } else none
  | .cleanup =>
    if s.kobjAdded then
      some { s with
        pc := .delWait
        kobjAdded := false
        accessible := Function.update s.accessible .fw false }
    else some { s with pc := .free }
  | .delWait => if s.users .fw = [] then some { s with pc := .free } else none
  | .free => some { s with pc := .unbound, info := none }

def step (s : State T) : Action T → Option (State T)
  | .probe env =>
    match s.pc with
    | .unbound =>
      if env.kzalloc then
        some { s with pc := .property env, info := some .zeroed, kobjAdded := false }
      else some s
    | _ => none
  | .remove =>
    match s.pc with
    | .bound => some { s with pc := .put }
    | _ => none
  | .run => s.run
  | .enter t k =>
    if s.accessible k then some { s with users := Function.update s.users k (t :: s.users k) }
    else none
  | .access t k =>
    if t ∈ s.users k then some { s with fault := s.fault || decide (s.info ≠ some .ready) }
    else none
  | .leave t k =>
    if t ∈ s.users k then some { s with users := Function.update s.users k ((s.users k).erase t) }
    else none

end System

/-! ## What holds at each point -/

section Invariant

variable {T : Type}

/-- The directory is not there, and nobody is in a call on one of its files. -/
def Gone (s : State T) (k : Kobj) : Prop := s.accessible k = false ∧ s.users k = []

/-- `fw` is there only with `kobj_added` set. -/
def FwKnown (s : State T) : Prop := s.kobjAdded = true ∨ Gone s .fw

/-- What the points of probe and remove mean for the structure and the directories. -/
def AtPoint (s : State T) : Pc → Prop
  | .unbound => s.info = none ∧ Gone s .fw ∧ Gone s .memloader
  | .property _ => s.info = some .zeroed ∧ Gone s .fw ∧ Gone s .memloader
  | .defaults _ => s.info = some .addressed ∧ Gone s .fw ∧ Gone s .memloader
  | .addFw _ => s.info = some .ready ∧ Gone s .fw ∧ Gone s .memloader
  | .addMemloader _ => s.info = some .ready ∧ FwKnown s ∧ Gone s .memloader
  | .bound => s.info = some .ready ∧ FwKnown s
  | .put => s.info = some .ready ∧ FwKnown s
  | .putWait => s.info = some .ready ∧ FwKnown s ∧ s.accessible .memloader = false
  | .cleanup => s.info = some .ready ∧ FwKnown s ∧ Gone s .memloader
  | .delWait => s.info = some .ready ∧ s.accessible .fw = false ∧ Gone s .memloader
  | .free => s.info ≠ none ∧ Gone s .fw ∧ Gone s .memloader

def Inv (s : State T) : Prop := AtPoint s s.pc ∧ s.fault = false

variable {s s' : State T} {k : Kobj}

/-- Where a call is under way the structure is set up. -/
theorem AtPoint.ready (h : AtPoint s s.pc) (husers : s.users k ≠ []) : s.info = some .ready := by
  have hgone : Gone s .fw → Gone s .memloader → s.info = some .ready := fun hfw hmemloader => by
    cases k with
    | fw => exact absurd hfw.2 husers
    | memloader => exact absurd hmemloader.2 husers
  cases hpc : s.pc with
  | unbound | property | defaults | free =>
    rw [hpc] at h
    exact hgone h.2.1 h.2.2
  | addFw | addMemloader | bound | put | putWait | cleanup | delWait =>
    rw [hpc] at h
    exact h.1

/-- Statements of the driver core. -/
theorem run_atPoint (h : AtPoint s s.pc) (hrun : s.run = some s') : AtPoint s' s'.pc := by
  have hsome : ∀ {stage}, s.info = some stage → s.info ≠ none := fun hinfo => by
    rw [hinfo]
    exact Option.some_ne_none _
  cases hpc : s.pc with
  | unbound | bound =>
    simp only [State.run, hpc] at hrun
    cases hrun
  | property env =>
    rw [hpc] at h
    obtain ⟨hinfo, hfw, hmemloader⟩ := h
    simp only [State.run, hpc] at hrun
    split at hrun <;> cases hrun
    · exact ⟨rfl, hfw, hmemloader⟩
    · exact ⟨hsome hinfo, hfw, hmemloader⟩
  | defaults env =>
    rw [hpc] at h
    obtain ⟨-, hfw, hmemloader⟩ := h
    simp only [State.run, hpc] at hrun
    split at hrun
    · cases hrun
      exact ⟨Option.some_ne_none _, hfw, hmemloader⟩
    · split at hrun <;> cases hrun
      · exact ⟨rfl, .inr hfw, hmemloader⟩
      · exact ⟨rfl, hfw, hmemloader⟩
  | addFw env =>
    rw [hpc] at h
    obtain ⟨hinfo, hfw, hmemloader⟩ := h
    simp only [State.run, hpc] at hrun
    split at hrun <;> cases hrun
    · exact ⟨hinfo, .inl rfl, hmemloader⟩
    · exact ⟨hsome hinfo, hfw, hmemloader⟩
  | addMemloader env =>
    rw [hpc] at h
    obtain ⟨hinfo, hfw, hmemloader⟩ := h
    simp only [State.run, hpc] at hrun
    split at hrun <;> cases hrun
    · exact ⟨hinfo, hfw⟩
    · exact ⟨hinfo, hfw, hmemloader⟩
  | put =>
    rw [hpc] at h
    obtain ⟨hinfo, hfw⟩ := h
    simp only [State.run, hpc] at hrun
    cases hrun
    exact ⟨hinfo, hfw, rfl⟩
  | putWait =>
    rw [hpc] at h
    obtain ⟨hinfo, hfw, hhidden⟩ := h
    simp only [State.run, hpc] at hrun
    split at hrun
    · next hunused =>
      cases hrun
      exact ⟨hinfo, hfw, hhidden, hunused⟩
    · cases hrun
  | cleanup =>
    rw [hpc] at h
    obtain ⟨hinfo, hfw, hmemloader⟩ := h
    simp only [State.run, hpc] at hrun
    split at hrun
    · cases hrun
      exact ⟨hinfo, rfl, hmemloader⟩
    · next hnot =>
      cases hrun
      exact ⟨hsome hinfo, hfw.resolve_left hnot, hmemloader⟩
  | delWait =>
    rw [hpc] at h
    obtain ⟨hinfo, hhidden, hmemloader⟩ := h
    simp only [State.run, hpc] at hrun
    split at hrun
    · next hunused =>
      cases hrun
      exact ⟨hsome hinfo, ⟨hhidden, hunused⟩, hmemloader⟩
    · cases hrun
  | free =>
    rw [hpc] at h
    obtain ⟨-, hfw, hmemloader⟩ := h
    simp only [State.run, hpc] at hrun
    cases hrun
    exact ⟨rfl, hfw, hmemloader⟩

theorem run_fault (hrun : s.run = some s') : s'.fault = s.fault := by
  cases hpc : s.pc <;> simp only [State.run, hpc] at hrun <;> (repeat' split at hrun) <;>
    cases hrun <;> rfl

/-- Calls come and go where a directory is there or somebody is in a call: they disturb nothing
that is known of the point. -/
theorem AtPoint.users (h : AtPoint s s.pc) {users : Kobj → List T}
    (hgone : ∀ k, Gone s k → users k = []) : AtPoint { s with users := users } s.pc := by
  have hkeep : ∀ {k}, Gone s k → Gone { s with users := users } k := fun hk => ⟨hk.1, hgone _ hk⟩
  have hfw : FwKnown s → FwKnown { s with users := users } := fun hknown => hknown.imp id hkeep
  cases hpc : s.pc with
  | unbound | property | defaults | addFw | free =>
    rw [hpc] at h
    exact ⟨h.1, hkeep h.2.1, hkeep h.2.2⟩
  | addMemloader | cleanup =>
    rw [hpc] at h
    exact ⟨h.1, hfw h.2.1, hkeep h.2.2⟩
  | bound | put =>
    rw [hpc] at h
    exact ⟨h.1, hfw h.2⟩
  | putWait =>
    rw [hpc] at h
    exact ⟨h.1, hfw h.2.1, h.2.2⟩
  | delWait =>
    rw [hpc] at h
    exact ⟨h.1, h.2.1, hkeep h.2.2⟩

variable [DecidableEq T]

theorem step_inv {a : Action T} (h : Inv s) (hstep : step s a = some s') : Inv s' := by
  obtain ⟨hpoint, hclean⟩ := h
  cases a with
  | probe env =>
    simp only [step] at hstep
    split at hstep
    · next hpc =>
      split at hstep <;> cases hstep
      · rw [hpc] at hpoint
        exact ⟨⟨rfl, hpoint.2.1, hpoint.2.2⟩, hclean⟩
      · exact ⟨hpoint, hclean⟩
    · cases hstep
  | remove =>
    simp only [step] at hstep
    split at hstep
    · next hpc =>
      cases hstep
      rw [hpc] at hpoint
      exact ⟨hpoint, hclean⟩
    · cases hstep
  | run =>
    exact ⟨run_atPoint hpoint hstep, (run_fault hstep).trans hclean⟩
  | enter t k =>
    simp only [step] at hstep
    split at hstep
    · next hshown =>
      cases hstep
      refine ⟨hpoint.users fun k' hgone => ?_, hclean⟩
      have hne : k' ≠ k := by
        rintro rfl
        rw [hgone.1] at hshown
        cases hshown
      rw [Function.update_of_ne hne]
      exact hgone.2
    · cases hstep
  | access t k =>
    simp only [step] at hstep
    split at hstep
    · next hmem =>
      cases hstep
      have hready := hpoint.ready (List.ne_nil_of_mem hmem)
      refine ⟨hpoint, ?_⟩
      show (s.fault || decide (s.info ≠ some .ready)) = false
      rw [hclean, hready]
      rfl
    · cases hstep
  | leave t k =>
    simp only [step] at hstep
    split at hstep
    · next hmem =>
      cases hstep
      refine ⟨hpoint.users fun k' hgone => ?_, hclean⟩
      have hne : k' ≠ k := by
        rintro rfl
        rw [hgone.2] at hmem
        cases hmem
      rw [Function.update_of_ne hne]
      exact hgone.2
    · cases hstep

omit [DecidableEq T] in
theorem start_inv : Inv (.start : State T) := ⟨⟨rfl, ⟨rfl, rfl⟩, ⟨rfl, rfl⟩⟩, rfl⟩

theorem reach_inv (h : Reach step anyStep (.start : State T) s) : Inv s :=
  h.invariant start_inv fun h _ hstep => step_inv h hstep

/-- Between probe and remove: the driver core goes on, or waits for a call on a directory that takes
no new ones. -/
theorem AtPoint.progress (h : AtPoint s s.pc) (hunbound : s.pc ≠ .unbound)
    (hbound : s.pc ≠ .bound) :
    (∃ s', s.run = some s') ∨
      ∃ k t s', s.accessible k = false ∧ t ∈ s.users k ∧ step s (.leave t k) = some s' := by
  have hwaits : ∀ k, s.accessible k = false → s.users k ≠ [] → ∃ k t s',
      s.accessible k = false ∧ t ∈ s.users k ∧ step s (.leave t k) = some s' := by
    intro k hhidden husers
    obtain ⟨t, ht⟩ := List.exists_mem_of_ne_nil _ husers
    exact ⟨k, t, _, hhidden, ht, if_pos ht⟩
  cases hpc : s.pc with
  | unbound => exact absurd hpc hunbound
  | bound => exact absurd hpc hbound
  | property | addFw | addMemloader | cleanup =>
    left
    simp only [State.run, hpc]
    split <;> exact ⟨_, rfl⟩
  | defaults =>
    left
    simp only [State.run, hpc]
    split
    · exact ⟨_, rfl⟩
    · split <;> exact ⟨_, rfl⟩
  | put | free =>
    left
    simp only [State.run, hpc]
    exact ⟨_, rfl⟩
  | putWait =>
    rw [hpc] at h
    by_cases husers : s.users .memloader = []
    · exact .inl ⟨_, by simp only [State.run, hpc]; exact if_pos husers⟩
    · exact .inr (hwaits .memloader h.2.2 husers)
  | delWait =>
    rw [hpc] at h
    by_cases husers : s.users .fw = []
    · exact .inl ⟨_, by simp only [State.run, hpc]; exact if_pos husers⟩
    · exact .inr (hwaits .fw h.2.1 husers)

/-- **The structure outlives its users.** Whatever probe meets and however calls on the files of
both directories interleave with probe and remove: no call uses a `struct memloader_info` that is
not set up or freed; while the driver is not bound, the structure is freed, no directory is left and
nobody is in a call; and probe and remove never wait for anything but calls that are under way on a
directory without new ones. -/
theorem memloader_info_outlives_users (h : Reach step anyStep (.start : State T) s) :
    s.fault = false ∧ (∀ k, s.users k ≠ [] → s.info = some .ready) ∧
    (s.pc = .unbound → s.info = none ∧ ∀ k, s.accessible k = false ∧ s.users k = []) ∧
    (s.pc ≠ .unbound → s.pc ≠ .bound → (∃ s', step s .run = some s') ∨
      ∃ k t s', s.accessible k = false ∧ t ∈ s.users k ∧ step s (.leave t k) = some s') := by
  obtain ⟨hpoint, hclean⟩ := reach_inv h
  refine ⟨hclean, fun k => hpoint.ready, fun hpc => ?_, hpoint.progress⟩
  rw [hpc] at hpoint
  obtain ⟨hinfo, hfw, hmemloader⟩ := hpoint
  refine ⟨hinfo, fun k => ?_⟩
  cases k with
  | fw => exact hfw
  | memloader => exact hmemloader

end Invariant

/-- A device with firmware is bound, a load is under way while it is removed, and the removal waits
for its end. -/
def boundAndRemoved : List (Action Unit) :=
  [.probe ⟨true, true, 1, true, true⟩, .run, .run, .run, .enter () .fw, .run, .remove, .run, .run,
    .run, .access () .fw, .leave () .fw, .run, .run]

theorem memloader_info_outlives_one_load :
    ∃ s, runFrom step .start boundAndRemoved = some s ∧ s.pc = .unbound ∧ s.fault = false ∧
      s.info = none := by
  obtain ⟨s, hrun, hpc⟩ : ∃ s, runFrom step .start boundAndRemoved = some s ∧ s.pc = .unbound :=
    ⟨_, rfl, rfl⟩
  obtain ⟨hclean, -, hunbound, -⟩ := memloader_info_outlives_users (reach_runFrom hrun)
  exact ⟨s, hrun, hpc, hclean, (hunbound hpc).1⟩

end LinuxDeviceDriver.Memloader.Binding
