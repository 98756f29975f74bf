import LinuxDeviceDriver.Lib.Transition
import LinuxDeviceDriver.Led.Registration

/-!
# What `dev_leds_brightness_set` finds

`led_dev_deactivate` destroys the workqueue and clears the platform data before it unregisters
the LEDs. The LED core then switches the first LED off through its `brightness_set`, which finds no
private data.

A run is a sequence of activations, requests on registered LEDs and deactivations, with the
worker and `led_dev_enable` / `led_dev_disable` in between (`Call`). `Sound` is the invariant of
the runs in which all executions have found what they need. The lemmas follow the calls:
`Working` for what is done while the device is active, `deactivate_null` for its end,
`activate_sound` for the exits of an activation.
-/

namespace LinuxDeviceDriver.Led

open Lib Generic

section Runs

variable {σ : Type}

/-! ## Runs -/

inductive Call
  | activate (env : Env)
  | request (cdev : Cdev) (ledValue : Brightness)
  | deactivate
  | work (p : Nat)
  | enable
  | disable

/-- The worker of `p` takes the next item: `dev_led_set_work`. -/
def Dev.work (host : Host σ) (d : Dev σ) (p : Nat) : Dev σ :=
  match (d.privs p).workqueue with
  | .running (item :: pending) =>
    let taken := d.modifyPriv p fun priv => { priv with workqueue := .running pending }
    taken.setNow host item.1 item.2
  | _ => d

/-- What a thread does with the device. -/
def Dev.perform (host : Host σ) (d : Dev σ) : Call → Dev σ
  | .activate env => (ledDevActivate host env d).2
  | .request cdev ledValue => d.set host cdev ledValue
  | .deactivate => (ledDevDeactivate host d).2
  | .work p => d.work host p
  | .enable => ledDevEnable d
  | .disable => ledDevDisable d

/-- A call, by a thread that is alive. -/
def Dev.call (host : Host σ) (d : Dev σ) (c : Call) : Dev σ :=
  d.entered.perform host c

/-- The LEDs the LED core has. -/
def Dev.registered (d : Dev σ) : List Cdev := d.core.foldl CoreCall.apply []

/-- The device uses a workqueue, and requests are made on registered LEDs. -/
def Possible (d : Dev σ) : Call → Prop
  | .activate env => env.useWorkqueue = true
  | .request cdev _ => cdev ∈ d.registered
  | _ => True

/-- Up to the end of the call, every execution found live data. -/
def FindsLiveData (host : Host σ) (d : Dev σ) (c : Call) : Prop :=
  ∀ s ∈ (d.call host c).calls, s.Live

/-- No LED is unregistered without private data, and none is set without it. -/
def Harmless (d : Dev σ) : Call → Prop
  | .activate env =>
    (env.children ≠ [] → ¬ env.Starts → d.drvdata = none) ∧
      (env.Inits → ¬ Fails env.register env.children.length)
  | .request _ _ => d.drvdata ≠ none
  | .deactivate => d.drvdata = none
  | _ => True

/-! ## The device at work -/

section Working

variable (host : Host σ) {d d' : Dev σ} {p : Nat}

/-- The device is active, with a workqueue, and nothing went wrong so far. -/
structure Working (p : Nat) (d : Dev σ) : Prop where
  active : d.drvdata = some p
  alive : d.oops = false
  running : (d.privs p).workqueue.isRunning = true
  calls : ∀ s ∈ d.calls, s.Live

theorem Working.data (h : Working p d) : d.drvdata ≠ none := by
  rw [h.active]
  exact Option.some_ne_none p

theorem Working.of_calm {cs : List CoreCall} (h : Working p d) (hcalm : Calm cs d d')
    (hcalls : ∀ s ∈ d'.calls, s.Live) : Working p d' :=
  ⟨hcalm.drvdata.trans h.active, hcalm.oops.trans h.alive, (hcalm.running p).trans h.running,
    hcalls⟩

theorem Working.set (h : Working p d) (cdev : Cdev) (v : Brightness) :
    Working p (d.set host cdev v) := by
  refine h.of_calm (set_calm host (Or.inl h.data) v) ?_
  -- one more execution, or none
  have hmore : ∀ s : SetCall, s.Live → ∀ s' ∈ d.calls ++ [s], s'.Live := by
    intro s hs
    refine List.forall_mem_append.mpr ⟨h.calls, ?_⟩
    exact List.forall_mem_singleton.mpr hs
  unfold Dev.set
  split
  · exact h.calls
  · -- the callback of the driver finds the private data of `p`
    unfold devLedsBrightnessSet
    rw [h.active]
    dsimp only
    split
    · split
      · exact hmore _ h.running
      · exact hmore _ trivial
    · exact hmore _ trivial
  · exact h.calls

theorem Working.unregister (h : Working p d) (cdev : Cdev) :
    Working p (d.unregister host cdev) :=
  Working.set host (d := { d with core := d.core ++ [.unregister cdev] })
    ⟨h.active, h.alive, h.running, h.calls⟩ cdev ledOff

theorem Working.unwind (h : Working p d) (q i : Nat) : Working p (d.unwind host q i) := by
  induction i generalizing d with
  | zero => exact h
  | succ i ih =>
    have hworking := h.unregister host (q, i)
    rw [Dev.unwind, next_alive hworking.alive]
    exact ih hworking

end Working

/-! ## The callbacks of the registered LEDs -/

section Installed

variable (host : Host σ) {d d' : Dev σ} {p : Nat}

/-- A registered LED is in private data that was allocated, and updates go through the
workqueue. -/
def Installed (d : Dev σ) : Prop :=
  ∀ cdev ∈ d.registered,
    (d.led cdev).brightnessSet = some .devLedsBrightnessSet ∧ cdev.1 < d.allocated

theorem registered_append {cs : List CoreCall} (h : d'.core = d.core ++ cs) :
    d'.registered = cs.foldl CoreCall.apply d.registered := by
  unfold Dev.registered
  rw [h, List.foldl_append]

theorem foldl_unregister_subset (cdevs registered : List Cdev) :
    (cdevs.map CoreCall.unregister).foldl CoreCall.apply registered ⊆ registered := by
  induction cdevs generalizing registered with
  | nil => exact List.Subset.refl _
  | cons cdev cdevs ih => exact List.Subset.trans (ih _) List.erase_subset

/-- LEDs go, and no other is touched. -/
theorem Installed.of_led (h : Installed d) (hled : ∀ cdev, d'.led cdev = d.led cdev)
    (hallocated : d'.allocated = d.allocated) (hsubset : d'.registered ⊆ d.registered) :
    Installed d' := by
  intro cdev hmem
  obtain ⟨hcallback, hlt⟩ := h cdev (hsubset hmem)
  rw [hled, hallocated]
  exact ⟨hcallback, hlt⟩

theorem Installed.of_calm {cdevs : List Cdev} (h : Installed d)
    (hcalm : Calm (cdevs.map .unregister) d d') : Installed d' := by
  refine h.of_led hcalm.led hcalm.allocated ?_
  rw [registered_append hcalm.core]
  exact foldl_unregister_subset cdevs d.registered

theorem Installed.of_quiet (h : Installed d) (hcalm : Calm [] d d') : Installed d' :=
  h.of_calm (show Calm (([] : List Cdev).map .unregister) d d' from hcalm)

theorem Installed.of_frame (h : Installed d) (hframe : Frame d d') : Installed d' := by
  refine h.of_led hframe.led hframe.allocated ?_
  unfold Dev.registered
  rw [hframe.core]
  exact List.Subset.refl _

/-- One more LED is registered. -/
theorem Installed.register (h : Installed d) {cdev : Cdev}
    (hcallback : (d.led cdev).brightnessSet = some .devLedsBrightnessSet)
    (hlt : cdev.1 < d.allocated) : Installed (d.register cdev) := by
  intro other hmem
  have hregistered : (d.register cdev).registered = cdev :: d.registered :=
    registered_append (register_calm d cdev).core
  rw [hregistered] at hmem
  rcases List.mem_cons.mp hmem with rfl | hmem
  · exact ⟨hcallback, hlt⟩
  · exact h other hmem

/-- A LED that is told to use the workqueue does so once it is completed. -/
theorem complete_callback {i : Nat} (devBase : Iomem)
    (hhanded : (d.led (p, i)).ledBrightnessSet = some .devLedsBrightnessSet) :
    ((d.complete p i devBase).led (p, i)).brightnessSet = some .devLedsBrightnessSet := by
  rw [complete_led_self]
  show some ((d.led (p, i)).ledBrightnessSet.getD _) = _
  rw [hhanded]
  rfl

theorem Installed.complete (h : Installed d) {i : Nat} (devBase : Iomem)
    (hhanded : (d.led (p, i)).ledBrightnessSet = some .devLedsBrightnessSet) :
    Installed (d.complete p i devBase) := by
  intro cdev hmem
  obtain ⟨hcallback, hlt⟩ := h cdev hmem
  by_cases hsame : cdev = (p, i)
  · subst hsame
    exact ⟨complete_callback devBase hhanded, hlt⟩
  · rw [complete_led_of_ne d devBase hsame]
    exact ⟨hcallback, hlt⟩

theorem Working.complete (h : Working p d) (i : Nat) (devBase : Iomem) :
    Working p (d.complete p i devBase) := by
  refine ⟨h.active, h.alive, ?_, h.calls⟩
  simp only [Dev.complete, Dev.modifyPriv, Function.update_self]
  exact h.running

theorem Working.pass (h : Working p d) (i : Nat) (devBase : Iomem) :
    Working p (d.pass host p i devBase) := by
  have hcompleted := h.complete i devBase
  have hset := Working.set host (d := (d.complete p i devBase).register (p, i))
    ⟨hcompleted.active, hcompleted.alive, hcompleted.running, hcompleted.calls⟩ (p, i)
    ((d.complete p i devBase).led (p, i)).brightness
  exact hset.of_calm (enbRegSet_calm host _ (p, i)) hset.calls

theorem Installed.pass (h : Installed d) (hdata : d.drvdata ≠ none) (hlt : p < d.allocated)
    {i : Nat} (devBase : Iomem)
    (hhanded : (d.led (p, i)).ledBrightnessSet = some .devLedsBrightnessSet) :
    Installed (d.pass host p i devBase) := by
  have hregistered := (h.complete devBase hhanded).register (complete_callback devBase hhanded) hlt
  have hsafe : ((d.complete p i devBase).register (p, i)).Survives (p, i) := .inl hdata
  have hset := set_calm host hsafe ((d.complete p i devBase).led (p, i)).brightness
  exact hregistered.of_quiet (hset.trans (enbRegSet_calm host _ (p, i)))

/-- The device works and its callbacks are installed, whatever becomes of `dev_leds_init`. -/
theorem init_working (register : Nat → Int) (devBase : Iomem) (todo : Nat) :
    ∀ (i : Nat) (ret : Int) (d : Dev σ), Working p d → Installed d → p < d.allocated →
      (∀ j, i ≤ j → j < i + todo →
        (d.led (p, j)).ledBrightnessSet = some .devLedsBrightnessSet) →
      let init := devLedsInit host register p devBase todo i ret d
      Working p init.2 ∧ Installed init.2 := by
  -- by induction on the LEDs to go: LED `i` is completed before it is registered
  induction todo with
  | zero => exact fun i ret d h hinstalled _ _ => ⟨h, hinstalled⟩
  | succ todo ih =>
    intro i ret d h hinstalled hlt hhanded
    have hfirst := hhanded i (Nat.le_refl i) (by omega)
    rw [devLedsInit_succ host h.alive h.data]
    by_cases hneg : register i < 0
    · -- unwinding goes through the callbacks while the device is still active
      have hcompleted := h.complete i devBase
      have hcalm := unwind_calm host (p := p) (i := i) hcompleted.alive
        fun j _ => Or.inl hcompleted.data
      rw [if_pos hneg]
      exact ⟨hcompleted.unwind host p i, (hinstalled.complete devBase hfirst).of_calm hcalm⟩
    · have hcalm := pass_calm host h.data p i devBase
      rw [if_neg hneg]
      refine ih (i + 1) (register i) _ (h.pass host i devBase)
        (hinstalled.pass host h.data hlt devBase hfirst)
        (Nat.lt_of_lt_of_eq hlt hcalm.allocated.symm) fun j hij hj => ?_
      rw [hcalm.led, complete_led_of_ne d devBase fun hsame => by cases hsame; omega]
      exact hhanded j (by omega) (by omega)

end Installed

/-! ## Deactivating -/

section Deactivating

variable (host : Host σ) {d : Dev σ} {p : Nat}

theorem set_uninstalled {cdev : Cdev} (hcallback : (d.led cdev).brightnessSet = none)
    (v : Brightness) : d.set host cdev v = d := by
  unfold Dev.set
  rw [hcallback]

theorem unregister_silent {cdev : Cdev} (hcallback : (d.led cdev).brightnessSet = none) :
    (d.unregister host cdev).calls = d.calls := by
  have hset := set_uninstalled host (d := { d with core := d.core ++ [.unregister cdev] })
    hcallback ledOff
  have hcalls := congrArg Dev.calls hset
  exact hcalls

theorem deactivate_null (hactive : d.drvdata = some p) (halive : d.oops = false)
    (hnum : 0 < (d.privs p).numLeds)
    (hcallback : (d.led (p, 0)).brightnessSet = some .devLedsBrightnessSet) :
    .nullDrvdata ∈ (ledDevDeactivate host d).2.calls := by
  rw [(deactivate_dies host hactive halive hnum hcallback).2.2]
  exact List.mem_append_right _ (List.mem_singleton.mpr rfl)

/-- LEDs without callbacks are unregistered in silence. -/
theorem cleanup_silent (halive : d.oops = false)
    (hnone : ∀ i, (d.led (p, i)).brightnessSet = none) (n : Nat) :
    Calm ((cdevs p n).map .unregister) d (devLedsCleanup host p n d) ∧
      (devLedsCleanup host p n d).calls = d.calls := by
  have hcalm : ∀ n, Calm ((cdevs p n).map .unregister) d (devLedsCleanup host p n d) := by
    refine fun n => cleanup_calm host halive fun i _ => Or.inr ?_
    rw [hnone i]
    exact (Option.some_ne_none _).symm
  refine ⟨hcalm n, ?_⟩
  induction n with
  | zero => rfl
  | succ n ih =>
    have hled : ((devLedsCleanup host p n d).led (p, n)).brightnessSet = none := by
      rw [(hcalm n).led]
      exact hnone n
    rw [devLedsCleanup, next_alive ((hcalm n).oops.trans halive)]
    exact (unregister_silent host hled).trans ih

end Deactivating

/-! ## One call -/

section Calls

variable (host : Host σ) {d d' : Dev σ} {p : Nat}

/-- Between calls, as long as all executions found live data. -/
structure Sound (d : Dev σ) : Prop where
  calls : ∀ s ∈ d.calls, s.Live
  alive : d.oops = false
  installed : Installed d
  running : ∀ p, d.drvdata = some p → (d.privs p).workqueue.isRunning = true
  leds : ∀ p, d.drvdata = some p → 0 < (d.privs p).numLeds ∧
    (d.led (p, 0)).brightnessSet = some .devLedsBrightnessSet

/-- A new thread finds the device as the last one left it. -/
theorem Sound.call_eq (h : Sound d) (c : Call) : d.call host c = d.perform host c := by
  unfold Dev.call
  rw [entered_of_alive h.alive]

theorem Sound.of_quiet (h : Sound d) (hcalm : Calm [] d d') (hcalls : ∀ s ∈ d'.calls, s.Live) :
    Sound d' := by
  refine ⟨hcalls, hcalm.oops.trans h.alive, h.installed.of_quiet hcalm, fun p hactive => ?_,
    fun p hactive => ?_⟩
  · rw [hcalm.running]
    exact h.running p (hcalm.drvdata.symm.trans hactive)
  · rw [hcalm.privs, hcalm.led]
    exact h.leds p (hcalm.drvdata.symm.trans hactive)

theorem not_live_of_null {calls : List SetCall} (h : .nullDrvdata ∈ calls) :
    ¬ ∀ s ∈ calls, s.Live :=
  fun hlive => hlive _ h

theorem request_sound (h : Sound d) {cdev : Cdev} (hmem : cdev ∈ d.registered) (v : Brightness) :
    (FindsLiveData host d (.request cdev v) ↔ d.drvdata ≠ none) ∧
      (d.drvdata ≠ none → Sound (d.set host cdev v)) := by
  unfold FindsLiveData
  rw [h.call_eq host]
  cases hactive : d.drvdata with
  | none =>
    refine ⟨iff_of_false ?_ fun hne => hne rfl, fun hne => absurd rfl hne⟩
    rw [Dev.perform, set_dies host hactive (h.installed cdev hmem).1]
    exact not_live_of_null (List.mem_append_right _ (List.mem_singleton.mpr rfl))
  | some p =>
    have hdata : d.drvdata ≠ none := by
      rw [hactive]
      exact Option.some_ne_none p
    have hworking := Working.set host ⟨hactive, h.alive, h.running p hactive, h.calls⟩ cdev v
    exact ⟨iff_of_true hworking.calls (Option.some_ne_none p),
      fun _ => h.of_quiet (set_calm host (Or.inl hdata) v) hworking.calls⟩

theorem deactivate_sound (h : Sound d) :
    (FindsLiveData host d .deactivate ↔ d.drvdata = none) ∧
      (d.drvdata = none → Sound (ledDevDeactivate host d).2) := by
  unfold FindsLiveData
  rw [h.call_eq host, Dev.perform]
  cases hactive : d.drvdata with
  | none =>
    rw [deactivate_none hactive]
    exact ⟨iff_of_true h.calls rfl, fun _ => h⟩
  | some p =>
    obtain ⟨hnum, hcallback⟩ := h.leds p hactive
    have hnull := deactivate_null host hactive h.alive hnum hcallback
    exact ⟨iff_of_false (not_live_of_null hnull) (Option.some_ne_none p),
      fun hnone => absurd hnone (Option.some_ne_none p)⟩

/-- Changes of private data that keep the callbacks and whether there is a workqueue. -/
theorem Sound.modifyPriv (h : Sound d) {f : Priv → Priv}
    (hrunning : (f (d.privs p)).workqueue.isRunning = (d.privs p).workqueue.isRunning)
    (hnum : (f (d.privs p)).numLeds = (d.privs p).numLeds)
    (hled : ∀ i, ((f (d.privs p)).leds i).brightnessSet = ((d.privs p).leds i).brightnessSet) :
    Sound (d.modifyPriv p f) := by
  have hcallback : ∀ cdev,
      ((d.modifyPriv p f).led cdev).brightnessSet = (d.led cdev).brightnessSet := by
    intro cdev
    by_cases hq : cdev.1 = p
    · subst hq
      simp only [Dev.led, Dev.modifyPriv, Function.update_self, hled]
    · simp only [Dev.led, Dev.modifyPriv, Function.update_of_ne hq]
  refine ⟨h.calls, h.alive, fun cdev hmem => ?_, fun q hactive => ?_, fun q hactive => ?_⟩
  · rw [hcallback]
    exact h.installed cdev hmem
  · refine Eq.trans ?_ (h.running q hactive)
    by_cases hq : q = p
    · subst hq
      simp only [Dev.modifyPriv, Function.update_self, hrunning]
    · simp only [Dev.modifyPriv, Function.update_of_ne hq]
  · rw [hcallback]
    refine ⟨Nat.lt_of_lt_of_eq (h.leds q hactive).1 ?_, (h.leds q hactive).2⟩
    by_cases hq : q = p
    · subst hq
      simp only [Dev.modifyPriv, Function.update_self, hnum]
    · simp only [Dev.modifyPriv, Function.update_of_ne hq]

theorem work_sound (h : Sound d) (p : Nat) : Sound (d.work host p) := by
  unfold Dev.work
  split
  · next item pending hqueue =>
    have htaken : Sound
        (d.modifyPriv p fun priv => { priv with workqueue := .running pending }) := by
      refine h.modifyPriv ?_ rfl fun _ => rfl
      rw [hqueue]
      rfl
    exact htaken.of_quiet (setNow_calm host _ item.1 item.2) htaken.calls
  · exact h

theorem setDisabled_sound (h : Sound d) (disabled : Bool) :
    Sound (ledDevSetDisabled disabled d) := by
  unfold ledDevSetDisabled
  split
  · exact h
  · exact h.modifyPriv rfl rfl fun _ => rfl

/-- Private data is allocated and filled: the other LEDs are as before. -/
theorem allocate_installed (h : Installed d) (priv : Priv) :
    Installed (d.allocate.modifyPriv d.allocated fun _ => priv) := by
  intro cdev hmem
  obtain ⟨hcallback, hlt⟩ := h cdev hmem
  have hne : cdev.1 ≠ d.allocated := Nat.ne_of_lt hlt
  refine ⟨?_, Nat.lt_succ_of_lt hlt⟩
  simp only [Dev.led, Dev.modifyPriv, Dev.allocate, Function.update_of_ne hne]
  exact hcallback

/-- Private data whose LEDs have no callbacks yet goes without trouble. -/
theorem deactivate_silent (hactive : d.drvdata = some p) (halive : d.oops = false)
    (hnone : ∀ i, (d.led (p, i)).brightnessSet = none) (hcalls : ∀ s ∈ d.calls, s.Live)
    (hinstalled : Installed d) : Sound (ledDevDeactivate host d).2 := by
  obtain ⟨d', hframe, hinactive', hdrvdata, hcleanup⟩ := deactivate_cleanup host hactive
  obtain ⟨hcalm, hsilent⟩ := cleanup_silent host (d := d') (p := p) (hframe.oops.trans halive)
    (fun i => by rw [hframe.led]; exact hnone i) (d.privs p).numLeds
  have hinactive : (ledDevDeactivate host d).2.drvdata = none := by
    rw [hdrvdata, hcalm.drvdata, hinactive']
  refine ⟨?_, ?_, ?_, fun q hq => ?_, fun q hq => ?_⟩
  · rw [hcleanup.calls, hsilent, hframe.calls]
    exact hcalls
  · rw [hcleanup.oops, hcalm.oops, hframe.oops, halive]
  · exact ((hinstalled.of_frame hframe).of_calm hcalm).of_frame hcleanup
  · exact absurd (hinactive.symm.trans hq) (Option.some_ne_none q).symm
  · exact absurd (hinactive.symm.trans hq) (Option.some_ne_none q).symm

/-- The private data that `dev_leds_init` is called on. -/
theorem allocate_working (h : Sound d) (priv : Priv) :
    Working d.allocated
      (d.allocate.modifyPriv d.allocated fun _ => { priv with workqueue := .running [] }) := by
  refine ⟨rfl, h.alive, ?_, h.calls⟩
  simp only [Dev.modifyPriv, Function.update_self]
  rfl

/-- `dev_leds_init` is called on an active device. -/
theorem init_sound {n : Nat} (hworking : Working p d) (hinstalled : Installed d)
    (hlt : p < d.allocated) (hnum : (d.privs p).numLeds = n) (hn : 0 < n)
    (hhanded : ∀ j, j < n → (d.led (p, j)).ledBrightnessSet = some .devLedsBrightnessSet)
    (register : Nat → Int) (base : Iomem) (msg : String) :
    let init := devLedsInit host register p base n 0 0 d
    let activated := if init.2.oops then init
      else if init.1 < 0 then activateErr host init.1 (init.2.devErr msg) else (0, init.2)
    ((∀ s ∈ activated.2.calls, s.Live) ↔ ¬ Fails register n) ∧
      (¬ Fails register n → Sound activated.2) := by
  obtain ⟨hoops, -, hnum', hfails, -⟩ := init_core host register p base n 0 0 d d.core
    hworking.alive hworking.data (Int.le_refl 0) (fun _ hj => absurd hj (Nat.not_lt_zero _))
    (List.append_nil _).symm
  obtain ⟨hdone, hinstalled'⟩ := init_working host register base n 0 0 d hworking hinstalled hlt
    fun j _ hj => hhanded j (Nat.lt_of_lt_of_eq hj (Nat.zero_add n))
  have hfirst := (init_completes host register p base n 0 0 d hworking.alive hworking.data).2 0
    (Nat.le_refl 0) (by omega) (Or.inl rfl)
  have hcallback : ((devLedsInit host register p base n 0 0 d).2.led (p, 0)).brightnessSet =
      some .devLedsBrightnessSet := by
    rw [hfirst]
    show some ((d.led (p, 0)).ledBrightnessSet.getD _) = _
    rw [hhanded 0 hn]
    rfl
  rw [hnum] at hnum'
  rw [Nat.zero_add] at hfails
  intro init activated
  have halive : activated =
      if init.1 < 0 then activateErr host init.1 (init.2.devErr msg) else (0, init.2) :=
    if_neg (by rw [hoops]; exact Bool.false_ne_true)
  by_cases hneg : init.1 < 0
  · -- the callback of the first LED is installed, and it is unregistered too late
    have hnull : .nullDrvdata ∈ activated.2.calls := by
      rw [halive, if_pos hneg]
      exact deactivate_null host (d := init.2.devErr msg) hdone.active hdone.alive
        (Nat.lt_of_lt_of_eq hn hnum'.symm) hcallback
    exact ⟨iff_of_false (not_live_of_null hnull) fun hnot => hnot (hfails.mp hneg),
      fun hnot => absurd (hfails.mp hneg) hnot⟩
  · rw [halive, if_neg hneg]
    have hnot : ¬ Fails register n := fun hfail => hneg (hfails.mpr hfail)
    refine ⟨iff_of_true hdone.calls hnot,
      fun _ => ⟨hdone.calls, hdone.alive, hinstalled', ?_, ?_⟩⟩
    · intro q hq
      cases hdone.active.symm.trans hq
      exact hdone.running
    · intro q hq
      cases hdone.active.symm.trans hq
      exact ⟨Nat.lt_of_lt_of_eq hn hnum'.symm, hcallback⟩

theorem activate_sound (h : Sound d) {env : Env} (huse : env.useWorkqueue = true) :
    (FindsLiveData host d (.activate env) ↔ Harmless d (.activate env)) ∧
      (Harmless d (.activate env) → Sound (d.perform host (.activate env))) := by
  have hexit := activate_exit host env d
  rw [entered_of_alive h.alive] at hexit
  unfold FindsLiveData Harmless
  rw [h.call_eq host, Dev.perform]
  generalize ledDevActivate host env d = activated at hexit ⊢
  cases hexit with
  | empty hempty =>
    refine ⟨iff_of_true h.calls ⟨fun hne => absurd hempty hne, fun hinits => ?_⟩, fun _ => h⟩
    exact absurd hempty hinits.1.1
  | @early ret msg hne hstarts hret =>
    have hwarned : Sound (d.devErr msg) := ⟨h.calls, h.alive, h.installed, h.running, h.leds⟩
    obtain ⟨hiff, hnext⟩ := deactivate_sound host hwarned
    rw [FindsLiveData, hwarned.call_eq host] at hiff
    have hharm : ((env.children ≠ [] → ¬ env.Starts → d.drvdata = none) ∧
        (env.Inits → ¬ Fails env.register env.children.length)) ↔ d.drvdata = none :=
      ⟨fun hboth => hboth.1 hne hstarts,
        fun hnone => ⟨fun _ _ => hnone, fun hinits => absurd hinits.1 hstarts⟩⟩
    exact ⟨hiff.trans hharm.symm, fun hboth => hnext (hharm.mp hboth)⟩
  | @late ret msg priv hstarts hinits hret hparsed hnum =>
    -- callbacks are installed by `dev_leds_init` only
    have hsound := deactivate_silent host (p := d.allocated)
      (d := (d.allocate.modifyPriv d.allocated fun _ => priv).devErr msg) rfl h.alive
      (fun i => (congrArg LedDat.brightnessSet (allocate_led d priv i)).trans
        (hparsed.callbacks i))
      h.calls (allocate_installed h.installed priv)
    refine ⟨iff_of_true hsound.calls ⟨fun _ hnot => absurd hstarts hnot, fun hyes => ?_⟩,
      fun _ => hsound⟩
    exact absurd hyes hinits
  | @init base priv hinits hparsed huse' hnum =>
    have hn : 0 < priv.numLeds := by
      rw [hnum]
      exact List.length_pos_iff.mpr hinits.1.1
    have hprivs : (d.allocate.modifyPriv d.allocated fun _ =>
        { priv with workqueue := .running [] }).privs d.allocated =
          { priv with workqueue := .running [] } := Function.update_self ..
    have hhanded : ∀ j, j < priv.numLeds →
        ((d.allocate.modifyPriv d.allocated fun _ => { priv with workqueue := .running [] }).led
          (d.allocated, j)).ledBrightnessSet = some .devLedsBrightnessSet := by
      intro j hj
      rw [allocate_led]
      refine (hparsed.handed j hj).trans ?_
      rw [huse', huse]
      rfl
    obtain ⟨hiff, hnext⟩ := init_sound host (allocate_working h priv)
      (allocate_installed h.installed _) (Nat.lt_succ_self _) (congrArg Priv.numLeds hprivs) hn
      hhanded env.register base "dev_leds_init failed\n"
    have hharm : ((env.children ≠ [] → ¬ env.Starts → d.drvdata = none) ∧
        (env.Inits → ¬ Fails env.register env.children.length)) ↔
          ¬ Fails env.register priv.numLeds := by
      rw [hnum]
      exact ⟨fun hboth => hboth.2 hinits,
        fun hnot => ⟨fun _ hearly => absurd hinits.1 hearly, fun _ => hnot⟩⟩
    exact ⟨hiff.trans hharm.symm, fun hboth => hnext (hharm.mp hboth)⟩

theorem call_sound (h : Sound d) {c : Call} (hpossible : Possible d c) :
    (FindsLiveData host d c ↔ Harmless d c) ∧ (Harmless d c → Sound (d.call host c)) := by
  have hkept : ∀ {P : Prop}, Sound (d.perform host c) →
      (FindsLiveData host d c ↔ True) ∧ (P → Sound (d.perform host c)) := by
    intro P hsound
    refine ⟨iff_of_true ?_ trivial, fun _ => hsound⟩
    rw [FindsLiveData, h.call_eq host]
    exact hsound.calls
  rw [h.call_eq host]
  cases c with
  | activate env => exact activate_sound host h hpossible
  | request cdev v => exact request_sound host h hpossible v
  | deactivate => exact deactivate_sound host h
  | work p => exact hkept (work_sound host h p)
  | enable => exact hkept (setDisabled_sound h false)
  | disable => exact hkept (setDisabled_sound h true)

/-- **LED updates.** In a run of a device that uses a workqueue, every execution of
`dev_leds_brightness_set` finds private data, and a workqueue that was not destroyed, exactly
when the device is never deactivated, by `led_dev_deactivate` or by an activation that fails
while it is active, no activation fails in `dev_leds_init`, and no request is made after a
second activation has taken the private data away. -/
theorem led_updates_live_iff (regs : σ) {calls : List Call}
    (hpossible : Along (Dev.call host) Possible (Dev.fresh regs) calls) :
    Along (Dev.call host) (FindsLiveData host) (Dev.fresh regs) calls ↔
      Along (Dev.call host) Harmless (Dev.fresh regs) calls := by
  have hfresh : Sound (Dev.fresh regs) :=
    ⟨fun _ hs => absurd hs List.not_mem_nil, rfl, fun _ hmem => absurd hmem List.not_mem_nil,
      fun _ hactive => absurd hactive.symm (Option.some_ne_none _),
      fun _ hactive => absurd hactive.symm (Option.some_ne_none _)⟩
  exact along_iff (fun h hp => (call_sound host h hp).1)
    (fun h hp hharm => (call_sound host h hp).2 hharm) hfresh hpossible

end Calls

end Runs

/-! ## A device that is used, and one that is removed -/

theorem led_updates_live_used :
    Along (Dev.call plainHost) (FindsLiveData plainHost) (Dev.fresh 0)
      [.activate (twoChildren true fun _ => 0), .request (0, 1) 255, .work 0] := by
  have hregistered : (0, 1) ∈
      ((Dev.fresh 0).call plainHost (.activate (twoChildren true fun _ => 0))).registered :=
    List.mem_of_getElem? (i := 0) rfl
  have hpossible : Along (Dev.call plainHost) Possible (Dev.fresh 0)
      [.activate (twoChildren true fun _ => 0), .request (0, 1) 255, .work 0] :=
    ⟨rfl, hregistered, trivial, trivial⟩
  refine (led_updates_live_iff plainHost 0 hpossible).mpr
    ⟨⟨fun _ _ => rfl, fun _ => ?_⟩, Option.some_ne_none 0, trivial, trivial⟩
  rintro ⟨i, -, hneg⟩
  exact Int.lt_irrefl 0 hneg

/-- The device is activated and removed: both LEDs were set through the workqueue, and the first is
switched off without private data. -/
theorem led_updates_null_on_removal :
    ((((Dev.fresh 0).call plainHost (.activate (twoChildren true fun _ => 0))).call plainHost
        .deactivate).calls = [.queued true, .queued true, .nullDrvdata]) ∧
    Along (Dev.call plainHost) Possible (Dev.fresh 0)
      [.activate (twoChildren true fun _ => 0), .deactivate] ∧
    ¬ Along (Dev.call plainHost) (FindsLiveData plainHost) (Dev.fresh 0)
      [.activate (twoChildren true fun _ => 0), .deactivate] := by
  have hcalls : (((Dev.fresh 0).call plainHost (.activate (twoChildren true fun _ => 0))).call
      plainHost .deactivate).calls = [.queued true, .queued true, .nullDrvdata] := rfl
  refine ⟨hcalls, ⟨rfl, trivial, trivial⟩, ?_⟩
  rintro ⟨-, hlive, -⟩
  unfold FindsLiveData at hlive
  rw [hcalls] at hlive
  exact hlive .nullDrvdata (by decide)

end LinuxDeviceDriver.Led
