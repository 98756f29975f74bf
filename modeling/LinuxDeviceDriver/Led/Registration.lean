import LinuxDeviceDriver.Led.Device

/-!
# LEDs registered and unregistered

`dev_leds_init` unwinds the LEDs it has registered when a later one fails, and
`led_dev_deactivate`, which the error path of `led_dev_activate` ends in, unregisters all LEDs
that were parsed. So the two overlap when registering fails, and LEDs that were never registered
are unregistered when the failure comes earlier. And a LED that uses the workqueue cannot be
unregistered by `led_dev_deactivate` at all: the private data is gone by then, and the thread dies
in switching the LED off.

`replay` follows the requests to the LED core; `Balanced` says that it ends with no LED
registered and no unregistering on the way was of a LED that was not, and `Dev.Paired` that the
last of these requests came back. `init_core` gives the requests of `dev_leds_init`,
`init_completes` the LEDs it leaves; `registration_balanced_iff` says which lives of a device are
paired.
-/

namespace LinuxDeviceDriver.Led

open Lib Generic

/-! ## The LED core -/

/-- The LEDs that are registered after a request. -/
def CoreCall.apply (registered : List Cdev) : CoreCall → List Cdev
  | register cdev => cdev :: registered
  | unregister cdev => registered.erase cdev

/-- Only a registered LED can be unregistered. -/
def CoreCall.Allowed (registered : List Cdev) : CoreCall → Prop
  | register _ => True
  | unregister cdev => cdev ∈ registered

instance (registered : List Cdev) (c : CoreCall) : Decidable (c.Allowed registered) := by
  cases c <;> unfold CoreCall.Allowed <;> infer_instance

/-- The LEDs that are registered after the requests, if all were allowed. -/
def replay : List Cdev → List CoreCall → Option (List Cdev)
  | registered, [] => some registered
  | registered, c :: cs => if c.Allowed registered then replay (c.apply registered) cs else none

/-- Every LED that was registered was unregistered once, and no other. -/
def Balanced (cs : List CoreCall) : Prop := replay [] cs = some []

instance (cs : List CoreCall) : Decidable (Balanced cs) := by
  unfold Balanced
  infer_instance

/-- The requests are balanced, and the thread did not die in one of them. -/
def Dev.Paired {σ : Type} (d : Dev σ) : Prop := d.oops = false ∧ Balanced d.core

theorem replay_allowed {registered : List Cdev} {c : CoreCall} (h : c.Allowed registered)
    (cs : List CoreCall) : replay registered (c :: cs) = replay (c.apply registered) cs :=
  if_pos h

theorem replay_append (cs cs' : List CoreCall) (registered : List Cdev) :
    replay registered (cs ++ cs') = (replay registered cs).bind fun r => replay r cs' := by
  induction cs generalizing registered with
  | nil => rfl
  | cons c cs ih =>
    rw [List.cons_append]
    by_cases hallowed : c.Allowed registered
    · rw [replay_allowed hallowed, replay_allowed hallowed]
      exact ih _
    · rw [replay, if_neg hallowed, replay, if_neg hallowed]
      rfl

theorem replay_register (cdevs registered : List Cdev) :
    replay registered (cdevs.map .register) = some (cdevs.reverse ++ registered) := by
  induction cdevs generalizing registered with
  | nil => rfl
  | cons cdev cdevs ih =>
    have hallowed : (CoreCall.register cdev).Allowed registered := trivial
    rw [List.map_cons, replay_allowed hallowed, List.reverse_cons, List.append_assoc]
    exact ih _

/-- Unregistering exactly what is registered, in any order. -/
theorem replay_unregister {cdevs registered : List Cdev} (h : registered.Perm cdevs) :
    replay registered (cdevs.map .unregister) = some [] := by
  induction cdevs generalizing registered with
  | nil =>
    rw [h.eq_nil]
    rfl
  | cons cdev cdevs ih =>
    have hallowed : (CoreCall.unregister cdev).Allowed registered :=
      h.mem_iff.mpr List.mem_cons_self
    have hrest : (registered.erase cdev).Perm cdevs := by
      have herase := h.erase cdev
      rwa [List.erase_cons_head] at herase
    rw [List.map_cons, replay_allowed hallowed]
    exact ih hrest

theorem balanced_of_perm {cdevs cdevs' : List Cdev} (h : cdevs.Perm cdevs') :
    Balanced (cdevs.map .register ++ cdevs'.map .unregister) := by
  unfold Balanced
  rw [replay_append, replay_register, List.append_nil]
  exact replay_unregister (cdevs.reverse_perm.trans h)

/-- Once balanced, nothing is left to unregister. -/
theorem not_balanced_append {cs cs' : List CoreCall} (h : Balanced cs) (cdev : Cdev) :
    ¬ Balanced (cs ++ .unregister cdev :: cs') := by
  unfold Balanced at *
  rw [replay_append, h]
  exact nofun

/-! ## The requests of an activation -/

section Activation

variable {σ : Type} {host : Host σ} {d : Dev σ}

/-- Whether `led_classdev_register` fails for one of `n` LEDs. -/
def Fails (register : Nat → Int) (n : Nat) : Prop := ∃ i, i < n ∧ register i < 0

/-- A pass of the loop whose LED is registered: it is completed, set and enabled. -/
def Dev.pass (host : Host σ) (p i : Nat) (devBase : Iomem) (d : Dev σ) : Dev σ :=
  let d := d.complete p i devBase
  ((d.register (p, i)).set host (p, i) (d.led (p, i)).brightness).enbRegSet host (p, i)

theorem pass_calm (host : Host σ) (hdata : d.drvdata ≠ none) (p i : Nat) (devBase : Iomem) :
    Calm [.register (p, i)] (d.complete p i devBase) (d.pass host p i devBase) := by
  have hregister := register_calm (d.complete p i devBase) (p, i)
  have hsafe : ((d.complete p i devBase).register (p, i)).Survives (p, i) := .inl hdata
  have hset := set_calm host hsafe ((d.complete p i devBase).led (p, i)).brightness
  exact (hregister.trans hset).trans (enbRegSet_calm host _ (p, i))

theorem pass_data (host : Host σ) (hdata : d.drvdata ≠ none) (p i : Nat) (devBase : Iomem) :
    (d.pass host p i devBase).drvdata ≠ none := by
  rw [(pass_calm host hdata p i devBase).drvdata]
  exact hdata

/-- The loop on an active device, in which setting a LED always comes back. -/
theorem devLedsInit_succ (host : Host σ) (halive : d.oops = false) (hdata : d.drvdata ≠ none)
    (register : Nat → Int) (p : Nat) (devBase : Iomem) (todo i : Nat) (ret : Int) :
    devLedsInit host register p devBase (todo + 1) i ret d =
      if register i < 0 then (register i, (d.complete p i devBase).unwind host p i)
      else devLedsInit host register p devBase todo (i + 1) (register i)
        (d.pass host p i devBase) := by
  have hset : (((d.complete p i devBase).register (p, i)).set host (p, i)
      ((d.complete p i devBase).led (p, i)).brightness).oops = false :=
    (pass_calm host hdata p i devBase).oops.trans halive
  rw [devLedsInit]
  dsimp only
  rw [hset, if_neg Bool.false_ne_true]
  rfl

/-- `dev_leds_init` registers all LEDs, or some and unregisters them again. -/
theorem init_core (host : Host σ) (register : Nat → Int) (p : Nat) (devBase : Iomem) (todo : Nat) :
    ∀ (i : Nat) (ret : Int) (d : Dev σ) (cs : List CoreCall), d.oops = false → d.drvdata ≠ none →
      0 ≤ ret → (∀ j, j < i → 0 ≤ register j) → d.core = cs ++ (cdevs p i).map .register →
      let init := devLedsInit host register p devBase todo i ret d
      init.2.oops = false ∧ init.2.drvdata = d.drvdata ∧
      (init.2.privs p).numLeds = (d.privs p).numLeds ∧
      (init.1 < 0 ↔ Fails register (i + todo)) ∧
      (0 ≤ init.1 → init.2.core = cs ++ (cdevs p (i + todo)).map .register) ∧
      (init.1 < 0 → ∃ j, init.2.core =
        cs ++ ((cdevs p j).map .register ++ (cdevs p j).reverse.map .unregister)) := by
  -- by induction on the LEDs to go; LEDs `0` to `i - 1` are registered
  induction todo with
  | zero =>
    intro i ret d cs halive _ hret hbefore hcore
    refine ⟨halive, rfl, rfl, iff_of_false (Int.not_lt.mpr hret) ?_, fun _ => hcore,
      fun hneg => ?_⟩
    · rintro ⟨j, hj, hneg⟩
      exact absurd hneg (Int.not_lt.mpr (hbefore j hj))
    · exact absurd hneg (Int.not_lt.mpr hret)
  | succ todo ih =>
    intro i ret d cs halive hdata hret hbefore hcore
    have hnum : ((d.complete p i devBase).privs p).numLeds = (d.privs p).numLeds := by
      simp only [Dev.complete, Dev.modifyPriv, Function.update_self]
    rw [devLedsInit_succ host halive hdata]
    by_cases hneg : register i < 0
    · rw [if_pos hneg]
      have hcalm := unwind_calm host (d := d.complete p i devBase) (p := p) (i := i) halive
        fun j _ => Or.inl hdata
      refine ⟨hcalm.oops.trans halive, hcalm.drvdata, ?_, iff_of_true hneg ⟨i, by omega, hneg⟩,
        fun hpos => ?_, fun _ => ?_⟩
      · rw [hcalm.privs p]
        exact hnum
      · exact absurd hneg (Int.not_lt.mpr hpos)
      · refine ⟨i, hcalm.core.trans ?_⟩
        rw [← List.append_assoc, ← hcore]
        rfl
    · rw [if_neg hneg]
      have hcalm := pass_calm host hdata p i devBase
      have hcore' := hcalm.core.trans (congrArg (· ++ [CoreCall.register (p, i)]) hcore)
      rw [List.append_assoc, ← List.map_singleton, ← List.map_append, ← cdevs_succ] at hcore'
      have hbefore' : ∀ j, j < i + 1 → 0 ≤ register j := by
        intro j hj
        rcases Nat.lt_succ_iff_lt_or_eq.mp hj with hlt | rfl
        · exact hbefore j hlt
        · exact Int.not_lt.mp hneg
      have hdata' := pass_data host hdata p i devBase
      obtain ⟨hoops, hdrvdata, hleds, hrest⟩ :=
        ih (i + 1) (register i) _ cs (hcalm.oops.trans halive) hdata' (Int.not_lt.mp hneg) hbefore'
          hcore'
      rw [Nat.add_right_comm] at hrest
      refine ⟨hoops, hdrvdata.trans hcalm.drvdata, hleds.trans ?_, hrest⟩
      rw [hcalm.privs p]
      exact hnum

/-- On an active device `dev_leds_init` comes back. -/
theorem init_alive (host : Host σ) (halive : d.oops = false) (hdata : d.drvdata ≠ none)
    (register : Nat → Int) (p : Nat) (devBase : Iomem) (n : Nat) :
    (devLedsInit host register p devBase n 0 0 d).2.oops = false :=
  (init_core host register p devBase n 0 0 d d.core halive hdata (Int.le_refl 0)
    (fun _ hj => absurd hj (Nat.not_lt_zero _)) (List.append_nil _).symm).1

/-- `dev_leds_init` leaves the LEDs before `i` alone. It completes LED `i`, and when it succeeds
every other. -/
theorem init_completes (host : Host σ) (register : Nat → Int) (p : Nat) (devBase : Iomem)
    (todo : Nat) :
    ∀ (i : Nat) (ret : Int) (d : Dev σ), d.oops = false → d.drvdata ≠ none →
      let init := devLedsInit host register p devBase todo i ret d
      (∀ j, j < i → init.2.led (p, j) = d.led (p, j)) ∧
      ∀ j, i ≤ j → j < i + todo → j = i ∨ 0 ≤ init.1 →
        init.2.led (p, j) = (d.led (p, j)).complete devBase := by
  induction todo with
  | zero => exact fun i ret d _ _ => ⟨fun _ _ => rfl, fun j hij hj _ => by omega⟩
  | succ todo ih =>
    intro i ret d halive hdata
    have hother : ∀ j, j ≠ i → (d.complete p i devBase).led (p, j) = d.led (p, j) :=
      fun j hj => complete_led_of_ne d devBase fun hsame => hj (congrArg Prod.snd hsame)
    rw [devLedsInit_succ host halive hdata]
    by_cases hneg : register i < 0
    · rw [if_pos hneg]
      have hcalm := unwind_calm host (d := d.complete p i devBase) (p := p) (i := i) halive
        fun j _ => Or.inl hdata
      refine ⟨fun j hj => (hcalm.led _).trans (hother j (Nat.ne_of_lt hj)), ?_⟩
      rintro j hij hj (rfl | hpos)
      · rw [hcalm.led, complete_led_self]
      · exact absurd hneg (Int.not_lt.mpr hpos)
    · rw [if_neg hneg]
      -- registering and setting a LED change no descriptor
      have hcalm := pass_calm host hdata p i devBase
      have hdata' := pass_data host hdata p i devBase
      obtain ⟨hbefore, hafter⟩ := ih (i + 1) (register i) (d.pass host p i devBase)
        (hcalm.oops.trans halive) hdata'
      refine ⟨fun j hj => ?_, fun j hij hj hwhich => ?_⟩
      · rw [hbefore j (by omega), hcalm.led, hother j (Nat.ne_of_lt hj)]
      · by_cases hji : j = i
        · subst hji
          rw [hbefore j (Nat.lt_succ_self j), hcalm.led, complete_led_self]
        · rw [hafter j (by omega) (by omega) (Or.inr (hwhich.resolve_left hji)), hcalm.led,
            hother j hji]

/-- A device is deactivated later if its activation succeeded. -/
def closed (host : Host σ) (activated : Int × Dev σ) : Dev σ :=
  if activated.1 = 0 then activated.2.next fun d => (ledDevDeactivate host d).2
  else activated.2

/-- A device is activated, and deactivated later if that succeeded. -/
def lifecycle (host : Host σ) (env : Env) (d : Dev σ) : Dev σ :=
  closed host (ledDevActivate host env d)

/-- An activation that fails when a LED has been parsed already. -/
structure FailsLate (env : Env) : Prop where
  starts : env.Starts
  parsed : 0 < env.numLeds
  fails : ¬ env.Inits ∨ Fails env.register env.children.length

theorem deactivate_none (hnone : d.drvdata = none) : (ledDevDeactivate host d).2 = d := by
  unfold ledDevDeactivate
  rw [hnone]

theorem Env.numLeds_of_inits {env : Env} (h : env.Inits) : env.numLeds = env.children.length := by
  unfold Env.numLeds
  rw [if_pos h.2.1, List.takeWhile_eq_self_iff.mpr h.2.2.1]

theorem cdevs_pos (p : Nat) {n : Nat} (hn : 0 < n) : ∃ rest, cdevs p n = (p, 0) :: rest := by
  obtain ⟨m, rfl⟩ := Nat.exists_eq_succ_of_ne_zero (Nat.ne_of_gt hn)
  unfold cdevs
  rw [List.range_succ_eq_map, List.map_cons]
  exact ⟨_, rfl⟩

/-- LEDs of which none is registered any more cannot be unregistered. -/
theorem balanced_unregister_iff {cs : List CoreCall} (hbalanced : Balanced cs) (p n : Nat) :
    Balanced (cs ++ (cdevs p n).map .unregister) ↔ n = 0 := by
  constructor
  · intro hagain
    by_contra hn
    obtain ⟨rest, hrest⟩ := cdevs_pos p (Nat.pos_of_ne_zero hn)
    rw [hrest, List.map_cons] at hagain
    exact not_balanced_append hbalanced (p, 0) hagain
  · rintro rfl
    rw [cdevs, List.range_zero, List.map_nil, List.map_nil, List.append_nil]
    exact hbalanced

theorem closed_activateErr (host : Host σ) {ret : Int} (hret : ret < 0) (d : Dev σ) :
    closed host (activateErr host ret d) = (ledDevDeactivate host d).2 :=
  if_neg (Int.ne_of_lt hret)

theorem set_core (host : Host σ) (d : Dev σ) (cdev : Cdev) (v : Brightness) :
    (d.set host cdev v).core = d.core := by
  by_cases hsafe : d.Survives cdev
  · rw [(set_calm host hsafe v).core, List.append_nil]
  · obtain ⟨hnone, hcallback⟩ := not_or.mp hsafe
    rw [set_dies host (not_ne_iff.mp hnone) (not_ne_iff.mp hcallback)]

/-- Whether it dies of it or not, `dev_leds_cleanup` unregisters the first LED. -/
theorem cleanup_first (host : Host σ) {p num : Nat} (halive : d.oops = false) (hnum : 0 < num) :
    ∃ rest, (devLedsCleanup host p num d).core = d.core ++ .unregister (p, 0) :: rest := by
  induction num with
  | zero => exact absurd hnum (Nat.lt_irrefl 0)
  | succ num ih =>
    rw [devLedsCleanup]
    rcases Nat.eq_zero_or_pos num with rfl | hpos
    · rw [devLedsCleanup, next_alive halive]
      exact ⟨[], set_core ..⟩
    · obtain ⟨rest, hrest⟩ := ih hpos
      cases hoops : (devLedsCleanup host p num d).oops with
      | true => exact ⟨rest, by rw [next_dead hoops, hrest]⟩
      | false =>
        refine ⟨rest ++ [.unregister (p, num)], ?_⟩
        rw [next_alive hoops]
        refine (set_core ..).trans ?_
        show (devLedsCleanup host p num d).core ++ _ = _
        rw [hrest, List.append_assoc, List.cons_append]

theorem deactivate_first (host : Host σ) {p : Nat} (hactive : d.drvdata = some p)
    (halive : d.oops = false) (hnum : 0 < (d.privs p).numLeds) :
    ∃ rest, (ledDevDeactivate host d).2.core = d.core ++ .unregister (p, 0) :: rest := by
  obtain ⟨d', hframe, -, -, hcleanup⟩ := deactivate_cleanup host hactive
  obtain ⟨rest, hrest⟩ := cleanup_first host (d := d') (p := p) (hframe.oops.trans halive) hnum
  exact ⟨rest, by rw [hcleanup.core, hrest, hframe.core]⟩

/-- From `dev_leds_init` on, everything depends on whether it fails, and on the callbacks. -/
theorem init_paired_iff (host : Host σ) (register : Nat → Int) (devBase : Iomem) {p n : Nat}
    (hactive : d.drvdata = some p) (halive : d.oops = false) (hcore : d.core = [])
    (hnum : (d.privs p).numLeds = n) (hn : n ≠ 0) {useWorkqueue : Bool}
    (hhanded : ∀ j, j < n → (d.led (p, j)).ledBrightnessSet = handed useWorkqueue) (msg : String) :
    let init := devLedsInit host register p devBase n 0 0 d
    (closed host (if init.2.oops then init
      else if init.1 < 0 then activateErr host init.1 (init.2.devErr msg)
      else (0, init.2))).Paired ↔ ¬ Fails register n ∧ useWorkqueue = false := by
  have hdata : d.drvdata ≠ none := by
    rw [hactive]
    exact Option.some_ne_none p
  obtain ⟨hoops, hdrvdata, hleds, hfails, hdone, hundone⟩ :=
    init_core host register p devBase n 0 0 d [] halive hdata (Int.le_refl 0)
      (fun _ hj => absurd hj (Nat.not_lt_zero _)) hcore
  obtain ⟨-, hcompleted⟩ := init_completes host register p devBase n 0 0 d halive hdata
  rw [hactive] at hdrvdata
  rw [hnum] at hleds
  rw [Nat.zero_add] at hfails hdone hcompleted
  intro init
  have hpos : 0 < (init.2.privs p).numLeds := by
    rw [hleds]
    exact Nat.pos_of_ne_zero hn
  rw [if_neg (by rw [hoops]; exact Bool.false_ne_true)]
  by_cases hneg : init.1 < 0
  · -- the LEDs that were unwound are unregistered once more
    obtain ⟨j, hunwound⟩ := hundone hneg
    have hbalanced : Balanced init.2.core := by
      rw [hunwound]
      exact balanced_of_perm (cdevs p j).reverse_perm.symm
    obtain ⟨rest, hagain⟩ :=
      deactivate_first host (d := init.2.devErr msg) hdrvdata hoops hpos
    refine iff_of_false ?_ fun hnot => hnot.1 (hfails.mp hneg)
    rw [if_pos hneg, closed_activateErr host hneg]
    rintro ⟨-, hpaired⟩
    rw [hagain] at hpaired
    exact not_balanced_append hbalanced (p, 0) hpaired
  · have hnot : ¬ Fails register n := fun hfail => hneg (hfails.mpr hfail)
    have hinstalled : ∀ i, i < n → (init.2.led (p, i)).brightnessSet =
        some ((handed useWorkqueue).getD ._devLedsBrightnessSet) := by
      intro i hi
      rw [hcompleted i (Nat.zero_le i) hi (Or.inr (Int.not_lt.mp hneg)), ← hhanded i hi]
      rfl
    rw [if_neg hneg, closed, if_pos rfl, next_alive hoops]
    cases useWorkqueue with
    | true =>
      have hdies := deactivate_dies host hdrvdata hoops hpos
        (hinstalled 0 (Nat.pos_of_ne_zero hn))
      refine iff_of_false ?_ fun hplain => Bool.false_ne_true hplain.2.symm
      exact fun hpaired => Bool.false_ne_true (hpaired.1.symm.trans hdies.1)
    | false =>
      obtain ⟨hback, hcore'⟩ := deactivate_calm host hdrvdata hoops fun i hi => by
        rw [hinstalled i (Nat.lt_of_lt_of_eq hi hleds)]
        exact fun heq => SetFn.noConfusion (Option.some.inj heq)
      refine iff_of_true ⟨hback, ?_⟩ ⟨hnot, rfl⟩
      rw [hcore', hleds, hdone (Int.not_lt.mp hneg)]
      exact balanced_of_perm (List.Perm.refl _)

/-- **LED registration.** Activating a device, and deactivating it if that succeeded, registers
and unregisters its LEDs in pairs exactly when the activation does not fail with a LED parsed
already, and does not register LEDs that use the workqueue. -/
theorem registration_balanced_iff (host : Host σ) (env : Env) (regs : σ) :
    (lifecycle host env (Dev.fresh regs)).Paired ↔
      ¬ FailsLate env ∧ (env.Inits → env.useWorkqueue = false) := by
  have hexit := activate_exit host env (Dev.fresh regs)
  rw [entered_of_alive (d := Dev.fresh regs) rfl] at hexit
  unfold lifecycle
  generalize ledDevActivate host env (Dev.fresh regs) = activated at hexit ⊢
  cases hexit with
  | empty hempty =>
    exact iff_of_true ⟨rfl, rfl⟩
      ⟨fun hlate => hlate.starts.1 hempty, fun hinits => absurd hempty hinits.1.1⟩
  | early _ hstarts hret =>
    refine iff_of_true ?_
      ⟨fun hlate => hstarts hlate.starts, fun hinits => absurd hinits.1 hstarts⟩
    rw [closed_activateErr host hret, deactivate_none rfl]
    exact ⟨rfl, rfl⟩
  | @late ret msg priv hstarts hinits hret hparsed hnum =>
    -- callbacks are installed by `dev_leds_init` only
    obtain ⟨hback, hcore⟩ := deactivate_calm host (p := (Dev.fresh regs).allocated)
      (d := ((Dev.fresh regs).allocate.modifyPriv (Dev.fresh regs).allocated fun _ => priv).devErr
        msg) rfl rfl fun i _ hcallback => by
        have hled := congrArg LedDat.brightnessSet (allocate_led (Dev.fresh regs) priv i)
        exact absurd (hcallback.symm.trans (hled.trans (hparsed.callbacks i)))
          (Option.some_ne_none _)
    rw [closed_activateErr host hret, Dev.Paired, hback, hcore, eq_self, true_and]
    refine (balanced_unregister_iff (rfl : Balanced []) _ _).trans ?_
    show priv.numLeds = 0 ↔ _
    rw [hnum]
    constructor
    · exact fun hzero => ⟨fun hlate => Nat.ne_of_gt hlate.parsed hzero,
        fun hyes => absurd hyes hinits⟩
    · rintro ⟨hnot, -⟩
      by_contra hpos
      exact hnot ⟨hstarts, Nat.pos_of_ne_zero hpos, Or.inl hinits⟩
  | @init base priv hinits hparsed huse hnum =>
    have hn : priv.numLeds ≠ 0 := by
      rw [hnum]
      exact fun hzero => hinits.1.1 (List.length_eq_zero_iff.mp hzero)
    have hlate : FailsLate env ↔ Fails env.register priv.numLeds := by
      rw [hnum]
      constructor
      · rintro ⟨-, -, hnot | hfails⟩
        · exact absurd hinits hnot
        · exact hfails
      · intro hfails
        refine ⟨hinits.1, ?_, Or.inr hfails⟩
        rw [Env.numLeds_of_inits hinits, ← hnum]
        exact Nat.pos_of_ne_zero hn
    have hqueue : (env.Inits → env.useWorkqueue = false) ↔ priv.useWorkqueue = false := by
      rw [huse]
      exact ⟨fun h => h hinits, fun h _ => h⟩
    rw [hlate, hqueue]
    refine init_paired_iff host env.register base (n := priv.numLeds) rfl rfl rfl rfl hn
      (fun j hj => ?_) _
    refine (congrArg LedDat.ledBrightnessSet (allocate_led ..)).trans ?_
    exact hparsed.handed j hj

end Activation

/-! ## A device with two LEDs -/

/-- One register, and memory for every work item. -/
def plainHost : Host (BitVec 64) := ⟨execReg singleRegister .zero, fun _ => true⟩

/-- A child node with the mandatory properties only. -/
def plainChild : Child where
  ledName := some [0x6c, 0x65, 0x64]
  regOffset := some [0, 0, 0, 4]
  bitIndex := some [0, 0, 0, 1]
  regIndex := none
  enableCtrl := none
  enableRegOffset := none
  enableBitIndex := none
  enableBitValue := none
  initialBrightness := none
  activeLow := none

/-- Two LEDs, of a device that uses the workqueue or not. -/
def twoChildren (useWorkqueue : Bool) (register : Nat → Int) : Env where
  children := [plainChild, plainChild]
  compatible := true
  devmKzalloc := true
  ofIomap := some 0x1000
  useWorkqueue := useWorkqueue
  createWorkqueue := true
  register := register

theorem twoChildren_not_late (useWorkqueue : Bool) :
    ¬ FailsLate (twoChildren useWorkqueue fun _ => 0) := by
  rintro ⟨hstarts, -, hinits | ⟨i, -, hneg⟩⟩
  · exact hinits ⟨hstarts, rfl, by simp only [twoChildren]; decide, rfl⟩
  · exact Int.lt_irrefl 0 hneg

theorem registration_balanced_two :
    (lifecycle plainHost (twoChildren false fun _ => 0) (Dev.fresh 0)).Paired ∧
      (lifecycle plainHost (twoChildren false fun _ => 0) (Dev.fresh 0)).core =
        [.register (0, 0), .register (0, 1), .unregister (0, 0), .unregister (0, 1)] :=
  ⟨(registration_balanced_iff plainHost _ _).mpr ⟨twoChildren_not_late false, fun _ => rfl⟩, rfl⟩

/-- The second LED cannot be registered: the first is unregistered twice, and the second
without having been registered. With the workqueue, the device that was activated dies in the first
LED that it unregisters, and the second stays registered. -/
theorem registration_unbalanced :
    ((lifecycle plainHost (twoChildren false fun i => if i = 1 then Errno.ebusy.neg else 0)
        (Dev.fresh 0)).core =
      [.register (0, 0), .unregister (0, 0), .unregister (0, 0), .unregister (0, 1)] ∧
    ¬ (lifecycle plainHost (twoChildren false fun i => if i = 1 then Errno.ebusy.neg else 0)
        (Dev.fresh 0)).Paired) ∧
    (lifecycle plainHost (twoChildren true fun _ => 0) (Dev.fresh 0)).core =
      [.register (0, 0), .register (0, 1), .unregister (0, 0)] ∧
    ¬ (lifecycle plainHost (twoChildren true fun _ => 0) (Dev.fresh 0)).Paired := by
  have hcore : (lifecycle plainHost
        (twoChildren false fun i => if i = 1 then Errno.ebusy.neg else 0) (Dev.fresh 0)).core =
      [.register (0, 0), .unregister (0, 0), .unregister (0, 0), .unregister (0, 1)] := rfl
  have hdies : (lifecycle plainHost (twoChildren true fun _ => 0) (Dev.fresh 0)).core =
      [.register (0, 0), .register (0, 1), .unregister (0, 0)] := rfl
  refine ⟨⟨hcore, fun hpaired => ?_⟩, hdies, fun hpaired => ?_⟩
  · have hbalanced := hpaired.2
    rw [hcore] at hbalanced
    exact absurd hbalanced (by decide)
  · have hbalanced := hpaired.2
    rw [hdies] at hbalanced
    exact absurd hbalanced (by decide)

end LinuxDeviceDriver.Led
