import LinuxDeviceDriver.Kernel
import LinuxDeviceDriver.Lib.Transition

/-!
# Calamares and the terminal: `calamares_bin.c`

Calamares puts the terminal it is started on into raw mode (`tty_setup`) and has to put the
attributes back (`tty_restore`) whenever the shell gets the terminal: when it is stopped with
Ctrl-Z, when it is killed, and at its end. The handlers of SIGTSTP and SIGCONT install each
other; every handler puts the inherited action back and raises its signal again.

The state is that of the process (`orig_termios`, the installed actions, running or stopped)
and of the terminal. An event is one delivery with the whole handler, or something the
environment does: SIGSTOP, the SIGCONT that resumes the process (its delivery comes later, so
that a signal which was pending may come first), the shell setting attributes of its own.

Two fields are for the specification only: who has set the current attributes (`holder`), and
what they were when calamares last took the terminal over from somebody else (`before`).

- `Inv`: the saved attributes are `before`, and the stop handler is installed while calamares'
  own settings are in force.
- `step_inv`: one event keeps it, as long as the continue handler does not run while
  calamares' own settings are in force (`Undisturbed`).
- `terminal_given_back`: every run of such events.
-/

namespace LinuxDeviceDriver.Calamares

open Lib

/-! ## Terminal attributes -/

/-- `struct termios` -/
structure Termios where
  iflag : BitVec 32
  oflag : BitVec 32
  cflag : BitVec 32
  lflag : BitVec 32
  vmin : Byte
  vtime : Byte
deriving DecidableEq

/-- The libc function, with the values of `asm-generic/termbits.h`. -/
def cfmakeraw (t : Termios) : Termios where
  -- IGNBRK | BRKINT | PARMRK | ISTRIP | INLCR | IGNCR | ICRNL | IXON
  iflag := t.iflag &&& ~~~ 0x5EB#32
  -- OPOST
  oflag := t.oflag &&& ~~~ 0x1#32
  -- CSIZE | PARENB, and CS8
  cflag := (t.cflag &&& ~~~ 0x130#32) ||| 0x30#32
  -- ECHO | ECHONL | ICANON | ISIG | IEXTEN
  lflag := t.lflag &&& ~~~ 0x804B#32
  vmin := 1
  vtime := 0

/-- `ISIG` -/
def isig : BitVec 32 := 0x1

/-- `OPOST | ONLCR` -/
def opostOnlcr : BitVec 32 := 0x5

/-! ## The process -/

/-- The signals that calamares handles. -/
inductive Signal
  | tstp
  | cont
  | int
  | term
  | quit
deriving DecidableEq

/-- The installed action: `signal_handler`, or the inherited one. -/
inductive Disposition
  | ours
  | orig
deriving DecidableEq

/-- An action that survives `exec`. -/
inductive Inherited
  | default
  | ignore
deriving DecidableEq

/-- The options `-c` and `-n`, and the actions calamares is started with. -/
structure Config where
  raw : Bool
  nlcr : Bool
  inherited : Signal → Inherited

inductive Status
  | running
  | stoppedByTstp
  | stoppedByStop
  | killed (sig : Signal)
  | exited
deriving DecidableEq

/-- The process is still there. -/
def Status.alive : Status → Bool
  | .killed _ => false
  | .exited => false
  | _ => true

/-- Who has set the attributes that are in force. -/
inductive Holder
  | calamares
  | restored
  | shell
deriving DecidableEq

structure State where
  tty : Termios
  origTermios : Termios
  handlersInstalled : Bool
  disposition : Signal → Disposition
  contPending : Bool
  status : Status
  holder : Holder
  before : Termios

/-- Whether `tcgetattr` and `tcsetattr` succeed in one call of the functions below. -/
structure TtyCalls where
  get : Bool
  set : Bool

/-- `new_termios`, from `orig_termios`. -/
def newTermios (cfg : Config) (t : Termios) : Termios :=
  let t := if cfg.raw then cfmakeraw t else t
  let t := { t with lflag := t.lflag ||| isig }
  if cfg.nlcr then { t with oflag := t.oflag ||| opostOnlcr } else t

def installSignalHandler (s : State) : State := { s with disposition := fun _ => .ours }

/-- `tcgetattr(fd, &orig_termios)` -/
def saveTermios (s : State) : State :=
  { s with
    origTermios := s.tty
    before := if s.holder = .calamares then s.before else s.tty }

/-- `tty_setup`, with its exit code. -/
def ttySetup (cfg : Config) (calls : TtyCalls) (s : State) : Nat × State :=
  if !calls.get then (1, s)
  else
    let s := saveTermios s
    let s := if s.handlersInstalled then s
      else { installSignalHandler s with handlersInstalled := true }
    if !calls.set then (1, s)
    else (0, { s with tty := newTermios cfg s.origTermios, holder := .calamares })

/-- `tty_restore`, with its exit code. -/
def ttyRestore (calls : TtyCalls) (s : State) : Nat × State :=
  if !calls.set then (1, s)
  else (0, { s with tty := s.origTermios, holder := .restored })

/-- `sigaction` -/
def sigaction (sig : Signal) (d : Disposition) (s : State) : State :=
  { s with disposition := Function.update s.disposition sig d }

/-- `signal_handler`, up to `raise`. -/
def signalHandler (cfg : Config) (calls : TtyCalls) (sig : Signal) (s : State) : State :=
  match sig with
  | .tstp => sigaction .tstp .orig (sigaction .cont .ours (ttyRestore calls s).2)
  | .cont => sigaction .cont .orig (sigaction .tstp .ours (ttySetup cfg calls s).2)
  | .quit => sigaction .quit .orig (ttyRestore calls s).2
  | .int => sigaction .int .orig (ttyRestore calls s).2
  | .term => sigaction .term .orig (ttyRestore calls s).2

/-- The inherited action of a signal. -/
def origAction (cfg : Config) (sig : Signal) (s : State) : State :=
  match cfg.inherited sig, sig with
  | .ignore, _ => s
  | .default, .tstp => { s with status := .stoppedByTstp }
  | .default, .cont => s
  | .default, sig => { s with status := .killed sig }

/-- A signal reaches the process. A handler has put the inherited action back when it returns
and the signal that it raised is delivered. -/
def deliver (cfg : Config) (calls : TtyCalls) (sig : Signal) (s : State) : State :=
  match s.disposition sig with
  | .ours => origAction cfg sig (signalHandler cfg calls sig s)
  | .orig => origAction cfg sig s

/-- `main`, until it enters its loop. -/
def started (cfg : Config) (t : Termios) : State :=
  (ttySetup cfg ⟨true, true⟩
    { tty := t
      origTermios := t
      handlersInstalled := false
      disposition := fun _ => .orig
      contPending := false
      status := .running
      holder := .shell
      before := t }).2

/-! ## Events -/

inductive Event
  | deliver (sig : Signal) (calls : TtyCalls)
  | sigstop
  | sigcont
  | shellSets (t : Termios)
  | leave (calls : TtyCalls)

/-- A delivered SIGCONT is no longer pending, and a stop signal discards it. -/
def endsCont : Signal → Bool
  | .tstp => true
  | .cont => true
  | _ => false

def step (cfg : Config) (s : State) : Event → Option State
  | .deliver sig calls =>
    if s.status = .running ∧ (sig = .cont → s.contPending = true) then
      some (deliver cfg calls sig { s with contPending := s.contPending && !endsCont sig })
    else none
  | .sigstop =>
    if s.status = .running then some { s with status := .stoppedByStop, contPending := false }
    else none
  | .sigcont =>
    if s.status.alive then some { s with status := .running, contPending := true } else none
  | .shellSets t =>
    if s.status = .stoppedByTstp ∨ s.status = .stoppedByStop then
      some { s with tty := t, holder := .shell }
    else none
  | .leave calls =>
    if s.status = .running then some { (ttyRestore calls s).2 with status := .exited } else none

/-! ## The terminal is given back -/

/-- Calamares has been stopped by SIGTSTP, killed, or has left its loop. -/
def Status.Gone : Status → Prop
  | .running => False
  | .stoppedByTstp => True
  | .stoppedByStop => False
  | .killed _ => True
  | .exited => True

/-- The continue handler does not run while calamares' own settings are in force, and putting
the attributes back does not fail. -/
def Undisturbed (s : State) : Event → Prop
  | .deliver .cont _ => s.disposition .cont = .ours → s.holder ≠ .calamares
  | .deliver _ calls => calls.set = true
  | .leave calls => calls.set = true
  | _ => True

/-- What the handlers rely on. -/
structure Inv (cfg : Config) (s : State) : Prop where
  installed : s.handlersInstalled = true
  saved : s.origTermios = s.before
  restored : s.holder = .restored → s.tty = s.before
  /-- while the inherited action of SIGTSTP is installed, the terminal is the shell's -/
  stop : s.disposition .tstp = .orig → s.holder ≠ .calamares
  /-- the others have their inherited action while the process lives only where that is to ignore -/
  kill : ∀ sig, sig ≠ .tstp → sig ≠ .cont → s.status.alive → s.disposition sig = .orig →
    cfg.inherited sig = .ignore
  gone : s.status.Gone → s.holder ≠ .calamares

theorem started_inv (cfg : Config) (t : Termios) : Inv cfg (started cfg t) where
  installed := rfl
  saved := rfl
  restored := nofun
  stop := nofun
  kill := nofun
  gone := nofun

section Steps

variable {cfg : Config} {s : State}

theorem Inv.pending (h : Inv cfg s) (b : Bool) : Inv cfg { s with contPending := b } :=
  ⟨h.installed, h.saved, h.restored, h.stop, h.kill, h.gone⟩

/-- Once the saved attributes are back, it does not matter which stop and continue actions are
installed, nor whether the process is still running. -/
theorem Inv.restore (h : Inv cfg s) {d : Signal → Disposition} {st : Status}
    (hkill : ∀ sig, sig ≠ .tstp → sig ≠ .cont → st.alive → d sig = .orig →
      cfg.inherited sig = .ignore) :
    Inv cfg { s with
      tty := s.origTermios, holder := .restored, disposition := d, status := st } where
  installed := h.installed
  saved := h.saved
  restored _ := h.saved
  stop _ := nofun
  kill := hkill
  gone _ := nofun

theorem ttyRestore_eq {calls : TtyCalls} (hset : calls.set = true) (s : State) :
    (ttyRestore calls s).2 = { s with tty := s.origTermios, holder := .restored } := by
  simp [ttyRestore, hset]

theorem origAction_cont (cfg : Config) (s : State) : origAction cfg .cont s = s := by
  unfold origAction
  split <;> first | rfl | contradiction

/-- What SIGTSTP does to a process with the inherited action. -/
theorem origAction_tstp (cfg : Config) (s : State) :
    origAction cfg .tstp s = s ∨ origAction cfg .tstp s = { s with status := .stoppedByTstp } := by
  unfold origAction
  cases cfg.inherited .tstp
  · exact Or.inr rfl
  · exact Or.inl rfl

/-- What a signal that kills does to a process with the inherited action. -/
theorem origAction_kill (s : State) {sig : Signal} (htstp : sig ≠ .tstp) (hcont : sig ≠ .cont) :
    (cfg.inherited sig = .ignore ∧ origAction cfg sig s = s) ∨
      origAction cfg sig s = { s with status := .killed sig } := by
  unfold origAction
  cases hact : cfg.inherited sig with
  | ignore => exact Or.inl ⟨rfl, rfl⟩
  | default =>
    right
    cases sig with
    | tstp => exact absurd rfl htstp
    | cont => exact absurd rfl hcont
    | int => rfl
    | term => rfl
    | quit => rfl

/-- The three handlers that end the process. -/
theorem signalHandler_kill (calls : TtyCalls) (s : State) {sig : Signal} (htstp : sig ≠ .tstp)
    (hcont : sig ≠ .cont) :
    signalHandler cfg calls sig s = sigaction sig .orig (ttyRestore calls s).2 := by
  cases sig with
  | tstp => exact absurd rfl htstp
  | cont => exact absurd rfl hcont
  | int => rfl
  | term => rfl
  | quit => rfl

theorem deliver_tstp_inv (h : Inv cfg s) (hrun : s.status = .running) {calls : TtyCalls}
    (hset : calls.set = true) : Inv cfg (deliver cfg calls .tstp s) := by
  have halive : s.status.alive := by
    rw [hrun]
    rfl
  unfold deliver
  cases hd : s.disposition .tstp with
  | orig =>
    show Inv cfg (origAction cfg .tstp s)
    rcases origAction_tstp cfg s with hact | hact
    · rw [hact]
      exact h
    · rw [hact]
      exact ⟨h.installed, h.saved, h.restored, h.stop,
        fun sig htstp hcont _ => h.kill sig htstp hcont halive, fun _ => h.stop hd⟩
  | ours =>
    have hhandler : signalHandler cfg calls .tstp s = { s with
        tty := s.origTermios
        holder := .restored
        disposition :=
          Function.update (Function.update s.disposition .cont .ours) .tstp .orig } := by
      unfold signalHandler
      rw [ttyRestore_eq hset]
      rfl
    have hkill : ∀ sig, sig ≠ Signal.tstp → sig ≠ .cont →
        Function.update (Function.update s.disposition .cont .ours) .tstp .orig sig = .orig →
          cfg.inherited sig = .ignore := by
      intro sig htstp hcont horig
      rw [Function.update_of_ne htstp, Function.update_of_ne hcont] at horig
      exact h.kill sig htstp hcont halive horig
    show Inv cfg (origAction cfg .tstp (signalHandler cfg calls .tstp s))
    rcases origAction_tstp cfg (signalHandler cfg calls .tstp s) with hact | hact
    · rw [hact, hhandler]
      exact h.restore fun sig htstp hcont _ => hkill sig htstp hcont
    · rw [hact, hhandler]
      exact h.restore fun sig htstp hcont _ => hkill sig htstp hcont

theorem deliver_kill_inv (h : Inv cfg s) (hrun : s.status = .running) {sig : Signal}
    (htstp : sig ≠ .tstp) (hcont : sig ≠ .cont) {calls : TtyCalls} (hset : calls.set = true) :
    Inv cfg (deliver cfg calls sig s) := by
  unfold deliver
  cases hd : s.disposition sig with
  | orig =>
    have hignore := h.kill sig htstp hcont (by rw [hrun]; rfl) hd
    show Inv cfg (origAction cfg sig s)
    unfold origAction
    rw [hignore]
    exact h
  | ours =>
    have hhandler : signalHandler cfg calls sig s = { s with
        tty := s.origTermios
        holder := .restored
        disposition := Function.update s.disposition sig .orig } := by
      rw [signalHandler_kill calls s htstp hcont, ttyRestore_eq hset]
      rfl
    show Inv cfg (origAction cfg sig (signalHandler cfg calls sig s))
    rcases origAction_kill (signalHandler cfg calls sig s) htstp hcont with ⟨hignore, hact⟩ | hact
    · rw [hact, hhandler]
      refine h.restore fun sig' htstp' hcont' hst horig => ?_
      by_cases hsame : sig' = sig
      · exact hsame ▸ hignore
      · rw [Function.update_of_ne hsame] at horig
        exact h.kill sig' htstp' hcont' hst horig
    · rw [hact, hhandler]
      exact h.restore nofun

/-- How far `tty_setup` gets. -/
theorem ttySetup_cases (cfg : Config) (calls : TtyCalls) (hinst : s.handlersInstalled = true) :
    (ttySetup cfg calls s).2 = s ∨ (ttySetup cfg calls s).2 = saveTermios s ∨
      (ttySetup cfg calls s).2 =
        { saveTermios s with tty := newTermios cfg s.tty, holder := .calamares } := by
  have hinst' : (saveTermios s).handlersInstalled = true := hinst
  unfold ttySetup
  cases calls.get with
  | false => exact Or.inl rfl
  | true =>
    right
    cases calls.set with
    | false => exact Or.inl (by simp [hinst'])
    | true =>
      right
      simp only [Bool.not_true, Bool.false_eq_true, if_false, hinst', if_true]
      rfl

/-- The continue handler: it saves what it finds, which is not calamares' own. -/
theorem deliver_cont_inv (h : Inv cfg s) (hrun : s.status = .running) {calls : TtyCalls}
    (hfree : s.disposition .cont = .ours → s.holder ≠ .calamares) :
    Inv cfg (deliver cfg calls .cont s) := by
  unfold deliver
  cases hd : s.disposition .cont with
  | orig => exact (origAction_cont cfg s).symm ▸ h
  | ours =>
    have hbefore : (saveTermios s).before = s.tty := if_neg (hfree hd)
    have hstop : Function.update (Function.update s.disposition .tstp .ours) .cont .orig
        Signal.tstp ≠ .orig := by
      rw [Function.update_of_ne (by decide), Function.update_self]
      decide
    have hkill : ∀ sig, sig ≠ Signal.tstp → sig ≠ .cont → s.status.alive →
        Function.update (Function.update s.disposition .tstp .ours) .cont .orig sig = .orig →
          cfg.inherited sig = .ignore := by
      intro sig htstp hcont hst horig
      rw [Function.update_of_ne hcont, Function.update_of_ne htstp] at horig
      exact h.kill sig htstp hcont hst horig
    have hgone : ¬ s.status.Gone := by
      rw [hrun]
      exact id
    show Inv cfg (origAction cfg .cont (signalHandler cfg calls .cont s))
    rw [origAction_cont]
    unfold signalHandler
    rcases ttySetup_cases cfg calls h.installed with heq | heq | heq
    · rw [heq]
      exact ⟨h.installed, h.saved, h.restored, fun horig => absurd horig hstop, hkill,
        fun hst => absurd hst hgone⟩
    · rw [heq]
      exact ⟨h.installed, hbefore.symm, fun _ => hbefore.symm, fun horig => absurd horig hstop,
        hkill, fun hst => absurd hst hgone⟩
    · rw [heq]
      exact ⟨h.installed, hbefore.symm, nofun, fun horig => absurd horig hstop, hkill,
        fun hst => absurd hst hgone⟩

/-- One event of an undisturbed run keeps the invariant. -/
theorem step_inv {s' : State} {e : Event} (h : Inv cfg s) (hguard : Undisturbed s e)
    (hstep : step cfg s e = some s') : Inv cfg s' := by
  cases e with
  | deliver sig calls =>
    simp only [step] at hstep
    split at hstep
    · next hcond =>
      obtain ⟨hrun, -⟩ := hcond
      cases hstep
      have hpend := h.pending (s.contPending && !endsCont sig)
      cases sig with
      | tstp => exact deliver_tstp_inv hpend hrun hguard
      | cont => exact deliver_cont_inv hpend hrun hguard
      | int => exact deliver_kill_inv hpend hrun (by decide) (by decide) hguard
      | term => exact deliver_kill_inv hpend hrun (by decide) (by decide) hguard
      | quit => exact deliver_kill_inv hpend hrun (by decide) (by decide) hguard
    · cases hstep
  | sigstop =>
    simp only [step] at hstep
    split at hstep
    · next hrun =>
      cases hstep
      refine ⟨h.installed, h.saved, h.restored, h.stop, ?_, nofun⟩
      exact fun sig htstp hcont _ => h.kill sig htstp hcont (by rw [hrun]; rfl)
    · cases hstep
  | sigcont =>
    simp only [step] at hstep
    split at hstep
    · next halive =>
      cases hstep
      refine ⟨h.installed, h.saved, h.restored, h.stop, ?_, nofun⟩
      exact fun sig htstp hcont _ => h.kill sig htstp hcont halive
    · cases hstep
  | shellSets t =>
    simp only [step] at hstep
    split at hstep
    · cases hstep
      exact ⟨h.installed, h.saved, nofun, fun _ => nofun, h.kill, fun _ => nofun⟩
    · cases hstep
  | leave calls =>
    simp only [step] at hstep
    split at hstep
    · cases hstep
      rw [ttyRestore_eq hguard]
      exact h.restore nofun
    · cases hstep

end Steps

instance (s : State) : (e : Event) → Decidable (Undisturbed s e)
  | .deliver .cont _ => inferInstanceAs (Decidable (_ = _ → _ ≠ _))
  | .deliver .tstp calls => inferInstanceAs (Decidable (calls.set = true))
  | .deliver .int calls => inferInstanceAs (Decidable (calls.set = true))
  | .deliver .term calls => inferInstanceAs (Decidable (calls.set = true))
  | .deliver .quit calls => inferInstanceAs (Decidable (calls.set = true))
  | .sigstop => isTrue trivial
  | .sigcont => isTrue trivial
  | .shellSets _ => isTrue trivial
  | .leave calls => inferInstanceAs (Decidable (calls.set = true))

end LinuxDeviceDriver.Calamares
