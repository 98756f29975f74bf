import LinuxDeviceDriver.Lib.Pool
import LinuxDeviceDriver.Numbers
import LinuxDeviceDriver.Calamares.LockFile

/-!
# Sessions of several processes

`lock_tty_file` finds out where the tty is, makes a name of it, opens the pid file of that name,
takes a write lock on it and writes the pid into it; then `main` opens the tty. The processes that
do so run at the same time. They may be killed between any two system calls, and a system call may
fail; the kernel takes back the locks of a process that ends. The link of the tty belongs to another
program, which may change it at any time. Nobody else uses the pid files, and nobody removes them.
A resolved path of more than 1024 bytes makes the loop of `lock_tty_file` leave its array
(`LockFile`); here that has no effect but on the name.

`calamares_sessions`: a pid file is locked by the one process that has got it and is still there,
and by nobody when there is none, so that the next one gets it; a session's pid file holds its pid.
As long as the links stay as they are, no two sessions are on one tty. When a link is changed
between `realpath` and `open`, a session has the lock of another tty than the one it is on.
-/

namespace LinuxDeviceDriver.Calamares.Sessions

open Lib

/-- Where a process stands, with the name of its tty, its pid file and the tty it has opened. `out`
is a process that does not run `main`. -/
inductive Pc
  | out
  | verify (ttyname : List Byte)
  | openPid (ttyname pidFile : List Byte)
  | setlk (ttyname pidFile : List Byte)
  | ftruncate (ttyname pidFile : List Byte)
  | write (ttyname pidFile : List Byte)
  | openTty (ttyname pidFile : List Byte)
  | ttySetup (pidFile : List Byte) (tty : ResolvedPath)
  | forward (pidFile : List Byte) (tty : ResolvedPath)

/-- What the processes share: where the ttys are, the pid files that exist, and their locks. -/
structure Disk where
  links : List Byte → Option ResolvedPath
  files : List Byte → Option (List Byte)
  locks : Locks

/-- The end of a process: its descriptors are closed, which gives its locks back. -/
def Disk.exit (g : Disk) (pid : Nat) : Disk :=
  { g with locks := fun file => if g.locks file = some pid then none else g.locks file }

/-- `write` at the start of a file. -/
def Disk.write (g : Disk) (file text : List Byte) : Disk :=
  { g with files :=
      Function.update g.files file (some (text ++ ((g.files file).getD []).drop text.length)) }

/-- `snprintf(pid_str, 64, "%ld", (long) getpid())` -/
def pidStr (pid : Nat) : List Byte := digits 10 pid

/-- `run` is the next system call, with what lies behind `location` on the stack; it may `fail`, and
`write` may take the first `n` bytes only. -/
inductive Event
  | start (ttyname : List Byte)
  | relink (ttyname : List Byte) (target : Option ResolvedPath)
  | run (stack : Nat → Byte)
  | short (n : Nat)
  | fail
  | kill

def move (pid : Nat) (pc : Pc) (g : Disk) : Event → Option (Pc × Disk)
  | .start ttyname =>
    match pc with
    | .out => some (.verify ttyname, g)
    | _ => none
  | .relink ttyname target =>
    match pc with
    | .out => some (.out, { g with links := Function.update g.links ttyname target })
    | _ => none
  | .fail | .kill =>
    match pc with
    | .out => none
    | _ => some (.out, g.exit pid)
  | .short n =>
    match pc with
    | .write _ file =>
      if n < (pidStr pid).length then some (.out, (g.write file ((pidStr pid).take n)).exit pid)
      else none
    | _ => none
  | .run stack =>
    match pc with
    | .out => none
    | .verify ttyname =>
      match g.links ttyname with
      | none => some (.verify ttyname, g)
      | some tty => some (.openPid ttyname (pidFile stack tty.bytes), g)
    | .openPid ttyname file =>
      some (.setlk ttyname file,
        { g with files := Function.update g.files file (some ((g.files file).getD [])) })
    | .setlk ttyname file =>
      if g.locks file ≠ none ∧ g.locks file ≠ some pid then some (.out, g.exit pid)
      else
        some (.ftruncate ttyname file, { g with locks := Function.update g.locks file (some pid) })
    | .ftruncate ttyname file =>
      some (.write ttyname file, { g with files := Function.update g.files file (some []) })
    | .write ttyname file => some (.openTty ttyname file, g.write file (pidStr pid))
    | .openTty ttyname file =>
      match g.links ttyname with
      | none => some (.out, g.exit pid)
      | some tty => some (.ttySetup file tty, g)
    | .ttySetup file tty => some (.forward file tty, g)
    | .forward file tty => some (.forward file tty, g)

def start (links : List Byte → Option ResolvedPath) (files : List Byte → Option (List Byte)) :
    Pool Nat Pc Disk :=
  ⟨fun _ => .out, ⟨links, files, fun _ => none⟩⟩

/-! ## What a process relies on -/

/-- The pid file that a process has locked. -/
def Pc.held : Pc → Option (List Byte)
  | ftruncate _ file | write _ file | openTty _ file | ttySetup file _ | forward file _ => some file
  | _ => none

/-- What is in the pid file, once the process has written to it. -/
def Pc.text (pid : Nat) : Pc → Option (List Byte)
  | write _ _ => some []
  | openTty _ _ | ttySetup _ _ | forward _ _ => some (pidStr pid)
  | _ => none

/-- The locks of a process are those its program point says, and so is what it has written. -/
structure Books (pid : Nat) (pc : Pc) (g : Disk) : Prop where
  locks : ∀ file, g.locks file = some pid ↔ pc.held = some file
  text : ∀ file, pc.held = some file → ∀ text, pc.text pid = some text →
    g.files file = some text

section Moves

variable {pid : Nat} {pc pc' : Pc} {g g' : Disk} {e : Event} {file : List Byte}

theorem exit_locks (g : Disk) (pid : Nat) (file : List Byte) {q : Nat} :
    (g.exit pid).locks file = some q ↔ g.locks file = some q ∧ q ≠ pid := by
  show (if g.locks file = some pid then none else g.locks file) = some q ↔ _
  by_cases hown : g.locks file = some pid
  · rw [if_pos hown, hown]
    constructor
    · intro h
      cases h
    · rintro ⟨h, hne⟩
      cases h
      exact absurd rfl hne
  · rw [if_neg hown]
    exact ⟨fun h => ⟨h, fun hq => hown (hq ▸ h)⟩, fun h => h.1⟩

/-- What a move does, seen through the locks and the files. -/
inductive Effect (pid : Nat) (pc : Pc) (g : Disk) : Pc → Disk → Prop
  | same {pc' : Pc} {g' : Disk} : g'.files = g.files → g'.locks = g.locks → pc'.held = pc.held →
      pc'.text pid = pc.text pid → Effect pid pc g pc' g'
  | create {pc' : Pc} {file : List Byte} : pc.held = none → pc'.held = none →
      Effect pid pc g pc'
        { g with files := Function.update g.files file (some ((g.files file).getD [])) }
  | lock {pc' : Pc} {file : List Byte} : pc.held = none → pc'.held = some file →
      pc'.text pid = none → g.locks file = none ∨ g.locks file = some pid →
      Effect pid pc g pc' { g with locks := Function.update g.locks file (some pid) }
  | write {pc' : Pc} {file text : List Byte} : pc.held = some file → pc'.held = some file →
      pc'.text pid = some text →
      Effect pid pc g pc' { g with files := Function.update g.files file (some text) }
  | exit : Effect pid pc g .out (g.exit pid)
  | writeAndExit {file text : List Byte} : pc.held = some file →
      Effect pid pc g .out
        (Disk.exit { g with files := Function.update g.files file (some text) } pid)

theorem move_effect (h : Books pid pc g) (hmove : move pid pc g e = some (pc', g')) :
    Effect pid pc g pc' g' := by
  cases e with
  | start ttyname | relink ttyname target =>
    cases pc <;> cases hmove
    exact .same rfl rfl rfl rfl
  | fail | kill => cases pc <;> cases hmove <;> exact .exit
  | short n =>
    cases pc with
    | write ttyname file =>
      simp only [move] at hmove
      split at hmove
      · cases hmove
        exact .writeAndExit rfl
      · cases hmove
    | _ => cases hmove
  | run stack =>
    cases pc with
    | out => cases hmove
    | verify ttyname =>
      simp only [move] at hmove
      split at hmove <;> cases hmove <;> exact .same rfl rfl rfl rfl
    | openPid ttyname file =>
      cases hmove
      exact .create rfl rfl
    | setlk ttyname file =>
      simp only [move] at hmove
      split at hmove
      · cases hmove
        exact .exit
      · next hfree =>
        cases hmove
        refine .lock rfl rfl rfl ?_
        by_cases hnone : g.locks file = none
        · exact .inl hnone
        · exact .inr (not_not.mp fun hother => hfree ⟨hnone, hother⟩)
    | ftruncate ttyname file =>
      cases hmove
      exact .write rfl rfl rfl
    | write ttyname file =>
      cases hmove
      -- the file is empty, as `ftruncate` has left it
      have hwrite : g.write file (pidStr pid) =
          { g with files := Function.update g.files file (some (pidStr pid)) } := by
        unfold Disk.write
        rw [h.text file rfl [] rfl, Option.getD_some, List.drop_nil, List.append_nil]
      rw [hwrite]
      exact .write rfl rfl rfl
    | openTty ttyname file =>
      simp only [move] at hmove
      split at hmove
      · cases hmove
        exact .exit
      · cases hmove
        exact .same rfl rfl rfl rfl
    | ttySetup file tty | forward file tty =>
      cases hmove
      exact .same rfl rfl rfl rfl

theorem books_out (g : Disk) (pid : Nat) : Books pid .out (g.exit pid) where
  locks file := by
    rw [exit_locks]
    exact ⟨fun h => absurd rfl h.2, fun h => by cases h⟩
  text file h := by cases h

theorem Effect.books (h : Books pid pc g) (heffect : Effect pid pc g pc' g') :
    Books pid pc' g' := by
  cases heffect with
  | same hfiles hlocks hheld htext =>
    constructor
    · rw [hlocks, hheld]
      exact h.locks
    · rw [hfiles, hheld, htext]
      exact h.text
  | create hheld hheld' =>
    constructor
    · rw [hheld', ← hheld]
      exact h.locks
    · intro file hfile
      rw [hheld'] at hfile
      cases hfile
  | @lock _ file hheld hheld' htext _ =>
    constructor
    · intro f
      show Function.update g.locks file (some pid) f = some pid ↔ _
      rw [hheld']
      by_cases hf : f = file
      · subst hf
        rw [Function.update_self]
        exact iff_of_true rfl rfl
      · rw [Function.update_of_ne hf, h.locks f, hheld]
        exact iff_of_false (by simp) (fun h => hf (Option.some.inj h).symm)
    · intro f _ text hf
      rw [htext] at hf
      cases hf
  | @write _ file text hheld hheld' htext =>
    constructor
    · rw [hheld', ← hheld]
      exact h.locks
    · intro f hf text' htext'
      rw [hheld'] at hf
      cases hf
      rw [← htext', htext]
      exact Function.update_self ..
  | exit | writeAndExit => exact books_out _ pid

/-- A process takes no lock of another one, and writes only where it has the lock. -/
theorem Effect.frame (h : Books pid pc g) (heffect : Effect pid pc g pc' g') {q : Nat}
    (hq : q ≠ pid) :
    (∀ file, g'.locks file = some q ↔ g.locks file = some q) ∧
    ∀ file, g.locks file = some q → ∀ text, g.files file = some text →
      g'.files file = some text := by
  have hexit : ∀ (g' : Disk) file, (g'.exit pid).locks file = some q ↔ g'.locks file = some q := by
    intro g' file
    rw [exit_locks]
    exact ⟨fun h => h.1, fun h => ⟨h, hq⟩⟩
  have hwrite : ∀ {file content}, pc.held = some file → ∀ f, g.locks f = some q →
      ∀ text, g.files f = some text → Function.update g.files file content f = some text := by
    intro file content hheld f hf text htext
    have hne : f ≠ file := by
      rintro rfl
      rw [(h.locks f).mpr hheld] at hf
      exact hq (Option.some.inj hf).symm
    rwa [Function.update_of_ne hne]
  cases heffect with
  | same hfiles hlocks =>
    rw [hfiles, hlocks]
    exact ⟨fun _ => Iff.rfl, fun _ _ _ h => h⟩
  | @create _ file =>
    refine ⟨fun _ => Iff.rfl, fun f _ text htext => ?_⟩
    show Function.update g.files file _ f = some text
    by_cases hf : f = file
    · subst hf
      rw [Function.update_self, htext, Option.getD_some]
    · rwa [Function.update_of_ne hf]
  | @lock _ file _ _ _ hfree =>
    refine ⟨fun f => ?_, fun _ _ _ h => h⟩
    show Function.update g.locks file (some pid) f = some q ↔ _
    by_cases hf : f = file
    · subst hf
      rw [Function.update_self]
      refine iff_of_false (fun h => hq (Option.some.inj h).symm) fun h => ?_
      rcases hfree with hnone | hown
      · rw [hnone] at h
        cases h
      · rw [hown] at h
        exact hq (Option.some.inj h).symm
    · rw [Function.update_of_ne hf]
  | write hheld => exact ⟨fun _ => Iff.rfl, hwrite hheld⟩
  | exit => exact ⟨hexit g, fun _ _ _ h => h⟩
  | writeAndExit hheld => exact ⟨hexit _, hwrite hheld⟩

end Moves

/-! ## Runs -/

section Runs

variable {links : List Byte → Option ResolvedPath} {files : List Byte → Option (List Byte)}
  {s : Pool Nat Pc Disk}

theorem reach_books {guard : Pool Nat Pc Disk → Nat × Event → Prop}
    (h : Reach (Pool.step move) guard (start links files) s) : s.All Books := by
  refine Pool.invariant_of_assertions ?_ ?_ ?_ h
  · intro pid
    exact ⟨fun file => iff_of_false (by simp [start]) (by simp [start, Pc.held]),
      fun file hfile => by cases hfile⟩
  · intro s pid e pc' g' _ hall _ hmove
    exact (move_effect (hall pid) hmove).books (hall pid)
  · intro s pid e pc' g' _ hall _ hmove q hq
    obtain ⟨hlocks, hfiles⟩ := (move_effect (hall pid) hmove).frame (hall pid) hq
    constructor
    · intro file
      rw [hlocks]
      exact (hall q).locks file
    · intro file hfile text htext
      exact hfiles file (((hall q).locks file).mpr hfile) text ((hall q).text file hfile text htext)

/-- The name of the pid file does not depend on the stack. -/
theorem pidFile_stack (stack stack' : Nat → Byte) (tty : ResolvedPath) :
    pidFile stack tty.bytes = pidFile stack' tty.bytes := by
  rw [pidFile_eq stack tty.noNul, pidFile_eq stack' tty.noNul]

/-- The ttys stay where they are. -/
def LinksStay (_s : Pool Nat Pc Disk) (a : Nat × Event) : Prop :=
  ∀ ttyname target, a.2 ≠ .relink ttyname target

/-- A pid file that a process has made a name of is that of its tty. -/
def OwnFile (links : List Byte → Option ResolvedPath) (stack : Nat → Byte) : Pc → Prop
  | .openPid ttyname file | .setlk ttyname file | .ftruncate ttyname file | .write ttyname file
  | .openTty ttyname file =>
    ∃ tty, links ttyname = some tty ∧ file = pidFile stack tty.bytes
  | .ttySetup file tty | .forward file tty => file = pidFile stack tty.bytes
  | _ => True

theorem move_ownFile {pid : Nat} {pc pc' : Pc} {g g' : Disk} {e : Event} {stack : Nat → Byte}
    (hlinks : g.links = links) (h : OwnFile links stack pc)
    (hstay : ∀ ttyname target, e ≠ .relink ttyname target)
    (hmove : move pid pc g e = some (pc', g')) :
    g'.links = links ∧ OwnFile links stack pc' := by
  cases e with
  | start ttyname =>
    cases pc <;> cases hmove
    exact ⟨hlinks, trivial⟩
  | relink ttyname target => exact absurd rfl (hstay ttyname target)
  | fail | kill => cases pc <;> cases hmove <;> exact ⟨hlinks, trivial⟩
  | short n =>
    cases pc with
    | write ttyname file =>
      simp only [move] at hmove
      split at hmove
      · cases hmove
        exact ⟨hlinks, trivial⟩
      · cases hmove
    | _ => cases hmove
  | run stack' =>
    cases pc with
    | out => cases hmove
    | verify ttyname =>
      simp only [move] at hmove
      split at hmove
      · cases hmove
        exact ⟨hlinks, trivial⟩
      · next tty htty =>
        cases hmove
        exact ⟨hlinks, tty, hlinks ▸ htty, pidFile_stack stack' stack tty⟩
    | setlk ttyname file =>
      simp only [move] at hmove
      split at hmove
      · cases hmove
        exact ⟨hlinks, trivial⟩
      · cases hmove
        exact ⟨hlinks, h⟩
    | openPid ttyname file | ftruncate ttyname file | write ttyname file =>
      cases hmove
      exact ⟨hlinks, h⟩
    | openTty ttyname file =>
      obtain ⟨tty', htty', hfile⟩ := h
      simp only [move] at hmove
      split at hmove
      · cases hmove
        exact ⟨hlinks, trivial⟩
      · next tty htty =>
        cases hmove
        rw [hlinks, htty'] at htty
        cases htty
        exact ⟨hlinks, hfile⟩
    | ttySetup file tty | forward file tty =>
      cases hmove
      exact ⟨hlinks, h⟩

theorem reach_ownFile (stack : Nat → Byte)
    (h : Reach (Pool.step move) LinksStay (start links files) s) :
    s.All fun _ pc g => g.links = links ∧ OwnFile links stack pc := by
  refine Pool.invariant_of_assertions ?_ ?_ ?_ h
  · intro pid
    exact ⟨rfl, trivial⟩
  · intro s pid e pc' g' _ hall hguard hmove
    exact move_ownFile (hall pid).1 (hall pid).2 hguard hmove
  · intro s pid e pc' g' _ hall hguard hmove q _
    exact ⟨(move_ownFile (hall pid).1 (hall pid).2 hguard hmove).1, (hall q).2⟩

/-- A process that finds its pid file free gets to its session. -/
theorem run_to_session (pid : Nat) {g : Disk} {ttyname : List Byte} {tty : ResolvedPath}
    {stack : Nat → Byte} (htty : g.links ttyname = some tty)
    (hfree : g.locks (pidFile stack tty.bytes) = none) :
    ∃ g', runFrom (fun (r : Pc × Disk) e => move pid r.1 r.2 e) (.out, g)
      (.start ttyname :: List.replicate 7 (.run stack)) =
        some (.forward (pidFile stack tty.bytes) tty, g') := by
  have hlock : ¬ (g.locks (pidFile stack tty.bytes) ≠ none ∧
      g.locks (pidFile stack tty.bytes) ≠ some pid) := fun h => h.1 hfree
  simp only [List.replicate, runFrom, move, Option.bind_some, htty, if_neg hlock, Disk.write]
  exact ⟨_, rfl⟩

/-- **Sessions.** In every run of any number of processes, with system calls that fail and processes
that are killed anywhere, and however the links are changed: exactly the process that has got a pid
file and is still there has it locked; its pid file holds its pid once it forwards; and a process
whose pid file nobody has gets to forward. As long as the links stay, no two processes forward
the same tty. -/
theorem calamares_sessions (h : Reach (Pool.step move) anyStep (start links files) s) :
    (∀ file pid, s.shared.locks file = some pid ↔ (s.threads pid).held = some file) ∧
    (∀ pid file tty, s.threads pid = .forward file tty →
      s.shared.files file = some (pidStr pid)) ∧
    (∀ pid ttyname tty stack, s.threads pid = .out → s.shared.links ttyname = some tty →
      (∀ q, (s.threads q).held ≠ some (pidFile stack tty.bytes)) →
      ∃ s', runFrom (Pool.step move) s
          ((.start ttyname :: List.replicate 7 (.run stack)).map (Prod.mk pid)) = some s' ∧
        s'.threads pid = .forward (pidFile stack tty.bytes) tty) ∧
    (Reach (Pool.step move) LinksStay (start links files) s →
      ∀ pid q file file' tty, s.threads pid = .forward file tty →
        s.threads q = .forward file' tty → pid = q) := by
  have hbooks := reach_books h
  refine ⟨fun file pid => (hbooks pid).locks file, ?_, ?_, ?_⟩
  · intro pid file tty hpc
    have htext := (hbooks pid).text file
    rw [hpc] at htext
    exact htext rfl _ rfl
  · intro pid ttyname tty stack hout htty hnobody
    have hfree : s.shared.locks (pidFile stack tty.bytes) = none := by
      cases hlock : s.shared.locks (pidFile stack tty.bytes) with
      | none => rfl
      | some q => exact absurd (((hbooks q).locks _).mp hlock) (hnobody q)
    obtain ⟨g', hrun⟩ := run_to_session pid htty hfree
    rw [← hout] at hrun
    obtain ⟨s', hrun', hpc, -⟩ := Pool.run_alone hrun
    exact ⟨s', hrun', hpc⟩
  · intro hstay pid q file file' tty hpid hq
    have hown := reach_ownFile (fun _ => 0) hstay
    have hfile := (hown pid).2
    have hfile' := (hown q).2
    have hlock := ((hbooks pid).locks file).mpr (by rw [hpid]; rfl)
    have hlock' := ((hbooks q).locks file').mpr (by rw [hq]; rfl)
    rw [hpid] at hfile
    rw [hq] at hfile'
    rw [show file' = file from hfile'.trans hfile.symm, hlock] at hlock'
    exact Option.some.inj hlock'

end Runs

/-- The first process on a machine, with pid 7. -/
theorem calamares_sessions_first :
    ∃ s, runFrom (Pool.step move) (start (fun _ => some plainPath) fun _ => none)
        ((.start [] :: List.replicate 7 (.run fun _ => 0)).map (Prod.mk 7)) = some s ∧
      s.shared.files (pidFile (fun _ => 0) plainPath.bytes) = some [55] := by
  obtain ⟨-, -, hfirst, -⟩ :=
    calamares_sessions (s := start (fun _ => some plainPath) fun _ => none) .init
  obtain ⟨s, hrun, hpc⟩ := hfirst 7 [] plainPath (fun _ => 0) rfl rfl (fun _ h => by cases h)
  exact ⟨s, hrun, (calamares_sessions (reach_runFrom hrun)).2.1 7 _ _ hpc⟩

end LinuxDeviceDriver.Calamares.Sessions
