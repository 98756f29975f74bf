import LinuxDeviceDriver.Memutil.Transfer
import LinuxDeviceDriver.Lib.Transition

/-!
# Forwarding in calamares

The loop of `main` waits in `select` for the terminal and for standard input, and `forward_data`
carries what is there to the other side: `safe_read_available` takes up to 64 bytes in one `read`,
`safe_write` calls `write` until they are gone. A step is one system call with whatever it returns.

`select` has no timeout. When it fails (a signal has come), `numReady` is -1, which counts as ready,
and the set still has both descriptors in it: the loop goes on to read standard input.

The streams are ghosts: what was read from each side and what the other side took. `Inv` says that
the difference is what the buffer still holds. `write` may also take nothing, and `safe_write` then
gives up without an error: `Thinned` is what is left of the order in that case.
-/

namespace LinuxDeviceDriver.Calamares.Forward

open Lib Memutil

/-- From standard input to the terminal, and from the terminal to standard output. -/
inductive Dir
  | up
  | down
deriving DecidableEq

/-- What `select` gives: a failure, no descriptor, or which ones are readable. -/
inductive Selected
  | failed
  | none
  | ready (stdin tty : Bool)

/-- What `read` of 64 bytes gives; no bytes at the end of the stream. -/
inductive ReadResult
  | eintr
  | failed
  | got (bytes : List Byte) (fits : bytes.length ≤ 64)

inductive Pc
  /-- In `select`. -/
  | select
  /-- In `read`; `tty` says whether the terminal is still to be served in this round. -/
  | read (dir : Dir) (tty : Bool)
  /-- In `write`, with these bytes left. -/
  | write (dir : Dir) (tty : Bool) (left : List Byte) (more : left ≠ [])
  /-- Behind the loop; bytes that a failed `write` has not taken are left. -/
  | ended (dir : Dir) (left : List Byte)

structure State where
  pc : Pc
  /-- What was read for each direction. -/
  consumed : Dir → List Byte
  /-- What the other side has taken. -/
  delivered : Dir → List Byte

def State.started : State := ⟨.select, fun _ => [], fun _ => []⟩

inductive Event
  | select (r : Selected)
  | read (r : ReadResult)
  | write (r : Io)

/-- `forward_data` has returned 0: look at the terminal, or go back to `select`. -/
def afterForward (tty : Bool) : Pc := if tty then .read .down false else .select

def step (s : State) : Event → Option State
  | .select r =>
    match s.pc with
    | .select =>
      match r with
      | .failed => some { s with pc := .read .up true }
      | .none => some s
      | .ready true tty => some { s with pc := .read .up tty }
      | .ready false tty => some { s with pc := afterForward tty }
    | _ => none
  | .read r =>
    match s.pc with
    | .read dir tty =>
      match r with
      | .eintr => some s
      | .failed => some { s with pc := .ended dir [] }
      | .got bytes _ =>
        -- `read` has returned 0: the channel has closed
        if h : bytes = [] then some { s with pc := .ended dir [] }
        else
          some { s with
            pc := .write dir tty bytes h
            consumed := Function.update s.consumed dir (s.consumed dir ++ bytes) }
    | _ => none
  | .write r =>
    match s.pc with
    | .write dir tty left _ =>
      match r with
      | .eintr => some s
      | .error => some { s with pc := .ended dir left }
      -- `write` has returned 0: `safe_write` returns less than the count, which is no error
      | .moved 0 => some { s with pc := afterForward tty }
      | .moved n =>
        let rest := left.drop n
        some { s with
          pc := if h : rest = [] then afterForward tty else .write dir tty rest h
          delivered := Function.update s.delivered dir (s.delivered dir ++ left.take n) }
    | _ => none

/-! ## Nothing is lost -/

/-- What the buffer holds, and for which direction. -/
def Pc.held : Pc → Dir → List Byte
  | .select, _ => []
  | .read _ _, _ => []
  | .write d _ left _, dir => if d = dir then left else []
  | .ended d left, dir => if d = dir then left else []

theorem held_afterForward (tty : Bool) (dir : Dir) : (afterForward tty).held dir = [] := by
  cases tty <;> rfl

/-- What a system call does to the streams and the buffer. -/
inductive Change (e : Event) (s s' : State) : Prop
  | none (hconsumed : s'.consumed = s.consumed) (hdelivered : s'.delivered = s.delivered)
    (hheld : ∀ d, s'.pc.held d = s.pc.held d)
  | read (dir : Dir) (bytes : List Byte) (hfits : bytes.length ≤ 64)
    (hconsumed : s'.consumed = Function.update s.consumed dir (s.consumed dir ++ bytes))
    (hdelivered : s'.delivered = s.delivered) (hheld : ∀ d, s.pc.held d = [])
    (hheld' : ∀ d, s'.pc.held d = if dir = d then bytes else [])
  | written (dir : Dir) (taken rest : List Byte) (hconsumed : s'.consumed = s.consumed)
    (hdelivered : s'.delivered = Function.update s.delivered dir (s.delivered dir ++ taken))
    (hheld : ∀ d, s.pc.held d = if dir = d then taken ++ rest else [])
    (hheld' : ∀ d, s'.pc.held d = if dir = d then rest else [])
  | dropped (htook : e = .write (.moved 0)) (hconsumed : s'.consumed = s.consumed)
    (hdelivered : s'.delivered = s.delivered) (hheld' : ∀ d, s'.pc.held d = [])

theorem step_change {e : Event} {s s' : State} (h : step s e = some s') : Change e s s' := by
  cases e with
  | select r =>
    simp only [step] at h
    split at h
    · next hpc =>
      have hheld : ∀ d, s.pc.held d = [] := fun d => by rw [hpc]; rfl
      split at h
      · cases h
        exact .none rfl rfl fun d => (hheld d).symm
      · cases h
        exact .none rfl rfl fun d => rfl
      · cases h
        exact .none rfl rfl fun d => (hheld d).symm
      · cases h
        exact .none rfl rfl fun d => (held_afterForward _ d).trans (hheld d).symm
    · cases h
  | read r =>
    simp only [step] at h
    split at h
    · next dir tty hpc =>
      have hheld : ∀ d, s.pc.held d = [] := fun d => by rw [hpc]; rfl
      have hended : ∀ d, (Pc.ended dir []).held d = s.pc.held d := fun d => by
        rw [hheld, Pc.held, ite_self]
      split at h
      · cases h
        exact .none rfl rfl fun d => rfl
      · cases h
        exact .none rfl rfl hended
      · next bytes hfits =>
        split at h
        · cases h
          exact .none rfl rfl hended
        · cases h
          exact .read dir bytes hfits rfl rfl hheld fun d => rfl
    · cases h
  | write r =>
    simp only [step] at h
    split at h
    · next dir tty left hmore hpc =>
      have hheld : ∀ d, s.pc.held d = if dir = d then left else [] := fun d => by rw [hpc]; rfl
      split at h
      · cases h
        exact .none rfl rfl fun d => rfl
      · cases h
        exact .none rfl rfl fun d => (hheld d).symm
      · cases h
        exact .dropped rfl rfl rfl (held_afterForward tty)
      · next n _ =>
        cases h
        refine .written dir (left.take n) (left.drop n) rfl rfl (fun d => ?_) fun d => ?_
        · rw [hheld, List.take_append_drop]
        · show (if h : left.drop n = [] then afterForward tty
            else .write dir tty (left.drop n) h).held d = _
          split
          · next hrest => rw [held_afterForward, hrest, ite_self]
          · rfl
    · cases h

/-- A `write` takes at least one byte or fails. -/
def TakesSome (_ : State) (e : Event) : Prop := e ≠ .write (.moved 0)

/-- Everything read was delivered or is in the buffer. -/
structure Inv (s : State) : Prop where
  streams : ∀ dir, s.consumed dir = s.delivered dir ++ s.pc.held dir
  fits : ∀ dir, (s.pc.held dir).length ≤ 64

theorem step_inv {e : Event} {s s' : State} (h : Inv s) (hguard : TakesSome s e)
    (hstep : step s e = some s') : Inv s' := by
  cases step_change hstep with
  | none hconsumed hdelivered hheld =>
    refine ⟨fun d => ?_, fun d => ?_⟩
    · rw [hconsumed, hdelivered, hheld]
      exact h.streams d
    · rw [hheld]
      exact h.fits d
  | read dir bytes hfits hconsumed hdelivered hheld hheld' =>
    refine ⟨fun d => ?_, fun d => ?_⟩
    · have hall := h.streams d
      rw [hheld, List.append_nil] at hall
      rw [hconsumed, hdelivered, hheld']
      by_cases hd : dir = d
      · subst hd
        rw [Function.update_self, if_pos rfl, hall]
      · rw [Function.update_of_ne (Ne.symm hd), if_neg hd, List.append_nil, hall]
    · rw [hheld']
      split
      · exact hfits
      · exact Nat.zero_le 64
  | written dir taken rest hconsumed hdelivered hheld hheld' =>
    refine ⟨fun d => ?_, fun d => ?_⟩
    · have hall := h.streams d
      rw [hheld] at hall
      rw [hconsumed, hdelivered, hheld', hall]
      by_cases hd : dir = d
      · subst hd
        rw [Function.update_self, if_pos rfl, if_pos rfl, List.append_assoc]
      · rw [Function.update_of_ne (Ne.symm hd), if_neg hd, if_neg hd]
    · have hlen := h.fits d
      rw [hheld] at hlen
      rw [hheld']
      split
      · next hd =>
        rw [if_pos hd, List.length_append] at hlen
        omega
      · exact Nat.zero_le 64
  | dropped htook => exact absurd htook hguard

/-- What was delivered, with what the buffer still holds, is what was read with some parts left
out. -/
def Thinned (s : State) : Prop := ∀ dir, (s.delivered dir ++ s.pc.held dir).Sublist (s.consumed dir)

theorem step_thinned {e : Event} {s s' : State} (h : Thinned s) (hstep : step s e = some s') :
    Thinned s' := by
  intro d
  have hall := h d
  cases step_change hstep with
  | none hconsumed hdelivered hheld =>
    rw [hconsumed, hdelivered, hheld]
    exact hall
  | read dir bytes hfits hconsumed hdelivered hheld hheld' =>
    rw [hheld, List.append_nil] at hall
    rw [hconsumed, hdelivered, hheld']
    by_cases hd : dir = d
    · subst hd
      rw [Function.update_self, if_pos rfl]
      exact hall.append (List.Sublist.refl bytes)
    · rw [Function.update_of_ne (Ne.symm hd), if_neg hd, List.append_nil]
      exact hall
  | written dir taken rest hconsumed hdelivered hheld hheld' =>
    rw [hheld] at hall
    rw [hconsumed, hdelivered, hheld']
    by_cases hd : dir = d
    · subst hd
      rw [if_pos rfl] at hall
      rw [Function.update_self, if_pos rfl, List.append_assoc]
      exact hall
    · rw [if_neg hd] at hall
      rw [Function.update_of_ne (Ne.symm hd), if_neg hd]
      exact hall
  | dropped htook hconsumed hdelivered hheld' =>
    rw [hconsumed, hdelivered, hheld', List.append_nil]
    exact (List.sublist_append_left _ _).trans hall

theorem started_thinned : Thinned .started := fun _ => List.Sublist.refl []

theorem started_inv : Inv .started := ⟨fun _ => rfl, fun _ => Nat.zero_le 64⟩

/-- **Forwarding**: in every run, whatever `select`, `read` and `write` return, each side gets
bytes of the other side in their order. As long as no `write` takes nothing, it gets all of them:
what was read and not delivered is in the buffer, and the buffer holds at most 64 bytes. -/
theorem calamares_forwards {s : State} (h : Reach step anyStep .started s) :
    (∀ dir, (s.delivered dir).Sublist (s.consumed dir)) ∧
    (Reach step TakesSome .started s → ∀ dir,
      s.consumed dir = s.delivered dir ++ s.pc.held dir ∧ (s.pc.held dir).length ≤ 64) := by
  constructor
  · intro dir
    have hthinned : Thinned s :=
      h.invariant started_thinned fun h _ hstep => step_thinned h hstep
    exact (List.sublist_append_left _ _).trans (hthinned dir)
  · intro hfair dir
    have hinv : Inv s := hfair.invariant started_inv fun h hguard hstep => step_inv h hguard hstep
    exact ⟨hinv.streams dir, hinv.fits dir⟩

/-- Two bytes are typed, and the terminal takes them one by one. -/
def typed : List Event :=
  [.select (.ready true false), .read (.got [104, 105] (by decide)), .write (.moved 1),
    .write .eintr, .write (.moved 1)]

theorem calamares_forwards_typed :
    ∃ s, runFrom step .started typed = some s ∧ s.delivered .up = [104, 105] ∧
      (s.delivered .up).Sublist (s.consumed .up) := by
  obtain ⟨s, hrun, hdelivered⟩ :
      ∃ s, runFrom step .started typed = some s ∧ s.delivered .up = [104, 105] :=
    ⟨_, rfl, rfl⟩
  exact ⟨s, hrun, hdelivered, (calamares_forwards (reach_runFrom hrun)).1 .up⟩

end LinuxDeviceDriver.Calamares.Forward
