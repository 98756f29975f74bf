import LinuxDeviceDriver.Limitfs.Operations

/-!
# The descriptors of limitfs

Between `open` and `release` a file of FUSE stands for one descriptor. `limitfs_release` closes
it; `limitfs_read` and `limitfs_write` close it as well when they fail, and a virtual file never
had one.

- `Tidy`: what a log of descriptors should look like.
- `FdInv`: every open file of FUSE has the descriptor of its own call of `open`, open.
- `openFd_inv`, `useFd_inv`, `closeFd_inv`, `transient_inv`: the four things that happen to
  descriptors.
- `limitfs_tidy`: every run without virtual files, failing reads and writes, and writes above
  the limit (`Smooth`).
-/

namespace LinuxDeviceDriver.Limitfs

open Lib

/-! ## Logs of descriptors -/

/-- The descriptor of the `i`th call of `open` is closed. -/
def FdEvent.closes (i : Nat) : FdEvent → Bool
  | .closed _ (some d) => d.inst = some i
  | _ => false

/-- How often the descriptor of the `i`th call of `open` has been closed. -/
def closes (i : Nat) (log : List FdEvent) : Nat := log.countP (FdEvent.closes i)

/-- FUSE has the file open that the `i`th call of `open` was for. -/
def Held (w : World) (i : Nat) : Prop := ∃ h fi, w.handles h = some fi ∧ fi.inst = some i

/-- What is closed was opened by limitfs and is open; what is read or written through is the
descriptor of the file itself, and open. -/
def FdEvent.Fine : FdEvent → Prop
  | .opened _ _ => True
  | .closed _ was => ∃ d i, was = some d ∧ d.inst = some i
  | .used inst _ was => ∃ d i, was = some d ∧ d.inst = some i ∧ inst = some i

/-- Every event is fine, and every descriptor is closed exactly once: not before its file is
released, and then. -/
structure Tidy (w : World) : Prop where
  events : ∀ ev ∈ w.log, ev.Fine
  held : ∀ i, i < w.opens → Held w i → closes i w.log = 0
  released : ∀ i, i < w.opens → ¬ Held w i → closes i w.log = 1

/-- The descriptors behind the open files. -/
structure FdInv (w : World) : Prop where
  tidy : Tidy w
  handle : ∀ h fi, w.handles h = some fi → fi.isVirtual = false ∧
    ∃ d i, w.fds fi.fh = some d ∧ d.inst = some i ∧ fi.inst = some i ∧ i < w.opens
  own : ∀ h h' fi fi', w.handles h = some fi → w.handles h' = some fi' → fi.inst = fi'.inst →
    h = h'
  past : ∀ i, w.opens ≤ i → closes i w.log = 0

/-- Nothing happens to descriptors. -/
def SameFds (w w' : World) : Prop :=
  w'.fds = w.fds ∧ w'.opens = w.opens ∧ w'.handles = w.handles ∧ w'.log = w.log

theorem SameFds.refl (w : World) : SameFds w w := ⟨rfl, rfl, rfl, rfl⟩

theorem FdInv.same {w w' : World} (h : FdInv w) (hsame : SameFds w w') : FdInv w' := by
  obtain ⟨tree, fds, opens, handles, curSize, log⟩ := w'
  obtain ⟨hfds, hopens, hhandles, hlog⟩ := hsame
  cases hfds
  cases hopens
  cases hhandles
  cases hlog
  exact ⟨⟨h.tidy.events, h.tidy.held, h.tidy.released⟩, h.handle, h.own, h.past⟩

theorem closes_append (i : Nat) (log : List FdEvent) (ev : FdEvent) :
    closes i (log ++ [ev]) = closes i log + if ev.closes i then 1 else 0 := by
  unfold closes
  rw [List.countP_append, List.countP_singleton]

/-- Closing the descriptor of the `i`th call. -/
theorem closes_closed {d : Descriptor} {i : Nat} (hinst : d.inst = some i) (log : List FdEvent)
    (fd j : Nat) :
    closes j (log ++ [.closed fd (some d)]) = closes j log + if j = i then 1 else 0 := by
  have hev : (FdEvent.closed fd (some d)).closes j = decide (j = i) := by
    show decide (d.inst = some j) = _
    rw [hinst]
    simp only [Option.some.injEq, eq_comm]
  rw [closes_append, hev]
  simp only [decide_eq_true_eq]

theorem fine_append {log : List FdEvent} {last : FdEvent} (hlog : ∀ ev ∈ log, ev.Fine)
    (hlast : last.Fine) : ∀ ev ∈ log ++ [last], ev.Fine := by
  intro ev hmem
  rcases List.mem_append.mp hmem with hold | hnew
  · exact hlog ev hold
  · rw [List.mem_singleton.mp hnew]
    exact hlast

/-! ## What happens to descriptors -/

section Descriptors

variable {w : World}

theorem FdInv.held_lt (hinv : FdInv w) {i : Nat} (hheld : Held w i) : i < w.opens := by
  obtain ⟨h, fi, hfi, hinst⟩ := hheld
  obtain ⟨-, d, j, -, -, hj, hlt⟩ := hinv.handle h fi hfi
  rw [hinst] at hj
  cases hj
  exact hlt

/-- An open file is read or written. -/
theorem useFd_inv (hinv : FdInv w) {h : Nat} {fi : FileInfo} (hfi : w.handles h = some fi) :
    FdInv (w.useFd fi) := by
  obtain ⟨-, d, i, hd, hinst, hfinst, -⟩ := hinv.handle h fi hfi
  have hcount : ∀ j, closes j (w.useFd fi).log = closes j w.log := fun j => closes_append ..
  have hfine : (FdEvent.used fi.inst fi.fh (w.fds fi.fh)).Fine := ⟨d, i, hd, hinst, hfinst⟩
  refine ⟨⟨fine_append hinv.tidy.events hfine, ?_, ?_⟩, hinv.handle, hinv.own, ?_⟩
  · exact fun j hj hheld => (hcount j).trans (hinv.tidy.held j hj hheld)
  · exact fun j hj hheld => (hcount j).trans (hinv.tidy.released j hj hheld)
  · exact fun j hj => (hcount j).trans (hinv.past j hj)

/-! ### The table of open files -/

/-- The world with another entry for an open file. -/
def withHandle (w : World) (h : Nat) (fi : Option FileInfo) : World :=
  { w with handles := Function.update w.handles h fi }

theorem withHandle_some_iff {h h' : Nat} {fi fi' : FileInfo} :
    (withHandle w h (some fi)).handles h' = some fi' ↔
      (h' = h ∧ fi' = fi) ∨ (h' ≠ h ∧ w.handles h' = some fi') := by
  show Function.update w.handles h (some fi) h' = some fi' ↔ _
  by_cases hsame : h' = h
  · subst hsame
    rw [Function.update_self]
    simp only [Option.some.injEq, true_and, ne_eq, not_true_eq_false, false_and, or_false, eq_comm]
  · rw [Function.update_of_ne hsame]
    simp only [hsame, false_and, ne_eq, not_false_eq_true, true_and, false_or]

theorem withHandle_none_iff {h h' : Nat} {fi : FileInfo} :
    (withHandle w h none).handles h' = some fi ↔ h' ≠ h ∧ w.handles h' = some fi := by
  show Function.update w.handles h none h' = some fi ↔ _
  by_cases hsame : h' = h
  · subst hsame
    rw [Function.update_self]
    exact iff_of_false nofun fun hboth => hboth.1 rfl
  · rw [Function.update_of_ne hsame]
    exact (and_iff_right hsame).symm

/-- A new file is held, and the others as before. -/
theorem held_withHandle_some {h : Nat} {fi : FileInfo} {i : Nat} (hh : w.handles h = none)
    (hinst : fi.inst = some i) (j : Nat) :
    Held (withHandle w h (some fi)) j ↔ j = i ∨ Held w j := by
  constructor
  · rintro ⟨h', fi', hfi', hinst'⟩
    rcases withHandle_some_iff.mp hfi' with ⟨-, rfl⟩ | ⟨-, hold⟩
    · exact Or.inl (Option.some.inj (hinst'.symm.trans hinst))
    · exact Or.inr ⟨h', fi', hold, hinst'⟩
  · rintro (rfl | ⟨h', fi', hfi', hinst'⟩)
    · exact ⟨h, fi, withHandle_some_iff.mpr (Or.inl ⟨rfl, rfl⟩), hinst⟩
    · have hne : h' ≠ h := by
        rintro rfl
        rw [hh] at hfi'
        cases hfi'
      exact ⟨h', fi', withHandle_some_iff.mpr (Or.inr ⟨hne, hfi'⟩), hinst'⟩

/-- A file goes, which nobody else has. -/
theorem held_withHandle_none {h : Nat} {fi : FileInfo} {i : Nat} (hfi : w.handles h = some fi)
    (hinst : fi.inst = some i)
    (hother : ∀ h' fi', h' ≠ h → w.handles h' = some fi' → fi'.inst ≠ some i) (j : Nat) :
    Held (withHandle w h none) j ↔ j ≠ i ∧ Held w j := by
  constructor
  · rintro ⟨h', fi', hfi', hinst'⟩
    obtain ⟨hne, hold⟩ := withHandle_none_iff.mp hfi'
    refine ⟨?_, h', fi', hold, hinst'⟩
    rintro rfl
    exact hother h' fi' hne hold hinst'
  · rintro ⟨hji, h', fi', hfi', hinst'⟩
    have hne : h' ≠ h := by
      rintro rfl
      cases hfi.symm.trans hfi'
      exact hji (Option.some.inj (hinst'.symm.trans hinst))
    exact ⟨h', fi', withHandle_none_iff.mpr ⟨hne, hfi'⟩, hinst'⟩

/-! ### Opening and closing -/

/-- A file is opened: the descriptor number is free and the handle is new. -/
theorem openFd_inv (hinv : FdInv w) {h fd ino : Nat} (hfd : w.fds fd = none)
    (hh : w.handles h = none) :
    FdInv (withHandle (w.openFd fd ino) h (some ⟨fd, false, some w.opens⟩)) := by
  have hcount : ∀ j, closes j (w.openFd fd ino).log = closes j w.log := fun j => closes_append ..
  have hheld : ∀ j, Held (withHandle (w.openFd fd ino) h (some ⟨fd, false, some w.opens⟩)) j ↔
      j = w.opens ∨ Held w j := held_withHandle_some (w := w.openFd fd ino) hh rfl
  have hfine : (FdEvent.opened w.opens fd).Fine := trivial
  refine ⟨⟨fine_append hinv.tidy.events hfine, ?_, ?_⟩, ?_, ?_, ?_⟩
  · intro j hj hj'
    refine (hcount j).trans ?_
    rcases (hheld j).mp hj' with rfl | hold
    · exact hinv.past _ le_rfl
    · exact hinv.tidy.held j (hinv.held_lt hold) hold
  · intro j hj hfree
    have hne : j ≠ w.opens := fun heq => hfree ((hheld j).mpr (Or.inl heq))
    have hlt : j < w.opens := lt_of_le_of_ne (Nat.lt_succ_iff.mp hj) hne
    refine (hcount j).trans ?_
    exact hinv.tidy.released j hlt fun hold => hfree ((hheld j).mpr (Or.inr hold))
  · intro h' fi hfi
    rcases withHandle_some_iff.mp hfi with ⟨-, rfl⟩ | ⟨-, hold⟩
    · exact ⟨rfl, _, w.opens, Function.update_self .., rfl, rfl, Nat.lt_succ_self _⟩
    · obtain ⟨hreal, d, i, hd, hinst, hfinst, hlt⟩ := hinv.handle h' fi hold
      have hne : fi.fh ≠ fd := by
        intro heq
        rw [heq, hfd] at hd
        cases hd
      refine ⟨hreal, d, i, ?_, hinst, hfinst, Nat.lt_succ_of_lt hlt⟩
      rw [← hd]
      exact Function.update_of_ne hne ..
  · -- no file is that of a call of `open` still to come
    have hfresh : ∀ {h' fi}, w.handles h' = some fi → fi.inst ≠ some w.opens := by
      intro h' fi hfi hinst
      exact absurd (hinv.held_lt ⟨h', fi, hfi, hinst⟩) (lt_irrefl _)
    intro h₁ h₂ fi₁ fi₂ hfi₁ hfi₂ hinst
    rcases withHandle_some_iff.mp hfi₁ with ⟨rfl, rfl⟩ | ⟨-, hold₁⟩
    · rcases withHandle_some_iff.mp hfi₂ with ⟨rfl, -⟩ | ⟨-, hold₂⟩
      · rfl
      · exact absurd hinst.symm (hfresh hold₂)
    · rcases withHandle_some_iff.mp hfi₂ with ⟨-, rfl⟩ | ⟨-, hold₂⟩
      · exact absurd hinst (hfresh hold₁)
      · exact hinv.own h₁ h₂ fi₁ fi₂ hold₁ hold₂ hinst
  · intro j hj
    exact (hcount j).trans (hinv.past j (Nat.le_of_succ_le hj))

/-- A file is released: its descriptor is open, and nobody else's. -/
theorem closeFd_inv (hinv : FdInv w) {h : Nat} {fi : FileInfo} (hfi : w.handles h = some fi) :
    FdInv (withHandle (w.closeFd fi.fh) h none) := by
  obtain ⟨-, d, i, hd, hinst, hfinst, hlt⟩ := hinv.handle h fi hfi
  have hcount : ∀ j, closes j (w.closeFd fi.fh).log = closes j w.log + if j = i then 1 else 0 := by
    intro j
    show closes j (w.log ++ [.closed fi.fh (w.fds fi.fh)]) = _
    rw [hd, closes_closed hinst]
  -- the other files are those of other calls of `open`
  have hother : ∀ h' fi', h' ≠ h → w.handles h' = some fi' → fi'.inst ≠ some i := by
    intro h' fi' hne hfi' hinst'
    exact hne (hinv.own h' h fi' fi hfi' hfi (hinst'.trans hfinst.symm))
  have hheld : ∀ j, Held (withHandle (w.closeFd fi.fh) h none) j ↔ j ≠ i ∧ Held w j :=
    held_withHandle_none (w := w.closeFd fi.fh) hfi hfinst hother
  have hfine : (FdEvent.closed fi.fh (w.fds fi.fh)).Fine := ⟨d, i, hd, hinst⟩
  refine ⟨⟨fine_append hinv.tidy.events hfine, ?_, ?_⟩, ?_, ?_, ?_⟩
  · intro j hj hj'
    obtain ⟨hne, hold⟩ := (hheld j).mp hj'
    refine (hcount j).trans ?_
    rw [if_neg hne, hinv.tidy.held j hj hold]
  · intro j hj hfree
    refine (hcount j).trans ?_
    by_cases hji : j = i
    · rw [if_pos hji, hji, hinv.tidy.held i hlt ⟨h, fi, hfi, hfinst⟩]
    · rw [if_neg hji, hinv.tidy.released j hj fun hold => hfree ((hheld j).mpr ⟨hji, hold⟩)]
  · intro h' fi' hfi'
    obtain ⟨hne, hold⟩ := withHandle_none_iff.mp hfi'
    obtain ⟨hreal, d', i', hd', hinst', hfinst', hlt'⟩ := hinv.handle h' fi' hold
    have hfh : fi'.fh ≠ fi.fh := by
      intro heq
      rw [heq, hd] at hd'
      cases hd'
      rw [hinst] at hinst'
      exact hother h' fi' hne hold (hfinst'.trans hinst'.symm)
    refine ⟨hreal, d', i', ?_, hinst', hfinst', hlt'⟩
    rw [← hd']
    exact Function.update_of_ne hfh ..
  · intro h₁ h₂ fi₁ fi₂ hfi₁ hfi₂
    exact hinv.own h₁ h₂ fi₁ fi₂ (withHandle_none_iff.mp hfi₁).2 (withHandle_none_iff.mp hfi₂).2
  · intro j hj
    have hne : j ≠ i := fun heq => absurd (heq ▸ hj) (not_le.mpr hlt)
    refine (hcount j).trans ?_
    rw [if_neg hne, hinv.past j hj]

/-- A descriptor that is opened and closed at once. -/
theorem transient_inv (hinv : FdInv w) {fd ino : Nat} (hfd : w.fds fd = none) :
    FdInv ((w.openFd fd ino).closeFd fd) := by
  have hfds : ((w.openFd fd ino).closeFd fd).fds = w.fds := by
    show Function.update (Function.update w.fds fd _) fd none = w.fds
    rw [Function.update_idem, ← hfd, Function.update_eq_self]
  have hwas : (w.openFd fd ino).fds fd = some ⟨some w.opens, some ino⟩ := Function.update_self ..
  have hcount : ∀ j, closes j ((w.openFd fd ino).closeFd fd).log =
      closes j w.log + if j = w.opens then 1 else 0 := by
    intro j
    show closes j ((w.openFd fd ino).log ++ [.closed fd ((w.openFd fd ino).fds fd)]) = _
    rw [hwas, closes_closed rfl]
    congr 1
    exact closes_append ..
  have hopened : (FdEvent.opened w.opens fd).Fine := trivial
  have hclosed : (FdEvent.closed fd ((w.openFd fd ino).fds fd)).Fine := ⟨_, w.opens, hwas, rfl⟩
  have hfree : ¬ Held w w.opens := fun hheld => lt_irrefl _ (hinv.held_lt hheld)
  refine ⟨⟨fine_append (fine_append hinv.tidy.events hopened) hclosed, ?_, ?_⟩, ?_, hinv.own, ?_⟩
  · intro j hj hheld
    have hlt := hinv.held_lt hheld
    rw [hcount, if_neg hlt.ne, hinv.tidy.held j hlt hheld]
  · intro j hj hheld
    rw [hcount]
    rcases Nat.lt_succ_iff_lt_or_eq.mp hj with hlt | rfl
    · rw [if_neg hlt.ne, hinv.tidy.released j hlt hheld]
    · rw [if_pos rfl, hinv.past _ le_rfl]
  · intro h fi hfi
    obtain ⟨hreal, d, i, hd, hinst, hfinst, hlt⟩ := hinv.handle h fi hfi
    exact ⟨hreal, d, i, by rw [hfds]; exact hd, hinst, hfinst, Nat.lt_succ_of_lt hlt⟩
  · intro j hj
    rw [hcount, if_neg (Nat.ne_of_gt hj), hinv.past j (Nat.le_of_succ_le hj)]

end Descriptors

/-! ## Runs -/

/-- No virtual file is opened, no `pread` or `pwrite` fails, and nothing is written while
`cur_size` is above the limit. -/
def Smooth (cfg : Config) (w : World) : Op → Prop
  | .openFile _ path _ _ => isVirtual path = false
  | .read _ _ _ outcome => outcome.isOk = true
  | .write _ _ _ _ calls => w.curSize ≤ cfg.maxSize ∧ calls.outcome.isOk = true
  | _ => True

instance (cfg : Config) (w : World) : (op : Op) → Decidable (Smooth cfg w op)
  | .openFile _ path _ _ => inferInstanceAs (Decidable (isVirtual path = false))
  | .read _ _ _ outcome => inferInstanceAs (Decidable (outcome.isOk = true))
  | .write _ _ _ _ calls =>
    inferInstanceAs (Decidable (w.curSize ≤ cfg.maxSize ∧ calls.outcome.isOk = true))
  | .mknod .. => isTrue trivial
  | .release _ => isTrue trivial
  | .mkdir .. => isTrue trivial
  | .truncate .. => isTrue trivial
  | .chmod .. => isTrue trivial
  | .chown .. => isTrue trivial
  | .rmdir .. => isTrue trivial
  | .rename .. => isTrue trivial
  | .unlink .. => isTrue trivial

section Steps

variable {cfg : Config} {w : World} {path : Path}

theorem settle_fds (w : World) (res : Except SysError Tree) : SameFds w (w.settle res).2 := by
  rcases settle_cases w res with heq | ⟨t, -, heq⟩
  · rw [heq]
    exact .refl w
  · rw [heq]
    exact ⟨rfl, rfl, rfl, rfl⟩

theorem unlessVirtual_fds {r : Int × World} (h : SameFds w r.2) :
    SameFds w (w.unlessVirtual path r).2 := by
  unfold World.unlessVirtual
  split
  · exact .refl w
  · exact h

/-- A call on an open descriptor that does not fail. -/
theorem transfer_ok {fi : FileInfo} (size : Nat) {outcome : Except SysError Nat} {d : Descriptor}
    (hd : w.fds fi.fh = some d) (hok : outcome.isOk = true) :
    ∃ count, transfer w fi size outcome = .ok count := by
  unfold transfer
  rw [hd]
  cases outcome with
  | error e => cases hok
  | ok count => exact ⟨min count size, rfl⟩

theorem mknod_inv (hinv : FdInv w) (path : Path) (mode : Mode) (ino fd : Nat)
    (fail : Option SysError) : FdInv (limitfsMknod cfg path mode ino fd fail w).2 := by
  unfold limitfsMknod
  split
  · exact hinv
  split
  · exact hinv
  cases mode with
  | regular =>
    dsimp only
    split
    · exact hinv
    · exact hinv
    · next tree hfd _ =>
      have hsame : FdInv { w with tree := tree } := hinv.same ⟨rfl, rfl, rfl, rfl⟩
      exact transient_inv hsame hfd
  | fifo => exact hinv.same (settle_fds ..)
  | device => exact hinv.same (settle_fds ..)

/-- `limitfs_open` of a real file fails, or opens a descriptor with a free number. -/
theorem limitfsOpen_cases (w : World) (hreal : isVirtual path = false) (fd : Nat)
    (fail : Option SysError) :
    ((limitfsOpen path fd fail w).1 ≠ 0 ∧ (limitfsOpen path fd fail w).2.2 = w) ∨
      ∃ ino, w.fds fd = none ∧
        limitfsOpen path fd fail w = (0, ⟨fd, false, some w.opens⟩, w.openFd fd ino) := by
  unfold limitfsOpen
  rw [hreal]
  simp only [Bool.false_eq_true, if_false]
  split
  · next e => exact Or.inl ⟨e.neg_ne_zero, rfl⟩
  · exact Or.inl ⟨SysError.neg_ne_zero _, rfl⟩
  · exact Or.inl ⟨SysError.emfile.neg_ne_zero, rfl⟩
  · next e _ hfd => exact Or.inr ⟨e.ino, hfd, rfl⟩

theorem open_inv (hinv : FdInv w) {h : Nat} (hh : w.handles h = none)
    (hreal : isVirtual path = false) (fd : Nat) (fail : Option SysError) :
    FdInv (w.openHandle h path fd fail) := by
  unfold World.openHandle
  rcases limitfsOpen_cases w hreal fd fail with ⟨hfailed, hsame⟩ | ⟨ino, hfd, hopen⟩
  · dsimp only
    rw [if_neg hfailed, hsame]
    exact hinv
  · rw [hopen]
    exact openFd_inv hinv hfd hh

theorem read_inv (hinv : FdInv w) {h : Nat} {fi : FileInfo} (hfi : w.handles h = some fi)
    (path : Path) (size : Nat) {outcome : Except SysError Nat} (hok : outcome.isOk = true) :
    FdInv (limitfsRead cfg path size fi outcome w).2 := by
  obtain ⟨-, d, -, hd, -⟩ := hinv.handle h fi hfi
  obtain ⟨count, htransfer⟩ := transfer_ok size hd hok
  unfold limitfsRead
  split
  · exact hinv
  split
  · exact hinv
  rw [htransfer]
  exact useFd_inv hinv hfi

theorem write_inv (hinv : FdInv w) {h : Nat} {fi : FileInfo} (hfi : w.handles h = some fi)
    (path : Path) (size offset : Nat) {calls : WriteCalls} (hquota : w.curSize ≤ cfg.maxSize)
    (hok : calls.outcome.isOk = true) :
    FdInv (limitfsWrite cfg path size offset fi calls w).2 := by
  obtain ⟨-, d, -, hd, -⟩ := hinv.handle h fi hfi
  obtain ⟨count, htransfer⟩ := transfer_ok size hd hok
  have hpwrite : SameFds (w.useFd fi) (pwriteOrClose w fi size offset calls.outcome).2 := by
    unfold pwriteOrClose
    rw [htransfer]
    dsimp only
    split <;> exact ⟨rfl, rfl, rfl, rfl⟩
  have hused := (useFd_inv hinv hfi).same hpwrite
  unfold limitfsWrite
  split
  · exact hinv
  split
  · next hover => exact absurd hover (not_lt.mpr hquota)
  split
  · exact hinv
  · dsimp only
    split
    · exact hused
    · exact hused.same ⟨rfl, rfl, rfl, rfl⟩

/-- One operation of a smooth run keeps the descriptors in order. -/
theorem step_fdInv {w' : World} {op : Op} (hinv : FdInv w) (hguard : Smooth cfg w op)
    (hstep : step cfg w op = some w') : FdInv w' := by
  have hcall : ∀ (path : Path) (res : Except SysError Tree),
      FdInv (w.unlessVirtual path (w.settle res)).2 :=
    fun path res => hinv.same (unlessVirtual_fds (settle_fds w res))
  have hrecount : ∀ (path : Path) (res : Except SysError Tree),
      FdInv (w.unlessVirtual path (recount cfg (w.settle res))).2 :=
    fun path res => hinv.same (unlessVirtual_fds (settle_fds w res))
  cases op with
  | mknod path mode ino fd fail =>
    cases hstep
    exact mknod_inv hinv ..
  | openFile h path fd fail =>
    simp only [step] at hstep
    split at hstep
    · cases hstep
    · next hh =>
      cases hstep
      exact open_inv hinv hh hguard fd fail
  | read h path size outcome =>
    obtain ⟨fi, hfi, rfl⟩ := Option.map_eq_some_iff.mp hstep
    exact read_inv hinv (handle_some hfi).1 path size hguard
  | write h path size offset calls =>
    obtain ⟨fi, hfi, rfl⟩ := Option.map_eq_some_iff.mp hstep
    exact write_inv hinv (handle_some hfi).1 path size offset hguard.1 hguard.2
  | release h =>
    obtain ⟨fi, hfi, rfl⟩ := Option.map_eq_some_iff.mp hstep
    unfold limitfsRelease
    split
    · exact closeFd_inv hinv hfi
    · exact closeFd_inv hinv hfi
  | mkdir path ino stSize fail =>
    cases hstep
    exact hcall ..
  | truncate path size fail =>
    cases hstep
    exact hrecount ..
  | chmod path fail =>
    cases hstep
    exact hcall ..
  | chown path fail =>
    cases hstep
    exact hcall ..
  | rmdir path fail =>
    cases hstep
    exact hrecount ..
  | rename old new fail =>
    cases hstep
    exact hinv.same (unlessVirtual_fds (unlessVirtual_fds (settle_fds ..)))
  | unlink path fail =>
    cases hstep
    exact hrecount ..

end Steps

/-- Nothing has been opened yet. -/
structure Fresh (w : World) : Prop where
  handles : ∀ h, w.handles h = none
  opens : w.opens = 0
  log : w.log = []

theorem Fresh.fdInv {w : World} (h : Fresh w) : FdInv w where
  tidy :=
    { events := by
        rw [h.log]
        exact fun _ hmem => absurd hmem List.not_mem_nil
      held := fun i hi => absurd (h.opens ▸ hi) (Nat.not_lt_zero i)
      released := fun i hi => absurd (h.opens ▸ hi) (Nat.not_lt_zero i) }
  handle := fun i fi hfi => absurd ((h.handles i).symm.trans hfi) nofun
  own := fun i _ fi _ hfi => absurd ((h.handles i).symm.trans hfi) nofun
  past := fun i _ => by rw [h.log]; rfl

/-- **Every descriptor is closed exactly once**, and used only while it is open, in every
smooth run. -/
theorem limitfs_tidy (cfg : Config) {w₀ w : World} (h₀ : Fresh w₀)
    (hreach : Reach (step cfg) (Smooth cfg) w₀ w) : Tidy w :=
  (hreach.invariant h₀.fdInv step_fdInv).tidy

theorem mounted_fresh (cfg : Config) (t : Tree) : Fresh (mounted cfg t) := ⟨fun _ => rfl, rfl, rfl⟩

/-- Two files open at the same time. -/
theorem limitfs_tidy_two_files :
    ∃ w, Reach (step sampleConfig) (Smooth sampleConfig) (mounted sampleConfig sampleTree) w ∧
      Fresh (mounted sampleConfig sampleTree) ∧ closes 0 w.log = 1 ∧ closes 1 w.log = 1 ∧
      Tidy w := by
  obtain ⟨w, hrun, hfirst, hsecond⟩ : ∃ w,
      runFrom (checked (step sampleConfig) fun w op => decide (Smooth sampleConfig w op))
        (mounted sampleConfig sampleTree)
        [.openFile 0 ["a"] 3 none, .openFile 1 ["b"] 4 none, .read 0 ["a"] 64 (.ok 10),
          .release 0, .write 1 ["b"] 2 5 ⟨none, .ok 2, none⟩, .release 1] = some w ∧
      closes 0 w.log = 1 ∧ closes 1 w.log = 1 :=
    ⟨_, rfl, rfl, rfl⟩
  have hreach : Reach (step sampleConfig) (Smooth sampleConfig) (mounted sampleConfig sampleTree)
      w := reach_checked (fun _ _ => of_decide_eq_true) hrun
  have hfresh := mounted_fresh sampleConfig sampleTree
  exact ⟨w, hreach, hfresh, hfirst, hsecond, limitfs_tidy sampleConfig hfresh hreach⟩

/-- A virtual file: releasing it closes the standard input. And a file whose `pread` fails: its
descriptor number goes to the next file, releasing the first file closes the descriptor of the
second, and the second is read through a closed descriptor. -/
theorem limitfs_closes_twice :
    (∃ w, Reach (step sampleConfig) anyStep (mounted sampleConfig sampleTree) w ∧
      FdEvent.closed 0 (some ⟨none, none⟩) ∈ w.log ∧ ¬ Tidy w) ∧
    ∃ w, Reach (step sampleConfig) anyStep (mounted sampleConfig sampleTree) w ∧
      FdEvent.used (some 1) 3 none ∈ w.log ∧ ¬ Tidy w := by
  obtain ⟨w, hrun, hlog⟩ : ∃ w,
      runFrom (step sampleConfig) (mounted sampleConfig sampleTree)
        [.openFile 0 ["cur_size"] 3 none, .release 0] = some w ∧
      FdEvent.closed 0 (some ⟨none, none⟩) ∈ w.log :=
    ⟨_, rfl, List.mem_of_getLast? rfl⟩
  obtain ⟨w', hrun', hlog'⟩ : ∃ w,
      runFrom (step sampleConfig) (mounted sampleConfig sampleTree)
        [.openFile 0 ["a"] 3 none, .read 0 ["a"] 64 (.error (.other 4)),
          .openFile 1 ["b"] 3 none, .release 0, .read 1 ["b"] 64 (.ok 5)] = some w ∧
      FdEvent.used (some 1) 3 none ∈ w.log :=
    ⟨_, rfl, List.mem_of_getElem? (i := 5) rfl⟩
  refine ⟨⟨w, reach_runFrom hrun, hlog, fun htidy => ?_⟩,
    ⟨w', reach_runFrom hrun', hlog', fun htidy => ?_⟩⟩
  · obtain ⟨d, i, hd, hinst⟩ := htidy.events _ hlog
    cases hd
    cases hinst
  · obtain ⟨d, i, hd, -⟩ := htidy.events _ hlog'
    cases hd

end LinuxDeviceDriver.Limitfs
