import Mathlib.Data.Nat.ModEq
import Mathlib.Tactic.Ring
import LinuxDeviceDriver.Limitfs.Operations

/-!
# `get_dir_size`: walking a directory tree

`__get_dir_size` adds the size of every entry of a directory to `*filesize`. It calls itself
for a subdirectory with its own variable `cur_filesize`, which still holds the size of the entry
before: the subdirectory is counted on top of it.

A `Listing` is a directory as `readdir` lists it, in any order. The walk may be stopped by the
first call of `opendir` or `stat` that fails, so it takes the number of calls that succeed. It
also ends where `sprintf` overruns the buffer for a path.

- `loop_exit`: what the walk leaves, in closed form. `counted` counts an entry once more for each
  subdirectory right behind it; `before` is the part of a listing that is done when a call fails.
- `get_dir_size_iff`: when the result is the size of the tree.
-/

namespace LinuxDeviceDriver.Limitfs

/-! ## The walk -/

/-- `MAX_PATH` -/
def maxPath : Nat := 1024

/-- A name other than the two that `__get_dir_size` skips. -/
abbrev Name := { name : String // name ≠ "." ∧ name ≠ ".." }

/-- What `readdir` returns of a directory, with what is below. A FIFO or a device is listed as
a file of size 0. -/
inductive Listing
  | nil
  | dots (rest : Listing)
  | file (name : Name) (size : Nat) (rest : Listing)
  | dir (name : Name) (sub rest : Listing)

/-- `sprintf(path, "%s/%s", dir_name, cur_dir->d_name)` -/
def pathOf (dirName : String) (name : Name) : String := dirName ++ "/" ++ name.val

/-- The text and its NUL are in the buffer. -/
def PathFits (path : String) : Prop := path.utf8ByteSize < maxPath

instance (path : String) : Decidable (PathFits path) := inferInstanceAs (Decidable (_ < _))

/-- The walk returns 0, with `*filesize` and the number of calls that would still succeed; it
returns -1; or it overruns its buffer. -/
inductive Walked
  | done (filesize left : Nat)
  | failed (filesize : Nat)
  | overrun
deriving DecidableEq

/-- A call of `opendir` or `stat`: `n` more succeed. -/
def calling (n filesize : Nat) (body : Nat → Walked) : Walked :=
  match n with
  | 0 => .failed filesize
  | n + 1 => body n

namespace Listing

/-- The loop of `__get_dir_size`, with `cur_filesize`, `*filesize` and the calls that succeed. -/
def loop (cfg : Config) : Listing → String → Nat → Nat → Nat → Walked
  | nil, _, _, filesize, n => .done filesize n
  | dots rest, dirName, cur, filesize, n => rest.loop cfg dirName cur filesize n
  | file name size rest, dirName, _, filesize, n =>
    if PathFits (pathOf dirName name) then
      -- `is_dir`, then `get_file_size`
      calling n filesize fun n =>
        calling n filesize fun n =>
          let cur := size % 2 ^ cfg.longBits
          rest.loop cfg dirName cur ((filesize + cur) % 2 ^ cfg.longBits) n
    else .overrun
  | dir name sub rest, dirName, cur, filesize, n =>
    if PathFits (pathOf dirName name) then
      calling n filesize fun n =>
        -- `__get_dir_size(path, &cur_filesize)`, which adds to what is in `cur_filesize`
        match calling n cur fun n => sub.loop cfg (pathOf dirName name) 0 cur n with
        | .done cur n => rest.loop cfg dirName cur ((filesize + cur) % 2 ^ cfg.longBits) n
        | .failed _ => .failed filesize
        | .overrun => .overrun
    else .overrun

/-- `__get_dir_size` -/
def getDirSizeRec (cfg : Config) (l : Listing) (dirName : String) (filesize n : Nat) : Walked :=
  calling n filesize fun n => l.loop cfg dirName 0 filesize n

/-- `get_dir_size` -/
def getDirSize (cfg : Config) (l : Listing) (dirName : String) (n : Nat) : Walked :=
  l.getDirSizeRec cfg dirName 0 n

/-! ## The listing in its own terms -/

/-- The size of all files, each counted once. -/
def total : Listing → Nat
  | nil => 0
  | dots rest => rest.total
  | file _ size rest => size + rest.total
  | dir _ sub rest => sub.total + rest.total

/-- The subdirectories that are listed before any file. -/
def leadingDirs : Listing → Nat
  | nil => 0
  | dots rest => rest.leadingDirs
  | file _ _ _ => 0
  | dir _ _ rest => 1 + rest.leadingDirs

/-- The size of all entries, counted once and again for each subdirectory right behind. -/
def counted : Listing → Nat
  | nil => 0
  | dots rest => rest.counted
  | file _ size rest => size * (1 + rest.leadingDirs) + rest.counted
  | dir _ sub rest => sub.counted * (1 + rest.leadingDirs) + rest.counted

/-- What is counted again. -/
def recounted : Listing → Nat
  | nil => 0
  | dots rest => rest.recounted
  | file _ size rest => size * rest.leadingDirs + rest.recounted
  | dir _ sub rest => sub.recounted + sub.counted * rest.leadingDirs + rest.recounted

/-- No subdirectory stands right behind an entry that is not empty. -/
def Apart : Listing → Prop
  | nil => True
  | dots rest => rest.Apart
  | file _ size rest => (size = 0 ∨ rest.leadingDirs = 0) ∧ rest.Apart
  | dir _ sub rest => (sub.total = 0 ∨ rest.leadingDirs = 0) ∧ sub.Apart ∧ rest.Apart

/-- The calls of `opendir` and `stat` for the entries. -/
def calls : Listing → Nat
  | nil => 0
  | dots rest => rest.calls
  | file _ _ rest => 2 + rest.calls
  | dir _ sub rest => 2 + sub.calls + rest.calls

/-- Every path that the walk writes fits, when `n` calls succeed. -/
def Fits : Listing → String → Nat → Prop
  | nil, _, _ => True
  | dots rest, dirName, n => rest.Fits dirName n
  | file name _ rest, dirName, n =>
    PathFits (pathOf dirName name) ∧ (2 ≤ n → rest.Fits dirName (n - 2))
  | dir name sub rest, dirName, n =>
    PathFits (pathOf dirName name) ∧ (2 ≤ n → sub.Fits (pathOf dirName name) (n - 2)) ∧
      (2 + sub.calls ≤ n → rest.Fits dirName (n - (2 + sub.calls)))

instance decidableFits : (l : Listing) → (dirName : String) → (n : Nat) →
    Decidable (l.Fits dirName n)
  | nil, _, _ => isTrue trivial
  | dots rest, dirName, n => decidableFits rest dirName n
  | file _ _ rest, dirName, n =>
    have := decidableFits rest dirName (n - 2)
    inferInstanceAs (Decidable (_ ∧ (_ → _)))
  | dir name sub rest, dirName, n =>
    have := decidableFits sub (pathOf dirName name) (n - 2)
    have := decidableFits rest dirName (n - (2 + sub.calls))
    inferInstanceAs (Decidable (_ ∧ (_ → _) ∧ (_ → _)))

/-- The entries that are done with when a call fails behind `n` that succeed. -/
def before : Listing → Nat → Listing
  | nil, _ => nil
  | dots rest, n => rest.before n
  | file name size rest, n => if n < 2 then nil else file name size (rest.before (n - 2))
  | dir name sub rest, n =>
    if n < 2 + sub.calls then nil else dir name sub (rest.before (n - (2 + sub.calls)))

/-! ## What the walk leaves -/

section Walk

variable (cfg : Config)

/-- `*filesize` behind the listing. -/
def endSize (l : Listing) (cur filesize : Nat) : Nat :=
  (filesize + cur * l.leadingDirs + l.counted) % 2 ^ cfg.longBits

variable {cfg} {dirName : String} {cur filesize n : Nat}

theorem endSize_nil (h : filesize < 2 ^ cfg.longBits) : endSize cfg nil cur filesize = filesize :=
  Nat.mod_eq_of_lt h

/-- An entry of size `v` counts once, and again in the subdirectories behind it. -/
theorem endSize_next (rest : Listing) (filesize v : Nat) :
    rest.endSize cfg (v % 2 ^ cfg.longBits)
        ((filesize + v % 2 ^ cfg.longBits) % 2 ^ cfg.longBits) =
      (filesize + v * (1 + rest.leadingDirs) + rest.counted) % 2 ^ cfg.longBits := by
  have hv : v % 2 ^ cfg.longBits ≡ v [MOD 2 ^ cfg.longBits] := Nat.mod_modEq ..
  have hsum : (filesize + v % 2 ^ cfg.longBits) % 2 ^ cfg.longBits ≡ filesize + v
      [MOD 2 ^ cfg.longBits] := (Nat.mod_modEq ..).trans (hv.add_left filesize)
  have hend := (hsum.add (hv.mul_right rest.leadingDirs)).add_right rest.counted
  refine hend.trans (congrArg (· % 2 ^ cfg.longBits) ?_)
  ring

theorem endSize_file (name : Name) (size : Nat) (rest : Listing) :
    (file name size rest).endSize cfg cur filesize =
      rest.endSize cfg (size % 2 ^ cfg.longBits)
        ((filesize + size % 2 ^ cfg.longBits) % 2 ^ cfg.longBits) := by
  rw [endSize_next]
  exact congrArg (· % 2 ^ cfg.longBits) (Nat.add_assoc ..).symm

/-- The subdirectory is counted on top of the entry before it. -/
theorem endSize_dir (name : Name) (sub rest : Listing) :
    (dir name sub rest).endSize cfg cur filesize =
      rest.endSize cfg ((cur + sub.counted) % 2 ^ cfg.longBits)
        ((filesize + (cur + sub.counted) % 2 ^ cfg.longBits) % 2 ^ cfg.longBits) := by
  rw [endSize_next]
  refine congrArg (· % 2 ^ cfg.longBits) ?_
  show filesize + cur * (1 + rest.leadingDirs) +
    (sub.counted * (1 + rest.leadingDirs) + rest.counted) = _
  ring

/-- How the loop ends. -/
inductive LoopExit (cfg : Config) (l : Listing) (dirName : String) (cur filesize n : Nat) :
    Walked → Prop
  | done {size left : Nat} : l.Fits dirName n → n = l.calls + left →
      size = l.endSize cfg cur filesize → LoopExit cfg l dirName cur filesize n (.done size left)
  | failed {size : Nat} : l.Fits dirName n → n < l.calls →
      size = (l.before n).endSize cfg cur filesize →
      LoopExit cfg l dirName cur filesize n (.failed size)
  | overrun : ¬ l.Fits dirName n → LoopExit cfg l dirName cur filesize n .overrun

/-- Behind an entry that has made `k` calls, the rest decides. -/
theorem LoopExit.entry {l rest : Listing} {k cur' filesize' : Nat} {w : Walked}
    (hcalls : l.calls = k + rest.calls)
    (hfits : l.Fits dirName (n + k) ↔ rest.Fits dirName n)
    (hend : l.endSize cfg cur filesize = rest.endSize cfg cur' filesize')
    (hbefore : (l.before (n + k)).endSize cfg cur filesize =
      (rest.before n).endSize cfg cur' filesize')
    (h : LoopExit cfg rest dirName cur' filesize' n w) :
    LoopExit cfg l dirName cur filesize (n + k) w := by
  cases h with
  | done hrest hn hsize => exact .done (hfits.mpr hrest) (by omega) (hsize.trans hend.symm)
  | failed hrest hn hsize => exact .failed (hfits.mpr hrest) (by omega) (hsize.trans hbefore.symm)
  | overrun hrest => exact .overrun fun h => hrest (hfits.mp h)

/-- A call fails before the first entry is done. -/
theorem LoopExit.stopped {l : Listing} (hfs : filesize < 2 ^ cfg.longBits)
    (hfits : l.Fits dirName n) (hn : n < l.calls) (hnone : l.before n = nil) :
    LoopExit cfg l dirName cur filesize n (.failed filesize) := by
  refine .failed hfits hn ?_
  rw [hnone, endSize_nil hfs]

/-- The loop on a listing ends as `LoopExit` says. -/
def LoopEnds (cfg : Config) (l : Listing) : Prop :=
  ∀ (dirName : String) (n : Nat) {cur filesize : Nat}, cur < 2 ^ cfg.longBits →
    filesize < 2 ^ cfg.longBits →
    LoopExit cfg l dirName cur filesize n (l.loop cfg dirName cur filesize n)

theorem loop_file {rest : Listing} (name : Name) (size : Nat) (ih : LoopEnds cfg rest) :
    LoopEnds cfg (file name size rest) := by
  intro dirName n cur filesize _ hfs
  have hpos : 0 < 2 ^ cfg.longBits := Nat.two_pow_pos _
  unfold loop
  split
  case isFalse hpath => exact .overrun fun hfits => hpath hfits.1
  case isTrue hpath =>
  have hstopped : n < 2 → LoopExit cfg (file name size rest) dirName cur filesize n
      (.failed filesize) := by
    intro hn
    refine .stopped hfs ⟨hpath, fun h => absurd hn (Nat.not_lt.mpr h)⟩ ?_ (if_pos hn)
    exact Nat.lt_of_lt_of_le hn (Nat.le_add_right ..)
  rcases n with _ | _ | n
  · exact hstopped (by decide)
  · exact hstopped (by decide)
  · have hrest := ih dirName n (Nat.mod_lt size hpos)
      (Nat.mod_lt (filesize + size % 2 ^ cfg.longBits) hpos)
    refine hrest.entry (k := 2) rfl ?_ (endSize_file ..) ?_
    · exact ⟨fun h => h.2 (Nat.le_add_left ..), fun h => ⟨hpath, fun _ => h⟩⟩
    · rw [before, if_neg (by omega), endSize_file]
      rfl

theorem loop_dir {sub rest : Listing} (name : Name) (ihSub : LoopEnds cfg sub)
    (ihRest : LoopEnds cfg rest) : LoopEnds cfg (dir name sub rest) := by
  intro dirName n cur filesize hcur hfs
  have hpos : 0 < 2 ^ cfg.longBits := Nat.two_pow_pos _
  unfold loop
  split
  case isFalse hpath => exact .overrun fun hfits => hpath hfits.1
  case isTrue hpath =>
  have hstopped : n < 2 + sub.calls → (2 ≤ n → sub.Fits (pathOf dirName name) (n - 2)) →
      LoopExit cfg (dir name sub rest) dirName cur filesize n (.failed filesize) := by
    intro hn hsub
    refine .stopped hfs ⟨hpath, hsub, fun h => absurd hn (Nat.not_lt.mpr h)⟩ ?_ (if_pos hn)
    exact Nat.lt_of_lt_of_le hn (Nat.le_add_right ..)
  rcases n with _ | _ | n
  · exact hstopped (by omega) (by omega)
  · exact hstopped (by omega) (by omega)
  have hsub := ihSub (pathOf dirName name) n hpos hcur
  simp only [calling]
  generalize sub.loop cfg (pathOf dirName name) 0 cur n = w at hsub ⊢
  cases hsub with
  | overrun hfits => exact .overrun fun h => hfits (h.2.1 (Nat.le_add_left ..))
  | failed hfits hn _ => exact hstopped (by omega) fun _ => hfits
  | @done cur' left hfits hn hsize =>
    have hcur' : cur' = (cur + sub.counted) % 2 ^ cfg.longBits := by
      rw [hsize, endSize, Nat.zero_mul, Nat.add_zero]
    subst hn hcur'
    have hrest := ihRest dirName left (Nat.mod_lt (cur + sub.counted) hpos)
      (Nat.mod_lt (filesize + (cur + sub.counted) % 2 ^ cfg.longBits) hpos)
    have hn : sub.calls + left + 1 + 1 = left + (2 + sub.calls) := by omega
    have hleft : left + (2 + sub.calls) - (2 + sub.calls) = left := Nat.add_sub_cancel ..
    rw [hn]
    refine hrest.entry rfl ?_ (endSize_dir ..) ?_
    · constructor
      · intro h
        have hfits := h.2.2 (Nat.le_add_left ..)
        rwa [hleft] at hfits
      · intro h
        have hbelow : left + (2 + sub.calls) - 2 = sub.calls + left := by omega
        exact ⟨hpath, fun _ => hbelow.symm ▸ hfits, fun _ => hleft.symm ▸ h⟩
    · rw [before, if_neg (by omega), hleft, endSize_dir]

/-- **What the walk leaves**, by induction on the listing: the loop over the rest goes on from
what the entry has left in the two variables. -/
theorem loop_exit (cfg : Config) (l : Listing) : LoopEnds cfg l := by
  induction l with
  | nil => exact fun _ _ _ _ _ hfs => .done trivial (Nat.zero_add _).symm (endSize_nil hfs).symm
  | dots rest ih =>
    intro dirName n cur filesize hcur hfs
    have hrest := ih dirName n hcur hfs
    unfold loop
    generalize rest.loop cfg dirName cur filesize n = w at hrest ⊢
    cases hrest with
    | done hfits hn hsize => exact .done hfits hn hsize
    | failed hfits hn hsize => exact .failed hfits hn hsize
    | overrun hfits => exact .overrun hfits
  | file name size rest ih => exact loop_file name size ih
  | dir name sub rest ihSub ihRest => exact loop_dir name ihSub ihRest

end Walk

/-! ## The size of the tree -/

theorem counted_eq (l : Listing) : l.counted = l.total + l.recounted := by
  induction l with
  | nil => rfl
  | dots rest ih => exact ih
  | file name size rest ih =>
    rw [counted, total, recounted, ih]
    ring
  | dir name sub rest ihSub ihRest =>
    rw [counted, total, recounted, ihSub, ihRest]
    ring

/-- Nothing is counted where there is nothing. -/
theorem counted_eq_zero {l : Listing} (h : l.total = 0) : l.counted = 0 := by
  induction l with
  | nil => rfl
  | dots rest ih => exact ih h
  | file name size rest ih =>
    obtain ⟨hsize, hrest⟩ := Nat.add_eq_zero_iff.mp h
    rw [counted, hsize, ih hrest, Nat.zero_mul]
  | dir name sub rest ihSub ihRest =>
    obtain ⟨hsub, hrest⟩ := Nat.add_eq_zero_iff.mp h
    rw [counted, ihSub hsub, ihRest hrest, Nat.zero_mul]

theorem counted_eq_zero_iff {l : Listing} : l.counted = 0 ↔ l.total = 0 := by
  refine ⟨fun h => ?_, counted_eq_zero⟩
  rw [counted_eq] at h
  omega

/-- Nothing is counted again exactly when no subdirectory stands behind a size. -/
theorem recounted_eq_zero_iff (l : Listing) : l.recounted = 0 ↔ l.Apart := by
  induction l with
  | nil => exact iff_of_true rfl trivial
  | dots rest ih => exact ih
  | file name size rest ih =>
    rw [recounted, Nat.add_eq_zero_iff, Nat.mul_eq_zero, ih]
    rfl
  | dir name sub rest ihSub ihRest =>
    rw [recounted, Nat.add_eq_zero_iff, Nat.add_eq_zero_iff, Nat.mul_eq_zero, ihSub, ihRest,
      counted_eq_zero_iff]
    exact ⟨fun h => ⟨h.1.2, h.1.1, h.2⟩, fun h => ⟨⟨h.2.1, h.1⟩, h.2.2⟩⟩

theorem endSize_zero (cfg : Config) (l : Listing) :
    l.endSize cfg 0 0 = l.counted % 2 ^ cfg.longBits := by
  rw [endSize, Nat.zero_mul, Nat.zero_add]

theorem before_zero (l : Listing) : l.before 0 = nil := by
  induction l with
  | nil => rfl
  | dots rest ih => exact ih
  | file name size rest _ => exact if_pos (by decide)
  | dir name sub rest _ _ => exact if_pos (by omega)

section Calls

variable {cfg : Config} {l : Listing} {dirName : String} {n : Nat}

/-- When every call succeeds, the walk returns what is counted. -/
theorem getDirSize_done (hcalls : l.calls < n) :
    l.getDirSize cfg dirName n =
      if l.Fits dirName (n - 1) then
        .done (l.counted % 2 ^ cfg.longBits) (n - 1 - l.calls)
      else .overrun := by
  have hpos : 0 < 2 ^ cfg.longBits := Nat.two_pow_pos _
  obtain ⟨m, rfl⟩ := Nat.exists_eq_add_of_lt hcalls
  have hexit := loop_exit cfg l dirName (l.calls + m) hpos hpos
  show l.loop cfg dirName 0 0 (l.calls + m) = if l.Fits dirName (l.calls + m) then _ else _
  generalize l.loop cfg dirName 0 0 (l.calls + m) = w at hexit ⊢
  cases hexit with
  | @done size left hfits hleft hsize =>
    have hm : l.calls + m + 1 - 1 - l.calls = left := by omega
    rw [if_pos hfits, hsize, endSize_zero, hm]
  | failed _ hn _ => omega
  | overrun hfits => rw [if_neg hfits]

/-- When a call fails, what was counted before it is left. -/
theorem getDirSize_failed (hcalls : n ≤ l.calls) :
    l.getDirSize cfg dirName n =
      if 0 < n → l.Fits dirName (n - 1) then
        .failed ((l.before (n - 1)).counted % 2 ^ cfg.longBits)
      else .overrun := by
  have hpos : 0 < 2 ^ cfg.longBits := Nat.two_pow_pos _
  cases n with
  | zero =>
    rw [if_pos fun h => absurd h (Nat.lt_irrefl 0), before_zero]
    exact congrArg Walked.failed (Nat.zero_mod _).symm
  | succ n =>
    have hexit := loop_exit cfg l dirName n hpos hpos
    show l.loop cfg dirName 0 0 n = if 0 < n + 1 → l.Fits dirName n then _ else _
    generalize l.loop cfg dirName 0 0 n = w at hexit ⊢
    cases hexit with
    | done _ hleft _ => omega
    | failed hfits _ hsize =>
      rw [if_pos fun _ => hfits, hsize, endSize_zero]
      rfl
    | overrun hfits => rw [if_neg fun h => hfits (h (Nat.succ_pos n))]

end Calls

theorem add_mod_eq_left_iff {a b m : Nat} (hm : 0 < m) : (a + b) % m = a ↔ a < m ∧ m ∣ b := by
  constructor
  · intro h
    have hlt : a < m := h ▸ Nat.mod_lt _ hm
    have hmod : a + b ≡ a + 0 [MOD m] := h.trans (Nat.mod_eq_of_lt hlt).symm
    exact ⟨hlt, Nat.modEq_zero_iff_dvd.mp (Nat.ModEq.add_left_cancel' a hmod)⟩
  · rintro ⟨hlt, k, rfl⟩
    rw [Nat.add_mul_mod_self_left, Nat.mod_eq_of_lt hlt]

/-- **When `get_dir_size` is right**: all calls succeed, so it returns the size of the tree
exactly when every path fits its buffer, the size fits an `unsigned long`, and what is counted
again vanishes in it. Nothing is counted again when no subdirectory is listed right behind an
entry that is not empty. -/
theorem get_dir_size_iff (cfg : Config) (l : Listing) (dirName : String) {n : Nat}
    (hcalls : l.calls < n) :
    ((∃ left, l.getDirSize cfg dirName n = .done l.total left) ↔
      l.Fits dirName (n - 1) ∧ l.total < 2 ^ cfg.longBits ∧ 2 ^ cfg.longBits ∣ l.recounted) ∧
    (l.recounted = 0 ↔ l.Apart) := by
  refine ⟨?_, recounted_eq_zero_iff l⟩
  rw [getDirSize_done hcalls, ← add_mod_eq_left_iff (Nat.two_pow_pos _), ← counted_eq]
  constructor
  · rintro ⟨left, h⟩
    split at h
    · next hfits => exact ⟨hfits, (Walked.done.inj h).1⟩
    · cases h
  · rintro ⟨hfits, hsize⟩
    rw [if_pos hfits, hsize]
    exact ⟨_, rfl⟩

def nameA : Name := ⟨"a", by decide⟩

def nameB : Name := ⟨"b", by decide⟩

/-- The subdirectory "b" with 3 bytes, and then the file "a" with 10. -/
def dirFirst : Listing := .dots (.dir nameB (.file nameA 3 .nil) (.file nameA 10 .nil))

theorem get_dir_size_dirFirst :
    ∃ left, dirFirst.getDirSize ⟨64, 20⟩ "src" 9 = .done 13 left := by
  refine (get_dir_size_iff ⟨64, 20⟩ dirFirst "src" ?_).1.mpr ⟨?_, ?_, ?_⟩ <;> decide +kernel

/-- The file "a" with 10 bytes, and then the empty subdirectory "b". -/
def fileFirst : Listing := .file nameA 10 (.dir nameB .nil .nil)

/-- The file is counted twice. -/
theorem get_dir_size_fileFirst :
    fileFirst.total = 10 ∧ fileFirst.getDirSize ⟨64, 20⟩ "src" 5 = .done 20 0 := by
  decide +kernel

end Listing

end LinuxDeviceDriver.Limitfs
