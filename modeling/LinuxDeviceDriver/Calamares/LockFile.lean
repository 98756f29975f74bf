import LinuxDeviceDriver.Kernel

/-!
# The lock on a tty: `lock_tty_file`

Calamares locks a tty through a pid file whose name it makes from the resolved path of the tty:
the path is copied to `location`, every `/` becomes a `-`, and the result goes between
`/var/run/calamares` and `.pid`. Both copies are cut to 511 bytes, while the loop that replaces
characters runs over the length of the path before it was cut.

`replaceLoop` records the indices it uses. `pidFile_eq` says what of the path is in the name:
with the directory in front of it, 493 bytes are left. A lock on one tty gets in the way of
another exactly when they have the same name (`neverBlocks_iff`).
-/

namespace LinuxDeviceDriver.Calamares

open Lib

/-! ## The name of the pid file -/

/-- `'/'` -/
def slash : Byte := 47

/-- `'-'` -/
def dash : Byte := 45

/-- `"/var/run/calamares"` -/
def runDir : List Byte :=
  [47, 118, 97, 114, 47, 114, 117, 110, 47, 99, 97, 108, 97, 109, 97, 114, 101, 115]

/-- `".pid"` -/
def pidSuffix : List Byte := [46, 112, 105, 100]

/-- `char location[1024]` and what lies behind it on the stack, and the indices used so far. -/
structure Locals where
  location : Nat → Byte
  accessed : List Nat

/-- `snprintf(location, 512, "%s", tmp)`; the array was filled with zeros. -/
def copyPath (stack : Nat → Byte) (path : List Byte) : Locals :=
  ⟨fun i => if i < 1024 then (path.take 511).getD i 0 else stack i, []⟩

/-- `for (i = 0; i < len; i++) if (location[i] == '/') location[i] = '-';` -/
def replaceLoop : Nat → Locals → Locals
  | 0, s => s
  | i + 1, s =>
    let s := replaceLoop i s
    { location := if s.location i = slash then Function.update s.location i dash else s.location
      accessed := s.accessed ++ [i] }

/-- The local variables of `lock_tty_file` behind the loop. -/
def replaced (stack : Nat → Byte) (path : List Byte) : Locals :=
  replaceLoop path.length (copyPath stack path)

/-- `snprintf(pid_file, 512, "/var/run/calamares%s.pid", location)` -/
def pidFile (stack : Nat → Byte) (path : List Byte) : List Byte :=
  (runDir ++ arrayString (replaced stack path).location 1024 ++ pidSuffix).take 511

/-! ## Locking it -/

/-- Which process holds the write lock of a file. -/
abbrev Locks := List Byte → Option Nat

/-- How the system calls go, but for locks of other processes. -/
structure LockCalls where
  verifyOk : Bool
  realpathOk : Bool
  openOk : Bool
  fcntlOk : Bool
  ftruncateOk : Bool
  writeOk : Bool

/-- Where `lock_tty_file` returns -1. -/
inductive LockError
  | noTty
  | noRealpath
  | couldNotOpen
  | couldNotLock
  | errorLock
  | noTruncate
  | couldNotWrite
deriving DecidableEq

/-- `create_pid_file` -/
def createPidFile (calls : LockCalls) (pid : Nat) (file : List Byte) (locks : Locks) :
    Except LockError Unit × Locks :=
  if !calls.openOk then (.error .couldNotOpen, locks)
  else if !calls.fcntlOk then (.error .errorLock, locks)
  else if locks file ≠ none ∧ locks file ≠ some pid then (.error .couldNotLock, locks)
  -- `pid_fd` is not closed here
  else if !calls.ftruncateOk then (.error .noTruncate, Function.update locks file (some pid))
  else if !calls.writeOk then (.error .couldNotWrite, Function.update locks file none)
  else (.ok (), Function.update locks file (some pid))

/-- `lock_tty_file`, for a tty with the resolved path `path`. -/
def lockTtyFile (stack : Nat → Byte) (calls : LockCalls) (pid : Nat) (path : List Byte)
    (locks : Locks) : Except LockError Unit × Locks :=
  if !calls.verifyOk then (.error .noTty, locks)
  else if !calls.realpathOk then (.error .noRealpath, locks)
  else createPidFile calls pid (pidFile stack path) locks

/-! ## What the names are for -/

/-- What `realpath` returns: an absolute path without NUL, shorter than `PATH_MAX`. -/
structure ResolvedPath where
  bytes : List Byte
  absolute : bytes.head? = some slash
  noNul : 0 ∉ bytes
  short : bytes.length < 4096

/-- The loop stays in `location`. -/
def InLocation (path : List Byte) : Prop :=
  ∀ stack, ∀ i ∈ (replaced stack path).accessed, i < 1024

/-- Whoever has locked the tty at `path`, another process fares as before with that at `path'`. -/
def NeverBlocks (stack stack' : Nat → Byte) (path path' : List Byte) : Prop :=
  ∀ calls calls' pid pid' locks locks', pid ≠ pid' →
    lockTtyFile stack calls pid path locks = (.ok (), locks') →
    (lockTtyFile stack' calls' pid' path' locks').1 = (lockTtyFile stack' calls' pid' path' locks).1

/-- The loops stay in bounds, and different ttys have locks of their own. -/
structure LockSafe (p q : ResolvedPath) : Prop where
  inLocation : InLocation p.bytes ∧ InLocation q.bytes
  apart : p.bytes ≠ q.bytes →
    ∀ stack stack', pidFile stack p.bytes ≠ pidFile stack' q.bytes ∧
      NeverBlocks stack stack' p.bytes q.bytes

/-! ## The loop -/

/-- What becomes of a character. -/
def dashed (c : Byte) : Byte := if c = slash then dash else c

theorem dashed_ne_zero {c : Byte} (h : c ≠ 0) : dashed c ≠ 0 := by
  unfold dashed
  split
  · decide
  · exact h

theorem replaceLoop_accessed (n : Nat) (s : Locals) :
    (replaceLoop n s).accessed = s.accessed ++ List.range n := by
  induction n with
  | zero => exact (List.append_nil _).symm
  | succ n ih =>
    unfold replaceLoop
    dsimp only
    rw [ih, List.range_succ, List.append_assoc]

theorem replaceLoop_location (n : Nat) (s : Locals) (i : Nat) :
    (replaceLoop n s).location i = if i < n then dashed (s.location i) else s.location i := by
  induction n with
  | zero => rfl
  | succ n ih =>
    unfold replaceLoop
    dsimp only
    by_cases hi : i = n
    · subst hi
      rw [if_neg (Nat.lt_irrefl i)] at ih
      rw [if_pos (Nat.lt_succ_self i), ← ih]
      unfold dashed
      split
      · rw [Function.update_self]
      · rfl
    · have hkept : (if (replaceLoop n s).location n = slash then
          Function.update (replaceLoop n s).location n dash else (replaceLoop n s).location) i =
          (replaceLoop n s).location i := by
        split
        · exact Function.update_of_ne hi ..
        · rfl
      rw [hkept, ih]
      by_cases hlt : i < n
      · rw [if_pos hlt, if_pos (Nat.lt_succ_of_lt hlt)]
      · rw [if_neg hlt, if_neg (by omega)]

/-- The loop goes over the end of `location` for paths of more than 1024 bytes. -/
theorem inLocation_iff (path : List Byte) : InLocation path ↔ path.length ≤ 1024 := by
  unfold InLocation replaced copyPath
  simp only [replaceLoop_accessed, List.nil_append, List.mem_range]
  constructor
  · intro h
    have hlast := h (fun _ => 0) (path.length - 1)
    omega
  · intro h stack i hi
    omega

/-! ## What of the path is in the name -/

/-- Inside `location` is the path, cut and replaced. -/
theorem replaced_location (stack : Nat → Byte) (path : List Byte) {i : Nat} (hi : i < 1024) :
    (replaced stack path).location i = ((path.take 511).map dashed).getD i 0 := by
  unfold replaced copyPath
  rw [replaceLoop_location]
  dsimp only
  rw [if_pos hi, List.getD_eq_getElem?_getD, List.getD_eq_getElem?_getD, List.getElem?_map]
  by_cases hlt : i < path.length
  · rw [if_pos hlt]
    cases (path.take 511)[i]? with
    | none => rfl
    | some c => rfl
  · rw [if_neg hlt, List.getElem?_eq_none (by rw [List.length_take]; omega)]
    rfl

theorem arrayString_replaced (stack : Nat → Byte) {path : List Byte} (hnul : 0 ∉ path) :
    arrayString (replaced stack path).location 1024 = (path.take 511).map dashed := by
  have hlength : ((path.take 511).map dashed).length < 1024 := by
    rw [List.length_map, List.length_take]
    omega
  refine arrayString_eq ?_ ?_ hlength ?_
  · refine slice_eq_list 0 fun i hi => ?_
    rw [Nat.zero_add, replaced_location stack path (by omega)]
  · rw [replaced_location stack path hlength, List.getD_eq_getElem?_getD,
      List.getElem?_eq_none (Nat.le_refl _)]
    rfl
  · intro hmem
    obtain ⟨c, hc, hzero⟩ := List.mem_map.mp hmem
    refine dashed_ne_zero (fun hc0 => ?_) hzero
    subst hc0
    exact hnul (List.mem_of_mem_take hc)

/-- The 493 bytes that follow the directory. -/
theorem pidFile_eq (stack : Nat → Byte) {path : List Byte} (hnul : 0 ∉ path) :
    pidFile stack path = runDir ++ ((path ++ pidSuffix).map dashed).take 493 := by
  have hcut : ((path.take 511).map dashed ++ pidSuffix).take 493 =
      ((path ++ pidSuffix).map dashed).take 493 := by
    have hsuffix : pidSuffix.map dashed = pidSuffix := by decide
    rw [List.map_append, hsuffix, List.map_take]
    rcases Nat.le_total (path.map dashed).length 511 with hshort | hlong
    · rw [List.take_of_length_le hshort]
    · rw [List.take_append_of_le_length (by rw [List.length_take]; omega),
        List.take_append_of_le_length (by omega), List.take_take]
      rfl
  unfold pidFile
  rw [arrayString_replaced stack hnul, List.append_assoc, List.take_append,
    List.take_of_length_le (by decide)]
  exact congrArg (runDir ++ ·) hcut

/-- Two characters that are the same in the name. -/
def Alike (c c' : Option Byte) : Prop :=
  c = c' ∨ (c ∈ [some slash, some dash] ∧ c' ∈ [some slash, some dash])

theorem dashed_eq_iff (c c' : Byte) :
    dashed c = dashed c' ↔ c = c' ∨ (c ∈ [slash, dash] ∧ c' ∈ [slash, dash]) := by
  unfold dashed
  by_cases hc : c = slash
  · by_cases hc' : c' = slash
    · simp [hc, hc']
    · simp [hc, hc', Ne.symm hc', eq_comm]
  · by_cases hc' : c' = slash
    · simp [hc, hc']
    · simp only [hc, hc', if_false, List.mem_cons, false_or, List.not_mem_nil, or_false]
      constructor
      · exact .inl
      · rintro (heq | ⟨rfl, rfl⟩)
        · exact heq
        · rfl

theorem map_dashed_eq_iff (c c' : Option Byte) : c.map dashed = c'.map dashed ↔ Alike c c' := by
  unfold Alike
  cases c with
  | none => cases c' <;> simp
  | some c =>
    cases c' with
    | none => simp
    | some c' => simp [dashed_eq_iff]

/-- Somewhere in the first 493 bytes the paths, with the suffix, differ in more than `/` for
`-`. -/
def NamesDiffer (path path' : List Byte) : Prop :=
  ∃ i, i < 493 ∧ ¬ Alike (path ++ pidSuffix)[i]? (path' ++ pidSuffix)[i]?

theorem pidFile_ne_iff (stack stack' : Nat → Byte) {path path' : List Byte} (hnul : 0 ∉ path)
    (hnul' : 0 ∉ path') :
    pidFile stack path ≠ pidFile stack' path' ↔ NamesDiffer path path' := by
  have hsame : pidFile stack path = pidFile stack' path' ↔
      ∀ i, i < 493 → Alike (path ++ pidSuffix)[i]? (path' ++ pidSuffix)[i]? := by
    rw [pidFile_eq stack hnul, pidFile_eq stack' hnul', List.append_right_inj]
    constructor
    · intro heq i hi
      have hat := congrArg (fun l => l[i]?) heq
      simp only [List.getElem?_take, if_pos hi, List.getElem?_map] at hat
      exact (map_dashed_eq_iff _ _).mp hat
    · intro halike
      refine List.ext_getElem? fun i => ?_
      rw [List.getElem?_take, List.getElem?_take]
      split
      · next hi =>
        rw [List.getElem?_map, List.getElem?_map]
        exact (map_dashed_eq_iff _ _).mpr (halike i hi)
      · rfl
  unfold NamesDiffer
  rw [Ne, hsame, not_forall]
  simp only [not_forall, exists_prop]

/-! ## Locks that get in the way -/

theorem createPidFile_congr (calls : LockCalls) (pid : Nat) {file : List Byte}
    {locks locks' : Locks} (h : locks' file = locks file) :
    (createPidFile calls pid file locks').1 = (createPidFile calls pid file locks).1 := by
  unfold createPidFile
  rw [h]
  split
  · rfl
  · split
    · rfl
    · split
      · rfl
      · split
        · rfl
        · split <;> rfl

theorem createPidFile_ok {calls : LockCalls} {pid : Nat} {file : List Byte} {locks locks' : Locks}
    (h : createPidFile calls pid file locks = (.ok (), locks')) :
    locks' = Function.update locks file (some pid) := by
  unfold createPidFile at h
  repeat' split at h
  all_goals cases h
  rfl

theorem lockTtyFile_congr (stack : Nat → Byte) (calls : LockCalls) (pid : Nat) {path : List Byte}
    {locks locks' : Locks} (h : locks' (pidFile stack path) = locks (pidFile stack path)) :
    (lockTtyFile stack calls pid path locks').1 = (lockTtyFile stack calls pid path locks).1 := by
  unfold lockTtyFile
  split
  · rfl
  · split
    · rfl
    · exact createPidFile_congr calls pid h

theorem lockTtyFile_ok {stack : Nat → Byte} {calls : LockCalls} {pid : Nat} {path : List Byte}
    {locks locks' : Locks} (h : lockTtyFile stack calls pid path locks = (.ok (), locks')) :
    locks' = Function.update locks (pidFile stack path) (some pid) := by
  unfold lockTtyFile at h
  split at h
  · cases h
  · split at h
    · cases h
    · exact createPidFile_ok h

/-- Every system call succeeds. -/
def allOk : LockCalls := ⟨true, true, true, true, true, true⟩

theorem lockTtyFile_free (stack : Nat → Byte) (pid : Nat) (path : List Byte) {locks : Locks}
    (h : locks (pidFile stack path) = none) :
    lockTtyFile stack allOk pid path locks =
      (.ok (), Function.update locks (pidFile stack path) (some pid)) := by
  show createPidFile allOk pid (pidFile stack path) locks = _
  unfold createPidFile
  rw [h]
  rfl

theorem lockTtyFile_taken (stack : Nat → Byte) (pid : Nat) {pid' : Nat} {path : List Byte}
    {locks : Locks} (h : locks (pidFile stack path) = some pid) (hne : pid ≠ pid') :
    (lockTtyFile stack allOk pid' path locks).1 = .error .couldNotLock := by
  have hother : some pid ≠ none ∧ some pid ≠ some pid' :=
    ⟨fun heq => (by cases heq), fun heq => hne (Option.some.inj heq)⟩
  show (createPidFile allOk pid' (pidFile stack path) locks).1 = _
  unfold createPidFile
  rw [h]
  exact congrArg Prod.fst (if_pos hother)

/-- A lock is in the way of another tty exactly when the two have one name. -/
theorem neverBlocks_iff (stack stack' : Nat → Byte) (path path' : List Byte) :
    NeverBlocks stack stack' path path' ↔ pidFile stack path ≠ pidFile stack' path' := by
  constructor
  · intro hnever hsame
    -- nobody holds a lock, and both processes would get theirs
    have hfirst : lockTtyFile stack allOk 1 path (fun _ => none) = _ :=
      lockTtyFile_free stack 1 path rfl
    have hbefore : lockTtyFile stack' allOk 2 path' (fun _ => none) = _ :=
      lockTtyFile_free stack' 2 path' rfl
    have hafter := hnever allOk allOk 1 2 _ _ (by decide) hfirst
    rw [hbefore, lockTtyFile_taken stack' 1 (by rw [hsame, Function.update_self])
      (by decide)] at hafter
    cases hafter
  · intro hne calls calls' pid pid' locks locks' _ hfirst
    refine lockTtyFile_congr stack' calls' pid' ?_
    rw [lockTtyFile_ok hfirst, Function.update_of_ne hne.symm]

/-! ## Safe locks -/

/-- **Locks on ttys** are in bounds and never in each other's way exactly when no path is longer
than `location`, and the paths, if they are different, are so within what the names have of
them. -/
theorem tty_locks_safe_iff (p q : ResolvedPath) :
    LockSafe p q ↔
      p.bytes.length ≤ 1024 ∧ q.bytes.length ≤ 1024 ∧
        (p.bytes ≠ q.bytes → NamesDiffer p.bytes q.bytes) := by
  constructor
  · rintro ⟨⟨hp, hq⟩, hapart⟩
    refine ⟨(inLocation_iff _).mp hp, (inLocation_iff _).mp hq, fun hne => ?_⟩
    exact (pidFile_ne_iff _ _ p.noNul q.noNul).mp (hapart hne (fun _ => 0) fun _ => 0).1
  · rintro ⟨hp, hq, hdiffer⟩
    refine ⟨⟨(inLocation_iff _).mpr hp, (inLocation_iff _).mpr hq⟩, fun hne stack stack' => ?_⟩
    have hfiles := (pidFile_ne_iff stack stack' p.noNul q.noNul).mpr (hdiffer hne)
    exact ⟨hfiles, (neverBlocks_iff stack stack' _ _).mpr hfiles⟩

/-- `/dev/a/b` -/
def slashPath : ResolvedPath where
  bytes := [47, 100, 101, 118, 47, 97, 47, 98]
  absolute := rfl
  noNul := by decide
  short := by decide

/-- `/dev/a-b` -/
def dashPath : ResolvedPath where
  bytes := [47, 100, 101, 118, 47, 97, 45, 98]
  absolute := rfl
  noNul := by decide
  short := by decide

/-- `/dev/ab` -/
def plainPath : ResolvedPath where
  bytes := [47, 100, 101, 118, 47, 97, 98]
  absolute := rfl
  noNul := by decide
  short := by decide

/-- Five names of 204 letters. -/
def longBytes : List Byte := (List.replicate 5 (slash :: List.replicate 204 97)).flatten

theorem longBytes_noNul : 0 ∉ longBytes := by
  intro hmem
  obtain ⟨name, hname, hzero⟩ := List.mem_flatten.mp hmem
  rw [List.eq_of_mem_replicate hname] at hzero
  rcases List.mem_cons.mp hzero with hzero | hzero
  · exact absurd hzero (by decide)
  · exact absurd (List.eq_of_mem_replicate hzero) (by decide)

theorem length_longBytes : longBytes.length = 1025 := by
  unfold longBytes
  simp only [List.length_flatten, List.map_replicate, List.length_cons, List.length_replicate]
  decide

def longPath : ResolvedPath where
  bytes := longBytes
  absolute := rfl
  noNul := longBytes_noNul
  short := by rw [length_longBytes]; decide

theorem tty_locks_safe_pair : LockSafe slashPath plainPath := by
  refine (tty_locks_safe_iff slashPath plainPath).mpr ⟨by decide, by decide, fun _ => ?_⟩
  refine ⟨6, by decide, ?_⟩
  unfold Alike
  decide

/-- The locks of `/dev/a/b` and `/dev/a-b` have one name, so the first is in the way of the
second; and for a path of 1025 bytes the loop uses `location[1024]`. -/
theorem tty_locks_unsafe :
    pidFile (fun _ => 0) slashPath.bytes = pidFile (fun _ => 0) dashPath.bytes ∧
    (∃ locks, lockTtyFile (fun _ => 0) allOk 1 slashPath.bytes (fun _ => none) = (.ok (), locks) ∧
      (lockTtyFile (fun _ => 0) allOk 2 dashPath.bytes locks).1 = .error .couldNotLock) ∧
    1024 ∈ (replaced (fun _ => 0) longPath.bytes).accessed ∧
    ¬ LockSafe slashPath dashPath ∧ ¬ LockSafe longPath plainPath := by
  have hsame : pidFile (fun _ => 0) slashPath.bytes = pidFile (fun _ => 0) dashPath.bytes := by
    rw [pidFile_eq _ slashPath.noNul, pidFile_eq _ dashPath.noNul]
    decide
  refine ⟨hsame, ⟨_, lockTtyFile_free _ 1 _ rfl, ?_⟩, ?_, fun hsafe => ?_, fun hsafe => ?_⟩
  · refine lockTtyFile_taken _ 1 ?_ (by decide)
    rw [hsame, Function.update_self]
  · unfold replaced copyPath
    rw [replaceLoop_accessed, List.nil_append, List.mem_range]
    exact Nat.lt_of_lt_of_eq (by decide) length_longBytes.symm
  · exact (hsafe.apart (by decide) (fun _ => 0) fun _ => 0).1 hsame
  · have hle := (inLocation_iff _).mp hsafe.inLocation.1
    rw [show longPath.bytes.length = 1025 from length_longBytes] at hle
    exact absurd hle (by decide)

end LinuxDeviceDriver.Calamares
