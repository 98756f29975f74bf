import LinuxDeviceDriver.Lib.Loop
import LinuxDeviceDriver.Memutil.Contract

/-!
# Dumping memory to a file: `dump_memory_to_file.c`

The program maps the range it is given and writes it with one call of `write`, which it repeats
only when the call fails with `EAGAIN`. Any other failure ends the program with `EXIT_FAILURE`;
any count, also one that is less than the size, ends it with `EXIT_SUCCESS`.

`prepare` is everything before the loop. `dump_complete_iff` says which results of `write` make
`EXIT_SUCCESS` mean that the whole range is in the file.
-/

namespace LinuxDeviceDriver.DumpMemory

open Lib Memutil

/-! ## The program -/

def eagain : Nat := 11

def erange : Nat := 34

/-- What `strtoull` makes of an argument; `digits` says whether `endptr` has moved. -/
structure Number where
  str : String
  value : BitVec 64
  errno : Nat
  digits : Bool

/-- What a call of `write` does: it takes at most `n` bytes, or it fails. -/
inductive Write
  | count (n : Nat)
  | error (errno : Nat)
deriving DecidableEq

/-- The arguments, the memory, and how the system calls go; a call that fails has an `errno`. -/
structure Env where
  argc : Nat
  addr : Number
  size : Number
  outFile : String
  creat : Option Nat
  openDevMem : Option Nat
  mmap : Option Nat
  mem : Nat → Byte
  write : Nat → Write
  strerror : Nat → String

inductive Status
  | success
  | failure
deriving DecidableEq

/-- The exit status, the output file if it was created, the mapping, and what was printed. -/
structure Outcome where
  status : Status
  file : Option (List Byte)
  mapping : Option Mapping
  msgs : List String

/-- `return EXIT_FAILURE`, or `exit` with it, before the loop. -/
def fails (file : Option (List Byte)) (msgs : List String) : Outcome := ⟨.failure, file, none, msgs⟩

/-- `readNumFromStr`, with what it prints before it exits. -/
def readNumFromStr (strerror : Nat → String) (n : Number) : Except String (BitVec 64) :=
  if (n.errno = erange ∧ n.value = BitVec.allOnes 64) ∨ (n.errno ≠ 0 ∧ n.value = 0) then
    .error ("Error while reading " ++ n.str ++ ": errno:" ++ toString n.errno ++ " (" ++
      strerror n.errno ++ ")\n")
  else if !n.digits then .error ("No digits were found in " ++ n.str ++ "\n")
  else .ok n.value

section Functions

variable (m : Machine) (env : Env)

/-- `Errno=%d (%s)\n` -/
def Env.errnoText (errno : Nat) : String :=
  "Errno=" ++ toString errno ++ " (" ++ env.strerror errno ++ ")\n"

/-- `mmap` of `/dev/mem`, the plain function: its offset is an `off_t`, and a narrow one is passed
on to the kernel as an unsigned number of pages. -/
def mmapDevMem (size fromPhyMem : BitVec 64) : Option Mapping :=
  mmapPages m (m.off.unsigned fromPhyMem.toNat) size.toNat env.mmap.isNone

/-- `main` up to the mapping. -/
def prepare : Except Outcome Mapping :=
  if env.argc ≠ 4 then
    .error (fails none ["Wrong number of arguments. Usage:\n",
      "\tdump_memory_to_file addrInMemory size outfile\n"])
  else
    match readNumFromStr env.strerror env.addr with
    | .error msg => .error (fails none [msg])
    | .ok fromPhyMem =>
      match readNumFromStr env.strerror env.size with
      | .error msg => .error (fails none [msg])
      | .ok size =>
        if size.toInt < 0 then
          .error (fails none ["Negative size given. " ++ toString size.toInt ++ "\n"])
        else
          match env.creat with
          | some errno =>
            .error (fails none
              ["Error while creating file " ++ env.outFile ++ ". " ++ env.errnoText errno])
          | none =>
            match env.openDevMem with
            | some errno =>
              .error (fails (some []) ["Error while opening /dev/mem. " ++ env.errnoText errno])
            | none =>
              match mmapDevMem m env size fromPhyMem with
              -- 22 is `EINVAL`
              | none => .error (fails (some [])
                  ["Error while mmap. " ++ env.errnoText (env.mmap.getD 22)])
              | some map => .ok map

/-- The variables of the loop, the file, and the number of calls made. -/
structure Writing where
  nbByteCopied : Nat
  errno : Nat
  file : List Byte
  calls : Nat

/-- `(size_t)-1` -/
def minusOne : Nat := m.size.unsigned (-1)

/-- What one call takes of its request: a count is a non-negative `ssize_t`. -/
def taken (n : Nat) : Nat :=
  min n (min (m.size.unsigned env.size.value.toNat) (2 ^ (m.size.bits - 1) - 1))

/-- `nbByteCopied = write(fdout, srcAddr, size)` -/
def writeCall (map : Mapping) (s : Writing) : Writing :=
  match env.write s.calls with
  | .count n =>
    { s with
      nbByteCopied := taken m env n
      file := s.file ++ slice env.mem map.phys (taken m env n)
      calls := s.calls + 1 }
  | .error errno => { s with nbByteCopied := minusOne m, errno := errno, calls := s.calls + 1 }

/-- A pass of the loop, from the test on. -/
def writeBody (map : Mapping) (s : Writing) : Iter Writing :=
  let s := writeCall m env map s
  -- an error is repeated or returned; any count ends the loop
  if s.nbByteCopied = minusOne m then if s.errno = eagain then .next s else .done s
  else .done s

/-- `%#llx` -/
def hexText (n : Nat) : String := if n = 0 then "0" else "0x" ++ String.ofList (Nat.toDigits 16 n)

/-- `main`; `none` when the fuel ends before the loop does. -/
def main (fuel : Nat) : Option Outcome :=
  match prepare m env with
  | .error o => some o
  | .ok map =>
    let starting := "Starting copying byte from address " ++ hexText env.addr.value.toNat ++
      " into " ++ env.outFile ++ "\n"
    (iterate (writeBody m env map) fuel ⟨minusOne m, 0, [], 0⟩).map fun s =>
      if s.nbByteCopied = minusOne m then
        ⟨.failure, some s.file, some map,
          [starting, "Error while writing into file " ++ env.outFile ++ ". " ++
            env.errnoText s.errno]⟩
      else ⟨.success, some s.file, some map, [starting]⟩

/-! ## What success should mean -/

/-- When the program reports success, the file has the bytes of the range that was mapped, as many
as were asked for. -/
def Complete : Prop :=
  ∀ fuel o, main m env fuel = some o → o.status = .success →
    ∃ map, o.mapping = some map ∧ o.file = some (slice env.mem map.phys env.size.value.toNat)

/-- Everything before the loop goes well. -/
def Accepted : Prop := ∃ map, prepare m env = .ok map

/-- The first call that does not fail with `EAGAIN` fails otherwise, or it takes all. -/
def TakesAll : Prop :=
  ∀ k n, (∀ j, j < k → env.write j = .error eagain) → env.write k = .count n →
    env.size.value.toNat ≤ n ∧ env.size.value.toNat < 2 ^ (m.size.bits - 1)

end Functions

/-! ## The loop -/

section Loop

variable {m : Machine} {env : Env} {map : Mapping}

theorem prepare_status {o : Outcome} (h : prepare m env = .error o) : o.status = .failure := by
  unfold prepare at h
  repeat' split at h
  all_goals
    cases h
  all_goals rfl

theorem taken_lt (n : Nat) : taken m env n < minusOne m := by
  have hle : taken m env n ≤ 2 ^ (m.size.bits - 1) - 1 :=
    Nat.le_trans (Nat.min_le_right _ _) (Nat.min_le_right _ _)
  refine Nat.lt_of_le_of_lt hle ?_
  unfold minusOne
  cases m.size <;> decide

/-- Everything is taken when the count allows it and the size is one of an `ssize_t`. -/
theorem taken_eq_size_iff (n : Nat) :
    taken m env n = env.size.value.toNat ↔
      env.size.value.toNat ≤ n ∧ env.size.value.toNat < 2 ^ (m.size.bits - 1) := by
  have hpos : 0 < 2 ^ (m.size.bits - 1) := Nat.two_pow_pos _
  unfold taken
  constructor
  · intro heq
    omega
  · rintro ⟨hn, hsize⟩
    have hbits : 2 ^ (m.size.bits - 1) ≤ 2 ^ m.size.bits :=
      Nat.pow_le_pow_right (by decide) (Nat.sub_le _ _)
    rw [m.size.unsigned_of_lt (Nat.lt_of_lt_of_le hsize hbits)]
    omega

theorem writeBody_count {s : Writing} {n : Nat} (h : env.write s.calls = .count n) :
    writeBody m env map s = .done { s with
      nbByteCopied := taken m env n
      file := s.file ++ slice env.mem map.phys (taken m env n)
      calls := s.calls + 1 } := by
  unfold writeBody writeCall
  rw [h]
  exact if_neg (Nat.ne_of_lt (taken_lt n))

theorem writeBody_error {s : Writing} {errno : Nat} (h : env.write s.calls = .error errno) :
    writeBody m env map s =
      if errno = eagain then
        .next { s with nbByteCopied := minusOne m, errno := errno, calls := s.calls + 1 }
      else .done { s with nbByteCopied := minusOne m, errno := errno, calls := s.calls + 1 } := by
  unfold writeBody writeCall
  rw [h]
  exact if_pos rfl

/-- At the loop head nothing has been written, and every call so far was to be repeated. -/
def Repeated (env : Env) (s : Writing) : Prop :=
  s.file = [] ∧ ∀ j, j < s.calls → env.write j = .error eagain

/-- Behind the loop, unless a call failed: the first call that was not to be repeated returned
the count. -/
def Counted (m : Machine) (env : Env) (map : Mapping) (s : Writing) : Prop :=
  s.nbByteCopied ≠ minusOne m → ∃ k n, (∀ j, j < k → env.write j = .error eagain) ∧
    env.write k = .count n ∧ s.file = slice env.mem map.phys (taken m env n)

theorem writeBody_repeated {s : Writing} (h : Repeated env s) :
    (∃ s', writeBody m env map s = .done s' ∧ Counted m env map s') ∨
    (∃ s', writeBody m env map s = .next s' ∧ Repeated env s') := by
  obtain ⟨hfile, hagain⟩ := h
  cases hwrite : env.write s.calls with
  | count n =>
    refine .inl ⟨_, writeBody_count hwrite, fun _ => ⟨s.calls, n, hagain, hwrite, ?_⟩⟩
    rw [hfile, List.nil_append]
  | error errno =>
    rw [writeBody_error hwrite]
    by_cases herrno : errno = eagain
    · rw [if_pos herrno]
      refine .inr ⟨_, rfl, hfile, fun j hj => ?_⟩
      rcases Nat.lt_succ_iff_lt_or_eq.mp hj with hj | rfl
      · exact hagain j hj
      · rw [hwrite, herrno]
    · rw [if_neg herrno]
      exact .inl ⟨_, rfl, fun hne => absurd rfl hne⟩

/-- The loop gets to the first call that returns a count. -/
theorem iterate_count (m : Machine) (map : Mapping) {k n : Nat}
    (hwrite : env.write k = .count n) :
    ∀ (left : Nat) {s : Writing}, s.calls + left = k →
      (∀ j, j < k → env.write j = .error eagain) →
      ∃ s', iterate (writeBody m env map) (left + 1) s = some s' ∧
        s'.nbByteCopied = taken m env n ∧
        s'.file = s.file ++ slice env.mem map.phys (taken m env n) := by
  intro left
  induction left with
  | zero =>
    intro s hcalls _
    obtain rfl : s.calls = k := hcalls
    exact ⟨_, iterate_of_done (writeBody_count hwrite) 0, rfl, rfl⟩
  | succ left ih =>
    intro s hcalls hagain
    have hbody : writeBody m env map s =
        .next { s with nbByteCopied := minusOne m, errno := eagain, calls := s.calls + 1 } := by
      rw [writeBody_error (hagain s.calls (by omega)), if_pos rfl]
    rw [iterate_of_next hbody]
    exact ih (by show s.calls + 1 + left = k; omega) hagain

end Loop

/-! ## Complete dumps -/

/-- **Dumps**: success means a complete dump exactly when, once the range is mapped, the first call
of `write` that is not repeated fails or takes the whole size. -/
theorem dump_complete_iff (m : Machine) (env : Env) :
    Complete m env ↔ (Accepted m env → TakesAll m env) := by
  constructor
  · rintro hcomplete ⟨map, hprepare⟩ k n hagain hwrite
    obtain ⟨s, hrun, hcount, hfile⟩ :=
      iterate_count m map hwrite k (s := ⟨minusOne m, 0, [], 0⟩) (Nat.zero_add k) hagain
    have hne : s.nbByteCopied ≠ minusOne m := by
      rw [hcount]
      exact Nat.ne_of_lt (taken_lt n)
    have hmain : ∃ msgs, main m env (k + 1) = some ⟨.success, some s.file, some map, msgs⟩ := by
      unfold main
      rw [hprepare]
      dsimp only
      rw [hrun, Option.map_some, if_neg hne]
      exact ⟨_, rfl⟩
    obtain ⟨msgs, hmain⟩ := hmain
    obtain ⟨map', hmap, hdump⟩ := hcomplete _ _ hmain rfl
    cases hmap
    rw [hfile, List.nil_append, Option.some_inj] at hdump
    have hlength := congrArg List.length hdump
    rw [length_slice, length_slice] at hlength
    exact (taken_eq_size_iff n).mp hlength
  · intro htakes fuel o hmain hstatus
    unfold main at hmain
    cases hprepare : prepare m env with
    | error early =>
      rw [hprepare] at hmain
      cases hmain
      rw [prepare_status hprepare] at hstatus
      cases hstatus
    | ok map =>
      rw [hprepare] at hmain
      dsimp only at hmain
      obtain ⟨s, hrun, ho⟩ := Option.map_eq_some_iff.mp hmain
      have hcounted : Counted m env map s :=
        iterate_partial (fun s h => writeBody_repeated h)
          ⟨rfl, fun j hj => absurd hj (Nat.not_lt_zero j)⟩ hrun
      split at ho
      · subst ho
        cases hstatus
      · next hne =>
        subst ho
        obtain ⟨k, n, hagain, hwrite, hfile⟩ := hcounted hne
        have hall := (taken_eq_size_iff n).mpr (htakes ⟨map, hprepare⟩ k n hagain hwrite)
        exact ⟨map, rfl, by rw [hfile, hall]⟩

/-- A page that is dumped on a machine with 64 bits, with these results of `write`. -/
def pageDump (write : Nat → Write) : Env where
  argc := 4
  addr := ⟨"0x2000", 0x2000, 0, true⟩
  size := ⟨"8", 8, 0, true⟩
  outFile := "out"
  creat := none
  openDevMem := none
  mmap := none
  mem := fun i => UInt8.ofNat i
  write := write
  strerror := fun _ => "Resource temporarily unavailable"

/-- `size_t` and `off_t` of 64 bits, and pages of 4096 bytes. -/
def machine64 : Machine := { armMachine with size := .w64, off := .w64 }

theorem dump_complete_retried :
    Complete machine64 (pageDump fun k => if k = 0 then .error eagain else .count 8) := by
  refine (dump_complete_iff machine64 _).mpr fun _ k n hagain hwrite => ?_
  cases k with
  | zero => cases hwrite
  | succ k =>
    cases hwrite
    exact ⟨by decide, by decide⟩

/-- A call takes five bytes of eight: five are in the file, and the program reports success. -/
theorem dump_short_count :
    ((main machine64 (pageDump fun _ => .count 5) 1).map fun o => (o.status, o.file)) =
      some (.success, some [0, 1, 2, 3, 4]) ∧
    ¬ Complete machine64 (pageDump fun _ => .count 5) := by
  have hrun : ((main machine64 (pageDump fun _ => .count 5) 1).map fun o => (o.status, o.file)) =
      some (.success, some [0, 1, 2, 3, 4]) := by decide
  refine ⟨hrun, fun hcomplete => ?_⟩
  obtain ⟨o, hmain, ho⟩ := Option.map_eq_some_iff.mp hrun
  obtain ⟨hstatus, hfile⟩ := Prod.mk.inj ho
  obtain ⟨map, -, hdump⟩ := hcomplete 1 o hmain hstatus
  rw [hfile, Option.some_inj] at hdump
  have hlength := congrArg List.length hdump
  rw [length_slice] at hlength
  cases hlength

end LinuxDeviceDriver.DumpMemory
