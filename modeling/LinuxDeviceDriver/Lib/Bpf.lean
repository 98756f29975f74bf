import Mathlib.Algebra.Order.Ring.Nat

/-!
# Classic BPF

The machine that socket filters run on: an accumulator, an index register and a scratch
memory, all of 32 bits, and jumps that only go forward. A program looks at a packet and
returns how many bytes of it to keep; 0 rejects it.

- `SockFilter`, `decode`: instructions as they are written in a `struct sock_filter`.
- `exec`: runs a program. The jumps skip instructions, so the recursion is on the program
  and every program terminates.
- `Outcome`: where and how a run has ended. A load outside the packet, or a division by zero,
  rejects the packet on the spot.
- `exec_ldAbs`, `exec_jump`, ...: one equation for every instruction, to run a given program
  on an arbitrary packet.
- `exec_ends`: a program that passes `Checked` ends at a return instruction, or it is stopped
  at a load or at a division.
-/

namespace Lib.Bpf

/-! ## Instructions -/

/-- `struct sock_filter` -/
structure SockFilter where
  code : Nat
  jt : Nat
  jf : Nat
  k : Nat

inductive Size
  | word
  | half
  | byte
deriving DecidableEq

def Size.bytes : Size → Nat
  | word => 4
  | half => 2
  | byte => 1

/-- The second operand: `BPF_K` or `BPF_X`. -/
inductive Operand
  | imm (k : Nat)
  | x
deriving DecidableEq

inductive AluOp
  | add
  | sub
  | mul
  | div
  | or
  | and
  | lsh
  | rsh
  | neg
  | mod
  | xor
deriving DecidableEq

inductive Test
  | eq
  | gt
  | ge
  | set
deriving DecidableEq

inductive Insn
  | ldImm (k : Nat)
  | ldLen
  | ldMem (k : Nat)
  | ldAbs (size : Size) (k : Nat)
  | ldInd (size : Size) (k : Nat)
  | ldxImm (k : Nat)
  | ldxLen
  | ldxMem (k : Nat)
  | ldxMsh (k : Nat)
  | st (k : Nat)
  | stx (k : Nat)
  | alu (op : AluOp) (src : Operand)
  | ja (k : Nat)
  | jump (test : Test) (src : Operand) (jt jf : Nat)
  | ret (k : Nat)
  | retA
  | tax
  | txa
  | invalid
deriving DecidableEq

/-- `BPF_SRC(code)` -/
def SockFilter.operand (f : SockFilter) : Operand :=
  if f.code / 8 % 2 = 0 then .imm f.k else .x

def aluOp : Nat → Option AluOp
  | 0 => some .add
  | 1 => some .sub
  | 2 => some .mul
  | 3 => some .div
  | 4 => some .or
  | 5 => some .and
  | 6 => some .lsh
  | 7 => some .rsh
  | 8 => some .neg
  | 9 => some .mod
  | 10 => some .xor
  | _ => none

def jumpTest : Nat → Option Test
  | 1 => some .eq
  | 2 => some .gt
  | 3 => some .ge
  | 4 => some .set
  | _ => none

/-- `BPF_LD`, by `BPF_MODE` and `BPF_SIZE`. -/
def SockFilter.decodeLd (f : SockFilter) : Insn :=
  match f.code / 32, f.code / 8 % 4 with
  | 0, 0 => .ldImm f.k
  | 1, 0 => .ldAbs .word f.k
  | 1, 1 => .ldAbs .half f.k
  | 1, 2 => .ldAbs .byte f.k
  | 2, 0 => .ldInd .word f.k
  | 2, 1 => .ldInd .half f.k
  | 2, 2 => .ldInd .byte f.k
  | 3, 0 => .ldMem f.k
  | 4, 0 => .ldLen
  | _, _ => .invalid

/-- `BPF_LDX` -/
def SockFilter.decodeLdx (f : SockFilter) : Insn :=
  match f.code / 32, f.code / 8 % 4 with
  | 0, 0 => .ldxImm f.k
  | 3, 0 => .ldxMem f.k
  | 4, 0 => .ldxLen
  | 5, 2 => .ldxMsh f.k
  | _, _ => .invalid

/-- `BPF_JMP` -/
def SockFilter.decodeJump (f : SockFilter) : Insn :=
  if f.code / 8 = 0 then .ja f.k
  else
    match jumpTest (f.code / 16) with
    | some test => .jump test f.operand f.jt f.jf
    | none => .invalid

def SockFilter.decodeAlu (f : SockFilter) : Insn :=
  match aluOp (f.code / 16) with
  | some op => .alu op f.operand
  | none => .invalid

/-- The instruction, by `BPF_CLASS(code)`. -/
def decode (f : SockFilter) : Insn :=
  match f.code % 8, f.code / 8 with
  | 0, _ => f.decodeLd
  | 1, _ => f.decodeLdx
  | 2, 0 => .st f.k
  | 3, 0 => .stx f.k
  | 4, _ => f.decodeAlu
  | 5, _ => f.decodeJump
  | 6, 0 => .ret f.k
  | 6, 2 => .retA
  | 7, 0 => .tax
  | 7, 16 => .txa
  | _, _ => .invalid

/-! ## Execution -/

/-- A packet. -/
abbrev Packet := List UInt8

def byteAt (p : Packet) (i : Nat) : Nat := (p.getD i 0).toNat

/-- The number in the `n` bytes from `i` on, in network byte order. -/
def field (p : Packet) (i : Nat) : Nat → Nat
  | 0 => 0
  | n + 1 => field p i n * 256 + byteAt p (i + n)

theorem field_one (p : Packet) (i : Nat) : field p i 1 = byteAt p i := by
  show 0 * 256 + byteAt p (i + 0) = byteAt p i
  rw [Nat.zero_mul, Nat.zero_add, Nat.add_zero]

theorem field_two (p : Packet) (i : Nat) :
    field p i 2 = byteAt p i * 256 + byteAt p (i + 1) := by
  show field p i 1 * 256 + _ = _
  rw [field_one]

structure Regs where
  a : Nat
  x : Nat
  mem : Nat → Nat

def Regs.zero : Regs := ⟨0, 0, fun _ => 0⟩

def Operand.value (r : Regs) : Operand → Nat
  | .imm k => k
  | .x => r.x

/-- Arithmetic on 32 bits; `none` is a division by zero. -/
def AluOp.apply (a b : Nat) : AluOp → Option Nat
  | add => some ((a + b) % 2 ^ 32)
  | sub => some ((a + (2 ^ 32 - b % 2 ^ 32)) % 2 ^ 32)
  | mul => some (a * b % 2 ^ 32)
  | div => if b = 0 then none else some (a / b)
  | or => some (a ||| b)
  | and => some (a &&& b)
  | lsh => some (a <<< (b % 32) % 2 ^ 32)
  | rsh => some (a >>> (b % 32))
  | neg => some ((2 ^ 32 - a % 2 ^ 32) % 2 ^ 32)
  | mod => if b = 0 then none else some (a % b)
  | xor => some (a ^^^ b)

def Test.holds (a b : Nat) : Test → Bool
  | eq => a = b
  | gt => a > b
  | ge => a ≥ b
  | set => a &&& b ≠ 0

/-- What an instruction does: go on behind some skipped instructions, or stop. -/
inductive Effect
  | go (skip : Nat) (r : Regs)
  | ret (k : Nat)
  | outside
  | divZero
  | invalid

/-- A load of `n` bytes; `set` says where the number goes. -/
def loadEffect (p : Packet) (i n : Nat) (set : Nat → Regs) : Effect :=
  if i + n ≤ p.length then .go 0 (set (field p i n)) else .outside

def Insn.effect (p : Packet) (r : Regs) : Insn → Effect
  | ldImm k => .go 0 { r with a := k }
  | ldLen => .go 0 { r with a := p.length }
  | ldMem k => .go 0 { r with a := r.mem k }
  | ldAbs size k => loadEffect p k size.bytes fun v => { r with a := v }
  | ldInd size k => loadEffect p ((r.x + k) % 2 ^ 32) size.bytes fun v => { r with a := v }
  | ldxImm k => .go 0 { r with x := k }
  | ldxLen => .go 0 { r with x := p.length }
  | ldxMem k => .go 0 { r with x := r.mem k }
  | ldxMsh k => loadEffect p k 1 fun v => { r with x := 4 * (v &&& 0xf) }
  | st k => .go 0 { r with mem := fun i => if i = k then r.a else r.mem i }
  | stx k => .go 0 { r with mem := fun i => if i = k then r.x else r.mem i }
  | alu op src =>
    match op.apply r.a (src.value r) with
    | some v => .go 0 { r with a := v }
    | none => .divZero
  | ja k => .go k r
  | jump test src jt jf => .go (if test.holds r.a (src.value r) then jt else jf) r
  | ret k => .ret k
  | retA => .ret r.a
  | tax => .go 0 { r with x := r.a }
  | txa => .go 0 { r with a := r.x }
  | invalid => .invalid

/-- How a run has ended, and at which instruction. -/
inductive Outcome
  | ret (pc k : Nat)
  | outside (pc : Nat)
  | divZero (pc : Nat)
  | bad (pc : Nat)
deriving DecidableEq

/-- How many bytes of the packet are kept. -/
def Outcome.value : Outcome → Nat
  | ret _ k => k
  | _ => 0

/-- What a test decides, when the packet is rejected if it fails... -/
theorem value_guard {c : Prop} [Decidable c] {o reject : Outcome} (h : reject.value = 0) :
    (if c then o else reject).value ≠ 0 ↔ c ∧ o.value ≠ 0 := by
  by_cases hc : c
  · rw [if_pos hc]
    exact (and_iff_right hc).symm
  · rw [if_neg hc]
    exact iff_of_false (not_not.mpr h) fun hboth => hc hboth.1

/-- ...or if it succeeds. -/
theorem value_guard_not {c : Prop} [Decidable c] {o reject : Outcome} (h : reject.value = 0) :
    (if c then reject else o).value ≠ 0 ↔ ¬ c ∧ o.value ≠ 0 := by
  by_cases hc : c
  · rw [if_pos hc]
    exact iff_of_false (not_not.mpr h) fun hboth => hboth.1 hc
  · rw [if_neg hc]
    exact (and_iff_right hc).symm

/-- Run the instructions from `pc` on, the first `skip` of which are skipped. -/
def exec (p : Packet) : List Insn → (pc skip : Nat) → Regs → Outcome
  | [], pc, _, _ => .bad pc
  | _ :: rest, pc, skip + 1, r => exec p rest (pc + 1) skip r
  | i :: rest, pc, 0, r =>
    match i.effect p r with
    | .go skip r => exec p rest (pc + 1) skip r
    | .ret k => .ret pc k
    | .outside => .outside pc
    | .divZero => .divZero pc
    | .invalid => .bad pc

def run (filter : List SockFilter) (p : Packet) : Outcome :=
  exec p (filter.map decode) 0 0 .zero

/-! ## One equation for every instruction -/

section Rules

variable (p : Packet) (rest : List Insn) (pc : Nat) (r : Regs)

theorem exec_skip (i : Insn) (skip : Nat) :
    exec p (i :: rest) pc (skip + 1) r = exec p rest (pc + 1) skip r := rfl

theorem effect_ldAbs (size : Size) (k : Nat) :
    (Insn.ldAbs size k).effect p r = loadEffect p k size.bytes fun v => { r with a := v } := rfl

theorem effect_ldInd (size : Size) (k : Nat) :
    (Insn.ldInd size k).effect p r =
      loadEffect p ((r.x + k) % 2 ^ 32) size.bytes fun v => { r with a := v } := rfl

theorem effect_ldxMsh (k : Nat) :
    (Insn.ldxMsh k).effect p r = loadEffect p k 1 fun v => { r with x := 4 * (v &&& 0xf) } := rfl

/-- A load inside the packet goes on, one outside stops. -/
theorem exec_load {i : Insn} {at' n : Nat} {set : Nat → Regs}
    (h : i.effect p r = loadEffect p at' n set) :
    exec p (i :: rest) pc 0 r =
      if at' + n ≤ p.length then exec p rest (pc + 1) 0 (set (field p at' n))
      else .outside pc := by
  show (match i.effect p r with
    | .go skip r => exec p rest (pc + 1) skip r
    | .ret k => .ret pc k
    | .outside => .outside pc
    | .divZero => .divZero pc
    | .invalid => .bad pc) = _
  rw [h]
  unfold loadEffect
  by_cases hin : at' + n ≤ p.length
  · rw [if_pos hin, if_pos hin]
  · rw [if_neg hin, if_neg hin]

theorem exec_ldAbs (size : Size) (k : Nat) :
    exec p (.ldAbs size k :: rest) pc 0 r =
      if k + size.bytes ≤ p.length then
        exec p rest (pc + 1) 0 { r with a := field p k size.bytes }
      else .outside pc :=
  exec_load p rest pc r (effect_ldAbs p r size k)

theorem exec_ldInd (size : Size) (k : Nat) :
    exec p (.ldInd size k :: rest) pc 0 r =
      if (r.x + k) % 2 ^ 32 + size.bytes ≤ p.length then
        exec p rest (pc + 1) 0 { r with a := field p ((r.x + k) % 2 ^ 32) size.bytes }
      else .outside pc :=
  exec_load p rest pc r (effect_ldInd p r size k)

theorem exec_ldxMsh (k : Nat) :
    exec p (.ldxMsh k :: rest) pc 0 r =
      if k + 1 ≤ p.length then
        exec p rest (pc + 1) 0 { r with x := 4 * (field p k 1 &&& 0xf) }
      else .outside pc :=
  exec_load p rest pc r (effect_ldxMsh p r k)

theorem exec_and (k : Nat) :
    exec p (.alu .and (.imm k) :: rest) pc 0 r =
      exec p rest (pc + 1) 0 { r with a := r.a &&& k } := rfl

theorem exec_jump (test : Test) (k jt jf : Nat) :
    exec p (.jump test (.imm k) jt jf :: rest) pc 0 r =
      if test.holds r.a k then exec p rest (pc + 1) jt r else exec p rest (pc + 1) jf r := by
  show exec p rest (pc + 1) (if test.holds r.a k then jt else jf) r = _
  split <;> rfl

theorem exec_ret (k : Nat) : exec p (.ret k :: rest) pc 0 r = .ret pc k := rfl

theorem exec_retA : exec p (.retA :: rest) pc 0 r = .ret pc r.a := rfl

end Rules

/-! ## Where a run can end -/

/-- An instruction in front of `n` others leads to one of them, or returns. -/
def Insn.leadsWithin (n : Nat) : Insn → Bool
  | ja k => k < n
  | jump _ _ jt jf => jt < n ∧ jf < n
  | ret _ => true
  | retA => true
  | invalid => false
  | _ => 0 < n

/-- What the kernel checks before it takes a program. -/
def Checked : List Insn → Bool
  | [] => true
  | i :: rest => i.leadsWithin rest.length && Checked rest

/-- The end of a run of `insns`, the first of which stands at `pc`. -/
inductive EndsAt (insns : List Insn) (pc : Nat) : Outcome → Prop
  | ret {i k : Nat} (h : insns[i]? = some (.ret k)) : EndsAt insns pc (.ret (pc + i) k)
  | retA {i k : Nat} (h : insns[i]? = some .retA) : EndsAt insns pc (.ret (pc + i) k)
  | outside (i : Nat) (size : Size) (k : Nat)
      (h : insns[i]? = some (.ldAbs size k) ∨ insns[i]? = some (.ldInd size k) ∨
        insns[i]? = some (.ldxMsh k)) : EndsAt insns pc (.outside (pc + i))
  | divZero {i : Nat} {op : AluOp} {src : Operand} (h : insns[i]? = some (.alu op src))
      (hop : op = .div ∨ op = .mod) : EndsAt insns pc (.divZero (pc + i))

/-- The end of the rest is an end of the whole. -/
theorem EndsAt.cons {rest : List Insn} {pc : Nat} {o : Outcome} (h : EndsAt rest (pc + 1) o)
    (insn : Insn) : EndsAt (insn :: rest) pc o := by
  have hshift : ∀ i, pc + 1 + i = pc + (i + 1) := by omega
  cases h with
  | ret h =>
    rw [hshift]
    exact .ret h
  | retA h =>
    rw [hshift]
    exact .retA h
  | outside i size k h =>
    rw [hshift]
    exact .outside (i + 1) size k h
  | divZero h hop =>
    rw [hshift]
    exact .divZero h hop

/-- A load goes on to the next instruction, or it is where the program ends. -/
theorem load_cases (p : Packet) {rest : List Insn} (pc : Nat) (r : Regs) {insn : Insn}
    {at' n : Nat} {set : Nat → Regs} (size : Size) (k : Nat) (hpos : 0 < rest.length)
    (heffect : insn.effect p r = loadEffect p at' n set)
    (hinsn : insn = .ldAbs size k ∨ insn = .ldInd size k ∨ insn = .ldxMsh k) :
    (∃ skip r', insn.effect p r = .go skip r' ∧ skip < rest.length) ∨
      EndsAt (insn :: rest) pc (exec p (insn :: rest) pc 0 r) := by
  by_cases hin : at' + n ≤ p.length
  · refine Or.inl ⟨0, set (field p at' n), ?_, hpos⟩
    rw [heffect]
    exact if_pos hin
  · refine Or.inr ?_
    rw [exec_load p rest pc r heffect, if_neg hin]
    refine EndsAt.outside 0 size k ?_
    rcases hinsn with rfl | rfl | rfl
    · exact Or.inl rfl
    · exact Or.inr (Or.inl rfl)
    · exact Or.inr (Or.inr rfl)

/-- What a checked instruction does: it leads to an instruction of the rest, or it ends the
run as itself. -/
theorem effect_cases (p : Packet) {rest : List Insn} (pc : Nat) (r : Regs) {insn : Insn}
    (h : insn.leadsWithin rest.length = true) :
    (∃ skip r', insn.effect p r = .go skip r' ∧ skip < rest.length) ∨
      EndsAt (insn :: rest) pc (exec p (insn :: rest) pc 0 r) := by
  cases insn with
  | ldAbs size k =>
    exact load_cases p pc r size k (of_decide_eq_true h) (effect_ldAbs p r size k) (Or.inl rfl)
  | ldInd size k =>
    exact load_cases p pc r size k (of_decide_eq_true h) (effect_ldInd p r size k)
      (Or.inr (Or.inl rfl))
  | ldxMsh k =>
    exact load_cases p pc r .byte k (of_decide_eq_true h) (effect_ldxMsh p r k)
      (Or.inr (Or.inr rfl))
  | alu op src =>
    cases happly : op.apply r.a (src.value r) with
    | some v =>
      refine Or.inl ⟨0, { r with a := v }, ?_, of_decide_eq_true h⟩
      simp only [Insn.effect, happly]
    | none =>
      refine Or.inr ?_
      have hend : exec p (.alu op src :: rest) pc 0 r = .divZero (pc + 0) := by
        simp only [exec, Insn.effect, happly, Nat.add_zero]
      rw [hend]
      refine .divZero rfl ?_
      cases op with
      | div => exact Or.inl rfl
      | mod => exact Or.inr rfl
      | _ => cases happly
  | ja k => exact Or.inl ⟨k, r, rfl, of_decide_eq_true h⟩
  | jump test src jt jf =>
    obtain ⟨hjt, hjf⟩ := of_decide_eq_true h
    refine Or.inl ⟨_, r, rfl, ?_⟩
    split
    · exact hjt
    · exact hjf
  | ret k => exact Or.inr (EndsAt.ret (i := 0) rfl)
  | retA => exact Or.inr (EndsAt.retA (i := 0) rfl)
  | invalid => cases h
  | _ => exact Or.inl ⟨0, _, rfl, of_decide_eq_true h⟩

/-- **A checked program ends** at one of its return instructions, or it is stopped at a load
or at a division. -/
theorem exec_ends (p : Packet) {insns : List Insn} (hcheck : Checked insns = true) :
    ∀ {pc skip : Nat} {r : Regs}, skip < insns.length →
      EndsAt insns pc (exec p insns pc skip r) := by
  induction insns with
  | nil => exact fun h => absurd h (Nat.not_lt_zero _)
  | cons insn rest ih =>
    obtain ⟨hleads, hrest⟩ := Bool.and_eq_true_iff.mp hcheck
    intro pc skip r hskip
    cases skip with
    | succ skip =>
      rw [exec_skip]
      exact (ih hrest (Nat.lt_of_succ_lt_succ hskip)).cons insn
    | zero =>
      rcases effect_cases p pc r hleads with ⟨skip, r', heffect, hlt⟩ | hend
      · have hgo : exec p (insn :: rest) pc 0 r = exec p rest (pc + 1) skip r' := by
          simp only [exec, heffect]
        rw [hgo]
        exact (ih hrest hlt).cons insn
      · exact hend

end Lib.Bpf
