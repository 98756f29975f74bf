import Mathlib.Algebra.Order.Ring.Nat
import Mathlib.Data.List.Induction

/-!
# Masked updates of bit vectors

`merge old mask value` takes the bits of `value` where the mask is set and those of
`old` elsewhere. Everything about it follows from `getLsbD_merge`, its bits one by
one; equalities of merged vectors are proved bit by bit.

`mergeAll` is a sequence of such updates; `lastBit` says what they leave of one bit:
the bit of the last value whose mask has it.

`and_upper` is about numbers: a mask of the upper bits.
-/

namespace Lib

variable {n k : Nat}

/-- `value` where the mask is set, `old` elsewhere. -/
def merge (old mask value : BitVec n) : BitVec n := (old &&& ~~~mask) ||| (value &&& mask)

theorem getLsbD_merge (old mask value : BitVec n) (i : Nat) :
    (merge old mask value).getLsbD i =
      if mask.getLsbD i then value.getLsbD i else old.getLsbD i := by
  simp only [merge, BitVec.getLsbD_or, BitVec.getLsbD_and, BitVec.getLsbD_not]
  by_cases hi : i < n
  · cases hmask : mask.getLsbD i <;> simp [hi]
  · simp [BitVec.getLsbD_of_ge _ _ (Nat.le_of_not_lt hi)]

theorem merge_allOnes (old value : BitVec n) : merge old (BitVec.allOnes n) value = value := by
  refine BitVec.eq_of_getLsbD_eq fun i hi => ?_
  rw [getLsbD_merge, BitVec.getLsbD_allOnes, if_pos (decide_eq_true hi)]

/-- Under the mask there is nothing but the new value. -/
theorem merge_and_mask (old mask value : BitVec n) :
    merge old mask value &&& mask = value &&& mask := by
  refine BitVec.eq_of_getLsbD_eq fun i _ => ?_
  rw [BitVec.getLsbD_and, BitVec.getLsbD_and, getLsbD_merge]
  cases mask.getLsbD i <;> simp

/-- The two halves of a vector are updated independently. -/
theorem merge_append (old mask value : BitVec n) (old' mask' value' : BitVec k) :
    merge (old ++ old') (mask ++ mask') (value ++ value') =
      merge old mask value ++ merge old' mask' value' := by
  refine BitVec.eq_of_getLsbD_eq fun i _ => ?_
  simp only [getLsbD_merge, BitVec.getLsbD_append]
  split <;> rfl

theorem and_append (a b : BitVec n) (a' b' : BitVec k) :
    (a ++ a') &&& (b ++ b') = (a &&& b) ++ (a' &&& b') := by
  refine BitVec.eq_of_getLsbD_eq fun i _ => ?_
  simp only [BitVec.getLsbD_and, BitVec.getLsbD_append]
  split <;> rfl

/-- Updates one after the other, each a mask and a value. -/
def mergeAll (old : BitVec n) (updates : List (BitVec n × BitVec n)) : BitVec n :=
  updates.foldl (fun x u => merge x u.1 u.2) old

/-- Bit `i` after the updates: the one of the last value whose mask has bit `i`. -/
def lastBit (i : Nat) (initial : Bool) (updates : List (BitVec n × BitVec n)) : Bool :=
  ((updates.reverse.find? fun u => u.1.getLsbD i).map fun u => u.2.getLsbD i).getD initial

theorem lastBit_concat (i : Nat) (initial : Bool) (updates : List (BitVec n × BitVec n))
    (u : BitVec n × BitVec n) :
    lastBit i initial (updates ++ [u]) =
      if u.1.getLsbD i then u.2.getLsbD i else lastBit i initial updates := by
  rw [lastBit, List.reverse_append, List.reverse_singleton, List.singleton_append,
    List.find?_cons]
  cases u.1.getLsbD i <;> rfl

/-- Truncation changes no bit that is left. -/
theorem lastBit_setWidth {i : Nat} (hi : i < k) (initial : Bool)
    (updates : List (BitVec n × BitVec n)) :
    lastBit i initial (updates.map fun u => (u.1.setWidth k, u.2.setWidth k)) =
      lastBit i initial updates := by
  induction updates using List.reverseRecOn with
  | nil => rfl
  | append_singleton updates u ih =>
    rw [List.map_append, List.map_singleton, lastBit_concat, lastBit_concat, ih,
      BitVec.getLsbD_setWidth, BitVec.getLsbD_setWidth]
    simp [hi]

theorem getLsbD_mergeAll (old : BitVec n) (updates : List (BitVec n × BitVec n)) (i : Nat) :
    (mergeAll old updates).getLsbD i = lastBit i (old.getLsbD i) updates := by
  induction updates using List.reverseRecOn with
  | nil => rfl
  | append_singleton updates u ih =>
    rw [mergeAll, List.foldl_append, List.foldl_cons, List.foldl_nil, getLsbD_merge,
      lastBit_concat, ← ih]
    rfl

/-- The upper `m` bits of a number of `k + m` bits. -/
theorem and_upper {x k m : Nat} (h : x < 2 ^ (k + m)) :
    x &&& (2 ^ m - 1) <<< k = 2 ^ k * (x / 2 ^ k) := by
  have hmask : x &&& (2 ^ m - 1) <<< k = x >>> k <<< k := by
    refine Nat.eq_of_testBit_eq fun i => ?_
    rw [Nat.testBit_and, Nat.testBit_shiftLeft, Nat.testBit_two_pow_sub_one,
      Nat.testBit_shiftLeft, Nat.testBit_shiftRight]
    by_cases hlow : k ≤ i
    · rw [Nat.add_sub_cancel' hlow]
      by_cases hhigh : i - k < m
      · simp [hlow, hhigh]
      · have hzero : x.testBit i = false :=
          Nat.testBit_lt_two_pow (h.trans_le (Nat.pow_le_pow_right (by decide) (by omega)))
        simp [hzero]
    · simp [hlow]
  rw [hmask, Nat.shiftLeft_eq, Nat.shiftRight_eq_div_pow, Nat.mul_comm]

end Lib
