import Mathlib.Data.List.Range
import Mathlib.Logic.Function.Basic

/-!
# Block stores into function memories

A memory is a total function `ι → α` from addresses to cells. Two loops write to
it, both cell by cell in ascending order:

- `blit m addr f n` stores `f 0, …, f (n - 1)` at `addr 0, …, addr (n - 1)`, the
  source being another memory (a user buffer, a firmware image);
- `copyAsc m dst src n` moves `n` cells inside one array, reading the array as
  the loop has left it so far, which is what an ascending `memcpy` does when its
  ranges overlap.

The lane lemma (`blit_lane`) and the frame lemma (`blit_frame`) say what a block
store writes and what it leaves alone, `blit_adjacent` both for adjacent cells;
`blit_add` glues adjacent blocks, with no side condition, which is what a loop
over blocks needs. `copyAsc_eq_blit` removes
the overlap when the move goes down.

A program that calls `memcpy` may not count on the order of the cells. `Memcpy` is
any copy that keeps the contract of the C function: ranges that are `Apart` are
copied, and nothing is said of others. The ascending and the descending copy are
two of them.
-/

namespace Lib

universe u v

variable {ι : Type u} {α : Type v} [DecidableEq ι]

/-! ## Slices of an array -/

/-- The `n` cells of `m` from index `a` on. -/
def slice (m : Nat → α) (a n : Nat) : List α :=
  (List.range n).map fun i => m (a + i)

@[simp] theorem length_slice (m : Nat → α) (a n : Nat) : (slice m a n).length = n := by
  simp [slice]

/-- Slices agree when their cells do. -/
theorem slice_congr {m m' : Nat → α} {a b n : Nat}
    (h : ∀ i, i < n → m (a + i) = m' (b + i)) : slice m a n = slice m' b n := by
  refine List.map_congr_left fun i hi => ?_
  exact h i (List.mem_range.mp hi)

/-- A slice splits at any point. -/
theorem slice_add (m : Nat → α) (a n k : Nat) :
    slice m a (n + k) = slice m a n ++ slice m (a + n) k := by
  unfold slice
  rw [List.range_add, List.map_append, List.map_map]
  congr 1
  refine List.map_congr_left fun i _ => ?_
  show m (a + (n + i)) = m (a + n + i)
  rw [Nat.add_assoc]

theorem slice_take (m : Nat → α) (a : Nat) {n k : Nat} (h : k ≤ n) :
    (slice m a n).take k = slice m a k := by
  obtain ⟨r, rfl⟩ := Nat.exists_eq_add_of_le h
  rw [slice_add, List.take_left' (length_slice m a k)]

theorem slice_drop (m : Nat → α) (a : Nat) {n k : Nat} (h : k ≤ n) :
    (slice m a n).drop k = slice m (a + k) (n - k) := by
  obtain ⟨r, rfl⟩ := Nat.exists_eq_add_of_le h
  rw [slice_add, List.drop_left' (length_slice m a k), Nat.add_sub_cancel_left]

theorem slice_getD (m : Nat → α) (a : Nat) {n i : Nat} (h : i < n) (default : α) :
    (slice m a n).getD i default = m (a + i) := by
  simp [slice, List.getD, List.getElem?_range h]

/-- Cells that hold a list make up the list. -/
theorem slice_eq_list {m : Nat → α} {a : Nat} {l : List α} (default : α)
    (h : ∀ i, i < l.length → m (a + i) = l.getD i default) : slice m a l.length = l := by
  refine List.ext_getElem (length_slice ..) fun i _ hi => ?_
  simp only [slice, List.getElem_map, List.getElem_range]
  rw [h i hi, List.getD_eq_getElem?_getD, List.getElem?_eq_getElem hi, Option.getD_some]

/-! ## Storing a block -/

/-- Store `f 0, …, f (n - 1)` at `addr 0, …, addr (n - 1)`, in this order. -/
def blit (m : ι → α) (addr : Nat → ι) (f : Nat → α) : Nat → ι → α
  | 0 => m
  | n + 1 => Function.update (blit m addr f n) (addr n) (f n)

theorem blit_succ (m : ι → α) (addr : Nat → ι) (f : Nat → α) (n : Nat) :
    blit m addr f (n + 1) = Function.update (blit m addr f n) (addr n) (f n) := rfl

/-- Frame: an address that is none of the block's keeps its cell. -/
theorem blit_frame (m : ι → α) (addr : Nat → ι) (f : Nat → α) {n : Nat} {x : ι}
    (h : ∀ i, i < n → x ≠ addr i) : blit m addr f n x = m x := by
  induction n with
  | zero => rfl
  | succ n ih =>
    rw [blit_succ, Function.update_of_ne (h n (Nat.lt_succ_self n))]
    exact ih fun i hi => h i (Nat.lt_succ_of_lt hi)

/-- Lane: when the block's addresses are distinct, each holds its own value. -/
theorem blit_lane (m : ι → α) (addr : Nat → ι) (f : Nat → α) {n i : Nat}
    (hinj : ∀ j, j < n → addr i = addr j → i = j) (hi : i < n) :
    blit m addr f n (addr i) = f i := by
  induction n with
  | zero => exact absurd hi (Nat.not_lt_zero i)
  | succ n ih =>
    rw [blit_succ]
    by_cases hin : i = n
    · subst hin
      exact Function.update_self ..
    · have hne : addr i ≠ addr n := fun h => hin (hinj n (Nat.lt_succ_self n) h)
      rw [Function.update_of_ne hne]
      exact ih (fun j hj => hinj j (Nat.lt_succ_of_lt hj)) (by omega)

/-- A block stored at adjacent cells, cell by cell. -/
theorem blit_adjacent (m : Nat → α) (a : Nat) (f : Nat → α) (n x : Nat) :
    blit m (fun i => a + i) f n x = if a ≤ x ∧ x < a + n then f (x - a) else m x := by
  split
  · next hin =>
    obtain ⟨i, rfl⟩ := Nat.exists_eq_add_of_le hin.1
    rw [Nat.add_sub_cancel_left]
    exact blit_lane m (fun i => a + i) f (fun j _ hij => Nat.add_left_cancel hij) (by omega)
  · next hout =>
    refine blit_frame m _ f fun i hi => ?_
    omega

/-- A block changes nothing when it stores what is there. -/
theorem blit_adjacent_eq_iff (m : Nat → α) (a : Nat) (f : Nat → α) (n : Nat) :
    blit m (fun i => a + i) f n = m ↔ ∀ i, i < n → m (a + i) = f i := by
  constructor
  · intro heq i hi
    have hlane := blit_lane m (fun i => a + i) f (fun j _ hij => Nat.add_left_cancel hij) hi
    rw [heq] at hlane
    exact hlane
  · intro hsame
    funext x
    rw [blit_adjacent]
    split
    · next hin =>
      obtain ⟨i, rfl⟩ := Nat.exists_eq_add_of_le hin.1
      rw [Nat.add_sub_cancel_left, hsame i (by omega)]
    · rfl

/-- A block stored right behind another is the tail of one larger block. -/
theorem blit_add (m : ι → α) (addr : Nat → ι) (f : Nat → α) (n k : Nat) :
    blit (blit m addr f n) (fun i => addr (n + i)) (fun i => f (n + i)) k =
      blit m addr f (n + k) := by
  induction k with
  | zero => rfl
  | succ k ih => rw [blit_succ, ih, ← Nat.add_assoc, blit_succ]

/-- Block stores agree when they agree on the addresses and values they use. -/
theorem blit_congr (m : ι → α) {addr addr' : Nat → ι} {f f' : Nat → α} {n : Nat}
    (haddr : ∀ i, i < n → addr i = addr' i) (hf : ∀ i, i < n → f i = f' i) :
    blit m addr f n = blit m addr' f' n := by
  induction n with
  | zero => rfl
  | succ n ih =>
    rw [blit_succ, blit_succ, haddr n (Nat.lt_succ_self n), hf n (Nat.lt_succ_self n),
      ih (fun i hi => haddr i (Nat.lt_succ_of_lt hi))
        (fun i hi => hf i (Nat.lt_succ_of_lt hi))]

/-- Blocks stored at distinct addresses agree exactly when their sources do. -/
theorem blit_eq_iff (m : ι → α) {addr : Nat → ι} {f g : Nat → α} {n : Nat}
    (hinj : ∀ i j, i < n → j < n → addr i = addr j → i = j) :
    blit m addr f n = blit m addr g n ↔ ∀ i, i < n → f i = g i := by
  constructor
  · intro heq i hi
    have hlane : ∀ h : Nat → α, blit m addr h n (addr i) = h i := fun h =>
      blit_lane m addr h (fun j hj => hinj i j hi hj) hi
    rw [← hlane f, heq, hlane g]
  · exact blit_congr m fun _ _ => rfl

/-! ## Moving a block inside one array -/

/-- Ascending copy of `n` cells from `src` to `dst` inside one array: every cell
is read from the array as the loop has left it so far. -/
def copyAsc (m : Nat → α) (dst src : Nat) : Nat → Nat → α
  | 0 => m
  | n + 1 =>
    let m' := copyAsc m dst src n
    Function.update m' (dst + n) (m' (src + n))

/-- When no cell is overwritten before it is read, the copy stores the original cells. -/
theorem copyAsc_of_read_first (m : Nat → α) {dst src n : Nat}
    (h : ∀ i j, i < j → j < n → dst + i ≠ src + j) :
    copyAsc m dst src n = blit m (fun i => dst + i) (fun i => m (src + i)) n := by
  induction n with
  | zero => rfl
  | succ n ih =>
    have hearlier := ih fun i j hij hj => h i j hij (Nat.lt_succ_of_lt hj)
    show Function.update (copyAsc m dst src n) (dst + n)
      (copyAsc m dst src n (src + n)) = _
    rw [hearlier, blit_succ, blit_frame]
    intro i hi
    exact (h i n hi (Nat.lt_succ_self n)).symm

/-- A downward move reads first, also where its ranges overlap. -/
theorem copyAsc_eq_blit (m : Nat → α) {dst src : Nat} (h : dst ≤ src) (n : Nat) :
    copyAsc m dst src n = blit m (fun i => dst + i) (fun i => m (src + i)) n := by
  refine copyAsc_of_read_first m fun i j hij _ => ?_
  omega

/-! ## Copies in any order -/

/-- The `n` cells from `dst` on and those from `src` on have none in common. -/
def Apart (dst src n : Nat) : Prop := ∀ i j, i < n → j < n → dst + i ≠ src + j

theorem Apart.smaller {dst src n : Nat} (h : Apart dst src (n + 1)) : Apart dst src n :=
  fun i j hi hj => h i j (Nat.lt_succ_of_lt hi) (Nat.lt_succ_of_lt hj)

/-- A range at the beginning of the array is apart from those behind it. -/
theorem apart_zero_iff {src n : Nat} : Apart 0 src n ↔ n ≤ src ∨ n = 0 := by
  constructor
  · intro h
    by_contra hover
    exact h src 0 (by omega) (by omega) (by omega)
  · intro h i j hi hj
    omega

/-- A copy that keeps the contract of `memcpy`. -/
structure Memcpy (α : Type v) where
  copy : (Nat → α) → Nat → Nat → Nat → Nat → α
  contract : ∀ (m : Nat → α) {dst src n : Nat}, Apart dst src n →
    copy m dst src n = blit m (fun i => dst + i) (fun i => m (src + i)) n

theorem copyAsc_of_apart (m : Nat → α) {dst src n : Nat} (h : Apart dst src n) :
    copyAsc m dst src n = blit m (fun i => dst + i) (fun i => m (src + i)) n := by
  exact copyAsc_of_read_first m fun i j hij hj => h i j (Nat.lt_trans hij hj) hj

/-- Descending copy of `n` cells: the last one first. -/
def copyDesc (m : Nat → α) (dst src : Nat) : Nat → Nat → α
  | 0 => m
  | n + 1 => copyDesc (Function.update m (dst + n) (m (src + n))) dst src n

theorem copyDesc_of_apart (m : Nat → α) {dst src n : Nat} (h : Apart dst src n) :
    copyDesc m dst src n = blit m (fun i => dst + i) (fun i => m (src + i)) n := by
  induction n generalizing m with
  | zero => rfl
  | succ n ih =>
    have hkeep : ∀ i, i < n →
        Function.update m (dst + n) (m (src + n)) (src + i) = m (src + i) := fun i hi =>
      Function.update_of_ne (h n i (Nat.lt_succ_self n) (Nat.lt_succ_of_lt hi)).symm _ _
    show copyDesc (Function.update m (dst + n) (m (src + n))) dst src n = _
    rw [ih _ h.smaller, blit_congr _ (fun _ _ => rfl) hkeep]
    -- the last cell is stored first, and none of the others touches it
    funext x
    rw [blit_succ, blit_adjacent]
    by_cases hlast : x = dst + n
    · rw [hlast, if_neg (by omega), Function.update_self, Function.update_self]
    · rw [Function.update_of_ne hlast, Function.update_of_ne hlast, blit_adjacent]

def Memcpy.ascending : Memcpy α := ⟨copyAsc, copyAsc_of_apart⟩

def Memcpy.descending : Memcpy α := ⟨copyDesc, copyDesc_of_apart⟩

end Lib
