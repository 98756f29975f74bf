import Mathlib.Data.List.Basic

/-!
# Texts cut into lines, and into pieces

`lines sep xs` are the parts of `xs` that end with a separator, without it;
`unfinished sep xs` is what follows the last one. Both have a form with a text
that is already pending, which is what a scanner carries along.

`flatMap_lines_iff` compares two ways of scanning a text that arrives in pieces:
piece by piece, forgetting the pending line between the pieces, and as a whole.
They find the same number of lines; they agree, up to what a function `f` shows of
a line, exactly when at every piece the forgotten text does not change what `f`
shows of the line that goes on there.
-/

namespace Lib

universe u v

variable {α : Type u} {β : Type v} [DecidableEq α] {sep : α}

/-- The lines of `xs`, the first of which has begun with `pending`. -/
def linesFrom (sep : α) : List α → List α → List (List α)
  | _, [] => []
  | pending, x :: xs =>
    if x = sep then pending :: linesFrom sep [] xs else linesFrom sep (pending ++ [x]) xs

/-- The text behind the last separator of `xs`, which may begin with `pending`. -/
def unfinishedFrom (sep : α) : List α → List α → List α
  | pending, [] => pending
  | pending, x :: xs =>
    if x = sep then unfinishedFrom sep [] xs else unfinishedFrom sep (pending ++ [x]) xs

def lines (sep : α) (xs : List α) : List (List α) := linesFrom sep [] xs

def unfinished (sep : α) (xs : List α) : List α := unfinishedFrom sep [] xs

theorem linesFrom_append (xs ys : List α) :
    ∀ pending : List α, linesFrom sep pending (xs ++ ys) =
      linesFrom sep pending xs ++ linesFrom sep (unfinishedFrom sep pending xs) ys := by
  induction xs with
  | nil => exact fun _ => rfl
  | cons x xs ih =>
    intro pending
    by_cases hx : x = sep
    · simp only [List.cons_append, linesFrom, unfinishedFrom, if_pos hx, ih]
    · simp only [List.cons_append, linesFrom, unfinishedFrom, if_neg hx, ih]

theorem unfinishedFrom_append (xs ys : List α) :
    ∀ pending : List α, unfinishedFrom sep pending (xs ++ ys) =
      unfinishedFrom sep (unfinishedFrom sep pending xs) ys := by
  induction xs with
  | nil => exact fun _ => rfl
  | cons x xs ih =>
    intro pending
    by_cases hx : x = sep
    · simp only [List.cons_append, unfinishedFrom, if_pos hx, ih]
    · simp only [List.cons_append, unfinishedFrom, if_neg hx, ih]

/-- A text without separators stays pending. -/
theorem unfinishedFrom_of_notMem {xs : List α} (h : sep ∉ xs) :
    ∀ pending : List α, linesFrom sep pending xs = [] ∧
      unfinishedFrom sep pending xs = pending ++ xs := by
  induction xs with
  | nil => exact fun pending => ⟨rfl, (List.append_nil pending).symm⟩
  | cons x xs ih =>
    intro pending
    have hx : x ≠ sep := fun heq => h (List.mem_cons.mpr (Or.inl heq.symm))
    have hxs : sep ∉ xs := fun hmem => h (List.mem_cons_of_mem _ hmem)
    simp only [linesFrom, unfinishedFrom, if_neg hx]
    obtain ⟨hlines, hunfinished⟩ := ih hxs (pending ++ [x])
    exact ⟨hlines, by rw [hunfinished, List.append_assoc]; rfl⟩

/-- Pending text goes in front of the first line, and nowhere else. -/
theorem linesFrom_pending (xs : List α) :
    ∀ pending more : List α, linesFrom sep (pending ++ more) xs =
      (linesFrom sep more xs).modifyHead (pending ++ ·) := by
  induction xs with
  | nil => exact fun _ _ => rfl
  | cons x xs ih =>
    intro pending more
    by_cases hx : x = sep
    · simp only [linesFrom, if_pos hx, List.modifyHead_cons]
    · simp only [linesFrom, if_neg hx, List.append_assoc, ih]

theorem linesFrom_eq (pending xs : List α) :
    linesFrom sep pending xs = (lines sep xs).modifyHead (pending ++ ·) := by
  rw [lines, ← linesFrom_pending, List.append_nil]

theorem length_linesFrom (pending xs : List α) :
    (linesFrom sep pending xs).length = (lines sep xs).length := by
  rw [linesFrom_eq, List.length_modifyHead]

/-- One piece: the pending text does not matter to `f` iff it does not matter in the
first line. -/
theorem map_linesFrom_iff (f : List α → β) (pending xs : List α) :
    (lines sep xs).map f = (linesFrom sep pending xs).map f ↔
      ∀ l, (lines sep xs).head? = some l → f (pending ++ l) = f l := by
  rw [linesFrom_eq]
  cases lines sep xs with
  | nil => simp
  | cons l ls => simp [eq_comm]

/-- The pieces after a text that leaves `pending` unfinished. -/
theorem flatMap_linesFrom_iff (f : List α → β) (pieces : List (List α)) :
    ∀ pending : List α,
      pieces.flatMap (fun p => (lines sep p).map f) =
          (linesFrom sep pending pieces.flatten).map f ↔
        ∀ before piece after, pieces = before ++ piece :: after →
          ∀ l, (lines sep piece).head? = some l →
            f (unfinishedFrom sep pending before.flatten ++ l) = f l := by
  induction pieces with
  | nil =>
    intro pending
    simp [linesFrom]
  | cons p ps ih =>
    intro pending
    rw [List.flatMap_cons, List.flatten_cons, linesFrom_append, List.map_append]
    have hlength : ((lines sep p).map f).length = ((linesFrom sep pending p).map f).length := by
      rw [List.length_map, List.length_map, length_linesFrom]
    -- both sides have as many lines of the first piece, so they agree piece by piece
    have hsplit : (lines sep p).map f ++ ps.flatMap (fun p => (lines sep p).map f) =
        (linesFrom sep pending p).map f ++
          (linesFrom sep (unfinishedFrom sep pending p) ps.flatten).map f ↔
        (lines sep p).map f = (linesFrom sep pending p).map f ∧
          ps.flatMap (fun p => (lines sep p).map f) =
            (linesFrom sep (unfinishedFrom sep pending p) ps.flatten).map f :=
      ⟨fun h => List.append_inj h hlength, fun h => by rw [h.1, h.2]⟩
    rw [hsplit, map_linesFrom_iff, ih]
    constructor
    · rintro ⟨hfirst, hrest⟩ before piece after heq
      cases before with
      | nil =>
        obtain ⟨rfl, rfl⟩ := List.cons.inj heq
        exact hfirst
      | cons b before =>
        obtain ⟨rfl, rfl⟩ := List.cons.inj heq
        rw [List.flatten_cons, unfinishedFrom_append]
        exact hrest before piece after rfl
    · intro h
      refine ⟨h [] p ps rfl, fun before piece after heq => ?_⟩
      have hpiece := h (p :: before) piece after (by rw [heq]; rfl)
      rwa [List.flatten_cons, unfinishedFrom_append] at hpiece

/-- **Scanning in pieces**, against scanning the whole text. -/
theorem flatMap_lines_iff (sep : α) (f : List α → β) (pieces : List (List α)) :
    pieces.flatMap (fun p => (lines sep p).map f) = (lines sep pieces.flatten).map f ↔
      ∀ before piece after, pieces = before ++ piece :: after →
        ∀ l, (lines sep piece).head? = some l →
          f (unfinished sep before.flatten ++ l) = f l :=
  flatMap_linesFrom_iff f pieces []

/-! ## Pieces of equal length -/

section Chunks

variable {γ : Type u} {n : Nat}

/-- `xs` in pieces of length `n`; the last one may be shorter. -/
def chunks (n : Nat) (xs : List γ) : List (List γ) :=
  if xs.length = 0 ∨ n = 0 then [] else xs.take n :: chunks n (xs.drop n)
termination_by xs.length
decreasing_by
  rename_i h
  rw [List.length_drop]
  omega

@[simp] theorem chunks_nil (n : Nat) : chunks n ([] : List γ) = [] := by
  rw [chunks]
  exact if_pos (Or.inl rfl)

theorem chunks_of_pos (hn : 0 < n) {xs : List γ} (hxs : 0 < xs.length) :
    chunks n xs = xs.take n :: chunks n (xs.drop n) := by
  rw [chunks, if_neg (by omega)]

/-- A text no longer than a piece is its only piece. -/
theorem chunks_of_le {xs : List γ} (hxs : 0 < xs.length) (hle : xs.length ≤ n) :
    chunks n xs = [xs] := by
  rw [chunks_of_pos (by omega) hxs, List.take_of_length_le hle, List.drop_of_length_le hle,
    chunks_nil]

theorem flatten_chunks (hn : 0 < n) (xs : List γ) : (chunks n xs).flatten = xs := by
  rcases Nat.eq_zero_or_pos xs.length with hnil | hpos
  · rw [List.eq_nil_of_length_eq_zero hnil, chunks_nil, List.flatten_nil]
  · rw [chunks_of_pos hn hpos, List.flatten_cons, flatten_chunks hn, List.take_append_drop]
termination_by xs.length
decreasing_by
  rw [List.length_drop]
  omega

end Chunks

end Lib
