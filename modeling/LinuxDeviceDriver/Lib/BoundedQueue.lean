import Mathlib.Data.List.Basic

/-!
# Bounded FIFO queues with a ledger

What a byte FIFO is for, in its own terms: a queue of at most `cap` items, a
`push` that accepts as much of its argument as fits, a `pop` that hands out items
from the front. `Ledger` keeps the whole history of a queue next to it; the field
`balanced` says that everything ever pushed is everything ever popped followed by
what is still queued, so no ledger that lost, duplicated or reordered an item can
be built.
-/

namespace Lib

universe u

/-- A queue of at most `cap` items. -/
structure BQueue (α : Type u) (cap : Nat) where
  items : List α
  length_le : items.length ≤ cap

namespace BQueue

variable {α : Type u} {cap : Nat}

def empty : BQueue α cap := ⟨[], Nat.zero_le cap⟩

/-- The part of `xs` that still fits. -/
def fitting (q : BQueue α cap) (xs : List α) : List α :=
  xs.take (cap - q.items.length)

/-- Append what fits. -/
def push (q : BQueue α cap) (xs : List α) : BQueue α cap where
  items := q.items ++ q.fitting xs
  length_le := by
    have := q.length_le
    simp only [fitting, List.length_append, List.length_take]
    omega

/-- Drop up to `n` items from the front. -/
def pop (q : BQueue α cap) (n : Nat) : BQueue α cap where
  items := q.items.drop n
  length_le := by
    have := q.length_le
    rw [List.length_drop]
    omega

end BQueue

/-- A bounded queue with everything that ever went in and came out. -/
structure Ledger (α : Type u) (cap : Nat) where
  queue : BQueue α cap
  pushed : List α
  popped : List α
  balanced : pushed = popped ++ queue.items

namespace Ledger

variable {α : Type u} {cap : Nat}

def empty : Ledger α cap := ⟨.empty, [], [], rfl⟩

def push (l : Ledger α cap) (xs : List α) : Ledger α cap where
  queue := l.queue.push xs
  pushed := l.pushed ++ l.queue.fitting xs
  popped := l.popped
  balanced := by
    rw [l.balanced, List.append_assoc]
    rfl

def pop (l : Ledger α cap) (n : Nat) : Ledger α cap where
  queue := l.queue.pop n
  pushed := l.pushed
  popped := l.popped ++ l.queue.items.take n
  balanced := by
    rw [l.balanced, List.append_assoc]
    show l.popped ++ l.queue.items = l.popped ++ (l.queue.items.take n ++ l.queue.items.drop n)
    rw [List.take_append_drop]

end Ledger

end Lib
