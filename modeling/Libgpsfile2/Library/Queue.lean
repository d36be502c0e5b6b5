import Mathlib.Tactic

/-!
# Queues with push back

A `Queue` holds the items that are `pending`, in order, and remembers the ones that were `taken`,
latest first, so that they can be pushed back. Putting appends at the end, taking removes from the
front, and pushing back undoes the taking of one item, possibly with another item in its place.

`count` is the number of items ever put: taking and pushing back do not change it.
-/

namespace Libgpsfile2

variable {α : Type*}

/-- The items taken (latest first) and the items pending. -/
structure Queue (α : Type*) where
  taken : List α
  pending : List α

namespace Queue

/-- The empty queue. -/
def empty : Queue α := ⟨[], []⟩

/-- Append the items `s`. -/
def put (s : List α) (q : Queue α) : Queue α := ⟨q.taken, q.pending ++ s⟩

/-- Remove `k` items from the front, or all of them when there are fewer. -/
def take (k : ℕ) (q : Queue α) : Queue α :=
  ⟨(q.pending.take k).reverse ++ q.taken, q.pending.drop k⟩

/-- Push `c` back in place of the item taken last. -/
def putBack (c : α) (q : Queue α) : Queue α := ⟨q.taken.tail, c :: q.pending⟩

/-- The number of items that were put. -/
def count (q : Queue α) : ℕ := q.taken.length + q.pending.length

@[simp] theorem count_put (s : List α) (q : Queue α) : (q.put s).count = q.count + s.length := by
  simp [count, put, Nat.add_assoc]

@[simp] theorem count_take (k : ℕ) (q : Queue α) : (q.take k).count = q.count := by
  simp only [count, take, List.length_append, List.length_reverse, List.length_take,
    List.length_drop]
  omega

theorem count_putBack (c : α) {q : Queue α} (hq : q.taken ≠ []) :
    (q.putBack c).count = q.count := by
  obtain ⟨d, t, ht⟩ := List.exists_cons_of_ne_nil hq
  simp only [count, putBack, ht, List.tail_cons, List.length_cons]
  omega

end Queue

end Libgpsfile2
