import Mathlib.Data.List.Nodup

/-!
# BoundedQueue — queues that forget their oldest entries

Lists as queues, oldest entry first. `pushBounded` appends and drops one
entry from the front if the queue has become too long; `trimTo` drops entries
until the length fits.
-/

namespace DamHopper

section

variable {α : Type _}

/-- `push_back`, then one `pop_front` if the queue is longer than `limit`. -/
def pushBounded (limit : Nat) (queue : List α) (x : α) : List α :=
  if (queue ++ [x]).length > limit then (queue ++ [x]).tail else queue ++ [x]

/-- `pop_front` while the queue is longer than `limit`. -/
def trimTo (limit : Nat) (queue : List α) : List α :=
  queue.drop (queue.length - limit)

variable {limit : Nat} {queue : List α} {x y : α}

theorem pushBounded_sublist : (pushBounded limit queue x).Sublist (queue ++ [x]) := by
  unfold pushBounded
  split
  · exact List.tail_sublist _
  · exact List.Sublist.refl _

theorem length_pushBounded_le (h : queue.length ≤ limit) :
    (pushBounded limit queue x).length ≤ limit := by
  unfold pushBounded
  split
  · rw [List.length_tail, List.length_append, List.length_singleton]
    omega
  · omega

theorem mem_of_mem_pushBounded (h : y ∈ pushBounded limit queue x) : y ∈ queue ∨ y = x := by
  simpa using pushBounded_sublist.subset h

theorem trimTo_sublist : (trimTo limit queue).Sublist queue := List.drop_sublist _ _

theorem length_trimTo_le : (trimTo limit queue).length ≤ limit := by
  rw [trimTo, List.length_drop]
  omega

end

end DamHopper
