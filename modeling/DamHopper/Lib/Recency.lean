import Mathlib.Data.List.Nodup

/-!
# Recency — what was used most recently

A history is a list of uses, the latest first. `recent` keeps of each value its latest use,
so its first `n` values are the `n` most recently used ones.
-/

namespace DamHopper

open List

variable {α : Type*} [DecidableEq α] {x : α} {l : List α} {n : Nat}

/-- The values used, each once, the most recently used first. -/
def recent : List α → List α
  | [] => []
  | x :: earlier => x :: (recent earlier).filter (· != x)

theorem nodup_recent (uses : List α) : (recent uses).Nodup := by
  induction uses with
  | nil => exact nodup_nil
  | cons x earlier ih => simpa [recent] using ih.filter _

/-- Without `x`, the first `n` values are found among the first `n + 1`. -/
theorem take_filter_ne (h : l.Nodup) :
    (l.filter (· != x)).take n = ((l.take (n + 1)).filter (· != x)).take n := by
  induction l generalizing n with
  | nil => rfl
  | cons a l ih =>
    obtain ⟨ha, hl⟩ := nodup_cons.mp h
    by_cases hax : a = x
    · subst hax
      have hkept : ∀ b ∈ l, b ≠ a := fun b hb hba => ha (hba ▸ hb)
      rw [take_succ_cons, filter_cons_of_neg (by simp), filter_cons_of_neg (by simp),
        filter_eq_self.mpr (by simpa using hkept),
        filter_eq_self.mpr (by simpa using fun b hb => hkept b (mem_of_mem_take hb)),
        take_take, Nat.min_self]
    · cases n with
      | zero => rfl
      | succ n =>
        rw [take_succ_cons, filter_cons_of_pos (by simpa using hax),
          filter_cons_of_pos (by simpa using hax), take_succ_cons, take_succ_cons, ih hl]

end DamHopper
