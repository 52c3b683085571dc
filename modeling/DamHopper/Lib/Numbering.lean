import DamHopper.Lib.Text
import Mathlib.Data.List.Nodup

/-!
# Numbering — ids drawn from a counter that saturates

A counter starts at one, is written into each id it hands out and then goes up
by one until it sticks at its largest value. As long as no more ids are drawn
than the counter has values, they are different.
-/

namespace DamHopper

open List

theorem repr_inj {m n : Nat} (h : m.repr = n.repr) : m = n := by
  have hdigits : Nat.toDigits 10 m = Nat.toDigits 10 n := by
    rw [← Nat.toList_repr, ← Nat.toList_repr, h]
  rw [← Nat.ofDigitChars_ten_toDigits (n := m), hdigits, Nat.ofDigitChars_ten_toDigits]

/-- A label followed by a number. -/
def numbered (label : String) (number : Nat) : String := label ++ toString number

theorem numbered_inj {label : String} {m n : Nat} (h : numbered label m = numbered label n) :
    m = n := by
  exact repr_inj ((String.append_right_inj label).mp h)

theorem colon_notMem_repr {n : Nat} : ':' ∉ n.repr.toList := by
  intro hmem
  rw [Nat.toList_repr] at hmem
  have hdigit := Nat.isDigit_of_mem_toDigits (by decide) (by decide) hmem
  exact absurd hdigit (by decide)

theorem append_cons_inj_of_notMem {α : Type _} [DecidableEq α] {a : α}
    {front front' back back' : List α} (hback : a ∉ back) (hback' : a ∉ back')
    (h : front ++ a :: back = front' ++ a :: back') : front = front' ∧ back = back' := by
  have hlines := congrArg (fun l => Text.lines a l.reverse) h
  simp only [reverse_append, reverse_cons, append_assoc, singleton_append,
    Text.lines_append (mt mem_reverse.mp hback), Text.lines_append (mt mem_reverse.mp hback')]
    at hlines
  obtain rfl := reverse_injective (List.cons.inj hlines).1
  exact ⟨append_cancel_right h, rfl⟩

/-- **The number after the last colon can be read back**, whatever the label holds. -/
theorem colon_number_inj {label label' : String} {m n : Nat}
    (h : label ++ ":" ++ toString m = label' ++ ":" ++ toString n) : label = label' ∧ m = n := by
  have hlist : label.toList ++ ':' :: m.repr.toList = label'.toList ++ ':' :: n.repr.toList := by
    simpa using congrArg String.toList h
  obtain ⟨hlabel, hnumber⟩ := append_cons_inj_of_notMem colon_notMem_repr colon_notMem_repr hlist
  exact ⟨String.toList_inj.mp hlabel, repr_inj (String.toList_inj.mp hnumber)⟩

/-- `ids` are what a counter with largest value `cap` has handed out, oldest
first, and `next` is what it shows now. -/
structure Drawn (label : String) (cap : Nat) (ids : List String) (next : Nat) : Prop where
  ids_eq : ids = (List.range ids.length).map fun k => numbered label (min (k + 1) cap)
  next_eq : next = min (ids.length + 1) cap

namespace Drawn

variable {label : String} {cap : Nat} {ids : List String} {next : Nat}

theorem start (h : 1 ≤ cap) : Drawn label cap [] 1 where
  ids_eq := rfl
  next_eq := by
    rw [length_nil]
    omega

theorem draw (h : Drawn label cap ids next) :
    Drawn label cap (ids ++ [numbered label next]) (min (next + 1) cap) where
  ids_eq := by
    rw [length_append, length_singleton, range_succ, map_append,
      ← h.ids_eq, map_singleton, ← h.next_eq]
  next_eq := by
    rw [length_append, length_singleton, h.next_eq]
    omega

/-- **Ids differ below saturation.** -/
theorem nodup (h : Drawn label cap ids next) (hle : ids.length ≤ cap) : ids.Nodup := by
  rw [h.ids_eq]
  refine Nodup.map_on ?_ nodup_range
  intro i hi j hj heq
  rw [mem_range] at hi hj
  have hnum := numbered_inj heq
  omega

end Drawn

end DamHopper
