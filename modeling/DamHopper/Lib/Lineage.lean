import Mathlib.Data.List.Chain

/-!
# Lineage — runs of a linear history

A relation from children to parents, a tip, and a list of consecutive elements behind it,
oldest first (`Consecutive`). If nothing behind the tip that reaches the oldest of them
branches, then what reaches it is a single chain (`linear_total`), and consists of the run
itself and of what comes after its newest element (`after_newest_iff`).
-/

namespace DamHopper

open Relation List

section

variable {α : Type _} (r : α → α → Prop)

theorem eq_singleton_of_mem {l : List α} {a : α} (hl : l.length ≤ 1) (ha : a ∈ l) : l = [a] := by
  obtain ⟨b, rfl⟩ := length_eq_one_iff.mp (Nat.le_antisymm hl (length_pos_of_mem ha))
  rw [mem_singleton.mp ha]

/-- Each element of the list, but for the first, has the one before it as only parent. -/
def Consecutive (run : List α) : Prop := run.IsChain fun a b => ∀ y, r b y ↔ y = a

variable {r} {x tip : α}

/-- What reaches one element without branching is a single chain. -/
theorem linear_total {anchor y : α}
    (hlinear : ∀ z, ReflTransGen r tip z → ReflTransGen r z anchor → ∀ p q, r z p → r z q → p = q)
    (hx : ReflTransGen r tip x) (hxa : ReflTransGen r x anchor)
    (hy : ReflTransGen r tip y) (hya : ReflTransGen r y anchor) :
    ReflTransGen r x y ∨ ReflTransGen r y x := by
  -- the relation cut down to the chain has at most one way on
  let s : α → α → Prop := fun a b => r a b ∧ ReflTransGen r tip a ∧ ReflTransGen r a anchor
  have hunique : Relator.RightUnique s := by
    intro a b c hab hac
    exact hlinear a hab.2.1 hab.2.2 b c hab.1 hac.1
  have hcut : ∀ {z}, ReflTransGen r tip z → ReflTransGen r z anchor → ReflTransGen s tip z := by
    intro z hz
    induction hz with
    | refl => exact fun _ => .refl
    | tail hz hstep ih =>
      intro hanchor
      have hbefore := ReflTransGen.head hstep hanchor
      exact (ih hbefore).tail ⟨hstep, hz, hbefore⟩
  have hforget : ReflTransGen s ≤ ReflTransGen r := ReflTransGen.mono fun _ _ hs => hs.1
  rcases ReflTransGen.total_of_right_unique hunique (hcut hx hxa) (hcut hy hya) with h | h
  · exact .inl (hforget _ _ h)
  · exact .inr (hforget _ _ h)

namespace Consecutive

variable {oldest : α} {rest : List α}

section

variable (h : Consecutive r (oldest :: rest))
include h

theorem reaches_oldest : ∀ x ∈ oldest :: rest, ReflTransGen r x oldest := by
  induction rest generalizing oldest with
  | nil => exact forall_mem_singleton.mpr .refl
  | cons next rest ih =>
    obtain ⟨hfirst, hrest⟩ := isChain_cons_cons.mp h
    exact forall_mem_cons.mpr
      ⟨.refl, fun x hx => (ih hrest x hx).tail ((hfirst oldest).mpr rfl)⟩

theorem newest_reaches :
    ∀ x ∈ oldest :: rest, ReflTransGen r ((oldest :: rest).getLast (cons_ne_nil _ _)) x := by
  induction rest generalizing oldest with
  | nil => exact forall_mem_singleton.mpr .refl
  | cons next rest ih =>
    obtain ⟨hfirst, hrest⟩ := isChain_cons_cons.mp h
    exact forall_mem_cons.mpr
      ⟨(ih hrest next mem_cons_self).tail ((hfirst oldest).mpr rfl), ih hrest⟩

/-- What is behind the newest element belongs to the run or is behind the oldest. -/
theorem mem_or_behind (hx : ReflTransGen r ((oldest :: rest).getLast (cons_ne_nil _ _)) x) :
    x ∈ oldest :: rest ∨ TransGen r oldest x := by
  induction rest generalizing oldest with
  | nil =>
    rw [mem_singleton]
    exact reflTransGen_iff_eq_or_transGen.mp hx
  | cons next rest ih =>
    obtain ⟨hfirst, hrest⟩ := isChain_cons_cons.mp h
    rcases ih hrest hx with hmem | hbehind
    · exact .inl (mem_cons_of_mem _ hmem)
    -- the only way on from `next` is to the oldest
    obtain ⟨p, hp, hpx⟩ := TransGen.head'_iff.mp hbehind
    rw [(hfirst p).mp hp] at hpx
    rcases reflTransGen_iff_eq_or_transGen.mp hpx with rfl | hpx
    · exact .inl mem_cons_self
    · exact .inr hpx

/-- What comes before an element of the run other than the oldest belongs to it too. -/
theorem parent_mem {p : α} (hx : x ∈ rest) (hp : r x p) : p ∈ oldest :: rest := by
  induction rest generalizing oldest with
  | nil => cases hx
  | cons next rest ih =>
    obtain ⟨hfirst, hrest⟩ := isChain_cons_cons.mp h
    rcases mem_cons.mp hx with rfl | hx
    · rw [(hfirst p).mp hp]
      exact mem_cons_self
    · exact mem_cons_of_mem _ (ih hrest hx)

/-- **What reaches the run is the run and what comes after it.** -/
theorem after_newest_iff (hacyclic : ∀ z, ReflTransGen r tip z → ¬ TransGen r z z)
    (hlinear : ∀ z, ReflTransGen r tip z → ReflTransGen r z oldest → ∀ p q, r z p → r z q → p = q)
    (hrun : ∀ z ∈ oldest :: rest, ReflTransGen r tip z) (hx : ReflTransGen r tip x) :
    (ReflTransGen r x oldest ∧ x ∉ oldest :: rest) ↔
      TransGen r x ((oldest :: rest).getLast (cons_ne_nil _ _)) := by
  have hnewest := getLast_mem (cons_ne_nil oldest rest)
  have hbelow := h.reaches_oldest _ hnewest
  constructor
  · rintro ⟨holdest, hnot⟩
    rcases linear_total hlinear hx holdest (hrun _ hnewest) hbelow with hafter | hbefore
    · refine (reflTransGen_iff_eq_or_transGen.mp hafter).resolve_left fun heq => ?_
      exact hnot (heq ▸ hnewest)
    · rcases h.mem_or_behind hbefore with hmem | hbehind
      · exact absurd hmem hnot
      · exact absurd (hbehind.trans_left holdest) (hacyclic oldest (hrun oldest mem_cons_self))
  · intro hafter
    refine ⟨(hafter.to_reflTransGen).trans hbelow, fun hmem => ?_⟩
    exact hacyclic x hx (hafter.trans_left (h.newest_reaches x hmem))

end

end Consecutive

end

end DamHopper
