import Mathlib.Data.List.Nodup
import Mathlib.Data.List.Pairwise

/-!
# Blocks — a list cut into named blocks

A list of blocks stands for the list of their items, block after block. What
happens to the items when blocks are changed, dropped or added to.
-/

namespace DamHopper

open List

section

variable {α β κ : Type _} {items : β → List α} {blocks : List β}
  {b : β} {x : α} {f : β → β} {keep : α → Bool}

theorem block_unique (h : (blocks.flatMap items).Nodup) {b' : β} (hb : b ∈ blocks)
    (hb' : b' ∈ blocks) (hx : x ∈ items b) (hx' : x ∈ items b') : b = b' := by
  by_contra hne
  have hdisj := (nodup_flatMap.mp h).2
  have hsymm : Std.Symm (Function.onFun List.Disjoint items) := ⟨fun _ _ hd _ hx hx' => hd hx' hx⟩
  exact hdisj.forall hb hb' hne hx hx'

theorem eq_singleton_of_forall_eq {l : List α} (hnodup : l.Nodup) (hne : l ≠ [])
    (hall : ∀ y ∈ l, y = x) : l = [x] := by
  have hrep := eq_replicate_of_mem hall
  have hle : l.length ≤ 1 := by
    rw [hrep, nodup_replicate] at hnodup
    exact hnodup
  have hpos := length_pos_of_ne_nil hne
  rw [hrep, show l.length = 1 by omega]
  rfl

/-- Blocks that are not empty and hold one item only: there is one, and it holds it
once. -/
theorem single_block_of_forall_eq (hnodup : (blocks.flatMap items).Nodup) (hne : blocks ≠ [])
    (hfull : ∀ b ∈ blocks, items b ≠ []) (hall : ∀ b ∈ blocks, ∀ y ∈ items b, y = x) :
    ∃ b, blocks = [b] ∧ items b = [x] := by
  have hmem : ∀ b ∈ blocks, x ∈ items b := by
    intro b hb
    obtain ⟨y, hy⟩ := exists_mem_of_ne_nil _ (hfull b hb)
    rwa [← hall b hb y hy]
  cases blocks with
  | nil => exact absurd rfl hne
  | cons b rest =>
    rw [flatMap_cons, nodup_append] at hnodup
    obtain ⟨hb, _, hdisj⟩ := hnodup
    refine ⟨b, ?_, eq_singleton_of_forall_eq hb (hfull b mem_cons_self)
      (hall b mem_cons_self)⟩
    cases rest with
    | nil => rfl
    | cons c rest =>
      refine absurd rfl (hdisj x (hmem b mem_cons_self) x ?_)
      exact mem_flatMap.mpr ⟨c, mem_cons_self, hmem c (by simp)⟩

/-- Dropping the blocks that hold nothing else filters the items. -/
theorem flatMap_filter_filter {keepBlock : β → Bool}
    (hkeep : ∀ b ∈ blocks, keepBlock b = true → (items b).filter keep = items b)
    (hdrop : ∀ b ∈ blocks, keepBlock b = false → (items b).filter keep = []) :
    (blocks.filter keepBlock).flatMap items = (blocks.flatMap items).filter keep := by
  induction blocks with
  | nil => rfl
  | cons b rest ih =>
    have ih' := ih (fun b' hb' => hkeep b' (mem_cons_of_mem _ hb'))
      (fun b' hb' => hdrop b' (mem_cons_of_mem _ hb'))
    rw [flatMap_cons, filter_append, ← ih']
    cases hb : keepBlock b with
    | true => rw [filter_cons_of_pos hb, flatMap_cons, hkeep b mem_cons_self hb]
    | false =>
      rw [filter_cons_of_neg (by simp [hb]), hdrop b mem_cons_self hb]
      rfl

variable [DecidableEq κ] {key : β → κ}

/-- Changing the one block of a name and no other. -/
theorem map_update_of_nodup {before after : List β} (h : ((before ++ b :: after).map key).Nodup)
    (f : β → β) : ((before ++ b :: after).map fun c => if key c = key b then f c else c) =
      before ++ f b :: after := by
  rw [map_append, map_cons, nodup_append, nodup_cons] at h
  obtain ⟨_, ⟨hafter, _⟩, hbefore⟩ := h
  have hid : ∀ l : List β, (∀ c ∈ l, key c ≠ key b) →
      (l.map fun c => if key c = key b then f c else c) = l := by
    intro l hl
    refine (map_congr_left fun c hc => ?_).trans (map_id l)
    exact if_neg (hl c hc)
  rw [map_append, map_cons, if_pos rfl, hid before, hid after]
  · intro c hc heq
    exact hafter (heq ▸ mem_map_of_mem hc)
  · intro c hc heq
    exact hbefore _ (mem_map_of_mem hc) _ mem_cons_self heq

/-- Changing one block, counted. -/
theorem count_flatMap_update [DecidableEq α] (h : (blocks.map key).Nodup) (hb : b ∈ blocks) :
    ((blocks.map fun c => if key c = key b then f c else c).flatMap items).count x +
        (items b).count x =
      (blocks.flatMap items).count x + (items (f b)).count x := by
  obtain ⟨before, after, rfl⟩ := append_of_mem hb
  rw [map_update_of_nodup h]
  simp only [flatMap_append, flatMap_cons, count_append]
  omega

/-- Adding an item to one block adds it to the items. -/
theorem flatMap_update_perm (h : (blocks.map key).Nodup) (hb : b ∈ blocks)
    (hf : (items (f b)).Perm (x :: items b)) :
    ((blocks.map fun c => if key c = key b then f c else c).flatMap items).Perm
      (x :: blocks.flatMap items) := by
  obtain ⟨before, after, rfl⟩ := append_of_mem hb
  rw [map_update_of_nodup h]
  simp only [flatMap_append]
  have hmid : (items (f b) ++ after.flatMap items).Perm
      (x :: (items b ++ after.flatMap items)) := hf.append_right _
  exact (hmid.append_left _).trans perm_middle

end

end DamHopper
