import DamHopper.System.ResourceAlerts
import Mathlib.Data.Finset.Card

/-!
# ResourceTargets — which targets a sample admits

`insert_target` of `system/alerts.rs`, folded over the sensors and disks of a sample. The map
keeps at most `MAX_RESOURCE_TARGETS` keys: a smaller key drives out the largest one, and a
key that is met again loses its condition.

A key can be inserted, driven out and met again. It is not let in twice: whatever is outside
the map lies above everything inside, and the map is full (`Admits`).
-/

namespace DamHopper.System

open AssocMap

abbrev ResourceTargets := AssocMap String ResourceAlertTarget

def insertTarget (targets : ResourceTargets) (key : String) (target : ResourceAlertTarget) :
    ResourceTargets :=
  match targets.get? key with
  | some existing =>
    -- duplicate metadata is ambiguous
    targets.insert key { existing with condition := false }
  | none =>
    match targets.keys.max? with
    | some largestKey =>
      if MAX_RESOURCE_TARGETS ≤ targets.size then
        if largestKey ≤ key then targets else (targets.erase largestKey).insert key target
      else targets.insert key target
    | none => targets.insert key target

def insertTargets (l : List (String × ResourceAlertTarget)) : ResourceTargets :=
  l.foldl (fun targets e => insertTarget targets e.1 e.2) .empty

/-- The keys of the list with fewer than `n` smaller ones. -/
def smallestKeys (n : Nat) (l : List (String × ResourceAlertTarget)) : Finset String :=
  let keys := (l.map Prod.fst).toFinset
  keys.filter fun key => (keys.filter (· < key)).card < n

def conditions (l : List (String × ResourceAlertTarget)) (key : String) : List Bool :=
  (l.filter fun e => e.1 = key).map fun e => e.2.condition

structure Admits (l : List (String × ResourceAlertTarget)) (m : ResourceTargets) : Prop where
  met : ∀ key target, m.get? key = some target →
    conditions l key ≠ [] ∧ target.condition = decide (conditions l key = [true])
  bounded : m.size ≤ MAX_RESOURCE_TARGETS
  outside : ∀ key, conditions l key ≠ [] → m.get? key = none →
    MAX_RESOURCE_TARGETS ≤ m.size ∧ ∀ key' target, m.get? key' = some target → key' < key

variable {l l' : List (String × ResourceAlertTarget)} {m : ResourceTargets} {key key' : String}
  {target existing : ResourceAlertTarget}

theorem conditions_append_self :
    conditions (l ++ [(key, target)]) key = conditions l key ++ [target.condition] := by
  simp [conditions]

theorem conditions_append_of_ne (h : key' ≠ key) :
    conditions (l ++ [(key, target)]) key' = conditions l key' := by
  simp [conditions, Ne.symm h]

theorem mem_keys_iff_conditions : key ∈ l.map Prod.fst ↔ conditions l key ≠ [] := by
  simp [conditions]

namespace Admits

theorem duplicate (h : Admits l m) (hget : m.get? key = some existing) :
    Admits (l ++ [(key, target)]) (m.insert key { existing with condition := false }) := by
  refine ⟨fun key' target' hget' => ?_, ?_, fun key' hmet hnone => ?_⟩
  · rw [get?_insert] at hget'
    split_ifs at hget' with hkey
    · cases hget'
      rw [hkey, conditions_append_self]
      refine ⟨by simp, (decide_eq_false fun heq => (h.met key existing hget).1 ?_).symm⟩
      simpa using congrArg List.length heq
    · rw [conditions_append_of_ne hkey]
      exact h.met key' target' hget'
  · rw [size_insert_of_get? hget]
    exact h.bounded
  · rw [get?_insert] at hnone
    split_ifs at hnone with hkey
    rw [conditions_append_of_ne hkey] at hmet
    rw [size_insert_of_get? hget]
    obtain ⟨hfull, hbelow⟩ := h.outside key' hmet hnone
    exact ⟨hfull, forall_insert hbelow (hbelow key existing hget)⟩

/-- A key that is new and above all others, when the map is full. -/
theorem reject (h : Admits l m) (hnone : m.get? key = none) (hfull : MAX_RESOURCE_TARGETS ≤ m.size)
    (hlargest : ∀ key' target, m.get? key' = some target → key' ≤ key) :
    Admits (l ++ [(key, target)]) m := by
  have hne : ∀ key' t, m.get? key' = some t → key' ≠ key := by
    rintro key' t hget rfl
    simp [hnone] at hget
  refine ⟨fun key' t hget => ?_, h.bounded, fun key' hmet hnone' => ?_⟩
  · rw [conditions_append_of_ne (hne key' t hget)]
    exact h.met key' t hget
  · by_cases hkey : key' = key
    · exact ⟨hfull, fun k t hk => hkey ▸ lt_of_le_of_ne (hlargest k t hk) (hne k t hk)⟩
    · rw [conditions_append_of_ne hkey] at hmet
      exact h.outside key' hmet hnone'

/-- A key that has not been met, put into a map that covers the rest. -/
theorem enter {rest : ResourceTargets} (h : Admits l m) (hfresh : conditions l key = [])
    (hrest : ∀ key' target, rest.get? key' = some target → m.get? key' = some target)
    (hroom : rest.size < MAX_RESOURCE_TARGETS) (hnone : rest.get? key = none)
    (hout : ∀ key', conditions l key' ≠ [] → rest.get? key' = none →
      MAX_RESOURCE_TARGETS ≤ rest.size + 1 ∧ key < key' ∧
        ∀ k t, rest.get? k = some t → k < key') :
    Admits (l ++ [(key, target)]) (rest.insert key target) := by
  refine ⟨fun key' t hget => ?_, ?_, fun key' hmet hnone' => ?_⟩
  · rw [get?_insert] at hget
    split_ifs at hget with hkey
    · cases hget
      simp [hkey, conditions_append_self, hfresh]
    · rw [conditions_append_of_ne hkey]
      exact h.met key' t (hrest key' t hget)
  · rw [size_insert_of_get?_none hnone]
    exact hroom
  · rw [get?_insert] at hnone'
    split_ifs at hnone' with hkey
    rw [conditions_append_of_ne hkey] at hmet
    obtain ⟨hfull, hlt, hbelow⟩ := hout key' hmet hnone'
    rw [size_insert_of_get?_none hnone]
    exact ⟨hfull, forall_insert hbelow hlt⟩

theorem insertTarget (h : Admits l m) (key : String) (target : ResourceAlertTarget) :
    Admits (l ++ [(key, target)]) (insertTarget m key target) := by
  unfold System.insertTarget
  cases hget : m.get? key with
  | some existing => exact h.duplicate hget
  | none =>
    -- a key that was met and is outside finds the map full
    have hfresh : m.size < MAX_RESOURCE_TARGETS → ∀ k, m.get? k = none → conditions l k = [] := by
      intro hroom k hk
      by_contra hmet
      exact absurd (h.outside k hmet hk).1 (by omega)
    have hinsert : m.size < MAX_RESOURCE_TARGETS →
        Admits (l ++ [(key, target)]) (m.insert key target) := fun hroom =>
      h.enter (hfresh hroom key hget) (fun _ _ h => h) hroom hget fun k hmet hk =>
        absurd (hfresh hroom k hk) hmet
    simp only
    split
    next largestKey hmax =>
      obtain ⟨hmem, hlargest⟩ := List.max?_eq_some_iff.mp hmax
      obtain ⟨last, hlast⟩ := mem_keys_iff.mp hmem
      have hle : ∀ k t, m.get? k = some t → k ≤ largestKey := fun k t hk =>
        hlargest k (mem_keys_iff.mpr ⟨t, hk⟩)
      split_ifs with hfull hkey
      · exact h.reject hget hfull fun k t hk => (hle k t hk).trans hkey
      · have hsize := size_erase_of_get? hlast
        have hbounded := h.bounded
        refine h.enter ?_ (fun _ _ => get?_of_erase) (by omega) ?_ fun k hmet hk => ?_
        · by_contra hmet
          exact hkey ((h.outside key hmet hget).2 largestKey last hlast).le
        · rw [get?_erase_of_ne _ fun heq => hkey heq.ge, hget]
        · rw [get?_erase] at hk
          split_ifs at hk with hk'
          · refine ⟨by omega, hk' ▸ not_le.mp hkey, fun k' t hk'' => ?_⟩
            refine hk' ▸ lt_of_le_of_ne (hle k' t (get?_of_erase hk'')) fun heq => ?_
            rw [heq, get?_erase_self] at hk''
            cases hk''
          · obtain ⟨_, hbelow⟩ := h.outside k hmet hk
            exact ⟨by omega, (not_le.mp hkey).trans (hbelow largestKey last hlast),
              fun k' t hk'' => hbelow k' t (get?_of_erase hk'')⟩
      · exact hinsert (by omega)
    next hmax =>
      have hempty : m.size = 0 := by
        simpa [keys, size] using hmax
      exact hinsert (by rw [hempty]; decide)

theorem insertTargets (l : List (String × ResourceAlertTarget)) : Admits l (insertTargets l) := by
  induction l using List.reverseRecOn with
  | nil => exact ⟨by simp [System.insertTargets], by simp [System.insertTargets],
    by simp [conditions]⟩
  | append_singleton l e ih =>
    rw [System.insertTargets, List.foldl_append]
    exact ih.insertTarget e.1 e.2

theorem mem_smallestKeys_iff (h : Admits l m) :
    m.contains key = true ↔ key ∈ smallestKeys MAX_RESOURCE_TARGETS l := by
  have hsize : m.keys.toFinset.card = m.size := by
    rw [keys, List.toFinset_card_of_nodup m.nodup, List.length_map, size]
  simp only [smallestKeys, Finset.mem_filter, List.mem_toFinset, mem_keys_iff_conditions]
  constructor
  · intro hin
    obtain ⟨target, hget⟩ := contains_iff.mp hin
    refine ⟨(h.met key target hget).1, lt_of_lt_of_le (Finset.card_lt_card ?_) (hsize ▸ h.bounded)⟩
    -- what is smaller than a key of the map is in the map
    refine Finset.ssubset_iff_of_subset (fun k hk => ?_) |>.mpr ⟨key, ?_, ?_⟩
    · simp only [Finset.mem_filter, List.mem_toFinset, mem_keys_iff_conditions] at hk
      rw [List.mem_toFinset]
      by_contra hout
      exact lt_asymm hk.2 ((h.outside k hk.1 (get?_eq_none_iff.mpr hout)).2 key target hget)
    · rw [List.mem_toFinset, mem_keys_iff]
      exact ⟨target, hget⟩
    · exact fun hmem => lt_irrefl _ (Finset.mem_filter.mp hmem).2
  · rintro ⟨hmet, hfew⟩
    by_contra hout
    have hnone : m.get? key = none := by simpa [contains] using hout
    obtain ⟨hfull, hbelow⟩ := h.outside key hmet hnone
    refine absurd (hfull.trans_eq hsize.symm) (not_le.mpr (lt_of_le_of_lt ?_ hfew))
    refine Finset.card_le_card fun k hk => ?_
    obtain ⟨t, ht⟩ := mem_keys_iff.mp (List.mem_toFinset.mp hk)
    simp only [Finset.mem_filter, List.mem_toFinset, mem_keys_iff_conditions]
    exact ⟨(h.met k t ht).1, hbelow k t ht⟩

theorem condition (h : Admits l m) (key : String) : (m.get? key).map (·.condition) =
    if key ∈ smallestKeys MAX_RESOURCE_TARGETS l then some (decide (conditions l key = [true]))
    else none := by
  simp only [← h.mem_smallestKeys_iff]
  cases hget : m.get? key with
  | none => simp [contains, hget]
  | some target => simp [contains, hget, (h.met key target hget).2]

end Admits

/-- **Admission does not depend on the order.** The keys of the map are the smallest ones, a key
that occurs more than once has no condition, and a permutation changes neither. -/
theorem targets_admitted (l : List (String × ResourceAlertTarget)) :
    (∀ key, (insertTargets l).contains key = true ↔ key ∈ smallestKeys MAX_RESOURCE_TARGETS l) ∧
      (∀ key target, (insertTargets l).get? key = some target → 1 < (l.map Prod.fst).count key →
        target.condition = false) ∧
      ∀ l', l.Perm l' → ∀ key, ((insertTargets l').get? key).map (·.condition) =
        ((insertTargets l).get? key).map (·.condition) := by
  have hl := Admits.insertTargets l
  refine ⟨fun key => hl.mem_smallestKeys_iff, fun key target hget hmany => ?_,
    fun l' hperm key => ?_⟩
  · rw [(hl.met key target hget).2]
    refine decide_eq_false fun heq => ?_
    have hone := congrArg List.length heq
    rw [conditions, List.length_map, ← List.countP_eq_length_filter] at hone
    simp only [List.count, List.countP_map, Function.comp_def, beq_eq_decide] at hmany
    rw [hone] at hmany
    exact absurd hmany (by decide)
  · have hkeys : (l'.map Prod.fst).toFinset = (l.map Prod.fst).toFinset :=
      List.toFinset_eq_of_perm _ _ (hperm.map Prod.fst).symm
    have hconditions : conditions l' key = [true] ↔ conditions l key = [true] := by
      rw [← List.perm_singleton, ← List.perm_singleton]
      have hsame : (conditions l key).Perm (conditions l' key) := (hperm.filter _).map _
      exact ⟨hsame.trans, hsame.symm.trans⟩
    rw [(Admits.insertTargets l').condition, hl.condition, smallestKeys, smallestKeys, hkeys,
      decide_eq_decide.mpr hconditions]

end DamHopper.System
