import Mathlib.Algebra.BigOperators.Group.List.Basic
import Mathlib.Algebra.Ring.Nat
import Mathlib.Data.List.Nodup
import Mathlib.Data.List.Induction
import Mathlib.Data.List.Sort

/-!
# AssocMap — finite maps as lists without repeated keys

A map is the list of its entries; the structure carries the proof that no key
occurs twice, so a lookup has one answer. The order of the entries is kept:
writing to a key that is present replaces the value where it stands, a new key is
appended. Statements about maps go through `get?`.
-/

namespace DamHopper

open List

/-- A finite map, its entries in order. -/
structure AssocMap (κ ν : Type _) where
  entries : List (κ × ν)
  nodup : (entries.map Prod.fst).Nodup
  deriving Repr

namespace AssocMap

section

variable {κ ν μ : Type _}
  {m n : AssocMap κ ν} {p : κ → ν → Bool} {entries l : List (κ × ν)} {k k' : κ} {v : ν}

@[ext] theorem ext (h : m.entries = n.entries) : m = n := by
  cases m
  cases h
  rfl

def empty : AssocMap κ ν := ⟨[], nodup_nil⟩

def keys (m : AssocMap κ ν) : List κ := m.entries.map Prod.fst

def values (m : AssocMap κ ν) : List ν := m.entries.map Prod.snd

def mapValues (m : AssocMap κ ν) (f : κ → ν → μ) : AssocMap κ μ where
  entries := m.entries.map fun e => (e.1, f e.1 e.2)
  nodup := by
    rw [map_map]
    exact m.nodup

def retain (m : AssocMap κ ν) (p : κ → ν → Bool) : AssocMap κ ν where
  entries := m.entries.filter fun e => p e.1 e.2
  nodup := m.nodup.sublist (filter_sublist.map _)

def size (m : AssocMap κ ν) : Nat := m.entries.length

@[simp] theorem size_empty : (empty : AssocMap κ ν).size = 0 := rfl

theorem size_eq_zero_iff : m.size = 0 ↔ m = empty := by
  rw [size, length_eq_zero_iff, AssocMap.ext_iff]
  rfl

theorem size_retain_le (m : AssocMap κ ν) : (m.retain p).size ≤ m.size := length_filter_le _ _

theorem size_retain_lt (h : m.retain p ≠ m) : (m.retain p).size < m.size :=
  Nat.lt_of_le_of_ne m.size_retain_le fun heq =>
    h (AssocMap.ext (filter_sublist.eq_of_length heq))

def total (m : AssocMap κ ν) (weight : ν → Nat) : Nat := (m.values.map weight).sum

variable {weight : ν → Nat} {w : ν} {f : κ → ν → μ}

@[simp] theorem total_empty : (empty : AssocMap κ ν).total weight = 0 := rfl

/-- The entries as a sorted map hands them out. -/
def inOrder [LinearOrder κ] (m : AssocMap κ ν) : List (κ × ν) :=
  m.entries.insertionSort fun a b => a.1 ≤ b.1

theorem inOrder_perm [LinearOrder κ] : m.inOrder.Perm m.entries := perm_insertionSort _ _

theorem inOrder_nodup [LinearOrder κ] : (m.inOrder.map Prod.fst).Nodup :=
  (m.inOrder_perm.map Prod.fst).nodup_iff.mpr m.nodup

variable [DecidableEq κ] {P : κ → ν → Prop} {e : κ × ν}

instance [DecidableEq ν] : DecidableEq (AssocMap κ ν) := fun m n =>
  decidable_of_iff (m.entries = n.entries)
    ⟨fun h => AssocMap.ext h, fun h => by rw [h]⟩

def get? (m : AssocMap κ ν) (k : κ) : Option ν :=
  (m.entries.find? fun e => e.1 = k).map Prod.snd

def contains (m : AssocMap κ ν) (k : κ) : Bool := (m.get? k).isSome

def erase (m : AssocMap κ ν) (k : κ) : AssocMap κ ν where
  entries := m.entries.filter fun e => e.1 ≠ k
  nodup := by
    refine m.nodup.sublist (List.Sublist.map _ ?_)
    exact filter_sublist

/-- Replace the value of a key that is present. -/
def replace (entries : List (κ × ν)) (k : κ) (v : ν) : List (κ × ν) :=
  entries.map fun e => if e.1 = k then (k, v) else e

theorem replace_keys : (replace entries k v).map Prod.fst = entries.map Prod.fst := by
  rw [replace, map_map]
  refine map_congr_left fun e _ => ?_
  by_cases h : e.1 = k <;> simp [h]

theorem replace_of_notMem (h : k ∉ entries.map Prod.fst) (v : ν) :
    replace entries k v = entries := by
  refine (map_congr_left fun e he => if_neg ?_).trans (map_id _)
  intro heq
  exact h (heq ▸ mem_map_of_mem (f := Prod.fst) he)

/-- Write a value: in place if the key is present, at the end otherwise. -/
def insert (m : AssocMap κ ν) (k : κ) (v : ν) : AssocMap κ ν where
  entries := if k ∈ m.keys then replace m.entries k v else m.entries ++ [(k, v)]
  nodup := by
    split_ifs with h
    · rw [replace_keys]
      exact m.nodup
    · rw [map_append, map_singleton, ← concat_eq_append]
      exact m.nodup.concat h

/-! ## Lookups -/

theorem get?_eq_some_iff : m.get? k = some v ↔ (k, v) ∈ m.entries := by
  have hkey {e : κ × ν} (h : (m.entries.find? fun e => e.1 = k) = some e) : e.1 = k := by
    simpa using find?_some h
  rw [get?, Option.map_eq_some_iff]
  constructor
  · rintro ⟨e, hfind, rfl⟩
    rw [← hkey hfind]
    exact mem_of_find?_eq_some hfind
  · intro h
    cases hfind : m.entries.find? fun e => e.1 = k with
    | none => simpa using find?_eq_none.mp hfind _ h
    | some e =>
      have heq := inj_on_of_nodup_map m.nodup (mem_of_find?_eq_some hfind) h (hkey hfind)
      exact ⟨e, rfl, congrArg Prod.snd heq⟩

/-- Only the entries need to be looked at. -/
instance decidableForall {p : κ → ν → Prop} [∀ k v, Decidable (p k v)] :
    Decidable (∀ k v, m.get? k = some v → p k v) :=
  decidable_of_iff (∀ e ∈ m.entries, p e.1 e.2)
    ⟨fun h k v hget => h (k, v) (get?_eq_some_iff.mp hget),
      fun h e he => h e.1 e.2 (get?_eq_some_iff.mpr he)⟩

theorem get?_eq_none_iff : m.get? k = none ↔ k ∉ m.keys := by
  simp [Option.eq_none_iff_forall_ne_some, get?_eq_some_iff, keys]

theorem mem_keys_iff : k ∈ m.keys ↔ ∃ v, m.get? k = some v := by
  rw [← Option.ne_none_iff_exists', Ne, get?_eq_none_iff, not_not]

theorem mem_values_iff : v ∈ m.values ↔ ∃ k, m.get? k = some v := by
  simp [values, get?_eq_some_iff]

@[simp] theorem get?_empty : (empty : AssocMap κ ν).get? k = none := rfl

theorem get?_congr (h : ∀ v, (k, v) ∈ m.entries ↔ (k, v) ∈ n.entries) : m.get? k = n.get? k := by
  refine Option.ext fun v => ?_
  rw [get?_eq_some_iff, get?_eq_some_iff]
  exact h v

theorem mem_replace : e ∈ replace entries k v ↔
      (e ∈ entries ∧ e.1 ≠ k) ∨ (e = (k, v) ∧ k ∈ entries.map Prod.fst) := by
  unfold replace
  rw [mem_map]
  constructor
  · rintro ⟨e', he', rfl⟩
    split_ifs with hk
    · exact .inr ⟨rfl, hk ▸ mem_map_of_mem (f := Prod.fst) he'⟩
    · exact .inl ⟨he', hk⟩
  · rintro (⟨he, hk⟩ | ⟨rfl, hk⟩)
    · exact ⟨e, he, if_neg hk⟩
    · obtain ⟨e', he', hfst⟩ := mem_map.mp hk
      exact ⟨e', he', if_pos hfst⟩

@[simp] theorem get?_insert_self (m : AssocMap κ ν) (k : κ) (v : ν) :
    (m.insert k v).get? k = some v := by
  rw [get?_eq_some_iff]
  unfold insert
  split_ifs with hk
  · exact mem_replace.mpr (.inr ⟨rfl, hk⟩)
  · simp

theorem get?_insert_of_ne (m : AssocMap κ ν) (v : ν) (h : k' ≠ k) :
    (m.insert k v).get? k' = m.get? k' := by
  refine get?_congr fun w => ?_
  unfold insert
  split
  · simp [mem_replace, h]
  · simp [h]

theorem get?_insert : (m.insert k v).get? k' = if k' = k then some v else m.get? k' := by
  split_ifs with h
  · rw [h, get?_insert_self]
  · exact get?_insert_of_ne m v h

theorem insert_insert : (m.insert k v).insert k w = m.insert k w := by
  have hkey : k ∈ (m.insert k v).keys := mem_keys_iff.mpr ⟨v, get?_insert_self m k v⟩
  apply AssocMap.ext
  show (if k ∈ (m.insert k v).keys then replace (m.insert k v).entries k w
    else (m.insert k v).entries ++ [(k, w)]) = (m.insert k w).entries
  rw [if_pos hkey]
  unfold insert
  dsimp only
  split_ifs with hk
  · unfold replace
    rw [map_map]
    refine map_congr_left fun e _ => ?_
    by_cases he : e.1 = k <;> simp [he]
  · have hsame := replace_of_notMem hk w
    unfold replace at hsame ⊢
    simp [map_append, hsame]

theorem entries_insert_of_get? (h : m.get? k = some v) :
    (m.insert k w).entries = replace m.entries k w :=
  if_pos (mem_keys_iff.mpr ⟨v, h⟩)

theorem insert_of_get? (h : m.get? k = some v) : m.insert k v = m := by
  apply AssocMap.ext
  rw [entries_insert_of_get? h]
  refine (map_congr_left fun e he => ?_).trans (map_id _)
  by_cases hk : e.1 = k
  · have hfound : m.get? k = some e.2 := get?_eq_some_iff.mpr (by rw [← hk]; exact he)
    rw [if_pos hk, ← Option.some.inj (hfound.symm.trans h), ← hk]
    rfl
  · simp [if_neg hk]

theorem get?_erase : (m.erase k).get? k' = if k' = k then none else m.get? k' := by
  refine Option.ext fun w => ?_
  split_ifs with h <;> simp [get?_eq_some_iff, erase, h]

@[simp] theorem get?_erase_self : (m.erase k).get? k = none := by
  rw [get?_erase, if_pos rfl]

theorem get?_erase_of_ne (m : AssocMap κ ν) (h : k' ≠ k) : (m.erase k).get? k' = m.get? k' := by
  rw [get?_erase, if_neg h]

theorem erase_of_get?_none (h : m.get? k = none) : m.erase k = m := by
  refine AssocMap.ext (filter_eq_self.mpr fun e he => ?_)
  rw [get?_eq_none_iff] at h
  simpa using fun hk : e.1 = k => h (hk ▸ mem_map_of_mem he)

theorem get?_of_erase (h : (m.erase k).get? k' = some v) : m.get? k' = some v := by
  rw [get?_erase] at h
  split at h
  · cases h
  · exact h

theorem forall_insert_iff :
    (∀ k' v', (m.insert k v).get? k' = some v' → P k' v') ↔
      P k v ∧ ∀ k' v', k' ≠ k → m.get? k' = some v' → P k' v' := by
  constructor
  · intro h
    refine ⟨h k v (get?_insert_self _ _ _), fun k' v' hne hget => h k' v' ?_⟩
    rwa [get?_insert_of_ne _ _ hne]
  · rintro ⟨hv, h⟩ k' v' hget
    rw [get?_insert] at hget
    split_ifs at hget with heq
    · cases hget
      exact heq ▸ hv
    · exact h k' v' heq hget

/-- What holds of every entry still does after the insertion of one more. -/
theorem forall_insert (h : ∀ k v, m.get? k = some v → P k v) (hv : P k v) :
    ∀ k' v', (m.insert k v).get? k' = some v' → P k' v' :=
  forall_insert_iff.mpr ⟨hv, fun k' v' _ => h k' v'⟩

theorem get?_mapValues : (m.mapValues f).get? k = (m.get? k).map (f k) := by
  refine Option.ext fun w => ?_
  simp [get?_eq_some_iff, mapValues]

/-- A write that `f` does not see. -/
theorem mapValues_erase : (m.erase k).mapValues f = (m.mapValues f).erase k := by
  refine ext ?_
  simp only [erase, mapValues, filter_map, Function.comp_def]

theorem mapValues_insert_of_get? (h : m.get? k = some v) (hf : f k w = f k v) :
    (m.insert k w).mapValues f = m.mapValues f := by
  apply AssocMap.ext
  show ((m.insert k w).entries.map fun e => (e.1, f e.1 e.2)) =
    m.entries.map fun e => (e.1, f e.1 e.2)
  rw [entries_insert_of_get? h, replace, map_map]
  refine map_congr_left fun e he => ?_
  by_cases hk : e.1 = k
  · have hv : e.2 = v := by
      have hmem : (k, e.2) ∈ m.entries := by rw [← hk]; exact he
      rw [get?_eq_some_iff.mpr hmem] at h
      exact Option.some.inj h
    simp [hk, hf, hv]
  · simp [hk]

/-! ## Filtering -/

theorem get?_retain : (m.retain p).get? k = (m.get? k).filter (p k) := by
  refine Option.ext fun v => ?_
  rw [get?_eq_some_iff, Option.filter_eq_some_iff, get?_eq_some_iff]
  exact mem_filter

theorem get?_retain_eq_some_iff :
    (m.retain p).get? k = some v ↔ m.get? k = some v ∧ p k v = true := by
  rw [get?_retain, Option.filter_eq_some_iff]

/-- A write puts one entry in the place of those that the key had. -/
theorem insert_perm : (m.insert k v).entries.Perm ((k, v) :: (m.erase k).entries) := by
  have hnew : (k, v) ∉ (m.erase k).entries := by simp [erase]
  rw [perm_ext_iff_of_nodup (m.insert k v).nodup.of_map
    (nodup_cons.mpr ⟨hnew, (m.erase k).nodup.of_map⟩)]
  rintro ⟨k', v'⟩
  rw [mem_cons, ← get?_eq_some_iff, ← get?_eq_some_iff, get?_insert, get?_erase]
  split_ifs with h <;> simp [h, @eq_comm _ v]

theorem size_insert : (m.insert k v).size = (m.erase k).size + 1 := insert_perm.length_eq

theorem size_erase_of_get? (h : m.get? k = some v) : (m.erase k).size + 1 = m.size := by
  rw [← size_insert, insert_of_get? h]

theorem size_insert_of_get? (h : m.get? k = some v) : (m.insert k w).size = m.size := by
  rw [size_insert, size_erase_of_get? h]

theorem size_insert_of_get?_none (h : m.get? k = none) : (m.insert k v).size = m.size + 1 := by
  rw [size_insert, erase_of_get?_none h]

theorem contains_iff : m.contains k = true ↔ ∃ v, m.get? k = some v := by
  rw [contains, Option.isSome_iff_exists]

theorem size_erase_le (m : AssocMap κ ν) (k : κ) : (m.erase k).size ≤ m.size :=
  length_filter_le _ _

theorem size_insert_le (m : AssocMap κ ν) (k : κ) (v : ν) : (m.insert k v).size ≤ m.size + 1 := by
  rw [size_insert]
  exact Nat.succ_le_succ (m.size_erase_le k)

theorem eq_empty_iff : m = empty ↔ ∀ k, m.contains k = false := by
  constructor
  · intro h k
    rw [h]
    rfl
  · intro h
    refine AssocMap.ext (eq_nil_iff_forall_not_mem.mpr fun e he => ?_)
    have hkey : m.contains e.1 = true := contains_iff.mpr ⟨e.2, get?_eq_some_iff.mpr he⟩
    rw [h e.1] at hkey
    cases hkey

theorem contains_mapValues : (m.mapValues f).contains = m.contains := by
  funext k
  rw [contains, get?_mapValues, Option.isSome_map, contains]

theorem contains_insert : (m.insert k v).contains k' = (m.contains k' || decide (k' = k)) := by
  by_cases h : k' = k <;> simp [contains, get?_insert, h]

theorem contains_erase : (m.erase k).contains k' = (m.contains k' && decide (k' ≠ k)) := by
  by_cases h : k' = k <;> simp [contains, get?_erase, h]

theorem insert_ne_empty : m.insert k v ≠ empty := by
  intro h
  have hget := get?_insert_self m k v
  simp [h] at hget

/-- A map is emptied by removing its only key. -/
theorem erase_eq_empty_iff : m.erase k = empty ↔ ∀ k', m.contains k' = true → k' = k := by
  rw [eq_empty_iff]
  refine forall_congr' fun k' => ?_
  rw [contains_erase]
  simp

/-! ## Totals -/

theorem total_insert : (m.insert k v).total weight = (m.erase k).total weight + weight v := by
  rw [total, values, ((insert_perm.map _).map _).sum_eq, Nat.add_comm]
  rfl

theorem total_erase (h : m.get? k = some v) (weight : ν → Nat) :
    (m.erase k).total weight + weight v = m.total weight := by
  rw [← total_insert, insert_of_get? h]

theorem total_insert_of_get?_none (h : m.get? k = none) (v : ν) (weight : ν → Nat) :
    (m.insert k v).total weight = m.total weight + weight v := by
  rw [total_insert, erase_of_get?_none h]

theorem total_insert_of_get? (h : m.get? k = some v) (w : ν) (weight : ν → Nat) :
    (m.insert k w).total weight + weight v = m.total weight + weight w := by
  rw [total_insert, ← total_erase h, Nat.add_right_comm]

theorem le_total (h : m.get? k = some v) (weight : ν → Nat) : weight v ≤ m.total weight := by
  rw [← total_erase h weight]
  exact Nat.le_add_left _ _

/-! ## Maps from lists -/

/-- Write the entries one after the other: of two entries for one key, the later
value wins. -/
def ofList (l : List (κ × ν)) : AssocMap κ ν := l.foldl (fun m e => m.insert e.1 e.2) empty

theorem get?_foldl_insert : (l.foldl (fun m e => m.insert e.1 e.2) m).get? k =
      ((ofList l).get? k).or (m.get? k) := by
  induction l using reverseRecOn with
  | nil => simp [ofList]
  | append_singleton l e ih =>
    simp only [ofList, foldl_append, foldl_cons, foldl_nil, get?_insert] at ih ⊢
    split
    · simp
    · exact ih

theorem get?_ofList_cons : (ofList ((k', v) :: l)).get? k =
      ((ofList l).get? k).or (if k = k' then some v else none) := by
  rw [ofList, foldl_cons, get?_foldl_insert, get?_insert, get?_empty]

theorem mem_of_get?_ofList (h : (ofList l).get? k = some v) : (k, v) ∈ l := by
  induction l with
  | nil => cases h
  | cons e l ih =>
    rw [get?_ofList_cons] at h
    rcases Option.or_eq_some_iff.mp h with hrest | ⟨_, hhead⟩
    · exact mem_cons_of_mem _ (ih hrest)
    split at hhead
    next hk =>
      cases hhead
      rw [hk]
      exact mem_cons_self
    · cases hhead

theorem entries_foldl_insert (h : (m.keys ++ l.map Prod.fst).Nodup) :
    (l.foldl (fun m e => m.insert e.1 e.2) m).entries = m.entries ++ l := by
  induction l generalizing m with
  | nil => simp
  | cons e l ih =>
    have hnew : e.1 ∉ m.keys := by
      intro hmem
      exact (nodup_append.mp h).2.2 _ hmem _ mem_cons_self rfl
    have hinsert : (m.insert e.1 e.2).entries = m.entries ++ [e] := if_neg hnew
    have hkeys : (m.insert e.1 e.2).keys = m.keys ++ [e.1] := by
      simp [keys, hinsert, map_append]
    rw [foldl_cons, ih, hinsert]
    · simp
    · rw [hkeys]
      simpa using h

/-- A list without repeated keys is the list of entries of its map. -/
theorem entries_ofList (h : (l.map Prod.fst).Nodup) : (ofList l).entries = l := by
  have hentries := entries_foldl_insert (m := empty) (l := l) (by simpa [keys, empty] using h)
  simpa [ofList, empty] using hentries

theorem ofList_entries : ofList m.entries = m := AssocMap.ext (entries_ofList m.nodup)

/-! ## Reading in the order of the keys -/

theorem mem_inOrder [LinearOrder κ] : e ∈ m.inOrder ↔ m.get? e.1 = some e.2 := by
  rw [m.inOrder_perm.mem_iff, get?_eq_some_iff]

end

end AssocMap

end DamHopper
