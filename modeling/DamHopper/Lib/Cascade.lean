import DamHopper.Lib.AssocMap

/-!
# Cascade — rows that go with the row they refer to

A table whose rows may name another row of the table as their parent. Deleting rows deletes
the rows that name them, then the rows that name those, until no row is left without the row
it names. `Below` says which rows that concerns; `get?_cascade` says that these go and no
others.
-/

namespace DamHopper

open AssocMap

/-! ## Deleting with what refers to it -/

section

variable {κ ν : Type _} [DecidableEq κ] (parent : ν → Option κ)

/-- The keys of the rows that name one of `ks`. -/
def orphans (m : AssocMap κ ν) (ks : List κ) : List κ :=
  (m.retain fun _ v => (parent v).any (· ∈ ks)).keys

/-- Delete the rows `ks` and what refers to them, at most `fuel` levels down. -/
def cascade : Nat → AssocMap κ ν → List κ → AssocMap κ ν
  | 0, m, ks => m.retain fun k _ => k ∉ ks
  | fuel + 1, m, ks =>
    let kept := m.retain fun k _ => k ∉ ks
    let next := orphans parent kept ks
    if next = [] then kept else cascade fuel kept next

/-- Delete a row and what refers to it: no level is visited that has no row. -/
def deleteCascade (m : AssocMap κ ν) (k : κ) : AssocMap κ ν := cascade parent m.size m [k]

/-- A row that is one of `ks` or names a row that is below them. -/
inductive Below (m : AssocMap κ ν) (ks : List κ) : κ → Prop where
  | self {k : κ} (h : k ∈ ks) : Below m ks k
  | child {k p : κ} {v : ν} (hget : m.get? k = some v) (hp : parent v = some p)
      (h : Below m ks p) : Below m ks k

variable {parent} {m : AssocMap κ ν} {ks : List κ} {k k' : κ} {v : ν}

theorem mem_orphans_iff :
    k ∈ orphans parent m ks ↔ ∃ v p, m.get? k = some v ∧ parent v = some p ∧ p ∈ ks := by
  simp only [orphans, mem_keys_iff, get?_retain_eq_some_iff, Option.any_eq_true, decide_eq_true_eq,
    exists_and_left]

theorem get?_without_iff :
    (m.retain fun k _ => decide (k ∉ ks)).get? k = some v ↔ m.get? k = some v ∧ k ∉ ks := by
  rw [get?_retain_eq_some_iff, decide_eq_true_eq]

/-- One level down: what is below `ks` is one of them, or below those that name them. -/
theorem below_iff : Below parent m ks k ↔ k ∈ ks ∨ Below parent (m.retain fun k _ => k ∉ ks)
      (orphans parent (m.retain fun k _ => k ∉ ks) ks) k := by
  constructor
  · intro h
    induction h with
    | self h => exact .inl h
    | @child k p v hget hp _ ih =>
      by_cases hk : k ∈ ks
      · exact .inl hk
      have hkept := get?_without_iff.mpr ⟨hget, hk⟩
      rcases ih with hmem | hbelow
      · exact .inr (.self (mem_orphans_iff.mpr ⟨v, p, hkept, hp, hmem⟩))
      · exact .inr (.child hkept hp hbelow)
  · rintro (h | h)
    · exact .self h
    · induction h with
      | self h =>
        obtain ⟨v, p, hkept, hp, hmem⟩ := mem_orphans_iff.mp h
        exact .child (get?_without_iff.mp hkept).1 hp (.self hmem)
      | child hkept hp _ ih => exact .child (get?_without_iff.mp hkept).1 hp ih

theorem not_below_nil : ¬ Below parent m [] k := by
  intro h
  induction h with
  | self h => cases h
  | child _ _ _ ih => exact ih

theorem get?_cascade_iff {fuel : Nat} (hfuel : (m.retain fun k _ => k ∉ ks).size ≤ fuel) :
    (cascade parent fuel m ks).get? k = some v ↔ m.get? k = some v ∧ ¬ Below parent m ks k := by
  induction fuel generalizing m ks with
  | zero =>
    have hempty := size_eq_zero_iff.mp (Nat.le_zero.mp hfuel)
    rw [cascade, below_iff, not_or, ← and_assoc, ← get?_without_iff, hempty]
    simp
  | succ fuel ih =>
    -- the rows that remain here are the ones the next level starts from
    rw [cascade, below_iff, not_or, ← and_assoc, ← get?_without_iff]
    generalize (m.retain fun k _ => decide (k ∉ ks)) = kept at hfuel ⊢
    generalize hnext : orphans parent kept ks = next
    split_ifs with hnil
    · rw [hnil]
      exact (and_iff_left not_below_nil).symm
    obtain ⟨o, ho⟩ := List.exists_mem_of_ne_nil next hnil
    have hfewer : (kept.retain fun k _ => k ∉ next).size < kept.size := by
      apply size_retain_lt
      intro heq
      rw [← hnext] at ho
      obtain ⟨w, _, hget, _⟩ := mem_orphans_iff.mp ho
      rw [hnext] at ho
      rw [← heq] at hget
      exact (get?_without_iff.mp hget).2 ho
    exact ih (Nat.le_of_lt_succ (Nat.lt_of_lt_of_le hfewer hfuel))

/-- **Deletion is exact.** The rows that are left are those that are not below the deleted
one. -/
theorem get?_deleteCascade_iff : (deleteCascade parent m k).get? k' = some v ↔
    m.get? k' = some v ∧ ¬ Below parent m [k] k' :=
  get?_cascade_iff m.size_retain_le

/-- A row that is left has kept the row it names. -/
theorem deleteCascade_parent {p : κ} {w : ν}
    (hget : (deleteCascade parent m k').get? k = some v) (hp : parent v = some p)
    (hparent : m.get? p = some w) : (deleteCascade parent m k').get? p = some w := by
  rw [get?_deleteCascade_iff] at hget ⊢
  refine ⟨hparent, fun hbelow => hget.2 ?_⟩
  exact .child hget.1 hp hbelow

end

/-! ## Chains that descend in rank -/

section

variable {α : Type _} {R : α → α → Prop} {rank : α → Nat}

theorem chain_length_le (hrank : ∀ a b, R a b → rank b < rank a) {a : α} {rest : List α}
    (h : (a :: rest).IsChain R) : rest.length ≤ rank a := by
  induction rest generalizing a with
  | nil => exact Nat.zero_le _
  | cons b rest ih =>
    rw [List.isChain_cons_cons] at h
    have hlater := ih h.2
    have hhere := hrank a b h.1
    rw [List.length_cons]
    omega

theorem not_transGen_self (hrank : ∀ a b, R a b → rank b < rank a) (a : α) :
    ¬ Relation.TransGen R a a := by
  have hdescends : ∀ b, Relation.TransGen R a b → rank b < rank a := by
    intro b h
    induction h with
    | single h => exact hrank _ _ h
    | tail _ h ih => exact Nat.lt_trans (hrank _ _ h) ih
  exact fun h => Nat.lt_irrefl _ (hdescends a h)

end

end DamHopper
