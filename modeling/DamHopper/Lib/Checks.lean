import Mathlib.Data.List.Forall2

/-!
# Checks — sequences of checks in `Except`

A validator is a `do` block of checks that stop at the first failure. These
rules read off what is known once it has succeeded.
-/

namespace DamHopper

open List

section

variable {ε α β : Type _} {x : Except ε α} {f : α → Except ε β} {b : β} {a : α} {as : List α}
  {bs done : List β} {γ : Type _} {error : ε} {u : Unit}

theorem bind_eq_ok_iff : (x >>= f) = .ok b ↔ ∃ a, x = .ok a ∧ f a = .ok b := by
  cases x <;> simp [bind, Except.bind]

/-- A check that has nothing to return: what follows runs if it succeeds. -/
theorem check_bind_eq_ok_iff {x : Except ε Unit} {f : Unit → Except ε β} :
    (x >>= f) = .ok b ↔ x = .ok () ∧ f () = .ok b := by
  rw [bind_eq_ok_iff]
  exact ⟨fun ⟨_, h⟩ => h, fun h => ⟨(), h⟩⟩

def require (condition : Prop) [Decidable condition] (error : ε) : Except ε Unit :=
  if condition then .ok () else .error error

theorem require_eq_ok_iff {condition : Prop} [Decidable condition] :
    require condition error = .ok u ↔ condition := by
  unfold require
  split_ifs with h <;> simp [h]

def expect (reading : Option α) (error : ε) : Except ε α := reading.elim (.error error) .ok

theorem expect_eq_ok_iff {reading : Option α} :
    expect reading error = .ok a ↔ reading = some a := by
  cases reading <;> simp [expect]

theorem pure_eq_ok_iff {b : α} : (pure a : Except ε α) = .ok b ↔ a = b := by
  simp [pure, Except.pure]

/-- An error under another message. -/
theorem mapError_eq_ok_iff {ε' : Type _} {f : ε → ε'} : x.mapError f = .ok a ↔ x = .ok a := by
  cases x with
  | ok b | error e => simp [Except.mapError]

/-! ## Loops -/

/-- A loop that may fail succeeds exactly if every pass does. -/
theorem mapM_eq_pure_iff {m : Type _ → Type _} [Monad m] [LawfulMonad m] {f : α → m β}
    (hpure : ∀ {γ} {c d : γ}, (pure c : m γ) = pure d → c = d)
    (hbind : ∀ {γ δ} {x : m γ} {g : γ → m δ} {d}, x >>= g = pure d ↔
      ∃ c, x = pure c ∧ g c = pure d) : as.mapM f = pure bs ↔ as.map f = bs.map pure := by
  induction as generalizing bs with
  | nil =>
    rw [mapM_nil, map_nil, nil_eq, map_eq_nil_iff]
    exact ⟨fun h => (hpure h).symm, fun h => by rw [h]⟩
  | cons a as ih =>
    simp only [mapM_cons, hbind]
    constructor
    · rintro ⟨b, hb, bs', hbs, heq⟩
      rw [← hpure heq, map_cons, map_cons, hb, ih.mp hbs]
    · intro h
      cases bs with
      | nil => cases h
      | cons b bs =>
        rw [map_cons, map_cons, cons.injEq] at h
        exact ⟨b, h.1, bs, ih.mpr h.2, rfl⟩

theorem mapM_eq_some_iff {f : α → Option β} : as.mapM f = some bs ↔ as.map f = bs.map some :=
  mapM_eq_pure_iff Option.some.inj Option.bind_eq_some_iff

theorem mapM_eq_ok_iff : as.mapM f = .ok bs ↔ as.map f = bs.map .ok :=
  mapM_eq_pure_iff Except.ok.inj bind_eq_ok_iff

theorem exists_mapM_ok (h : ∀ a ∈ as, ∃ b, f a = .ok b) : ∃ bs, as.mapM f = .ok bs := by
  induction as with
  | nil => exact ⟨[], rfl⟩
  | cons a as ih =>
    rw [forall_mem_cons] at h
    obtain ⟨b, hb⟩ := h.1
    obtain ⟨bs, hbs⟩ := ih h.2
    refine ⟨b :: bs, mapM_eq_ok_iff.mpr ?_⟩
    rw [map_cons, map_cons, hb, mapM_eq_ok_iff.mp hbs]

theorem mapM_map_reads {f : α → Option β} {write : β → α} {bs' : List β}
    (hf : ∀ b b', f (write b) = some b' → b' = b) (h : (bs.map write).mapM f = some bs') :
    bs' = bs := by
  rw [mapM_eq_some_iff] at h
  induction bs generalizing bs' with
  | nil =>
    rw [map_nil, map_nil, nil_eq, map_eq_nil_iff] at h
    exact h
  | cons b bs ih =>
    cases bs' with
    | nil => cases h
    | cons b' bs' =>
      simp only [map_cons, cons.injEq] at h
      rw [hf b b' h.1, ih h.2]

def checkAll (check : α → Except ε Unit) : List α → Except ε Unit
  | [] => pure ()
  | a :: rest => do
      check a
      checkAll check rest

theorem checkAll_eq_ok_iff {check : α → Except ε Unit} :
    checkAll check as = .ok u ↔ ∀ a ∈ as, check a = .ok () := by
  induction as with
  | nil => exact iff_of_true rfl fun a ha => nomatch ha
  | cons a rest ih => rw [checkAll, check_bind_eq_ok_iff, ih, forall_mem_cons]

/-- Check the elements in order; a check sees what the earlier ones returned. -/
def checkEach (check : List β → α → Except ε β) : List β → List α → Except ε (List β)
  | _, [] => pure []
  | done, a :: rest => do
      let b ← check done a
      let bs ← checkEach check (done ++ [b]) rest
      pure (b :: bs)

variable {check : List β → α → Except ε β} {result : γ → β} {xs : List γ}

theorem checkEach_cons_eq_ok_iff {rest : List α} : checkEach check done (a :: rest) = .ok bs ↔
      ∃ b bs', check done a = .ok b ∧ checkEach check (done ++ [b]) rest = .ok bs' ∧
        b :: bs' = bs := by
  simp only [checkEach, bind_eq_ok_iff, pure_eq_ok_iff, exists_and_left]

/-- **Invariant rule.** What every check that succeeds preserves holds of the
results of the loop. -/
theorem checkEach_invariant {I : List β → Prop}
    (hcheck : ∀ done a b, I done → check done a = .ok b → I (done ++ [b])) (hdone : I done)
    (h : checkEach check done as = .ok bs) : I (done ++ bs) := by
  induction as generalizing done bs with
  | nil =>
    rw [checkEach, pure_eq_ok_iff] at h
    rw [← h, append_nil]
    exact hdone
  | cons a rest ih =>
    obtain ⟨b, bs', hb, hbs, rfl⟩ := checkEach_cons_eq_ok_iff.mp h
    have hrest := ih (hcheck done a b hdone hb) hbs
    rwa [append_assoc] at hrest

theorem exists_of_mem_checkEach (h : checkEach check done as = .ok bs) (hb : b ∈ bs) :
    ∃ done, ∃ a ∈ as, check done a = .ok b := by
  induction as generalizing done bs with
  | nil =>
    rw [checkEach, pure_eq_ok_iff] at h
    rw [← h] at hb
    cases hb
  | cons a rest ih =>
    obtain ⟨b', bs', hb', hbs, rfl⟩ := checkEach_cons_eq_ok_iff.mp h
    rcases mem_cons.mp hb with rfl | hmem
    · exact ⟨done, a, mem_cons_self, hb'⟩
    · obtain ⟨done', a', ha', hcheck⟩ := ih hbs hmem
      exact ⟨done', a', mem_cons_of_mem _ ha', hcheck⟩

/-- The results stand in the order of the elements. -/
theorem checkEach_map_eq {f : α → γ} {g : β → γ}
    (hcheck : ∀ done a b, check done a = .ok b → g b = f a) (h : checkEach check done as = .ok bs) :
    bs.map g = as.map f := by
  induction as generalizing done bs with
  | nil =>
    rw [checkEach, pure_eq_ok_iff] at h
    simp [← h]
  | cons a rest ih =>
    obtain ⟨b, bs', hb, hbs, rfl⟩ := checkEach_cons_eq_ok_iff.mp h
    rw [map_cons, map_cons, hcheck done a b hb, ih hbs]

/-- Written values are read as they should be if each check accepts its own. -/
theorem checkEach_map {write : γ → α} (hcheck : ∀ before x after, xs = before ++ x :: after →
      check (done ++ before.map result) (write x) = .ok (result x)) :
    checkEach check done (xs.map write) = .ok (xs.map result) := by
  induction xs generalizing done with
  | nil => rfl
  | cons x xs ih =>
    rw [map_cons, checkEach_cons_eq_ok_iff]
    refine ⟨result x, xs.map result, ?_, ih fun before x' after heq => ?_, rfl⟩
    · simpa using hcheck [] x xs rfl
    · simpa using hcheck (x :: before) x' after (by rw [heq]; rfl)

/-- Nothing but what was written is read. -/
theorem checkEach_map_reads {write : γ → α}
    (hcheck : ∀ done x b, check done (write x) = .ok b → b = result x)
    (h : checkEach check done (xs.map write) = .ok bs) : bs = xs.map result := by
  induction xs generalizing done bs with
  | nil =>
    rw [map_nil, checkEach, pure_eq_ok_iff] at h
    exact h.symm
  | cons x xs ih =>
    obtain ⟨b, bs', hb, hbs, rfl⟩ := checkEach_cons_eq_ok_iff.mp h
    rw [map_cons, hcheck done x b hb, ih hbs]

/-- Two runs over lists that are related element by element return related results. -/
theorem checkEach_forall₂ {α' β' : Type _} {check' : List β' → α' → Except ε β'}
    {R : α → α' → Prop} {S : β → β' → Prop}
    (hcheck : ∀ done done' a a' b b', R a a' → check done a = .ok b → check' done' a' = .ok b' →
      S b b')
    {as' : List α'} (has : List.Forall₂ R as as') {done' bs' : List β'}
    (h : checkEach check done as = .ok bs) (h' : checkEach check' done' as' = .ok bs') :
    List.Forall₂ S bs bs' := by
  induction has generalizing done bs done' bs' with
  | nil =>
    rw [checkEach, pure_eq_ok_iff] at h h'
    rw [← h, ← h']
    exact .nil
  | cons ha has ih =>
    obtain ⟨b, rest, hb, hrest, rfl⟩ := checkEach_cons_eq_ok_iff.mp h
    obtain ⟨b', rest', hb', hrest', rfl⟩ := checkEach_cons_eq_ok_iff.mp h'
    exact .cons (hcheck _ _ _ _ _ _ ha hb hb') (ih hrest hrest')

end

end DamHopper
