import DamHopper.Lib.Runs

/-!
# Versions — a number that goes up with every change

A machine shows a `view` of its state and a `version`. `Stamped` says of one
step that the version does not go down and that the view is the same if the
version is. Then a version is a compare-and-swap token: whoever finds the version
it remembers knows that the view has not changed in between, not even for a
moment.
-/

namespace DamHopper

section

variable {σ α β : Type _} (version : σ → Nat) (view : σ → β)

/-- The version does not go down, and a change of the view makes it go up. -/
structure Stamped (s s' : σ) : Prop where
  le : version s ≤ version s'
  same : version s' = version s → view s' = view s

variable {version view} {step : σ → α → σ}

theorem Stamped.refl (s : σ) : Stamped version view s s := ⟨Nat.le_refl _, fun _ => rfl⟩

/-- A step that raises the version may change anything. -/
theorem Stamped.of_lt {s s' : σ} (h : version s < version s') : Stamped version view s s' :=
  ⟨Nat.le_of_lt h, fun heq => absurd heq (Nat.ne_of_gt h)⟩

theorem Stamped.lt {s s' : σ} (h : Stamped version view s s') (hne : view s' ≠ view s) :
    version s < version s' :=
  Nat.lt_of_le_of_ne h.le fun heq => hne (h.same heq.symm)

theorem Stamped.trans {s s' s'' : σ} (h : Stamped version view s s')
    (h' : Stamped version view s' s'') : Stamped version view s s'' where
  le := Nat.le_trans h.le h'.le
  same heq := by
    have hle := h.le
    have hle' := h'.le
    rw [h'.same (by omega), h.same (by omega)]

theorem stamped_run (hstep : ∀ s a, Stamped version view s (step s a)) (s : σ)
    (inputs : List α) : Stamped version view s (run step s inputs) := by
  induction inputs generalizing s with
  | nil => exact .refl s
  | cons a rest ih => exact (hstep s a).trans (ih (step s a))

/-- **A remembered version.** If the version after a run is the one before it, the
view was the same in every state of the run. -/
theorem always_view_of_version_eq (hstep : ∀ s a, Stamped version view s (step s a)) {s : σ}
    {inputs : List α} (h : version (run step s inputs) = version s) :
    Always step (fun t => view t = view s) s inputs := by
  -- the induction needs the view of the first state of the whole run
  have hgen : ∀ (inputs : List α) (t : σ), Stamped version view s t →
      version (run step t inputs) = version s →
      Always step (fun u => view u = view s) t inputs := by
    intro inputs
    induction inputs with
    | nil => exact fun t ht heq => ht.same heq
    | cons a rest ih =>
      intro t ht heq
      have hrun := (stamped_run hstep t (a :: rest)).le
      have hle := ht.le
      exact ⟨ht.same (by omega), ih (step t a) (ht.trans (hstep t a)) heq⟩
  exact hgen inputs s (.refl s) h

end

end DamHopper
