import Mathlib.Data.List.Basic

/-!
# Runs — a state machine taking step after step

A machine is a function `step : σ → α → σ`; a run is a list of inputs. Two
ways of speaking about a whole run are used throughout: `Always P` (every
state of the run satisfies `P`, the first and the last included) and
`EveryStep C` (every input meets `C` in the state it is applied to). The rules
below pass from one to the other through what a single step does.
-/

namespace DamHopper

open List

section

variable {σ α : Type _} (step : σ → α → σ)

def run (s : σ) (inputs : List α) : σ := inputs.foldl step s

/-- `P` holds in every state of the run. -/
def Always (P : σ → Prop) : σ → List α → Prop
  | s, [] => P s
  | s, a :: rest => P s ∧ Always P (step s a) rest

/-- Every input of the run meets `C` in the state it is applied to. -/
def EveryStep (C : σ → α → Prop) : σ → List α → Prop
  | _, [] => True
  | s, a :: rest => C s a ∧ EveryStep C (step s a) rest

/-- What a run puts out, if each input puts out a list in the state it is applied to. -/
def outputs {β : Type _} (out : σ → α → List β) : σ → List α → List β
  | _, [] => []
  | s, a :: rest => out s a ++ outputs out (step s a) rest

variable {step} {P Q I : σ → Prop} {C : σ → α → Prop} {s : σ}

@[simp] theorem run_nil : run step s [] = s := rfl

@[simp] theorem run_cons {a : α} {rest : List α} :
    run step s (a :: rest) = run step (step s a) rest := rfl

theorem run_append {front back : List α} :
    run step s (front ++ back) = run step (run step s front) back := foldl_append

/-- A relation that every step respects, from the first state of a run to its last. -/
theorem run_related {R : σ → σ → Prop} (hrefl : ∀ s, R s s)
    (htrans : ∀ s t u, R s t → R t u → R s u) (hstep : ∀ s a, R s (step s a)) (s : σ)
    (inputs : List α) : R s (run step s inputs) := by
  induction inputs generalizing s with
  | nil => exact hrefl s
  | cons a rest ih => exact htrans _ _ _ (hstep s a) (ih (step s a))

variable {s : σ} {inputs : List α} {D : σ → α → Prop} {E : α → Prop}

theorem Always.head (h : Always step P s inputs) : P s := by
  cases inputs with
  | nil => exact h
  | cons a rest => exact h.1

theorem Always.mono (hPQ : ∀ s, P s → Q s) (h : Always step P s inputs) :
    Always step Q s inputs := by
  induction inputs generalizing s with
  | nil => exact hPQ s h
  | cons a rest ih => exact ⟨hPQ s h.1, ih h.2⟩

theorem Always.and (h : Always step P s inputs) (h' : Always step Q s inputs) :
    Always step (fun s => P s ∧ Q s) s inputs := by
  induction inputs generalizing s with
  | nil => exact ⟨h, h'⟩
  | cons a rest ih => exact ⟨⟨h.1, h'.1⟩, ih h.2 h'.2⟩

/-- What every input meets in every state. -/
theorem everyStep_all (h : ∀ s a, C s a) (s : σ) (inputs : List α) : EveryStep step C s inputs := by
  induction inputs generalizing s with
  | nil => trivial
  | cons a rest ih => exact ⟨h s a, ih (step s a)⟩

/-- **Invariant rule.** What every admissible step preserves holds throughout
an admissible run. -/
theorem always_of_everyStep (hstep : ∀ s a, I s → C s a → I (step s a)) (hs : I s)
    (h : EveryStep step C s inputs) :
    Always step I s inputs := by
  induction inputs generalizing s with
  | nil => exact hs
  | cons a rest ih => exact ⟨hs, ih (hstep s a hs h.1) h.2⟩

theorem EveryStep.mono (hCD : ∀ s a, C s a → D s a) (h : EveryStep step C s inputs) :
    EveryStep step D s inputs := by
  induction inputs generalizing s with
  | nil => trivial
  | cons a rest ih => exact ⟨hCD s a h.1, ih h.2⟩

theorem EveryStep.and (h : EveryStep step C s inputs) (h' : EveryStep step D s inputs) :
    EveryStep step (fun s a => C s a ∧ D s a) s inputs := by
  induction inputs generalizing s with
  | nil => trivial
  | cons a rest ih => exact ⟨⟨h.1, h'.1⟩, ih h.2 h'.2⟩

theorem everyStep_append_iff {front back : List α} : EveryStep step C s (front ++ back) ↔
      EveryStep step C s front ∧ EveryStep step C (run step s front) back := by
  induction front generalizing s with
  | nil => exact ⟨fun h => ⟨trivial, h⟩, fun h => h.2⟩
  | cons a rest ih =>
    show C s a ∧ EveryStep step C (step s a) (rest ++ back) ↔ _
    rw [ih]
    exact and_assoc.symm

/-- What holds of every admissible step from a state of the invariant holds of every step
of an admissible run. -/
theorem EveryStep.under (hstep : ∀ s a, I s → C s a → I (step s a))
    (hD : ∀ s a, I s → C s a → D s a) (hs : I s) (h : EveryStep step C s inputs) :
    EveryStep step D s inputs := by
  induction inputs generalizing s with
  | nil => trivial
  | cons a rest ih => exact ⟨hD s a hs h.1, ih (hstep s a hs h.1) h.2⟩

/-- A condition on the inputs alone. -/
theorem everyStep_forall_iff {D : α → Prop} :
    EveryStep step (fun _ a => D a) s inputs ↔ ∀ a ∈ inputs, D a := by
  induction inputs generalizing s with
  | nil => simp [EveryStep]
  | cons a rest ih => simp [EveryStep, ih]

/-- If a step from a good state into a good state is always admissible, a run
through good states is. -/
theorem everyStep_of_always (hstep : ∀ s a, P s → P (step s a) → C s a)
    (h : Always step P s inputs) : EveryStep step C s inputs := by
  induction inputs generalizing s with
  | nil => trivial
  | cons a rest ih => exact ⟨hstep s a h.1 h.2.head, ih h.2⟩

/-- Two conditions that agree under an invariant are met by the same runs over certain
inputs, if meeting them keeps the invariant. -/
theorem everyStep_congr_while (hkeep : ∀ s a, E a → I s → C s a → I (step s a))
    (hiff : ∀ s a, E a → I s → (C s a ↔ D s a)) (hs : I s) (hE : ∀ a ∈ inputs, E a) :
    EveryStep step C s inputs ↔ EveryStep step D s inputs := by
  induction inputs generalizing s with
  | nil => exact Iff.rfl
  | cons a rest ih =>
    have ha := hE a mem_cons_self
    have hrest : ∀ b ∈ rest, E b := fun b hb => hE b (mem_cons_of_mem _ hb)
    have hhere := hiff s a ha hs
    constructor
    · intro h
      exact ⟨hhere.mp h.1, (ih (hkeep s a ha hs h.1) hrest).mp h.2⟩
    · intro h
      have hc := hhere.mpr h.1
      exact ⟨hc, (ih (hkeep s a ha hs hc) hrest).mpr h.2⟩

/-- Under an invariant of the steps by certain inputs two conditions that agree are met
by the same runs over such inputs. -/
theorem everyStep_congr_within (hstep : ∀ s a, E a → I s → I (step s a))
    (hiff : ∀ s a, E a → I s → (C s a ↔ D s a)) (hs : I s) (hE : ∀ a ∈ inputs, E a) :
    EveryStep step C s inputs ↔ EveryStep step D s inputs :=
  everyStep_congr_while (fun s a ha hs _ => hstep s a ha hs) hiff hs hE

/-- Under an invariant of every step two conditions that agree are met by the same
runs. -/
theorem everyStep_congr (hstep : ∀ s a, I s → I (step s a)) (hiff : ∀ s a, I s → (C s a ↔ D s a))
    (hs : I s) (inputs : List α) :
    EveryStep step C s inputs ↔ EveryStep step D s inputs :=
  everyStep_congr_within (E := fun _ => True) (fun s a _ => hstep s a)
    (fun s a _ => hiff s a) hs fun _ _ => trivial

/-- **Exactness rule, along runs of a certain kind.** If a step of that kind from a good
state leads to a good state exactly when it is admissible, the runs through good states are
the admissible ones. -/
theorem always_iff_everyStep_while {E : σ → α → Prop} (hinv : ∀ s a, E s a → I s → I (step s a))
    (hiff : ∀ s a, E s a → I s → P s → (P (step s a) ↔ C s a)) (hs : I s) (hp : P s)
    (hE : EveryStep step E s inputs) :
    Always step P s inputs ↔ EveryStep step C s inputs := by
  induction inputs generalizing s with
  | nil => exact iff_of_true hp trivial
  | cons a rest ih =>
    have hhere := hiff s a hE.1 hs hp
    constructor
    · intro h
      have hnext := h.2.head
      exact ⟨hhere.mp hnext, (ih (hinv s a hE.1 hs) hnext hE.2).mp h.2⟩
    · intro h
      have hnext := hhere.mpr h.1
      exact ⟨hp, (ih (hinv s a hE.1 hs) hnext hE.2).mpr h.2⟩

/-- **Exactness rule, within certain inputs.** -/
theorem always_iff_everyStep_within (hinv : ∀ s a, E a → I s → I (step s a))
    (hiff : ∀ s a, E a → I s → P s → (P (step s a) ↔ C s a)) (hs : I s) (hp : P s)
    (hE : ∀ a ∈ inputs, E a) :
    Always step P s inputs ↔ EveryStep step C s inputs :=
  always_iff_everyStep_while (E := fun _ a => E a) hinv hiff hs hp (everyStep_forall_iff.mpr hE)

/-- **Exactness rule.** If a step from a good state leads to a good state exactly
when it is admissible, the runs through good states are the admissible ones. -/
theorem always_iff_everyStep (hinv : ∀ s a, I s → I (step s a))
    (hiff : ∀ s a, I s → P s → (P (step s a) ↔ C s a)) (hs : I s) (hp : P s) (inputs : List α) :
    Always step P s inputs ↔ EveryStep step C s inputs :=
  always_iff_everyStep_within (E := fun _ => True) (fun s a _ => hinv s a)
    (fun s a _ => hiff s a) hs hp fun _ _ => trivial

instance EveryStep.decidable [∀ s a, Decidable (C s a)] :
    ∀ (s : σ) (inputs : List α), Decidable (EveryStep step C s inputs)
  | _, [] => isTrue trivial
  | s, a :: rest =>
    have := EveryStep.decidable (step s a) rest
    inferInstanceAs (Decidable (_ ∧ _))

theorem Always.last (h : Always step P s inputs) : P (run step s inputs) := by
  induction inputs generalizing s with
  | nil => exact h
  | cons a rest ih => exact ih h.2

theorem invariant_run (hstep : ∀ s a, I s → C s a → I (step s a)) (hs : I s)
    (h : EveryStep step C s inputs) :
    I (run step s inputs) :=
  (always_of_everyStep hstep hs h).last

theorem always_all (hstep : ∀ s a, I s → I (step s a)) (inputs : List α) (hs : I s) :
    Always step I s inputs := by
  induction inputs generalizing s with
  | nil => exact hs
  | cons a rest ih => exact ⟨hs, ih (hstep s a hs)⟩

theorem invariant_run_all (hstep : ∀ s a, I s → I (step s a)) (inputs : List α) (hs : I s) :
    I (run step s inputs) :=
  (always_all hstep inputs hs).last

/-- What is put out from every state of an invariant is put out by a run. -/
theorem forall_mem_outputs {β : Type _} {out : σ → α → List β} {R : β → Prop}
    (hstep : ∀ s a, I s → I (step s a)) (hout : ∀ s a, I s → ∀ b ∈ out s a, R b) (hs : I s) :
    ∀ b ∈ outputs step out s inputs, R b := by
  induction inputs generalizing s with
  | nil => exact nofun
  | cons a rest ih => exact forall_mem_append.mpr ⟨hout s a hs, ih (hstep s a hs)⟩

end

end DamHopper
