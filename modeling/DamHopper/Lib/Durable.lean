import Mathlib.Data.List.Basic

/-!
# Durable — commands that a crash can cut short

A command changes a disk by *durable* steps, each of which either happens or is
the point at which the process dies. Between them it makes *checks* on its
surroundings, which may fail; a failed check ends the command with an error that
it may handle, death ends it for good. How each step goes is read from a list of
fates (an exhausted list means that all goes well), so a result about every list
of fates is a result about a crash at every point. A command keeps the log of
its durable steps, which is what two-state properties are stated about.

`wp` is the weakest precondition of a command under an invariant `J` of every
disk and a relation `R` that every durable step must respect; its rules follow
the constructs in which commands are written.
-/

namespace DamHopper

/-- Why a command ended early. -/
inductive Stop
  | failed
  | died
  deriving DecidableEq, Repr

/-- A disk with a process at work on it. -/
structure World (σ : Type _) where
  disk : σ
  fates : List Bool := []
  /-- The durable steps so far, newest first: the disk before and after each. -/
  log : List (σ × σ) := []

abbrev Cmd (σ : Type) (α : Type) := ExceptT Stop (StateM (World σ)) α

namespace Cmd

variable {σ α β : Type}

/-- The command at work on a disk: its result and the world it leaves. -/
def exec (m : Cmd σ α) (w : World σ) : Except Stop α × World σ := m.run.run w

def read : Cmd σ σ := fun w => (.ok w.disk, w)

def fail : Cmd σ α := fun w => (.error .failed, w)

/-- One durable step. -/
def durable (f : σ → σ) : Cmd σ Unit := fun w =>
  if w.fates.headD true then
    (.ok (), ⟨f w.disk, w.fates.tail, (w.disk, f w.disk) :: w.log⟩)
  else (.error .died, { w with fates := w.fates.tail })

/-- Something outside the disk that may go wrong. -/
def check : Cmd σ Unit := fun w =>
  (if w.fates.headD true then .ok () else .error .failed, { w with fates := w.fates.tail })

/-- Something about the disk that must hold. -/
def require (p : σ → Prop) [DecidablePred p] : Cmd σ Unit := fun w =>
  (if p w.disk then .ok () else .error .failed, w)

def onlyIf (b : Prop) [Decidable b] (m : Cmd σ Unit) : Cmd σ Unit := if b then m else pure ()

/-- A check after which, if it fails, `h` is done before the error is returned. -/
def checkOr (h : Cmd σ Unit) : Cmd σ Unit := fun w =>
  if w.fates.headD true then (.ok (), { w with fates := w.fates.tail })
  else (h >>= fun _ => fail).exec { w with fates := w.fates.tail }

/-- `m`, and `h` if `m` failed; nobody handles death. -/
def orElse (m h : Cmd σ α) : Cmd σ α := fun w =>
  match m.exec w with
  | (.error .failed, w') => h.exec w'
  | r => r

/-- What every disk and every durable step so far satisfies. -/
def Sound (J : σ → Prop) (R : σ → σ → Prop) (w : World σ) : Prop :=
  J w.disk ∧ ∀ p ∈ w.log, R p.1 p.2

/-- From `d`, `m` keeps `J` and `R` whatever its fates, and ends in `Q` if it succeeds. -/
def wp (J : σ → Prop) (R : σ → σ → Prop) (m : Cmd σ α) (Q : α → σ → Prop) (d : σ) : Prop :=
  ∀ w, w.disk = d → Sound J R w → Sound J R (m.exec w).2 ∧
    ∀ a, (m.exec w).1 = .ok a → Q a (m.exec w).2.disk

variable {J : σ → Prop} {R : σ → σ → Prop} {m : Cmd σ α} {k : α → Cmd σ β}
  {Q : α → σ → Prop} {S : β → σ → Prop} {d : σ}

theorem exec_bind {w : World σ} : (m >>= k).exec w = match m.exec w with
    | (.ok a, w') => (k a).exec w'
    | (.error e, w') => (.error e, w') := by
  unfold exec ExceptT.run StateT.run
  simp only [bind, ExceptT.bind, ExceptT.mk, StateT.bind]
  cases m w with
  | mk r w' => cases r <;> rfl

/-- The invariant holds of the disk a command starts from. -/
theorem wp_of_inv (h : J d → wp J R m Q d) : wp J R m Q d := by
  rintro w rfl hw
  exact h hw.1 w rfl hw

theorem wp_mono {T : α → σ → Prop} (hQ : ∀ a d, J d → Q a d → T a d) (h : wp J R m Q d) :
    wp J R m T d := by
  intro w hd hw
  obtain ⟨hsound, hok⟩ := h w hd hw
  exact ⟨hsound, fun a ha => hQ a _ hsound.1 (hok a ha)⟩

theorem wp_bind (h : wp J R m (fun a d' => wp J R (k a) S d') d) : wp J R (m >>= k) S d := by
  intro w hd hw
  obtain ⟨hsound, hok⟩ := h w hd hw
  rw [exec_bind]
  cases hm : m.exec w with
  | mk r w' =>
    rw [hm] at hsound hok
    cases r with
    | ok a => exact hok a rfl w' rfl hsound
    | error e => exact ⟨hsound, nofun⟩

/-- Two commands one after the other, through what the first one ensures. -/
theorem wp_then (hm : wp J R m Q d) (hk : ∀ a d', J d' → Q a d' → wp J R (k a) S d') :
    wp J R (m >>= k) S d :=
  wp_bind (wp_mono hk hm)

theorem wp_pure {a : α} (h : Q a d) : wp J R (pure a) Q d := by
  rintro w rfl hw
  refine ⟨hw, fun b hb => ?_⟩
  cases hb
  exact h

theorem wp_read {Q : σ → σ → Prop} (h : Q d d) : wp J R read Q d := by
  rintro w rfl hw
  refine ⟨hw, fun b hb => ?_⟩
  cases hb
  exact h

theorem wp_fail : wp J R (fail : Cmd σ α) Q d := by
  rintro w rfl hw
  exact ⟨hw, nofun⟩

section

variable {Q : Unit → σ → Prop}

theorem wp_durable {f : σ → σ} (hJ : J (f d)) (hR : R d (f d)) (h : Q () (f d)) :
    wp J R (durable f) Q d := by
  rintro w rfl hw
  have hexec : (durable f).exec w = if w.fates.headD true then
      (.ok (), ⟨f w.disk, w.fates.tail, (w.disk, f w.disk) :: w.log⟩)
    else (.error .died, { w with fates := w.fates.tail }) := rfl
  rw [hexec]
  split
  · exact ⟨⟨hJ, List.forall_mem_cons.mpr ⟨hR, hw.2⟩⟩, fun _ _ => h⟩
  · exact ⟨hw, nofun⟩

theorem wp_check (h : Q () d) : wp J R check Q d := by
  rintro w rfl hw
  exact ⟨hw, fun _ _ => h⟩

theorem wp_require {p : σ → Prop} [DecidablePred p] (h : p d → Q () d) :
    wp J R (require p) Q d := by
  rintro w rfl hw
  refine ⟨hw, fun _ ha => h ?_⟩
  by_contra hp
  simp [exec, require, ExceptT.run, StateT.run, hp] at ha

theorem wp_onlyIf {b : Prop} [Decidable b] {m : Cmd σ Unit} (h : b → wp J R m Q d)
    (hn : ¬b → Q () d) : wp J R (onlyIf b m) Q d := by
  unfold onlyIf
  split
  · next hb => exact h hb
  · next hb => exact wp_pure (hn hb)

theorem wp_checkOr {h : Cmd σ Unit} (hQ : Q () d) (hh : wp J R h (fun _ _ => True) d) :
    wp J R (checkOr h) Q d := by
  rintro w rfl hw
  have hexec : (checkOr h).exec w = if w.fates.headD true then
      (.ok (), { w with fates := w.fates.tail })
    else (h >>= fun _ => fail).exec { w with fates := w.fates.tail } := rfl
  rw [hexec]
  split
  · exact ⟨hw, fun _ _ => hQ⟩
  · exact wp_then hh (fun _ _ _ _ => wp_fail) _ rfl hw

/-- **Loop rule.** `I` says what holds with the elements of `rest` still to come. -/
theorem wp_forM {γ : Type} {body : γ → Cmd σ Unit} (I : List γ → σ → Prop)
    (hbody : ∀ x rest d, J d → I (x :: rest) d → wp J R (body x) (fun _ => I rest) d)
    {xs : List γ} (h : I xs d) : wp J R (xs.forM body) (fun _ => I []) d := by
  induction xs generalizing d with
  | nil => exact wp_pure h
  | cons x rest ih =>
    apply wp_of_inv
    intro hJ
    exact wp_then (hbody x rest d hJ h) fun _ _ _ hrest => ih hrest

end

/-- The error of a failed command leaves no more than the invariant. -/
theorem wp_orElse {h : Cmd σ α} (hm : wp J R m Q d) (hh : ∀ d', J d' → wp J R h Q d') :
    wp J R (orElse m h) Q d := by
  intro w hd hw
  obtain ⟨hsound, hok⟩ := hm w hd hw
  have hexec : (orElse m h).exec w = match m.exec w with
    | (.error .failed, w') => h.exec w'
    | r => r := rfl
  rw [hexec]
  cases hr : m.exec w with
  | mk r w' =>
    rw [hr] at hsound hok
    cases r with
    | ok a => exact ⟨hsound, hok⟩
    | error e =>
      cases e with
      | failed => exact hh _ hsound.1 w' rfl hsound
      | died => exact ⟨hsound, nofun⟩

/-- Nothing was logged before a command begins: what `wp` gives of a whole command. -/
theorem wp.result {fates : List Bool} (h : wp J R m Q d) (hd : J d) :
    J (m.exec ⟨d, fates, []⟩).2.disk ∧ (∀ p ∈ (m.exec ⟨d, fates, []⟩).2.log, R p.1 p.2) ∧
      ∀ a, (m.exec ⟨d, fates, []⟩).1 = .ok a → Q a (m.exec ⟨d, fates, []⟩).2.disk := by
  obtain ⟨hsound, hok⟩ := h ⟨d, fates, []⟩ rfl ⟨hd, nofun⟩
  exact ⟨hsound.1, hsound.2, hok⟩

end Cmd

end DamHopper
