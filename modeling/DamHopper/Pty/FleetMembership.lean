import DamHopper.Pty.FleetHandoff

/-!
# FleetMembership — one place for every session, and late completions

A session should be in one map at most, and a completion that carries an incarnation
whose reservation has been taken back should do nothing. Neither holds of every run. The
main result says which calls break the first (`Doubles`), and which late completions act
all the same (`Revives`): `publishLive`, which takes a session in no map for a restored
one, and `transitionRestartPendingToCreating`, which registers the replacement whether or
not the source is still waiting.
-/

namespace DamHopper.Pty

open AssocMap

namespace PtyFleetState

/-! ## One place for every session -/

def Exclusive (s : PtyFleetState) : Prop :=
  ∀ id, (s.live.contains id = true →
      s.creating.contains id = false ∧ s.restartPending.contains id = false) ∧
    (s.creating.contains id = true → s.restartPending.contains id = false)

def Admits (s : PtyFleetState) : Prop := s.handoffActive = false ∧ s.closing = false

def Doubles (s : PtyFleetState) : FleetOp → Prop
  | .beginCreate id _ => s.Admits ∧ s.live.contains id = true
  | .publishLive id _ =>
    s.live.contains id = false ∧ s.creating.contains id = false ∧
      s.restartPending.contains id = true
  | .transitionRestartPendingToCreating id source _ =>
    s.Admits ∧ s.restartPending.get? id ≠ some source ∧
      (s.live.contains id = true ∨ s.restartPending.contains id = true)
  | _ => False

variable {id : String} {incarnation : Nat} {s t : PtyFleetState} {op : FleetOp}

theorem contains_of_get? {m : Sessions} (h : m.get? id = some incarnation) : m.contains id = true :=
  contains_iff.mpr ⟨_, h⟩

/-- Sessions that leave make no session double. -/
theorem Exclusive.shrink (h : s.Exclusive) (hshrinks : s.Shrinks t) : t.Exclusive := by
  intro id
  have hid := h id
  have hlive : t.live.contains id = true → _ := hshrinks.live.contains
  have hcreating : t.creating.contains id = true → _ := hshrinks.creating.contains
  have hpending : t.restartPending.contains id = true → _ := hshrinks.restartPending.contains
  grind

/-- **One call.** A fleet stays exclusive exactly if the call does not double. -/
theorem Exclusive.step_iff (h : s.Exclusive) :
    (s.step op).Exclusive ↔ ¬ s.Doubles op := by
  cases op with
  | beginCreate id incarnation =>
    simp only [step, beginCreate, Doubles, Admits]
    repeat' split
    next hactive => exact iff_of_true h fun hdouble => by simp [hactive] at hdouble
    next hclosing => exact iff_of_true h fun hdouble => by simp [hclosing] at hdouble
    · simp only [Exclusive, publish, contains_insert, contains_erase]
      grind [Exclusive]
  | publishLive id incarnation =>
    simp only [step, publishLive, Doubles]
    repeat' split
    next hget =>
      simp only [Exclusive, publish, contains_insert, contains_erase]
      grind [Exclusive]
    · simp only [Exclusive, publish, contains_insert]
      grind [Exclusive]
    · grind
  | transitionLiveToRestartPending id incarnation =>
    simp only [step, transitionLiveToRestartPending, Doubles, not_false_iff, iff_true]
    split_ifs with hget
    · have hcontains := contains_of_get? hget
      simp only [Exclusive, publish, contains_insert, contains_erase]
      grind [Exclusive]
    · exact h
  | transitionRestartPendingToCreating id source replacement =>
    simp only [step, transitionRestartPendingToCreating, Doubles, Admits]
    repeat' split
    next hactive => exact iff_of_true h fun hdouble => by simp [hactive] at hdouble
    next hclosing => exact iff_of_true h fun hdouble => by simp [hclosing] at hdouble
    next hget =>
      have hcontains := contains_of_get? hget
      simp only [Exclusive, publish, contains_insert, contains_erase]
      grind [Exclusive]
    · simp only [Exclusive, publish, contains_insert]
      grind [Exclusive]
  | _ => exact iff_of_true (h.shrink (step_shrinks rfl)) not_false

/-! ## Late completions -/

/-- The session is registered somewhere with this incarnation. -/
def Holds (s : PtyFleetState) (id : String) (incarnation : Nat) : Prop :=
  s.live.get? id = some incarnation ∨ s.creating.get? id = some incarnation ∨
    s.restartPending.get? id = some incarnation

def takesBack (id : String) (incarnation : Nat) : FleetOp → Bool
  | .removeAllForId id' => id' = id
  | .markDisposing disposing => disposing
  | .cancelCreate id' incarnation' => id' = id && incarnation' = incarnation
  | .beginCreate id' _ => id' = id
  | _ => false

def Removes (s : PtyFleetState) (op : FleetOp) (id : String) (incarnation : Nat) : Prop :=
  takesBack id incarnation op = true ∧ s.Holds id incarnation ∧ ¬ (s.step op).Holds id incarnation

def completes (id : String) (incarnation : Nat) : FleetOp → Bool
  | .publishLive id' incarnation' => id' = id && incarnation' = incarnation
  | .cancelCreate id' incarnation' => id' = id && incarnation' = incarnation
  | .transitionLiveToRestartPending id' incarnation' => id' = id && incarnation' = incarnation
  | .removeLive id' incarnation' => id' = id && incarnation' = incarnation
  | .cancelRestartPending id' incarnation' => id' = id && incarnation' = incarnation
  | .transitionRestartPendingToCreating id' source _ => id' = id && source = incarnation
  | _ => false

def reuses (id : String) (incarnation : Nat) : FleetOp → Bool
  | .beginCreate id' incarnation' => id' = id && incarnation' = incarnation
  | .transitionRestartPendingToCreating id' _ replacement =>
    id' = id && replacement = incarnation
  | _ => false

/-- The completions that act although the reservation is gone. -/
def Revives (s : PtyFleetState) (id : String) (incarnation : Nat) : FleetOp → Prop
  | .publishLive id' incarnation' =>
    id' = id ∧ incarnation' = incarnation ∧ s.live.contains id = false ∧
      s.creating.contains id = false
  | .transitionRestartPendingToCreating id' source _ =>
    id' = id ∧ source = incarnation ∧ s.Admits
  | _ => False

def Unchanged (s t : PtyFleetState) : Prop :=
  t.live = s.live ∧ t.creating = s.creating ∧ t.restartPending = s.restartPending ∧
    t.generation = s.generation

theorem Unchanged.refl (s : PtyFleetState) : s.Unchanged s := ⟨rfl, rfl, rfl, rfl⟩

theorem not_unchanged_publish (h : t.generation = s.generation) : ¬ s.Unchanged t.publish := by
  intro hsame
  have hgeneration : t.generation + 1 = s.generation := hsame.2.2.2
  omega

/-- **A late completion** does nothing exactly if it does not revive the session. -/
theorem unchanged_iff (h : ¬ s.Holds id incarnation) (hop : completes id incarnation op = true) :
    s.Unchanged (s.step op) ↔ ¬ s.Revives id incarnation op := by
  simp only [Holds, not_or] at h
  obtain ⟨hlive, hcreating, hpending⟩ := h
  cases op with
  | publishLive id' incarnation' =>
    simp only [completes, Bool.and_eq_true, decide_eq_true_eq] at hop
    obtain ⟨rfl, rfl⟩ := hop
    simp only [step, publishLive, Revives]
    split_ifs with hnone
    · refine iff_of_false (not_unchanged_publish rfl) fun hnot => hnot ?_
      simpa using hnone
    · refine iff_of_true (.refl s) fun hrevive => hnone ?_
      simp [hrevive.2.2.1, hrevive.2.2.2]
  | transitionRestartPendingToCreating id' source replacement =>
    simp only [completes, Bool.and_eq_true, decide_eq_true_eq] at hop
    obtain ⟨rfl, rfl⟩ := hop
    simp only [step, transitionRestartPendingToCreating, Revives, Admits]
    split
    next hactive => exact iff_of_true (.refl s) fun hrevive => by simp [hactive] at hrevive
    split
    next hclosing => exact iff_of_true (.refl s) fun hrevive => by simp [hclosing] at hrevive
    rename_i hactive hclosing
    rw [Bool.not_eq_true] at hactive hclosing
    exact iff_of_false (not_unchanged_publish rfl) fun hnot =>
      hnot ⟨trivial, trivial, hactive, hclosing⟩
  | cancelCreate | transitionLiveToRestartPending | removeLive | cancelRestartPending =>
    simp only [completes, Bool.and_eq_true, decide_eq_true_eq] at hop
    obtain ⟨rfl, rfl⟩ := hop
    refine iff_of_true ?_ not_false
    simp only [step, cancelCreate, transitionLiveToRestartPending, removeLive,
      cancelRestartPending, if_neg hlive, if_neg hcreating, if_neg hpending]
    exact .refl s
  | _ => cases hop

theorem Holds.shrink (h : t.Holds id incarnation) (hshrinks : s.Shrinks t) :
    s.Holds id incarnation :=
  h.imp (hshrinks.live _ _) (.imp (hshrinks.creating _ _) (hshrinks.restartPending _ _))

/-- Whatever is registered after a call was so before it, or the call hands its
incarnation out, or it revives it. -/
theorem holds_step (h : (s.step op).Holds id incarnation) :
    s.Holds id incarnation ∨ reuses id incarnation op = true ∨ s.Revives id incarnation op := by
  cases op with
  | beginCreate id' incarnation' =>
    simp only [step, beginCreate] at h
    repeat' split at h
    · exact .inl h
    · exact .inl h
    · simp only [Holds, publish, get?_insert, get?_erase] at h
      grind [Holds, reuses]
  | publishLive id' incarnation' =>
    simp only [step, publishLive] at h
    repeat' split at h
    · simp only [Holds, publish, get?_insert, get?_erase] at h
      grind [Holds]
    · simp only [Holds, publish, get?_insert] at h
      grind [Holds, Revives]
    · exact .inl h
  | transitionLiveToRestartPending id' incarnation' =>
    simp only [step, transitionLiveToRestartPending] at h
    split at h
    · simp only [Holds, publish, get?_insert, get?_erase] at h
      grind [Holds]
    · exact .inl h
  | transitionRestartPendingToCreating id' source replacement =>
    simp only [step, transitionRestartPendingToCreating] at h
    repeat' split at h
    · exact .inl h
    · exact .inl h
    · simp only [Holds, publish, get?_insert, get?_erase] at h
      grind [Holds, reuses]
    · simp only [Holds, publish, get?_insert] at h
      grind [Holds, reuses]
  | _ => exact .inl (h.shrink (step_shrinks rfl))

/-- **Membership and late completions.** Along a run every session is in one map at most
exactly if no call doubles. And after a call that takes a reservation back, if its
incarnation is not handed out again, every completion that carries it leaves the maps and
the generation alone exactly if none revives the session. -/
theorem membership_exact (ops : List FleetOp) :
    (Always step Exclusive new ops ↔ EveryStep step (fun s op => ¬ s.Doubles op) new ops) ∧
    ∀ before op later id incarnation, ops = before ++ op :: later →
      (run step new before).Removes op id incarnation →
      (∀ op' ∈ later, reuses id incarnation op' = false) →
      (EveryStep step (fun s op' => completes id incarnation op' = true → s.Unchanged (s.step op'))
          (run step new (before ++ [op])) later ↔
        EveryStep step (fun s op' => ¬ s.Revives id incarnation op')
          (run step new (before ++ [op])) later) := by
  refine ⟨?_, ?_⟩
  · exact always_iff_everyStep (I := fun _ => True) (fun _ _ _ => trivial)
      (fun s op _ h => h.step_iff) trivial (fun _ => ⟨nofun, nofun⟩) ops
  · intro before op later id incarnation _ hremoves hreuse
    have hgone : ¬ (run step new (before ++ [op])).Holds id incarnation := by
      have hrun : run step new (before ++ [op]) = (run step new before).step op := by
        simp [run]
      rw [hrun]
      exact hremoves.2.2
    have hiff : ∀ (s : PtyFleetState) op', reuses id incarnation op' = false →
        ¬ s.Holds id incarnation →
        ((completes id incarnation op' = true → s.Unchanged (s.step op')) ↔
          ¬ s.Revives id incarnation op') := by
      intro s op' _ hs
      by_cases hcompletes : completes id incarnation op' = true
      · rw [← unchanged_iff hs hcompletes]
        exact ⟨fun h => h hcompletes, fun h _ => h⟩
      refine iff_of_true (fun h => absurd h hcompletes) fun hrevives => hcompletes ?_
      cases op' with
      | publishLive id' incarnation' => simpa [completes] using ⟨hrevives.1, hrevives.2.1⟩
      | transitionRestartPendingToCreating id' source replacement =>
        simpa [completes] using ⟨hrevives.1, hrevives.2.1⟩
      | _ => cases hrevives
    refine everyStep_congr_while (fun s op' hop hs hc => ?_) hiff hgone hreuse
    intro hholds
    rcases holds_step hholds with h | h | h
    · exact hs h
    · simp [hop] at h
    · exact (hiff s op' hop hs).mp hc h

/-- A session that is live is created again, and is in two maps; a session that is killed
while it is being spawned is published all the same; and the restart of a session that is
killed while it waits registers it again. -/
theorem killed_session_revived :
    let doubled := run step new [.beginCreate "t" 1, .publishLive "t" 1, .beginCreate "t" 2]
    let killed := run step new [.beginCreate "t" 1, .removeAllForId "t"]
    let gone := run step new [.publishLive "t" 1, .transitionLiveToRestartPending "t" 1,
      .removeAllForId "t"]
    doubled.live.get? "t" = some 1 ∧ doubled.creating.get? "t" = some 2 ∧
      killed.Empty ∧ (killed.publishLive "t" 1).live.get? "t" = some 1 ∧
      (killed.publishLive "t" 1).generation = killed.generation + 1 ∧
      gone.Empty ∧
      (gone.transitionRestartPendingToCreating "t" 1 2).1.creating.get? "t" = some 2 := by
  decide

end PtyFleetState

end DamHopper.Pty
