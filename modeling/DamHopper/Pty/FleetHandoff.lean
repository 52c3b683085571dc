import DamHopper.Pty.FleetState

/-!
# FleetHandoff — what the suspend gate keeps out

The generation is a compare-and-swap token for the maps and flags, so a claim that
names it is only granted if nothing has changed since, and while a handoff is
active every further claim is refused. What the gate does not stop is `publishLive`: a
session without a reservation is put among the live ones without a look at the
handoff.
-/

namespace DamHopper.Pty

open AssocMap PtyFleetState

namespace PtyFleetState

/-! ## Generations -/

structure View where
  live : Sessions
  creating : Sessions
  restartPending : Sessions
  disposing : Bool
  closing : Bool
  handoffActive : Bool

def view (s : PtyFleetState) : View :=
  ⟨s.live, s.creating, s.restartPending, s.disposing, s.closing, s.handoffActive⟩

/-- A claim fails and changes nothing, or it is granted. -/
theorem claimAfter_cases (s : PtyFleetState) (g : Nat) (check : Except HandoffClaimError Unit) :
    (∃ error, s.claimAfter g check = (s, .error error)) ∨
      (s.checkClaimCommon g = .ok () ∧ check = .ok () ∧
        s.claimAfter g check = (s.granted, .ok ⟨s.granted.generation⟩)) := by
  unfold claimAfter
  cases hcommon : s.checkClaimCommon g with
  | error error => exact .inl ⟨error, rfl⟩
  | ok _ =>
    cases hcheck : check with
    | error error => exact .inl ⟨error, rfl⟩
    | ok _ => exact .inr ⟨rfl, rfl, rfl⟩

/-- What a claim checks on its own account. -/
def ownCheck (s : PtyFleetState) : ClaimKind → Except HandoffClaimError Unit
  | .idle => if !s.isQuiescent then .error .notQuiescent else .ok ()
  | .forced => .ok ()
  | .agent =>
    if s.creating.size ≠ 0 || s.restartPending.size ≠ 0 then .error .lifecycleBusy else .ok ()

theorem tryClaim_eq {s : PtyFleetState} {kind : ClaimKind} {g : Nat} :
    s.tryClaim kind g = s.claimAfter g (s.ownCheck kind) := by
  cases kind <;> rfl

/-- A claim changes nothing but for the flag. -/
theorem step_tryClaim (s : PtyFleetState) (kind : ClaimKind) (g : Nat) :
    s.step (.tryClaim kind g) = s ∨ s.step (.tryClaim kind g) = s.granted := by
  rw [step, tryClaim_eq]
  rcases s.claimAfter_cases g (s.ownCheck kind) with ⟨error, h⟩ | ⟨_, _, h⟩
  · exact .inl (by rw [h])
  · exact .inr (by rw [h])

/-- An operation does nothing, or it edits the maps and flags and publishes. -/
theorem step_eq (s : PtyFleetState) (op : FleetOp) :
    s.step op = s ∨ ∃ t : PtyFleetState, t.generation = s.generation ∧ s.step op = t.publish := by
  have published : ∀ t : PtyFleetState, t.generation = s.generation → t.publish = s ∨
      ∃ t' : PtyFleetState, t'.generation = s.generation ∧ t.publish = t'.publish :=
    fun t ht => .inr ⟨t, ht, rfl⟩
  cases op with
  | tryClaim kind g =>
    rcases s.step_tryClaim kind g with h | h
    · exact .inl h
    · rw [h]
      exact published _ rfl
  | _ =>
    simp only [step, beginCreate, publishLive, cancelCreate, transitionLiveToRestartPending,
      removeLive, transitionRestartPendingToCreating, cancelRestartPending, removeAllForId,
      markDisposing, markClosing, releaseHandoff]
    repeat' split
    all_goals first | exact .inl rfl | exact published _ rfl

theorem step_stamped (s : PtyFleetState) (op : FleetOp) :
    Stamped generation view s (s.step op) := by
  rcases s.step_eq op with h | ⟨t, ht, h⟩
  · rw [h]
    exact .refl s
  · refine .of_lt ?_
    rw [h, ← ht]
    exact Nat.lt_succ_self _

/-! ## Claims -/

structure Granted (s t : PtyFleetState) (kind : ClaimKind) (g : Nat) : Prop where
  generation : s.generation = g
  inactive : s.handoffActive = false
  after : t = s.granted
  own : s.ownCheck kind = .ok ()

variable {s t s' : PtyFleetState} {g : Nat} {kind : ClaimKind} {op : FleetOp} {id : String}

theorem checkClaimCommon_ok (h : s.checkClaimCommon g = .ok ()) :
    s.generation = g ∧ s.handoffActive = false := by
  unfold checkClaimCommon at h
  repeat' split at h
  all_goals try contradiction
  rename_i _ _ hactive hgeneration
  exact ⟨by simpa using hgeneration, by simpa using hactive⟩

theorem tryClaim_granted {claim : HandoffClaim} (h : s.tryClaim kind g = (t, .ok claim)) :
    Granted s t kind g := by
  rw [tryClaim_eq] at h
  rcases s.claimAfter_cases g (s.ownCheck kind) with ⟨error, herror⟩ | ⟨hcommon, hown, hok⟩
  · simp [herror] at h
  · rw [hok] at h
    have hfields := checkClaimCommon_ok hcommon
    exact ⟨hfields.1, hfields.2, (Prod.mk.inj h).1.symm, hown⟩

theorem tryClaim_refused (h : s.handoffActive = true) (kind : ClaimKind) (g : Nat) :
    ∃ error, s.tryClaim kind g = (s, .error error) := by
  rw [tryClaim_eq]
  rcases s.claimAfter_cases g (s.ownCheck kind) with herror | ⟨hcommon, _⟩
  · exact herror
  · rw [(checkClaimCommon_ok hcommon).2] at h
    cases h

theorem isQuiescent_iff : s.isQuiescent = true ↔
    s.live = .empty ∧ s.creating = .empty ∧ s.restartPending = .empty ∧
      s.disposing = false ∧ s.closing = false ∧ s.handoffActive = false := by
  simp [isQuiescent, PtyFleetSnapshot.isQuiescent, snapshot, size_eq_zero_iff, and_assoc]

def Empty (s : PtyFleetState) : Prop :=
  s.live = .empty ∧ s.creating = .empty ∧ s.restartPending = .empty

instance (s : PtyFleetState) : Decidable s.Empty :=
  inferInstanceAs (Decidable (_ ∧ _ ∧ _))

theorem Granted.empty (h : Granted s t .idle g) : t.Empty := by
  have hquiet : s.isQuiescent = true := by
    by_contra hne
    have hown := h.own
    rw [ownCheck, if_pos (by simpa using hne)] at hown
    cases hown
  obtain ⟨hlive, hcreating, hpending, _⟩ := isQuiescent_iff.mp hquiet
  rw [h.after]
  exact ⟨hlive, hcreating, hpending⟩

/-! ## Behind an active handoff -/

/-- A handoff is active and no session is being created. -/
structure HandedOff (s : PtyFleetState) : Prop where
  active : s.handoffActive = true
  creating : s.creating = .empty

theorem Granted.handedOff (h : Granted s t kind g) (hkind : kind ≠ .forced) : t.HandedOff := by
  rw [h.after]
  refine ⟨rfl, ?_⟩
  have hown := h.own
  cases kind with
  | idle => exact h.after ▸ h.empty.2.1
  | forced => exact absurd rfl hkind
  | agent =>
    have hsize : s.creating.size = 0 := by
      by_contra hne
      rw [ownCheck, if_pos (by simp [hne])] at hown
      cases hown
    exact size_eq_zero_iff.mp hsize

theorem step_active (hop : op ≠ .releaseHandoff) (h : s.handoffActive = true) :
    (s.step op).handoffActive = true := by
  cases op with
  | releaseHandoff => exact absurd rfl hop
  | tryClaim kind g =>
    obtain ⟨error, herror⟩ := tryClaim_refused h kind g
    rw [step, herror]
    exact h
  | _ =>
    simp only [step, beginCreate, publishLive, cancelCreate, transitionLiveToRestartPending,
      removeLive, transitionRestartPendingToCreating, cancelRestartPending, removeAllForId,
      markDisposing, markClosing]
    repeat' split
    all_goals exact h

theorem HandedOff.step (hop : op ≠ .releaseHandoff) (h : s.HandedOff) : (s.step op).HandedOff := by
  refine ⟨step_active hop h.active, ?_⟩
  cases op with
  | tryClaim kind g =>
    obtain ⟨error, herror⟩ := tryClaim_refused h.active kind g
    rw [step, herror]
    exact h.creating
  | beginCreate | transitionRestartPendingToCreating =>
    simp only [PtyFleetState.step, beginCreate, transitionRestartPendingToCreating,
      if_pos h.active]
    exact h.creating
  | _ =>
    simp only [step, publishLive, cancelCreate, transitionLiveToRestartPending,
      removeLive, cancelRestartPending, removeAllForId, markDisposing, markClosing,
      releaseHandoff]
    repeat' split
    all_goals first
      | exact h.creating
      | exact (congrArg (erase · _) h.creating)
      | rfl

variable {incarnation : Nat} {m m' : Sessions}

/-- Behind a handoff `publishLive` finds no reservation, so it adds the session unless
it is live already. -/
theorem HandedOff.publishLive_eq (h : s.HandedOff) : s.publishLive id incarnation =
      if s.live.contains id then s
      else { s with live := s.live.insert id incarnation }.publish := by
  have hnone : s.creating.get? id = none := by rw [h.creating]; rfl
  have hcreating : s.creating.contains id = false := by rw [contains, hnone]; rfl
  rw [publishLive, hnone, hcreating]
  cases s.live.contains id <;> rfl

/-- Some key of the second map is not one of the first. -/
def Enters (m m' : Sessions) : Prop := ∃ id, m.contains id = false ∧ m'.contains id = true

/-- A session is added to one of the maps. -/
def Adds (s s' : PtyFleetState) : Prop :=
  Enters s.live s'.live ∨ Enters s.creating s'.creating ∨
    Enters s.restartPending s'.restartPending

def Registered (s : PtyFleetState) (id : String) : Prop :=
  s.live.contains id = true ∨ s.creating.contains id = true ∨ s.restartPending.contains id = true

def Joins (s s' : PtyFleetState) : Prop := ∃ id, ¬ s.Registered id ∧ s'.Registered id

def Within (m' m : Sessions) : Prop := ∀ id n, m'.get? id = some n → m.get? id = some n

theorem Within.refl : Within m m := fun _ _ h => h

theorem within_empty : Within .empty m := by
  rintro id n ⟨⟩

theorem within_erase : Within (m.erase id) m := fun _ _ => get?_of_erase

theorem Within.contains (h : Within m' m) (hin : m'.contains id = true) :
    m.contains id = true := by
  obtain ⟨n, hn⟩ := contains_iff.mp hin
  exact contains_iff.mpr ⟨n, h id n hn⟩

theorem Within.not_enters (h : Within m' m) : ¬ Enters m m' := by
  rintro ⟨id, hout, hin⟩
  rw [h.contains hin] at hout
  cases hout

/-- No session has come in, and none has moved or changed. -/
structure Shrinks (s t : PtyFleetState) : Prop where
  live : Within t.live s.live
  creating : Within t.creating s.creating
  restartPending : Within t.restartPending s.restartPending

theorem Shrinks.refl : s.Shrinks s := ⟨.refl, .refl, .refl⟩

/-- The calls that only take sessions away, or raise and lower flags. -/
def onlyRemoves : FleetOp → Bool
  | .beginCreate _ _ | .publishLive _ _ | .transitionLiveToRestartPending _ _
  | .transitionRestartPendingToCreating _ _ _ => false
  | _ => true

theorem step_shrinks (hop : onlyRemoves op = true) : s.Shrinks (s.step op) := by
  cases op with
  | beginCreate | publishLive | transitionLiveToRestartPending
  | transitionRestartPendingToCreating => cases hop
  | tryClaim kind g =>
    rcases s.step_tryClaim kind g with heq | heq <;> rw [heq] <;> exact ⟨.refl, .refl, .refl⟩
  | markDisposing disposing =>
    rw [step, markDisposing]
    repeat' split
    · exact ⟨within_empty, within_empty, within_empty⟩
    · exact ⟨.refl, .refl, .refl⟩
    · exact .refl
  | _ =>
    simp only [step, cancelCreate, removeLive, cancelRestartPending, removeAllForId, markClosing,
      releaseHandoff]
    split
    · constructor <;> first | exact .refl | exact within_erase
    · exact .refl

theorem enters_insert_iff : Enters m (m.insert id incarnation) ↔ m.contains id = false := by
  constructor
  · intro ⟨id', hout, hin⟩
    rw [contains, get?_insert] at hin
    split_ifs at hin with heq
    · exact heq ▸ hout
    · rw [contains, hin] at hout
      cases hout
  · intro hout
    refine ⟨id, hout, ?_⟩
    simp [contains, get?_insert_self]

theorem Shrinks.not_adds (h : s.Shrinks s') : ¬ Adds s s' := by
  rintro (hin | hin | hin)
  · exact h.live.not_enters hin
  · exact h.creating.not_enters hin
  · exact h.restartPending.not_enters hin

theorem adds_of_joins (h : Joins s s') : Adds s s' := by
  obtain ⟨id, hout, hin⟩ := h
  simp only [Registered, not_or, Bool.not_eq_true] at hout
  rcases hin with hin | hin | hin
  · exact .inl ⟨id, hout.1, hin⟩
  · exact .inr (.inl ⟨id, hout.2.1, hin⟩)
  · exact .inr (.inr ⟨id, hout.2.2, hin⟩)

/-- The calls that add to a map behind a handoff: the publication of a session that
is not live, and the crash of a live one, which moves it to `restartPending`. -/
def AddsBehind (s : PtyFleetState) : FleetOp → Prop
  | .publishLive id _ => s.live.contains id = false
  | .transitionLiveToRestartPending id incarnation =>
    s.live.get? id = some incarnation ∧ s.restartPending.contains id = false
  | _ => False

/-- The calls that bring in a session behind a handoff. -/
def JoinsBehind (s : PtyFleetState) : FleetOp → Prop
  | .publishLive id _ => ¬ s.Registered id
  | _ => False

theorem HandedOff.adds_iff (hop : op ≠ .releaseHandoff) (h : s.HandedOff) :
    Adds s (s.step op) ↔ s.AddsBehind op := by
  cases op with
  | publishLive id incarnation =>
    rw [PtyFleetState.step, h.publishLive_eq, AddsBehind]
    cases hlive : s.live.contains id with
    | true => simpa using Shrinks.refl.not_adds
    | false =>
      exact iff_of_true (.inl (enters_insert_iff.mpr hlive)) rfl
  | transitionLiveToRestartPending id incarnation =>
    rw [PtyFleetState.step, transitionLiveToRestartPending, AddsBehind]
    by_cases hlive : s.live.get? id = some incarnation
    · rw [if_pos hlive]
      simp only [Adds, publish, within_erase.not_enters, Within.refl.not_enters, enters_insert_iff,
        false_or, hlive, true_and]
    · rw [if_neg hlive]
      exact iff_of_false Shrinks.refl.not_adds fun hadd => hlive hadd.1
  | beginCreate | transitionRestartPendingToCreating =>
    simp only [PtyFleetState.step, beginCreate, transitionRestartPendingToCreating,
      if_pos h.active]
    exact iff_of_false Shrinks.refl.not_adds (fun hadd => hadd)
  | _ => exact iff_of_false (step_shrinks rfl).not_adds (fun hadd => hadd)

theorem HandedOff.joins_iff (hop : op ≠ .releaseHandoff) (h : s.HandedOff) :
    Joins s (s.step op) ↔ s.JoinsBehind op := by
  by_cases hadds : s.AddsBehind op
  · cases op with
    | publishLive id incarnation =>
      have hlive : s.live.contains id = false := hadds
      rw [PtyFleetState.step, h.publishLive_eq, hlive, if_neg (by simp)]
      constructor
      · rintro ⟨id', hout, hin⟩
        by_cases heq : id' = id
        · exact heq ▸ hout
        refine absurd ?_ hout
        have hsame : (s.live.insert id incarnation).get? id' = s.live.get? id' :=
          get?_insert_of_ne _ _ heq
        simpa only [Registered, publish, contains, hsame] using hin
      · intro hout
        refine ⟨id, hout, .inl ?_⟩
        rw [contains]
        simp only [publish, get?_insert_self]
        rfl
    | transitionLiveToRestartPending id incarnation =>
      have hlive : s.live.get? id = some incarnation := hadds.1
      refine iff_of_false ?_ (fun hjoin => hjoin)
      rw [PtyFleetState.step, transitionLiveToRestartPending, if_pos hlive]
      rintro ⟨id', hout, hin⟩
      by_cases heq : id' = id
      · refine hout (.inl ?_)
        simp [heq, contains, hlive]
      · refine absurd ?_ hout
        have hsame := get?_erase_of_ne s.live heq
        have hsame' := get?_insert_of_ne s.restartPending incarnation heq
        simpa only [Registered, publish, contains, hsame, hsame'] using hin
    | _ => exact hadds.elim
  · refine iff_of_false (fun hjoin => hadds ((h.adds_iff hop).mp (adds_of_joins hjoin))) ?_
    cases op with
    | publishLive id incarnation =>
      intro hout
      have hlive : s.live.contains id = false := by
        rw [JoinsBehind, Registered, not_or] at hout
        simpa using hout.1
      exact hadds hlive
    | _ => exact fun hjoin => hjoin

theorem empty_iff_not_enters (h : m = .empty) : m' = .empty ↔ ¬ Enters m m' := by
  subst h
  rw [eq_empty_iff]
  constructor
  · intro hall ⟨id, _, hin⟩
    rw [hall id] at hin
    cases hin
  · intro hnot id
    by_contra hne
    exact hnot ⟨id, rfl, by simpa using hne⟩

/-- Only an addition ends an empty fleet. -/
theorem Empty.iff_not_adds (h : s.Empty) : s'.Empty ↔ ¬ Adds s s' := by
  rw [Empty, Adds, empty_iff_not_enters h.1, empty_iff_not_enters h.2.1,
    empty_iff_not_enters h.2.2, not_or, not_or]

def publishesLive : FleetOp → Bool
  | .publishLive _ _ => true
  | _ => false

theorem HandedOff.empty_iff (hop : op ≠ .releaseHandoff) (h : s.HandedOff) (hempty : s.Empty) :
    (s.step op).Empty ↔ publishesLive op = false := by
  rw [hempty.iff_not_adds, h.adds_iff hop]
  cases op with
  | publishLive id incarnation =>
    have hlive : s.live.contains id = false := by rw [hempty.1]; rfl
    exact iff_of_false (fun hnot => hnot hlive) (by simp [publishesLive])
  | transitionLiveToRestartPending id incarnation =>
    refine iff_of_true (fun hadd => ?_) rfl
    have hlive := hadd.1
    rw [hempty.1] at hlive
    cases hlive
  | _ => exact iff_of_true (fun hadd => hadd) rfl

/-! ## Becoming quiescent -/

def Calm (s : PtyFleetState) : Prop :=
  s.disposing = false ∧ s.closing = false ∧ s.handoffActive = false

def Only (m : Sessions) (id : String) : Prop := ∀ id', m.contains id' = true → id' = id

/-- The calls that make a fleet quiescent that was not: the removal of the last session
while no flag is up, and the lowering of the last flag over an empty fleet. -/
def Empties (s : PtyFleetState) : FleetOp → Prop
  | .cancelCreate id incarnation =>
    s.creating.get? id = some incarnation ∧ Only s.creating id ∧
      s.live = .empty ∧ s.restartPending = .empty ∧ s.Calm
  | .removeLive id incarnation =>
    s.live.get? id = some incarnation ∧ Only s.live id ∧
      s.creating = .empty ∧ s.restartPending = .empty ∧ s.Calm
  | .cancelRestartPending id incarnation =>
    s.restartPending.get? id = some incarnation ∧ Only s.restartPending id ∧
      s.live = .empty ∧ s.creating = .empty ∧ s.Calm
  | .removeAllForId id =>
    s.Registered id ∧ Only s.live id ∧ Only s.creating id ∧ Only s.restartPending id ∧ s.Calm
  | .markDisposing disposing =>
    disposing = false ∧ s.disposing = true ∧ s.closing = false ∧ s.handoffActive = false ∧
      s.Empty
  | .markClosing closing =>
    closing = false ∧ s.closing = true ∧ s.disposing = false ∧ s.handoffActive = false ∧
      s.Empty
  | .releaseHandoff =>
    s.handoffActive = true ∧ s.disposing = false ∧ s.closing = false ∧ s.Empty
  | _ => False

theorem step_quiescent_iff (h : s.isQuiescent = false) :
    (s.step op).isQuiescent = true ↔ s.Empties op := by
  have hself : ¬ s.isQuiescent = true := by simp [h]
  cases op with
  | beginCreate | publishLive | transitionLiveToRestartPending
  | transitionRestartPendingToCreating =>
    simp only [step, beginCreate, publishLive, transitionLiveToRestartPending,
      transitionRestartPendingToCreating, Empties, iff_false]
    repeat' split
    all_goals first
      | exact hself
      | simp [isQuiescent_iff, publish, insert_ne_empty]
  | cancelCreate | removeLive | cancelRestartPending =>
    simp only [step, cancelCreate, removeLive, cancelRestartPending, Empties]
    split_ifs with hget
    · simp only [isQuiescent_iff, publish, erase_eq_empty_iff, Calm]
      tauto
    · exact iff_of_false hself fun hempties => hget hempties.1
  | removeAllForId id =>
    simp only [step, removeAllForId, Empties]
    split_ifs with hsome
    · have hregistered : s.Registered id := by simpa [Registered, or_assoc] using hsome
      simp only [isQuiescent_iff, publish, erase_eq_empty_iff, Only, Calm, hregistered, true_and]
    · refine iff_of_false hself fun hempties => hsome ?_
      simpa [Registered, or_assoc] using hempties.1
  | markDisposing disposing =>
    simp only [step, markDisposing, Empties]
    repeat' split
    next _ hup => exact iff_of_false (by simp [isQuiescent_iff, publish]) (by simp [hup])
    next hchange hdown =>
      have hup : s.disposing = true := by simp_all
      simp only [isQuiescent_iff, Empty, hdown]
      tauto
    next hsame =>
      refine iff_of_false hself fun hempties => hsame ?_
      rw [hempties.1, hempties.2.1]
      simp
  | markClosing closing =>
    simp only [step, markClosing, Empties]
    split_ifs with hsame
    · simp only [isQuiescent_iff, publish, Empty]
      cases closing <;> simp_all
      tauto
    · refine iff_of_false hself fun hempties => hsame ?_
      rw [hempties.1, hempties.2.1]
      simp
  | tryClaim kind g =>
    refine iff_of_false ?_ id
    rcases s.step_tryClaim kind g with heq | heq
    · rw [heq]
      exact hself
    · simp [heq, isQuiescent_iff, granted, publish]
  | releaseHandoff =>
    simp only [step, releaseHandoff, Empties]
    split_ifs with hactive
    · simp only [isQuiescent_iff, Empty]
      tauto
    · exact iff_of_false hself fun hempties => hactive hempties.1

/-- **Quiescence on the way.** From a fleet that is not quiescent, no snapshot of a run is
quiescent exactly when no call empties the fleet. -/
theorem never_quiescent_iff (h : s.isQuiescent = false) {ops : List FleetOp} :
    Always step (fun t => t.isQuiescent = false) s ops ↔
      EveryStep step (fun t op => ¬ t.Empties op) s ops := by
  refine always_iff_everyStep (I := fun _ => True)
    (P := fun t : PtyFleetState => t.isQuiescent = false) (fun _ _ _ => trivial) ?_ trivial h ops
  intro t op _ ht
  rw [← step_quiescent_iff ht, Bool.not_eq_true]

theorem Registered.not_quiescent (h : s.Registered id) : s.isQuiescent = false := by
  by_contra hne
  obtain ⟨hlive, hcreating, hpending, _⟩ := isQuiescent_iff.mp (by simpa using hne)
  rw [Registered, hlive, hcreating, hpending] at h
  rcases h with h | h | h <;> cases h

/-- The calls that end a session: it is cancelled, removed or killed, or all sessions
are disposed of. -/
def withdraws (id : String) : FleetOp → Bool
  | .cancelCreate id' _ => id' = id
  | .removeLive id' _ => id' = id
  | .cancelRestartPending id' _ => id' = id
  | .removeAllForId id' => id' = id
  | .markDisposing disposing => disposing
  | _ => false

/-- Every other call keeps a session registered, in one map or another. -/
theorem Registered.step (h : s.Registered id) (hop : withdraws id op = false) :
    (s.step op).Registered id := by
  cases op with
  | tryClaim kind g =>
    rcases s.step_tryClaim kind g with heq | heq <;> rwa [heq]
  | markDisposing disposing =>
    have hdown : disposing = false := hop
    simp only [step, markDisposing, hdown]
    split <;> exact h
  | _ =>
    simp only [step, beginCreate, publishLive, cancelCreate,
      transitionLiveToRestartPending, removeLive, transitionRestartPendingToCreating,
      cancelRestartPending, removeAllForId, markClosing, releaseHandoff]
    repeat' split
    all_goals
      simp only [Registered, withdraws, publish, contains_insert,
        contains_erase]
        at h hop ⊢
      grind

/-! ## The gate -/

/-- A crash of a live session and its restart, with what happens while it waits and while
it is being spawned. -/
def restartPassage (id : String) (incarnation replacement : Nat)
    (waiting spawning : List FleetOp) : List FleetOp :=
  .transitionLiveToRestartPending id incarnation :: waiting ++
    .transitionRestartPendingToCreating id incarnation replacement :: spawning ++
    [.publishLive id replacement]

/-- **The suspend gate.** In every reachable state: an equal generation means equal maps
and flags; a claim is granted only if nothing has changed since the snapshot whose
generation it names; until the handoff is released every further claim is refused. Behind
an idle claim the fleet stays empty exactly if nothing is published as live; behind an
agent claim nothing is added exactly if no call is one of `AddsBehind`, and no session
comes in exactly if none is one of `JoinsBehind`. On the way of a session from its crash
through its restart no snapshot is quiescent exactly if no call empties the fleet, and
that is so if nothing withdraws the session. -/
theorem handoff_gate (ops : List FleetOp) :
    let s := run step new ops
    (∀ later, (run step s later).generation = s.generation → (run step s later).view = s.view) ∧
    (∀ later kind t claim, (run step s later).tryClaim kind s.generation = (t, .ok claim) →
      Always step (fun u => u.view = s.view) s later) ∧
    (∀ kind g t claim, s.tryClaim kind g = (t, .ok claim) →
      ∀ later, (∀ op ∈ later, op ≠ .releaseHandoff) → (∀ kind' g', ∃ error,
          (run step t later).tryClaim kind' g' = (run step t later, .error error)) ∧
        (kind = .idle → (Always step Empty t later ↔ ∀ op ∈ later, publishesLive op = false)) ∧
        (kind = .agent → (EveryStep step (fun u op => ¬ Adds u (u.step op)) t later ↔
            EveryStep step (fun u op => ¬ u.AddsBehind op) t later) ∧
          (EveryStep step (fun u op => ¬ Joins u (u.step op)) t later ↔
            EveryStep step (fun u op => ¬ u.JoinsBehind op) t later))) ∧
    (∀ id incarnation replacement waiting spawning, s.live.get? id = some incarnation →
      let passage := restartPassage id incarnation replacement waiting spawning
      (Always step (fun u => u.isQuiescent = false) s passage ↔
        EveryStep step (fun u op => ¬ u.Empties op) s passage) ∧
      ((∀ op ∈ passage, withdraws id op = false) →
        Always step (fun u => u.isQuiescent = false) s passage)) := by
  intro s
  refine ⟨?_, ?_, ?_, ?_⟩
  · intro later h
    exact (stamped_run step_stamped s later).same h
  · intro later kind t claim h
    exact always_view_of_version_eq step_stamped (tryClaim_granted h).generation
  · intro kind g t claim h later hlater
    have hgranted := tryClaim_granted h
    have hactive : t.handoffActive = true := by
      rw [hgranted.after]
      rfl
    refine ⟨?_, ?_, ?_⟩
    · intro kind' g'
      refine tryClaim_refused ?_ kind' g'
      exact invariant_run (I := fun u : PtyFleetState => u.handoffActive = true)
        (fun u op hu hop => step_active hop hu) hactive (everyStep_forall_iff.mpr hlater)
    · rintro rfl
      have hoff := hgranted.handedOff (by simp)
      have hexact : Always step Empty t later ↔
          EveryStep step (fun _ op => publishesLive op = false) t later :=
        always_iff_everyStep_within (E := (· ≠ .releaseHandoff))
          (fun u op hop hu => HandedOff.step hop hu)
          (fun u op hop hu hempty => hu.empty_iff hop hempty) hoff hgranted.empty hlater
      exact hexact.trans everyStep_forall_iff
    · rintro rfl
      have hoff := hgranted.handedOff (by simp)
      constructor
      · exact everyStep_congr_within (E := (· ≠ .releaseHandoff))
          (fun u op hop hu => HandedOff.step hop hu)
          (fun u op hop hu => not_congr (hu.adds_iff hop)) hoff hlater
      · exact everyStep_congr_within (E := (· ≠ .releaseHandoff))
          (fun u op hop hu => HandedOff.step hop hu)
          (fun u op hop hu => not_congr (hu.joins_iff hop)) hoff hlater
  · intro id incarnation replacement waiting spawning hlive passage
    have hregistered : s.Registered id := .inl (contains_iff.mpr ⟨_, hlive⟩)
    refine ⟨never_quiescent_iff hregistered.not_quiescent, fun hkeep => ?_⟩
    have hthroughout : Always step (fun u => u.Registered id) s passage :=
      always_of_everyStep (fun u op hu hop => hu.step hop) hregistered
        (everyStep_forall_iff.mpr hkeep)
    exact hthroughout.mono fun u hu => hu.not_quiescent

/-- A terminal is killed while it is being spawned, the idle fleet is handed off, and
the spawn ends behind the handoff. And: a crashed session is cancelled, the fleet is
quiescent, and the restart registers the session again. -/
theorem stale_publish_behind_handoff :
    let killed := run step new [.beginCreate "t" 1, .removeAllForId "t"]
    let claimed := killed.tryClaim .idle 3
    let cancelled := run step new [.publishLive "t" 1,
      .transitionLiveToRestartPending "t" 1, .cancelRestartPending "t" 1]
    claimed.2 = .ok ⟨4⟩ ∧ claimed.1.Empty ∧ (claimed.1.publishLive "t" 1).handoffActive = true ∧
      (claimed.1.publishLive "t" 1).live.get? "t" = some 1 ∧
      cancelled.isQuiescent = true ∧
      (cancelled.transitionRestartPendingToCreating "t" 1 2).2 = .ok () ∧
      (cancelled.transitionRestartPendingToCreating "t" 1 2).1.creating.get? "t" = some 2 := by
  decide

end PtyFleetState

end DamHopper.Pty
