import DamHopper.IdleSuspend.PresenceFence

/-!
# PresenceStatus — when the published status is the registry's

The coordinator reads the status from the watch channel and claims the fence with
its revision. Five methods drop expired reservations before anything else, which
changes the revision, and four of them may then return an error without
publishing: from there on the channel is behind, and no claim made with the
revision it shows can succeed until some other call publishes.
-/

namespace DamHopper.IdleSuspend

open RegistryInner AssocMap

namespace ClientPresenceRegistry

def Fresh (reg : ClientPresenceRegistry) : Prop := reg.snapshot = reg.inner.snapshotInner

/-- A client-free registry that is not suspending takes a claim made with the
published revision. -/
def Accepts (reg : ClientPresenceRegistry) : Prop :=
  reg.inner.live = .empty → reg.inner.pending = .empty → reg.inner.hostSuspending = false →
    ∀ now, (reg.tryClaimNoClientFence reg.snapshot.revision now).2.isOk = true

def Expired (reg : ClientPresenceRegistry) (now : Nat) : Prop :=
  reg.inner.unexpired now ≠ reg.inner.pending

/-- The call drops an expired reservation and then fails without publishing. -/
def FailsSilently (reg : ClientPresenceRegistry) : PresenceOp → Prop
  | .reservePendingUpgrade _ now => reg.Expired now ∧ reg.inner.hostSuspending = true
  | .promotePendingToLive reservationId _ _ now =>
    reg.Expired now ∧ (reg.inner.unexpired now).get? reservationId = none
  | .tryClaimNoClientFence expectedRevision now =>
    reg.Expired now ∧ ¬ Claimable (reg.pruned now).inner expectedRevision
  | .tryClaimApprovedClientFence connectionId actor now utcNow =>
    reg.Expired now ∧ (reg.inner.hostSuspending = true ∨
      (reg.inner.live.get? connectionId).any (·.approves actor utcNow) = false)
  | _ => False

/-- The channel is not ahead of the registry, which has room for its clients and
for at least one. -/
structure Behind (reg : ClientPresenceRegistry) : Prop where
  revision_le : reg.status.revision ≤ reg.revision
  fits : Fits reg.inner
  room : 0 < reg.inner.maxClients

section

variable {reg reg' : ClientPresenceRegistry} {op : PresenceOp} {now : Nat}

/-! ## Publishing -/

section

variable (h : reg.status.revision ≤ reg.revision)
include h

theorem publish_fresh : Fresh reg.publish := by
  have hle : reg.status.revision ≤ reg.inner.snapshotInner.revision := h
  unfold Fresh snapshot
  unfold publish
  rw [if_pos hle]

theorem publish_revision_le : reg.publish.status.revision ≤ reg.publish.revision := by
  have hfresh : reg.publish.status = reg.publish.inner.snapshotInner := publish_fresh h
  rw [hfresh]
  exact Nat.le_refl _

theorem pruned_revision_le (now : Nat) :
    (reg.pruned now).status.revision ≤ (reg.pruned now).revision :=
  Nat.le_trans h (stamped_pruned reg now).le

end

variable {base : ClientPresenceRegistry} {inner : RegistryInner} {actor : AuthenticatedActor}
  {reservationId : Nat} {connectionId : String}

theorem Base.revision_le (hbase : Base reg base) (h : reg.status.revision ≤ reg.revision) :
    base.status.revision ≤ base.revision := by
  rcases hbase with rfl | ⟨now, rfl⟩
  · exact h
  · exact pruned_revision_le h now

theorem edited_revision_le (base : ClientPresenceRegistry)
    (hrevision : inner.membershipRevision = base.inner.membershipRevision)
    (h : base.status.revision ≤ base.revision) :
    base.status.revision ≤ inner.bumped.membershipRevision := by
  have hbumped : inner.bumped.membershipRevision = base.revision + 1 := congrArg (· + 1) hrevision
  omega

theorem changed_fresh (hrevision : inner.membershipRevision = base.inner.membershipRevision)
    (h : base.status.revision ≤ base.revision) : Fresh (base.changed inner) :=
  publish_fresh (edited_revision_le base hrevision h)

theorem Ends.maxClients (h : Ends reg op reg') : reg'.inner.maxClients = reg.inner.maxClients := by
  cases h with
  | idle => rfl
  | silent now => exact pruned_maxClients
  | published now => rw [publish_inner, pruned_maxClients]
  | pong => rfl
  | edited base hbase inner hedit =>
    have hbaseMax : base.inner.maxClients = reg.inner.maxClients := by
      rcases hbase with rfl | ⟨now, rfl⟩
      · rfl
      · exact pruned_maxClients
    rw [changed_inner, ← hbaseMax]
    cases hedit <;> rfl

theorem Ends.revision_le (h : Ends reg op reg') (hle : reg.status.revision ≤ reg.revision) :
    reg'.status.revision ≤ reg'.revision := by
  cases h with
  | idle => exact hle
  | silent now => exact pruned_revision_le hle now
  | published now => exact publish_revision_le (pruned_revision_le hle now)
  | pong => exact hle
  | edited base hbase inner hedit =>
    exact publish_revision_le
      (edited_revision_le base (Edit.revision hedit) (hbase.revision_le hle))

theorem Behind.step (h : Behind reg) (op : PresenceOp) : Behind (reg.step op) where
  revision_le := (step_ends reg op).revision_le h.revision_le
  fits := (step_ends reg op).fits h.fits
  room := by
    rw [(step_ends reg op).maxClients]
    exact h.room

/-! ## One call -/

/-- Silence after pruning is harmless exactly when nothing was pruned. -/
theorem pruned_fresh_iff (h : Fresh reg) : Fresh (reg.pruned now) ↔ ¬ reg.Expired now := by
  by_cases hexpired : reg.inner.unexpired now = reg.inner.pending
  · rw [pruned_eq_self hexpired]
    exact iff_of_true h (not_not.mpr hexpired)
  refine iff_of_false ?_ (not_not.mpr hexpired)
  rw [pruned_eq_of_ne hexpired]
  intro hfresh
  have hnew : reg.status.revision = reg.inner.membershipRevision + 1 :=
    congrArg PresenceStatus.revision hfresh
  have hold : reg.status.revision = reg.inner.membershipRevision :=
    congrArg PresenceStatus.revision h
  omega

section

variable (hbehind : Behind reg) (h : Fresh reg)
include hbehind h

theorem reserve_fresh_iff : Fresh (reg.reservePendingUpgrade actor now).1 ↔
      ¬ (reg.Expired now ∧ reg.inner.hostSuspending = true) := by
  unfold reservePendingUpgrade
  dsimp only
  rw [pruned_hostSuspending]
  by_cases hsuspending : reg.inner.hostSuspending = true
  · simp [pruned_fresh_iff h, hsuspending]
  rw [if_neg hsuspending]
  refine iff_of_true ?_ fun hboth => hsuspending hboth.2
  split
  · -- a full registry had nothing to drop
    rename_i hfull
    rw [pruned_fresh_iff h]
    intro hexpired
    rw [pruned_pending, pruned_live, pruned_maxClients] at hfull
    have hfits : reg.inner.pending.size + reg.inner.live.size ≤ reg.inner.maxClients := hbehind.fits
    have hlt : (reg.inner.unexpired now).size < reg.inner.pending.size := size_retain_lt hexpired
    omega
  · exact changed_fresh rfl (pruned_revision_le hbehind.revision_le now)

theorem promote_fresh_iff {digest : List UInt8} :
    Fresh (reg.promotePendingToLive reservationId connectionId digest now).1 ↔
      ¬ (reg.Expired now ∧ (reg.inner.unexpired now).get? reservationId = none) := by
  have hle := pruned_revision_le hbehind.revision_le now
  unfold promotePendingToLive
  dsimp only
  rw [pruned_pending]
  cases hget : (reg.inner.unexpired now).get? reservationId with
  | none =>
    have hcontains : (reg.inner.unexpired now).contains reservationId = false := by
      rw [contains, hget]
      rfl
    rw [hcontains]
    split
    · simp [pruned_fresh_iff h]
    · rw [pruned_fresh_iff h]
      simp
  | some reservation =>
    have hcontains : (reg.inner.unexpired now).contains reservationId = true :=
      contains_iff.mpr ⟨reservation, hget⟩
    refine iff_of_true ?_ fun hboth => Option.some_ne_none _ hboth.2
    split
    · exact changed_fresh rfl hle
    dsimp only
    split <;> exact changed_fresh rfl hle

theorem claimNoClient_fresh_iff {expectedRevision : Nat} :
    Fresh (reg.tryClaimNoClientFence expectedRevision now).1 ↔
      ¬ (reg.Expired now ∧ ¬ Claimable (reg.pruned now).inner expectedRevision) := by
  rcases claimNoClient_cases reg expectedRevision now with ⟨hclaimable, heq⟩ | ⟨hnot, error, heq⟩
  · rw [heq]
    exact iff_of_true (changed_fresh rfl (pruned_revision_le hbehind.revision_le now))
      fun hboth => hboth.2 hclaimable
  · simp [heq, pruned_fresh_iff h, hnot]

theorem claimApproved_fresh_iff {utcNow : Int} :
    Fresh (reg.tryClaimApprovedClientFence connectionId actor now utcNow).1 ↔
      ¬ (reg.Expired now ∧ (reg.inner.hostSuspending = true ∨
        (reg.inner.live.get? connectionId).any (·.approves actor utcNow) = false)) := by
  unfold tryClaimApprovedClientFence
  dsimp only
  rw [pruned_hostSuspending, pruned_live]
  by_cases hsuspending : reg.inner.hostSuspending = true
  · simp [pruned_fresh_iff h, hsuspending]
  rw [if_neg hsuspending]
  by_cases happroves : (reg.inner.live.get? connectionId).any (·.approves actor utcNow) = true
  · rw [if_pos happroves]
    refine iff_of_true (changed_fresh rfl (pruned_revision_le hbehind.revision_le now)) ?_
    rintro ⟨_, hup | hnot⟩
    · exact hsuspending hup
    · exact absurd (hnot.symm.trans happroves) Bool.false_ne_true
  · rw [if_neg happroves, pruned_fresh_iff h]
    simp [Bool.eq_false_iff.mpr happroves]

end

theorem recordPong_fresh (h : Fresh reg) : Fresh (reg.recordPong connectionId now) := by
  unfold recordPong
  split
  next record hget =>
    unfold Fresh snapshotInner at h ⊢
    rw [size_insert_of_get? hget]
    exact h
  · exact h

section

variable (hbehind : Behind reg) (h : Fresh reg)
include hbehind h

theorem pruneExpiredPending_fresh : Fresh (reg.pruneExpiredPending now).1 := by
  unfold pruneExpiredPending
  dsimp only
  split_ifs with hnone
  · exact publish_fresh (pruned_revision_le hbehind.revision_le now)
  show Fresh (reg.pruned now)
  refine (pruned_fresh_iff h).mpr fun hexpired => hnone ?_
  have hsize : (reg.inner.unexpired now).size ≠ reg.inner.pending.size :=
    Nat.ne_of_lt (size_retain_lt hexpired)
  unfold pruneExpiredPendingInner
  rw [if_pos hsize]

theorem step_fresh_iff : Fresh (reg.step op) ↔ ¬ reg.FailsSilently op := by
  cases op with
  | reservePendingUpgrade actor now => exact reserve_fresh_iff hbehind h
  | promotePendingToLive reservationId connectionId digest now => exact promote_fresh_iff hbehind h
  | recordPong connectionId now => exact iff_of_true (recordPong_fresh h) not_false
  | pruneExpiredPending now => exact iff_of_true (pruneExpiredPending_fresh hbehind h) not_false
  | releasePending _ | markClosing _ | retireLive _ | setHostSuspending _ =>
    refine iff_of_true ?_ not_false
    simp only [step, releasePending, markClosing, retireLive, setHostSuspending]
    repeat' split
    all_goals first | exact h | exact changed_fresh rfl hbehind.revision_le
  | tryClaimNoClientFence expectedRevision now => exact claimNoClient_fresh_iff hbehind h
  | tryClaimApprovedClientFence connectionId actor now utcNow =>
    exact claimApproved_fresh_iff hbehind h

end

/-! ## Whole runs -/

/-- A fresh channel is all a claim needs. -/
theorem Fresh.accepts (h : Fresh reg) (hroom : 0 < reg.inner.maxClients) : Accepts reg := by
  intro hlive hpending hdown now
  have hnothing : reg.pruned now = reg := by
    apply pruned_eq_self
    rw [unexpired, hpending]
    rfl
  have hrevision : reg.inner.membershipRevision = reg.snapshot.revision :=
    (congrArg PresenceStatus.revision h).symm
  have hclaimable : Claimable (reg.pruned now).inner reg.snapshot.revision := by
    rw [hnothing]
    exact ⟨hlive, hpending, hroom, hdown, hrevision⟩
  rcases claimNoClient_cases reg reg.snapshot.revision now with ⟨_, heq⟩ | ⟨hnot, _⟩
  · rw [heq]
    rfl
  · exact absurd hclaimable hnot

end

/-- **Published presence.** A run from a new registry keeps the channel fresh and
every client-free state claimable exactly when the registry has room for a client
and no call fails silently after dropping an expired reservation. -/
theorem published_iff (maxClients : Nat) (ops : List PresenceOp) :
    Always step (fun reg => Fresh reg ∧ Accepts reg) (withCapacity maxClients) ops ↔
      0 < maxClients ∧
        EveryStep step (fun reg op => ¬ reg.FailsSilently op) (withCapacity maxClients) ops := by
  have hexact : 0 < maxClients →
      (Always step (fun reg => Fresh reg ∧ Accepts reg) (withCapacity maxClients) ops ↔
        EveryStep step (fun reg op => ¬ reg.FailsSilently op) (withCapacity maxClients) ops) := by
    intro hroom
    have hfresh : Fresh (withCapacity maxClients) := by
      simp [Fresh, snapshot, withCapacity, snapshotInner, asU32, hroom]
    refine always_iff_everyStep (I := Behind) (fun _ op h => h.step op) ?_
      ⟨Nat.le_refl _, Nat.zero_le _, hroom⟩ ⟨hfresh, hfresh.accepts hroom⟩ ops
    intro reg op hbehind hgood
    rw [← step_fresh_iff hbehind hgood.1]
    exact ⟨And.left, fun h => ⟨h, h.accepts (hbehind.step op).room⟩⟩
  constructor
  · intro h
    have hok := h.head.2 rfl rfl rfl 0
    have hroom : 0 < maxClients := (claimNoClient_ok hok).1.room
    exact ⟨hroom, (hexact hroom).mp h⟩
  · intro h
    exact (hexact h.1).mpr h.2

def someActor : AuthenticatedActor := ⟨"user", none, none, none, none⟩

/-- A reservation times out and the coordinator claims the fence with the revision
it was shown: the claim fails, the registry is empty and free, and from then on the
channel shows a revision that no claim can succeed with. -/
theorem expired_reservation_leaves_status_behind :
    let reg := run step (withCapacity 1)
      [.reservePendingUpgrade someActor 0, .tryClaimNoClientFence 1 30000000001]
    reg.inner.live = .empty ∧ reg.inner.pending = .empty ∧ reg.inner.hostSuspending = false ∧
      reg.snapshot ≠ reg.inner.snapshotInner ∧
      (reg.tryClaimNoClientFence reg.snapshot.revision 30000000002).2.isOk = false := by
  decide +kernel

end ClientPresenceRegistry

end DamHopper.IdleSuspend
