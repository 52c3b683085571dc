import DamHopper.Lib.Versions
import DamHopper.IdleSuspend.ClientPresence

/-!
# PresenceFence — the fence holds over every interleaving

`Ends` lists the ways a call can end: it may leave the registry as it was, drop
expired reservations without a word, note a pong, or publish one of six edits
(`Edit`). The four parts of `fence_safety` are read off that list.
-/

namespace DamHopper.IdleSuspend

open RegistryInner AssocMap

/-! ## The ways a call can end -/

inductive Edit (inner : RegistryInner) : RegistryInner → Prop where
  | reserved (next id : Nat) (reservation : PendingReservation)
      (hopen : inner.hostSuspending = false)
      (hroom : inner.pending.size + inner.live.size < inner.maxClients) :
      Edit inner { inner with
        nextReservationId := next, pending := inner.pending.insert id reservation }
  | dropped (id : Nat) : Edit inner { inner with pending := inner.pending.erase id }
  | promoted (id : Nat) (reservation : PendingReservation) (connectionId : String)
      (record : LiveClientRecord) (hopen : inner.hostSuspending = false)
      (hget : inner.pending.get? id = some reservation) :
      Edit inner { inner with
        pending := inner.pending.erase id, live := inner.live.insert connectionId record }
  | closed (connectionId : String) (record record' : LiveClientRecord)
      (hget : inner.live.get? connectionId = some record) :
      Edit inner { inner with live := inner.live.insert connectionId record' }
  | retired (connectionId : String) :
      Edit inner { inner with live := inner.live.erase connectionId }
  | fenced (suspending : Bool) : Edit inner { inner with hostSuspending := suspending }

/-- The record without the time of the last pong, which is not membership. -/
def LiveClientRecord.member (record : LiveClientRecord) : LiveClientRecord :=
  { record with lastLiveness := 0 }

namespace ClientPresenceRegistry

/-- Where an edit starts from: the registry, or the registry without what has
expired. -/
def Base (reg base : ClientPresenceRegistry) : Prop :=
  base = reg ∨ ∃ now, base = reg.pruned now

inductive Ends (reg : ClientPresenceRegistry) (op : PresenceOp) :
    ClientPresenceRegistry → Prop where
  | idle : Ends reg op reg
  | silent (now : Nat) : Ends reg op (reg.pruned now)
  | published (now : Nat) : Ends reg op (reg.pruned now).publish
  | pong (connectionId : String) (record : LiveClientRecord) (now : Nat)
      (hget : reg.inner.live.get? connectionId = some record) :
      Ends reg op { reg with
        inner := { reg.inner with
          live := reg.inner.live.insert connectionId { record with lastLiveness := now } } }
  | edited (base : ClientPresenceRegistry) (hbase : Base reg base) (inner : RegistryInner)
      (hedit : Edit base.inner inner)
      (hfence : inner.hostSuspending = false → base.inner.hostSuspending = true →
        op = .setHostSuspending false) : Ends reg op (base.changed inner)

variable {inner : RegistryInner}

theorem Ends.edit {reg base : ClientPresenceRegistry} {op : PresenceOp}
    (hbase : Base reg base) (hedit : Edit base.inner inner)
    (hsame : inner.hostSuspending = base.inner.hostSuspending) : Ends reg op (base.changed inner) :=
  .edited base hbase inner hedit fun h h' => absurd (h.symm.trans (hsame.trans h')) nofun

section

variable (reg : ClientPresenceRegistry)

variable (op : PresenceOp) (reservationId : Nat) (connectionId : String)
  (actor : AuthenticatedActor) (now : Nat)

theorem reserve_ends : Ends reg op (reg.reservePendingUpgrade actor now).1 := by
  unfold reservePendingUpgrade
  dsimp only
  by_cases hsuspending : (reg.pruned now).inner.hostSuspending = true
  · rw [if_pos hsuspending]
    exact .silent now
  have hopen : (reg.pruned now).inner.hostSuspending = false := Bool.eq_false_iff.mpr hsuspending
  split_ifs with hroom
  · exact .silent now
  · exact .edit (.inr ⟨now, rfl⟩) (.reserved _ _ _ hopen (Nat.lt_of_not_le hroom)) rfl

theorem promote_ends {digest : List UInt8} {now : Nat} :
    Ends reg op (reg.promotePendingToLive reservationId connectionId digest now).1 := by
  unfold promotePendingToLive
  by_cases hsuspending : (reg.pruned now).inner.hostSuspending = true
  · rw [if_pos hsuspending]
    split
    · exact .edit (.inr ⟨now, rfl⟩) (.dropped _) rfl
    · exact .silent now
  rw [if_neg hsuspending]
  have hopen : (reg.pruned now).inner.hostSuspending = false := Bool.eq_false_iff.mpr hsuspending
  split
  · exact .silent now
  rename_i reservation hget
  split
  · exact .edit (.inr ⟨now, rfl⟩) (.dropped _) rfl
  · exact .edit (.inr ⟨now, rfl⟩) (.promoted _ reservation _ _ hopen hget) rfl

theorem release_ends : Ends reg op (reg.releasePending reservationId) := by
  unfold releasePending
  split
  · exact .edit (.inl rfl) (.dropped _) rfl
  · exact .idle

theorem recordPong_ends : Ends reg op (reg.recordPong connectionId now) := by
  unfold recordPong
  split
  next record hget => exact .pong connectionId record now hget
  · exact .idle

theorem markClosing_ends : Ends reg op (reg.markClosing connectionId) := by
  unfold markClosing
  split
  next record hget =>
    split
    · exact .edit (.inl rfl) (.closed _ record _ hget) rfl
    · exact .idle
  · exact .idle

theorem retireLive_ends : Ends reg op (reg.retireLive connectionId) := by
  unfold retireLive
  split
  · exact .edit (.inl rfl) (.retired _) rfl
  · exact .idle

theorem prune_ends : Ends reg op (reg.pruneExpiredPending now).1 := by
  unfold pruneExpiredPending
  dsimp only
  split
  · exact .published now
  · exact .silent now

theorem setHostSuspending_ends {suspending : Bool} :
    Ends reg (.setHostSuspending suspending) (reg.setHostSuspending suspending) := by
  unfold setHostSuspending
  split
  · refine .edited _ (.inl rfl) _ (.fenced suspending) fun h _ => ?_
    rw [show suspending = false from h]
  · exact .idle

theorem claimNoClient_ends {expectedRevision now : Nat} :
    Ends reg op (reg.tryClaimNoClientFence expectedRevision now).1 := by
  unfold tryClaimNoClientFence
  dsimp only
  split_ifs
  all_goals try exact .silent now
  exact .edited _ (.inr ⟨now, rfl⟩) _ (.fenced true) nofun

theorem claimApproved_ends {utcNow : Int} :
    Ends reg op (reg.tryClaimApprovedClientFence connectionId actor now utcNow).1 := by
  unfold tryClaimApprovedClientFence
  dsimp only
  split_ifs
  · exact .silent now
  · exact .edited _ (.inr ⟨now, rfl⟩) _ (.fenced true) (by rintro ⟨⟩)
  · exact .silent now

theorem step_ends : Ends reg op (reg.step op) := by
  cases op with
  | reservePendingUpgrade actor now => exact reserve_ends reg _ actor now
  | promotePendingToLive reservationId connectionId digest now =>
    exact promote_ends reg _ reservationId connectionId
  | releasePending reservationId => exact release_ends reg _ reservationId
  | recordPong connectionId now => exact recordPong_ends reg _ connectionId now
  | markClosing connectionId => exact markClosing_ends reg _ connectionId
  | retireLive connectionId => exact retireLive_ends reg _ connectionId
  | pruneExpiredPending now => exact prune_ends reg _ now
  | setHostSuspending suspending => exact setHostSuspending_ends reg
  | tryClaimNoClientFence expectedRevision now => exact claimNoClient_ends reg _
  | tryClaimApprovedClientFence connectionId actor now utcNow =>
    exact claimApproved_ends reg _ connectionId actor now

end

/-! ## Dropping what has expired -/

section

variable {reg : ClientPresenceRegistry} {now : Nat}

theorem pruned_eq_self (h : reg.inner.unexpired now = reg.inner.pending) :
    reg.pruned now = reg := by
  unfold pruned pruneExpiredPendingInner
  rw [h, if_neg (fun hne => hne rfl)]

theorem pruned_eq_of_ne (h : reg.inner.unexpired now ≠ reg.inner.pending) : reg.pruned now =
      { reg with inner := { reg.inner with pending := reg.inner.unexpired now }.bumped } := by
  have hsize : (reg.inner.unexpired now).size ≠ reg.inner.pending.size :=
    Nat.ne_of_lt (size_retain_lt h)
  unfold pruned pruneExpiredPendingInner
  rw [if_pos hsize]

theorem pruned_cases (reg : ClientPresenceRegistry) (now : Nat) :
    reg.pruned now = reg ∨ reg.pruned now =
      { reg with inner := { reg.inner with pending := reg.inner.unexpired now }.bumped } := by
  by_cases h : reg.inner.unexpired now = reg.inner.pending
  · exact .inl (pruned_eq_self h)
  · exact .inr (pruned_eq_of_ne h)

@[simp] theorem pruned_live : (reg.pruned now).inner.live = reg.inner.live := by
  rcases pruned_cases reg now with h | h <;> rw [h]
  rfl

@[simp] theorem pruned_hostSuspending :
    (reg.pruned now).inner.hostSuspending = reg.inner.hostSuspending := by
  rcases pruned_cases reg now with h | h <;> rw [h]
  rfl

@[simp] theorem pruned_maxClients : (reg.pruned now).inner.maxClients = reg.inner.maxClients := by
  rcases pruned_cases reg now with h | h <;> rw [h]
  rfl

@[simp] theorem pruned_pending : (reg.pruned now).inner.pending = reg.inner.unexpired now := by
  by_cases h : reg.inner.unexpired now = reg.inner.pending
  · rw [pruned_eq_self h, h]
  · rw [pruned_eq_of_ne h]
    rfl

@[simp] theorem publish_inner : reg.publish.inner = reg.inner := by
  unfold publish
  dsimp only
  split <;> rfl

@[simp] theorem changed_inner :
    (reg.changed inner).inner = inner.bumped := publish_inner

end

/-! ## Revisions -/

def membership (reg : ClientPresenceRegistry) :
    AssocMap Nat PendingReservation × AssocMap String LiveClientRecord × Bool :=
  (reg.inner.pending, reg.inner.live.mapValues fun _ record => record.member,
    reg.inner.hostSuspending)

def revision (reg : ClientPresenceRegistry) : Nat := reg.inner.membershipRevision

section

variable {reg reg' : ClientPresenceRegistry} {op : PresenceOp}

theorem stamped_pruned (reg : ClientPresenceRegistry) (now : Nat) :
    Stamped revision membership reg (reg.pruned now) := by
  rcases pruned_cases reg now with h | h
  · rw [h]
    exact .refl reg
  · rw [h]
    exact .of_lt (Nat.lt_succ_self _)

variable {inner inner' : RegistryInner} {base : ClientPresenceRegistry} {expectedRevision : Nat}

theorem Edit.revision (h : Edit inner inner') :
    inner'.membershipRevision = inner.membershipRevision := by
  cases h <;> rfl

theorem Base.stamped (h : Base reg base) : Stamped revision membership reg base := by
  rcases h with rfl | ⟨now, rfl⟩
  · exact .refl _
  · exact stamped_pruned reg now

theorem Ends.stamped (h : Ends reg op reg') : Stamped revision membership reg reg' := by
  cases h with
  | idle => exact .refl reg
  | silent now => exact stamped_pruned reg now
  | published now =>
    refine (stamped_pruned reg now).trans ⟨?_, fun _ => ?_⟩
    · rw [revision, revision, publish_inner]
    · rw [membership, membership, publish_inner]
  | pong connectionId record now hget =>
    refine ⟨Nat.le_refl _, fun _ => ?_⟩
    exact congrArg (fun live => (reg.inner.pending, live, reg.inner.hostSuspending))
      (mapValues_insert_of_get? hget rfl)
  | edited base hbase inner hedit =>
    refine hbase.stamped.trans (.of_lt ?_)
    show base.inner.membershipRevision < (base.changed inner).inner.membershipRevision
    rw [changed_inner, ← Edit.revision hedit]
    exact Nat.lt_succ_self _

theorem step_stamped (reg : ClientPresenceRegistry) (op : PresenceOp) :
    Stamped revision membership reg (reg.step op) := (step_ends reg op).stamped

/-! ## Capacity -/

/-- There are not more clients than the registry may hold. -/
def Fits (inner : RegistryInner) : Prop :=
  inner.pending.size + inner.live.size ≤ inner.maxClients

theorem Fits.pruned (h : Fits reg.inner) (now : Nat) : Fits (reg.pruned now).inner := by
  unfold Fits at h ⊢
  rw [pruned_pending, pruned_live, pruned_maxClients]
  have hle : (reg.inner.unexpired now).size ≤ reg.inner.pending.size := size_retain_le _
  omega

theorem Edit.fits (h : Edit inner inner') (hfits : Fits inner) : Fits inner' := by
  unfold Fits at hfits ⊢
  cases h with
  | reserved next id reservation hopen hroom =>
    have hle := inner.pending.size_insert_le id reservation
    dsimp only
    omega
  | dropped id =>
    have hle := inner.pending.size_erase_le id
    dsimp only
    omega
  | promoted id reservation connectionId record hopen hget =>
    have hlt := size_erase_of_get? hget
    have hle := inner.live.size_insert_le connectionId record
    dsimp only
    omega
  | closed connectionId record record' hget =>
    rw [size_insert_of_get? hget]
    exact hfits
  | retired connectionId =>
    have hle := inner.live.size_erase_le connectionId
    dsimp only
    omega
  | fenced suspending => exact hfits

theorem Base.fits (h : Base reg base) (hfits : Fits reg.inner) : Fits base.inner := by
  rcases h with rfl | ⟨now, rfl⟩
  · exact hfits
  · exact hfits.pruned now

theorem Ends.fits (h : Ends reg op reg') (hfits : Fits reg.inner) : Fits reg'.inner := by
  cases h with
  | idle => exact hfits
  | silent now => exact hfits.pruned now
  | published now =>
    rw [publish_inner]
    exact hfits.pruned now
  | pong connectionId record now hget =>
    unfold Fits at hfits ⊢
    rw [size_insert_of_get? hget]
    exact hfits
  | edited base hbase inner hedit =>
    rw [changed_inner]
    show Fits inner
    exact Edit.fits hedit (hbase.fits hfits)

/-! ## Behind the fence -/

/-- The fence is up and nobody is behind it. -/
def Fenced (reg : ClientPresenceRegistry) : Prop :=
  reg.inner.pending = .empty ∧ reg.inner.live = .empty ∧ reg.inner.hostSuspending = true

theorem Fenced.pruned (h : Fenced reg) (now : Nat) : reg.pruned now = reg := by
  apply pruned_eq_self
  rw [unexpired, h.1]
  rfl

theorem Base.fenced (h : Base reg base) (hfenced : Fenced reg) : base = reg := by
  rcases h with rfl | ⟨now, rfl⟩
  · rfl
  · exact hfenced.pruned now

/-- Behind the fence only its release is an edit. -/
theorem Edit.fenced (h : Edit inner inner') (hpending : inner.pending = .empty)
    (hlive : inner.live = .empty) (hsuspending : inner.hostSuspending = true) :
    inner'.pending = .empty ∧ inner'.live = .empty := by
  cases h with
  | reserved next id reservation hopen hroom =>
    exact absurd (hopen.symm.trans hsuspending) Bool.false_ne_true
  | dropped id =>
    refine ⟨?_, hlive⟩
    rw [hpending]
    rfl
  | promoted id reservation connectionId record hopen hget =>
    exact absurd (hopen.symm.trans hsuspending) Bool.false_ne_true
  | closed connectionId record record' hget =>
    simp [hlive] at hget
  | retired connectionId =>
    refine ⟨hpending, ?_⟩
    rw [hlive]
    rfl
  | fenced suspending => exact ⟨hpending, hlive⟩

theorem Ends.fenced (h : Ends reg op reg') (hfenced : Fenced reg)
    (hop : op ≠ .setHostSuspending false) : Fenced reg' := by
  cases h with
  | idle => exact hfenced
  | silent now =>
    rw [hfenced.pruned now]
    exact hfenced
  | published now =>
    rw [hfenced.pruned now, Fenced, publish_inner]
    exact hfenced
  | pong connectionId record now hget =>
    rw [hfenced.2.1] at hget
    cases hget
  | edited base hbase inner hedit hkeep =>
    rw [hbase.fenced hfenced] at hedit hkeep ⊢
    obtain ⟨hpending, hlive⟩ := Edit.fenced hedit hfenced.1 hfenced.2.1 hfenced.2.2
    rw [Fenced, changed_inner]
    refine ⟨hpending, hlive, ?_⟩
    by_contra hnot
    exact hop (hkeep (Bool.eq_false_iff.mpr hnot) hfenced.2.2)

/-- What a successful claim found: nobody there, room for one, no fence, and the
revision it was made with. -/
structure Claimable (inner : RegistryInner) (revision : Nat) : Prop where
  live : inner.live = .empty
  pending : inner.pending = .empty
  room : 0 < inner.maxClients
  down : inner.hostSuspending = false
  revision : inner.membershipRevision = revision

/-- A claim either raises the fence over a claimable registry or, having pruned,
fails without a word. -/
theorem claimNoClient_cases (reg : ClientPresenceRegistry) (expectedRevision now : Nat) :
    (Claimable (reg.pruned now).inner expectedRevision ∧
      reg.tryClaimNoClientFence expectedRevision now =
        ((reg.pruned now).changed { (reg.pruned now).inner with hostSuspending := true },
          .ok (expectedRevision + 1))) ∨
    (¬ Claimable (reg.pruned now).inner expectedRevision ∧
      ∃ error, reg.tryClaimNoClientFence expectedRevision now =
        (reg.pruned now, .error error)) := by
  unfold tryClaimNoClientFence
  dsimp only
  generalize reg.pruned now = base
  by_cases hlive : base.inner.live.size ≠ 0
  · rw [if_pos hlive]
    refine .inr ⟨fun h => hlive ?_, _, rfl⟩
    simp [h.live]
  rw [if_neg hlive]
  by_cases hpending : base.inner.pending.size ≠ 0
  · rw [if_pos hpending]
    refine .inr ⟨fun h => hpending ?_, _, rfl⟩
    rw [h.pending]
    rfl
  rw [if_neg hpending]
  rw [not_not] at hlive hpending
  by_cases hroom : base.inner.maxClients ≤ base.inner.pending.size + base.inner.live.size
  · rw [if_pos hroom]
    refine .inr ⟨fun h => ?_, _, rfl⟩
    have hpos := h.room
    omega
  rw [if_neg hroom]
  by_cases hup : base.inner.hostSuspending = true
  · rw [if_pos hup]
    exact .inr ⟨fun h => absurd (h.down.symm.trans hup) Bool.false_ne_true, _, rfl⟩
  rw [if_neg hup]
  by_cases hrevision : base.inner.membershipRevision ≠ expectedRevision
  · rw [if_pos hrevision]
    exact .inr ⟨fun h => hrevision h.revision, _, rfl⟩
  rw [if_neg hrevision]
  rw [not_not] at hrevision
  refine .inl ⟨⟨size_eq_zero_iff.mp hlive, size_eq_zero_iff.mp hpending,
    by omega, Bool.eq_false_iff.mpr hup, hrevision⟩, ?_⟩
  rw [changed_inner, ← hrevision]
  rfl

section

variable {now : Nat} (h : (reg.tryClaimNoClientFence expectedRevision now).2.isOk = true)
include h

theorem claimNoClient_ok : Claimable (reg.pruned now).inner expectedRevision ∧
      (reg.tryClaimNoClientFence expectedRevision now).1 =
        (reg.pruned now).changed { (reg.pruned now).inner with hostSuspending := true } := by
  rcases claimNoClient_cases reg expectedRevision now with ⟨hclaimable, heq⟩ | ⟨_, error, heq⟩
  · rw [heq]
    exact ⟨hclaimable, rfl⟩
  · rw [heq] at h
    cases h

theorem claimNoClient_fenced : Fenced (reg.tryClaimNoClientFence expectedRevision now).1 := by
  obtain ⟨hclaimable, heq⟩ := claimNoClient_ok h
  rw [heq, Fenced, changed_inner]
  exact ⟨hclaimable.pending, hclaimable.live, rfl⟩

end

end

/-- **Presence fence safety.** In every interleaving of calls: the registry fits
its capacity; the revision does not go down and goes up with every change of
membership; after a successful claim of the client-free fence nobody is pending or
live until the fence is released; and a claim made with a revision that was seen
before succeeds only if membership has been the same ever since. -/
theorem fence_safety (maxClients : Nat) (ops : List PresenceOp) :
    let reg := run step (withCapacity maxClients) ops
    Fits reg.inner ∧
    (∀ op, reg.revision ≤ (reg.step op).revision ∧
      ((reg.step op).membership ≠ reg.membership → reg.revision < (reg.step op).revision)) ∧
    (∀ expectedRevision now later, (reg.tryClaimNoClientFence expectedRevision now).2.isOk = true →
      (∀ op ∈ later, op ≠ .setHostSuspending false) →
      Always step Fenced (reg.tryClaimNoClientFence expectedRevision now).1 later) ∧
    (∀ later now, ((run step reg later).tryClaimNoClientFence reg.revision now).2.isOk = true →
      Always step (fun reg' => reg'.membership = reg.membership) reg later) := by
  intro reg
  refine ⟨?_, fun op => ?_, ?_, ?_⟩
  · have hstart : Fits (withCapacity maxClients).inner := Nat.zero_le _
    exact invariant_run_all (I := fun reg => Fits reg.inner)
      (fun reg op h => (step_ends reg op).fits h) ops hstart
  · exact ⟨(step_stamped reg op).le, (step_stamped reg op).lt⟩
  · intro expectedRevision now later hok hlater
    refine always_of_everyStep (C := fun _ op => op ≠ .setHostSuspending false)
      (fun reg op h hop => (step_ends reg op).fenced h hop) (claimNoClient_fenced hok) ?_
    exact everyStep_forall_iff.mpr hlater
  · intro later now hok
    apply always_view_of_version_eq step_stamped
    refine Nat.le_antisymm ?_ (stamped_run step_stamped reg later).le
    rw [← (claimNoClient_ok hok).1.revision]
    exact (stamped_pruned _ now).le

end ClientPresenceRegistry

end DamHopper.IdleSuspend
