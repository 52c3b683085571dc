import DamHopper.LinuxRelease.Recovery

/-!
# Previous — the release a manual rollback goes back to

The commit of an activation makes the active release the previous one, and
retention deletes what neither of them names. To activate or to reinstall the
release that is already active replaces the previous one without there being
another to take its place.
-/

namespace DamHopper.LinuxRelease

open Cmd

variable (sha256 : String → String)

def Directories (d : Disk) : Prop :=
  (∀ r ∈ d.state.active, r.path ∈ d.releases) ∧ ∀ r ∈ d.state.previous, r.path ∈ d.releases

/-- If a durable step commits a release, the previous one is the one that was active,
differs from it, and is there if any other release has ever been active. -/
def CommitsOver (a b : Disk) : Prop :=
  b.everActive ≠ a.everActive → b.state.previous = a.state.active ∧ b.state.active.isSome ∧
    ∀ n ∈ b.state.active, (∀ p ∈ b.state.previous, p.path ≠ n.path) ∧
      ((∃ path ∈ a.everActive, path ≠ n.path) → b.state.previous.isSome)

/-- The active release is neither activated again nor reinstalled. -/
def Renews (d : Disk) : Command → Prop
  | .stage c _ reinstall => ∀ r ∈ d.state.active, r.path = c.path → reinstall = false
  | .activate serviceUser =>
    ∀ c ∈ activationCandidate d.state serviceUser, ∀ r ∈ d.state.active, r.path ≠ c.path
  | _ => True

instance (d : Disk) (c : Command) : Decidable (Renews d c) := by
  cases c <;> delta Renews <;> infer_instance

instance : DecidablePred Directories := fun _ => by delta Directories; infer_instance

instance (a b : Disk) : Decidable (CommitsOver a b) := by delta CommitsOver; infer_instance

structure Kept (d : Disk) : Prop where
  directories : Directories d
  distinct : ∀ p ∈ d.state.previous, ∀ r ∈ d.state.active, r.path ≠ p.path
  ever : d.state.active = none → d.everActive = []

theorem Kept.of_quiet {a b : Disk} (h : Kept a) (hq : Quiet a b) : Kept b := by
  obtain ⟨hactive, hprevious, hreleases, hever⟩ := hq
  constructor
  · simpa only [Directories, hactive, hprevious, hreleases] using h.directories
  · simpa only [hactive, hprevious] using h.distinct
  · simpa only [hactive, hever] using h.ever

def Committing (a b : Disk) : Prop := CommitsOver a b ∧ Directories b

theorem Kept.committing {a b : Disk} (h : Kept b) (he : b.everActive = a.everActive) :
    Committing a b :=
  ⟨fun hne => absurd he hne, h.directories⟩

variable {d : Disk}

/-- `m` keeps the invariant and commits properly. -/
abbrev Keeps (m : Manager Unit) (Q : Disk → Prop) (d : Disk) : Prop :=
  wp Kept Committing m (fun _ => Q) d

theorem Kept.inside {a b : Disk} (h : Kept a) (hin : Inside a b) : Kept b ∧ Committing a b :=
  have hkept := h.of_quiet hin.toQuiet
  ⟨hkept, hkept.committing hin.everActive⟩

/-! ## Quiet commands -/

theorem keeps_quiet {f : Disk → Disk} {Q : Disk → Prop} (hf : Quiet d (f d)) (h : Q (f d)) :
    Keeps (durable f) Q d := by
  apply wp_of_inv
  intro hd
  have hkept := hd.of_quiet hf
  exact wp_durable hkept (hkept.committing hf.everActive) h

theorem keeps_still {f : Disk → Disk} (hf : Quiet d (f d) := by exact {}) :
    Keeps (durable f) (fun _ => True) d :=
  keeps_quiet hf trivial

theorem keeps_rollbackActivationFailure :
    Keeps (rollbackActivationFailure sha256) (fun _ => True) d := by
  refine wp_bind (wp_read ?_)
  split
  · refine wp_then keeps_still fun _ _ _ _ => ?_
    exact wp_then keeps_still fun _ _ _ _ =>
      keeps_still
  have hin (a b : Disk) (ha : Kept a) (_ : True) (hin : Inside a b) :
      Kept b ∧ Committing a b ∧ True := ⟨(ha.inside hin).1, (ha.inside hin).2, trivial⟩
  refine wp_then (inside_restoreBackups hin trivial) fun _ _ _ _ => wp_bind (wp_check (wp_bind
    (wp_validateActivePreflight sha256 fun _ _ => wp_bind (wp_check (wp_bind (wp_checkOr
      (wp_then keeps_still fun _ _ _ _ =>
        keeps_still) keeps_still))))))

theorem keeps_repairActive {active : Option ReleaseRecord} :
    Keeps (repairActive sha256 active) (fun _ => True) d := by
  cases active with
  | none => exact wp_pure trivial
  | some r =>
    exact wp_bind (wp_validateActivePreflight sha256 fun _ _ => wp_bind (wp_check
      (wp_then keeps_still fun _ _ _ _ => wp_check trivial)))

theorem keeps_executeRecovery {isBoot : Bool} :
    Keeps (executeRecovery sha256 isBoot) (fun _ => True) d := by
  refine wp_bind (wp_read ?_)
  split
  · exact keeps_repairActive sha256
  · exact wp_onlyIf (fun _ => wp_bind (wp_check (keeps_repairActive sha256))) fun _ => trivial
  · exact keeps_rollbackActivationFailure sha256
  · exact wp_then (keeps_repairActive sha256) fun _ _ _ _ => keeps_still
  · exact wp_fail

/-! ## Activation -/

theorem keeps_removeRelease {p : ReleasePath → Bool} {Q : Disk → Prop}
    (hp : ∀ r, r ∈ d.state.active ∨ r ∈ d.state.previous → p r.path = false)
    (h : Q { d with releases := d.releases.filter fun path => !p path }) :
    Keeps (removeRelease p) Q d := by
  apply wp_of_inv
  intro hd
  have hkept : Kept { d with releases := d.releases.filter fun path => !p path } := by
    refine ⟨⟨fun r hr => ?_, fun r hr => ?_⟩, hd.distinct, hd.ever⟩
    · exact List.mem_filter.mpr ⟨hd.directories.1 r hr, by simp [hp r (.inl hr)]⟩
    · exact List.mem_filter.mpr ⟨hd.directories.2 r hr, by simp [hp r (.inr hr)]⟩
  exact wp_durable hkept (hkept.committing rfl) h

theorem keeps_applyRetention : Keeps applyRetention (fun _ => True) d := by
  have hin : ∀ r, r ∈ d.state.active ∨ r ∈ d.state.previous → r.tag ∈ referencedTags d.state := by
    rintro r (hr | hr) <;> simp [referencedTags, Option.mem_def.mp hr]
  refine wp_bind (wp_read (wp_bind (wp_check (wp_mono (fun _ _ _ _ => trivial)
    (wp_forM (fun tags (d' : Disk) => d'.state = d.state ∧
      ∀ tag ∈ tags, tag ∉ referencedTags d.state) (fun tag rest d' _ h => ?_)
      ⟨rfl, fun tag htag => ?_⟩)))))
  · refine keeps_removeRelease (fun r hr => decide_eq_false fun he => ?_)
      ⟨h.1, fun tag' h' => h.2 tag' (List.mem_cons_of_mem _ h')⟩
    exact h.2 tag List.mem_cons_self (he ▸ hin r (h.1 ▸ hr))
  · exact (by simpa using (List.mem_filter.mp htag).2 : _ ∧ _).1

def Differs (c : PendingCandidateRecord) (d : Disk) : Prop :=
  ∀ r ∈ d.state.active, r.path ≠ c.path

theorem differs_inside (c : PendingCandidateRecord) (a b : Disk) (ha : Kept a) (h : Differs c a)
    (hin : Inside a b) : Kept b ∧ Committing a b ∧ Differs c b :=
  ⟨(ha.inside hin).1, (ha.inside hin).2, by simpa only [Differs, hin.active] using h⟩

section

variable {c : PendingCandidateRecord} {reinstall : Bool}

theorem keeps_commit (hd : Kept d) (hc : Differs c d) (hpath : c.path ∈ d.releases) :
    Keeps (commit sha256 c) (fun _ => True) d := by
  have hdirs : Directories { d with
      state := { d.state with
        previous := d.state.active, active := some (c.record sha256)
        pending := none, transaction := none }
      everActive := c.path :: d.everActive } := by
    refine ⟨?_, hd.directories.1⟩
    rintro _ ⟨⟩
    exact hpath
  refine wp_durable ⟨hdirs, ?_, nofun⟩ ⟨fun _ => ⟨rfl, rfl, ?_⟩, hdirs⟩ trivial
  · rintro p hp _ ⟨⟩
    exact fun he => hc p hp he.symm
  · rintro _ ⟨⟩
    refine ⟨hc, fun ⟨path, hmem, _⟩ => ?_⟩
    cases hactive : d.state.active with
    | none => exact absurd hmem (by simp [hd.ever hactive])
    | some r => rfl

theorem keeps_activateCandidate (hc : Differs c d) :
    Keeps (activateCandidate sha256 c) (fun _ => True) d := by
  have hs := differs_inside c
  refine wp_bind (wp_require fun _ => wp_bind (wp_check (wp_bind (wp_read ?_))))
  refine wp_then (Q := fun _ => Differs c) ?_ fun tx d₁ _ h₁ => ?_
  · cases d.state.transaction with
    | some t => exact wp_pure hc
    | none => exact wp_bind (wp_read (wp_bind (keeps_quiet {} (wp_pure hc))))
  refine wp_bind (inside_recordPhase hs h₁ (by simp) fun s h₂ => ?_)
  refine wp_then (wp_orElse (inside_pipeline sha256 hs h₂ fun d' hd' h' hpath _ =>
    keeps_commit sha256 hd' h' hpath) fun d₃ _ => ?_) fun _ d₄ _ _ => ?_
  · refine wp_then keeps_still fun _ _ _ _ => wp_bind (wp_read ?_)
    exact wp_then (wp_orElse (keeps_rollbackActivationFailure sha256)
      fun _ _ => keeps_still) fun _ _ _ _ => wp_fail
  · exact wp_then keeps_still fun _ _ _ _ => keeps_applyRetention

theorem keeps_executeActivation {serviceUser : Option Rendered}
    (h : ∀ c ∈ activationCandidate d.state serviceUser, Differs c d) :
    Keeps (executeActivation sha256 serviceUser) (fun _ => True) d := by
  refine wp_bind (wp_read ?_)
  cases hc : activationCandidate d.state serviceUser with
  | some c =>
    exact wp_then (wp_onlyIf (fun _ => keeps_quiet {} (h c hc))
      fun _ => h c hc) fun _ _ _ h₁ => keeps_activateCandidate sha256 h₁
  | none =>
    dsimp only
    split
    · exact wp_fail
    · exact wp_bind (wp_validateActivePreflight sha256 fun _ _ => wp_check trivial)

/-- The candidate of a manual rollback is the previous release. -/
theorem activationCandidate_pending {s : ManagerState} :
    activationCandidate { s with pending := some c } none = some c := by
  simp [activationCandidate]

theorem keeps_executeManualRollback {files : Rendered} :
    Keeps (executeManualRollback sha256 files) (fun _ => True) d := by
  apply wp_of_inv
  intro hd
  refine wp_bind (wp_read ?_)
  split
  · exact wp_fail
  next prev hprev =>
  have hkept := hd.of_quiet (b := { d with state := { d.state with
    pending := some { tag := prev.tag, role := prev.role, files := files } } })
    {}
  refine wp_bind (wp_require fun _ => wp_bind (wp_check (wp_bind (wp_durable hkept
    (hkept.committing rfl) (keeps_executeActivation sha256 fun c hc r hr => ?_)))))
  cases activationCandidate_pending.symm.trans hc
  exact hd.distinct prev hprev r hr

/-! ## Staging -/

/-- Nothing in use has the candidate's directory. -/
def Vacant (c : PendingCandidateRecord) (d : Disk) : Prop :=
  ∀ r, r ∈ d.state.active ∨ r ∈ d.state.previous → r.path ≠ c.path

theorem keeps_removeCandidate (h : Vacant c d) :
    Keeps (removeRelease fun path => path = c.path) (Vacant c) d :=
  keeps_removeRelease (fun r hr => decide_eq_false (h r hr)) h

theorem keeps_clearDestination (h : ∀ r ∈ d.state.active, r.path = c.path → reinstall = false) :
    Keeps (clearDestination c reinstall) (Vacant c) d := by
  apply wp_of_inv
  intro hd
  refine wp_bind (wp_read (wp_onlyIf (fun _ => ?_) fun hn r hr he => hn ?_))
  · refine wp_then (Q := fun _ => Vacant c) (wp_onlyIf (fun _ => ?_) fun hn r hr he => hn ?_)
      fun _ d' _ h' => keeps_removeCandidate h'
    · refine wp_bind (wp_require fun hre => ?_)
      -- the active release is elsewhere, so only the previous one can lose its record
      have hactive : d.state.active.filter (fun r => !decide (r.path = c.path)) =
          d.state.active := by
        cases hr : d.state.active with
        | none => rfl
        | some r =>
          have hne : r.path ≠ c.path := fun he => by simpa [hre] using h r hr he
          simp [hne]
      have hkept : Kept { d with state := { d.state with
          active := d.state.active.filter fun r => !decide (r.path = c.path)
          previous := d.state.previous.filter fun r => !decide (r.path = c.path) } } := by
        rw [hactive]
        exact ⟨⟨hd.directories.1, fun r hr => hd.directories.2 r (Option.mem_filter_iff.mp hr).1⟩,
          fun p hp => hd.distinct p (Option.mem_filter_iff.mp hp).1, hd.ever⟩
      refine wp_durable hkept (hkept.committing rfl) ?_
      rintro r (hr | hr) <;> simpa using (Option.mem_filter_iff.mp hr).2
    · rcases hr with hr | hr <;> simp [Option.mem_def.mp hr, he]
  · rcases hr with hr | hr
    · exact he ▸ hd.directories.1 r hr
    · exact he ▸ hd.directories.2 r hr

theorem keeps_stageReleaseBundle {hostToml : String}
    (h : ∀ r ∈ d.state.active, r.path = c.path → reinstall = false) :
    Keeps (stageReleaseBundle c hostToml reinstall) (fun _ => True) d := by
  refine wp_bind (wp_check (wp_then (keeps_clearDestination h) fun _ d₁ hd₁ h₁ => ?_))
  have hkept : Kept { d₁ with releases := c.path :: d₁.releases } :=
    ⟨⟨fun r hr => List.mem_cons_of_mem _ (hd₁.directories.1 r hr),
      fun r hr => List.mem_cons_of_mem _ (hd₁.directories.2 r hr)⟩, hd₁.distinct, hd₁.ever⟩
  refine wp_bind (wp_durable hkept (hkept.committing rfl) (wp_bind (wp_checkOr ?_
    (wp_mono (fun _ _ _ _ => trivial) (keeps_removeCandidate h₁)))))
  exact wp_then keeps_still fun _ _ _ _ => keeps_still

end

theorem keeps_execute {c : Command} (h : Renews d c) :
    Keeps (c.execute sha256) (fun _ => True) d := by
  cases c with
  | stage c hostToml reinstall => exact keeps_stageReleaseBundle h
  | activate serviceUser => exact keeps_executeActivation sha256 h
  | rollback files => exact keeps_executeManualRollback sha256
  | recover isBoot => exact keeps_executeRecovery sha256
  | retention => exact keeps_applyRetention

/-- **The rollback target survives.** In every run of the manager's commands, whatever
fails and wherever it dies, if the active release is neither activated again nor
reinstalled: each commit makes the release that was active the previous one, which is
another one and missing only if no other has ever been active, and the directories of
both are there from then on. -/
theorem previous_survives (invocations : List Invocation)
    (h : EveryStep (step sha256) (fun d i => Renews d i.1) {} invocations) :
    EveryStep (step sha256)
      (fun d i => ∀ p ∈ durableSteps sha256 d i, CommitsOver p.1 p.2 ∧ Directories p.2) {}
      invocations :=
  EveryStep.under (I := Kept) (fun _ _ hd hi => ((keeps_execute sha256 hi).result hd).1)
    (fun _ _ hd hi => ((keeps_execute sha256 hi).result hd).2.1)
    ⟨⟨nofun, nofun⟩, nofun, fun _ => rfl⟩ h

/-- Two releases one after the other, and back. -/
theorem previous_survives_rollback : EveryStep (step id)
      (fun d i => ∀ p ∈ durableSteps id d i, CommitsOver p.1 p.2 ∧ Directories p.2) {}
      (deployed "v1" [] ++ deployed "v2" [] ++
        [(.rollback (sampleRelease "v1" (serverUnits "v1")).files, [])]) :=
  previous_survives id _ (by decide +kernel)

/-- Starting the active release for another service user commits it over itself: the
release before it is no longer the previous one, and its directory is gone. -/
theorem reactivated_previous_lost :
    let again := (sampleRelease "v2" (serverUnits "v2b")).files
    let reactivated := deployed "v1" [] ++ deployed "v2" [] ++ [(.activate again, [])]
    ¬EveryStep (step id)
      (fun d i => ∀ p ∈ durableSteps id d i, CommitsOver p.1 p.2 ∧ Directories p.2) {}
      reactivated ∧ ("v1", .server) ∉ (run (step id) {} reactivated).releases := by
  decide +kernel

end DamHopper.LinuxRelease
