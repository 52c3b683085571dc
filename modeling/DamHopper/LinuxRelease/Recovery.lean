import DamHopper.Lib.Runs
import DamHopper.LinuxRelease.Manager

/-!
# Recovery — what a successful `recover` leaves behind

`execute_recovery` ends well on every path that looks at the active release: the
preflight has compared the installed files with its record, and the link is
switched afterwards. The one path that does not look is a candidate left pending
when the host is not booting. A candidate can be pending over a link or files that are not
those of the active release only if a command was started after one that had died or
failed, and not been recovered (`Tended`).
-/

namespace DamHopper.LinuxRelease

open Cmd

variable (sha256 : String → String)

/-- The installation is the one its active record describes. -/
def Consistent (d : Disk) : Prop :=
  ∀ active, d.state.active = some active →
    (∀ t, d.state.transaction = some t →
      t.phase ∉ [.quiesced, .switched, .probing, .committed, .rollingBack]) ∧
    d.current = some active.path ∧ InstalledAs sha256 active d

def Command.isRecover : Command → Bool
  | .recover _ => true
  | _ => false

/-- After a command that died or failed the next one is `recover`. -/
def Tended (d : Disk) : List Invocation → Prop
  | i :: j :: rest =>
    ((perform sha256 d i).1 = .ok () ∨ j.1.isRecover = true) ∧
      Tended (step sha256 d i) (j :: rest)
  | _ => True

/-! ## Steps inside a transaction -/

/-- What no step but a commit, a staging or a deletion touches. -/
structure Quiet (a b : Disk) : Prop where
  active : b.state.active = a.state.active := by rfl
  previous : b.state.previous = a.state.previous := by rfl
  releases : b.releases = a.releases := by rfl
  everActive : b.everActive = a.everActive := by rfl

/-- What the steps of an activation between its first record and its end leave alone. -/
structure Inside (a b : Disk) : Prop extends Quiet a b where
  current : b.current = a.current
  transaction : ∀ t ∈ a.state.transaction, ∃ t' ∈ b.state.transaction,
    t'.phase = t.phase ∨ t'.phase ∈ [.quiesced, .switched, .probing]

variable {J P : Disk → Prop} {R : Disk → Disk → Prop} {d : Disk}

theorem inside_of_state {a b : Disk} (hs : b.state = a.state) (hr : b.releases = a.releases)
    (he : b.everActive = a.everActive) (hc : b.current = a.current) : Inside a b :=
  ⟨⟨by rw [hs], by rw [hs], hr, he⟩, hc, fun t ht => ⟨t, hs ▸ ht, .inl rfl⟩⟩

theorem wp_validateActivePreflight {Q : Unit → Disk → Prop} {r : ReleaseRecord}
    (h : r.path ∈ d.releases → InstalledAs sha256 r d → Q () d) :
    wp J R (validateActivePreflight sha256 r) Q d :=
  wp_bind (wp_require fun hpath => wp_bind (wp_require fun hinstalled =>
    wp_check (h hpath hinstalled)))

section

variable (hP : ∀ a b, J a → P a → Inside a b → J b ∧ R a b ∧ P b) {tx : Nat}
include hP

theorem inside_durable {Q : Unit → Disk → Prop} {f : Disk → Disk} (h : P d)
    (hf : Inside d (f d)) (hQ : P (f d) → Q () (f d)) : wp J R (durable f) Q d := by
  apply wp_of_inv
  intro hd
  obtain ⟨hj, hr, hp⟩ := hP d (f d) hd h hf
  exact wp_durable hj hr (hQ hp)

theorem inside_install {f : ManagedFile} {content : String} (h : P d) :
    wp J R (install f content) (fun _ => P) d :=
  inside_durable hP h (inside_of_state rfl rfl rfl rfl) id

theorem inside_backupFile {f : ManagedFile} (h : P d) :
    wp J R (backupFile tx f) (fun _ => P) d := by
  refine wp_bind (wp_read ?_)
  split
  · exact wp_pure h
  · exact inside_durable hP h (inside_of_state rfl rfl rfl rfl) id

theorem inside_restoreBackups {t : Option TransactionRecord} (h : P d) :
    wp J R (restoreBackups t) (fun _ => P) d := by
  cases t with
  | none => exact wp_pure h
  | some t =>
    refine wp_forM (fun _ => P) (fun f rest d' _ h' => wp_bind (wp_read ?_)) h
    split
    · exact wp_pure h'
    · exact inside_install hP h'

theorem inside_recordPhase {phase : TransactionPhase} {Q : Unit → Disk → Prop} (h : P d)
    (hphase : phase ∈ [.quiesced, .switched, .probing])
    (hQ : ∀ s, P { d with state := s } → Q () { d with state := s }) :
    wp J R (recordPhase tx phase) Q d := by
  refine wp_bind (wp_read (wp_bind (wp_require fun _ => ?_)))
  cases ht : d.state.transaction with
  | some t =>
    refine wp_bind (wp_require fun _ => inside_durable hP h ⟨{}, rfl, ?_⟩ (hQ _))
    exact fun _ _ => ⟨_, rfl, .inr hphase⟩
  | none =>
    dsimp only
    split
    · exact wp_fail
    · exact inside_durable hP h ⟨{}, rfl, by simp [ht]⟩ (hQ _)

/-- The pipeline comes to its commit with the files of the candidate installed. -/
theorem inside_pipeline {c : PendingCandidateRecord} {Q : Unit → Disk → Prop} (h : P d)
    (hcommit : ∀ d, J d → P d → c.path ∈ d.releases → InstalledAs sha256 (c.record sha256) d →
      wp J R (commit sha256 c) Q d) :
    wp J R (executeActivationPipeline sha256 tx c) Q d := by
  refine wp_bind (wp_check ?_)
  refine wp_then (wp_forM (fun _ => P) (fun f _ d' _ h => inside_backupFile hP h) h)
    fun _ d₁ _ h₁ => ?_
  refine wp_then (wp_forM (fun _ => P) (fun u _ d' _ h =>
    wp_bind (wp_require fun _ => inside_install hP h)) h₁) fun _ d₂ _ h₂ => ?_
  refine wp_bind (wp_check ?_)
  refine wp_then (inside_backupFile hP h₂) fun _ d₃ _ h₃ => ?_
  refine wp_then (inside_backupFile hP h₃) fun _ d₄ _ h₄ => ?_
  refine wp_then (wp_onlyIf (fun _ => inside_install hP h₄) fun _ => h₄) fun _ d₅ _ h₅ => ?_
  refine wp_then (inside_install hP h₅) fun _ d₆ _ h₆ => wp_bind (wp_check ?_)
  refine wp_bind (inside_recordPhase hP h₆ (by simp) fun s h₇ => ?_)
  refine wp_bind (wp_validateActivePreflight sha256 fun hpath hinstalled => wp_bind (wp_check ?_))
  refine wp_bind (inside_recordPhase hP h₇ (by simp) fun s' h₈ => wp_bind (wp_check ?_))
  exact wp_of_inv fun hj => hcommit _ hj h₈ hpath hinstalled

end

/-! ## What can be recovered -/

/-- The link and the files are those of the active release. -/
def Linked (d : Disk) : Prop :=
  ∀ r ∈ d.state.active, d.current = some r.path ∧ InstalledAs sha256 r d

/-- A command that succeeded has left the disk like this. -/
structure Clean (d : Disk) : Prop where
  idle : d.state.transaction = none
  linked : Linked sha256 d

/-- A command that stopped anywhere has left the disk like this: while a transaction is
recorded the link is not touched, and once none is, no candidate is pending over an
installation that is not that of the active release. -/
structure Recoverable (d : Disk) : Prop where
  phases : ∀ t ∈ d.state.transaction, t.phase ∈ [.quiesced, .switched, .probing, .failed]
  current : ∀ t ∈ d.state.transaction, ∀ r ∈ d.state.active, d.current = some r.path
  pending : d.state.transaction = none → d.state.pending.isSome → Linked sha256 d

abbrev Tends (m : Manager Unit) (Q : Disk → Prop) (d : Disk) : Prop :=
  wp (Recoverable sha256) (fun _ _ => True) m (fun _ => Q) d

variable {sha256} {f : Disk → Disk}

theorem Clean.recoverable (h : Clean sha256 d) : Recoverable sha256 d :=
  ⟨by simp [h.idle], by simp [h.idle], fun _ _ => h.linked⟩

theorem Clean.consistent (h : Clean sha256 d) : Consistent sha256 d :=
  fun r hr => ⟨by simp [h.idle], h.linked r hr⟩

theorem tends_clean (h : Clean sha256 (f d)) : Tends sha256 (durable f) (Clean sha256) d :=
  wp_durable h.recoverable trivial h

theorem tends_saveFailed {failure : Option (Option String)} :
    Tends sha256 (saveManagerState fun s => { failed s with latestFailure := failure })
      (fun _ => True) d := by
  apply wp_of_inv
  intro hd
  refine wp_durable ⟨fun t ht => ?_, fun t ht => ?_, fun hn => ?_⟩ trivial trivial
  · obtain ⟨t', _, rfl⟩ := Option.map_eq_some_iff.mp ht
    simp
  · obtain ⟨t', ht', rfl⟩ := Option.map_eq_some_iff.mp ht
    exact hd.current t' ht'
  · exact hd.pending (by simpa [failed] using hn)

/-- A step inside a transaction. -/
theorem inside_recoverable (a b : Disk) (ha : Recoverable sha256 a)
    (hsome : a.state.transaction.isSome) (h : Inside a b) :
    Recoverable sha256 b ∧ True ∧ b.state.transaction.isSome := by
  obtain ⟨t, ht⟩ := Option.isSome_iff_exists.mp hsome
  obtain ⟨t', ht', hphase⟩ := h.transaction t ht
  refine ⟨⟨?_, ?_, ?_⟩, trivial, by simp [Option.mem_def.mp ht']⟩
  · intro t'' ht''
    cases ht'.symm.trans ht''
    have hold := ha.phases t ht
    rcases hphase with hsame | hnew
    · exact hsame ▸ hold
    · revert hnew
      cases t'.phase <;> simp
  · intro _ _ r hr
    rw [h.current]
    exact ha.current t ht r (h.active ▸ hr)
  · intro hn
    exact absurd (hn.symm.trans ht') nofun

theorem tends_rollbackActivationFailure :
    Tends sha256 (rollbackActivationFailure sha256) (Clean sha256) d := by
  apply wp_of_inv
  intro hd
  refine wp_bind (wp_read ?_)
  cases hactive : d.state.active with
  | none =>
    have hnone : ∀ {b : Disk}, b.state.transaction = d.state.transaction →
        b.state.active = none → Recoverable sha256 b := fun ht ha =>
      ⟨ht ▸ hd.phases, by simp [ha], by simp [Linked, ha]⟩
    refine wp_bind (wp_durable (hnone rfl hactive) trivial (wp_bind (wp_durable
      (hnone rfl hactive) trivial (tends_clean ⟨rfl, ?_⟩))))
    simp [Linked, rolledBack, hactive]
  | some active =>
    -- with a transaction the link is the active release's, without one nothing is restored
    have hlink : ∀ {d' : Disk}, Recoverable sha256 d' → d'.state.active = some active →
        InstalledAs sha256 active d' →
        Recoverable sha256 { d' with state := rolledBack d'.state } := by
      intro d' hd' ha hinstalled
      refine ⟨by simp [rolledBack], by simp [rolledBack], fun _ hpending => ?_⟩
      cases ht : d'.state.transaction with
      | none => exact hd'.pending ht hpending
      | some t =>
        intro r hr
        cases ha.symm.trans hr
        exact ⟨hd'.current t ht _ ha, hinstalled⟩
    refine wp_then (Q := fun _ d' => d'.state.active = some active) ?_ fun _ d₁ _ h₁ => ?_
    · cases ht : d.state.transaction with
      | none => exact wp_pure hactive
      | some t =>
        refine wp_mono (fun _ _ _ h => h.2) (inside_restoreBackups
          (P := fun d' : Disk => d'.state.transaction.isSome ∧ d'.state.active = some active)
          (fun a b ha h hin => ?_) ⟨by simp [ht], hactive⟩)
        obtain ⟨hj, _, hsome⟩ := inside_recoverable a b ha h.1 hin
        exact ⟨hj, trivial, hsome, hin.active.trans h.2⟩
    refine wp_bind (wp_check (wp_bind (wp_validateActivePreflight sha256 fun _ hinstalled => ?_)))
    refine wp_bind (wp_check (wp_bind (wp_checkOr ?_ tends_saveFailed)))
    refine wp_of_inv fun hd₁ => wp_bind (wp_durable (hlink hd₁ h₁ hinstalled) trivial
      (tends_clean ⟨rfl, fun r hr => ?_⟩))
    cases h₁.symm.trans hr
    exact ⟨rfl, hinstalled⟩

/-- A repaired release is the one linked and installed. -/
theorem tends_repairActive (hn : d.state.transaction = none) :
    Tends sha256 (repairActive sha256 d.state.active)
      (fun d' => d'.state = d.state ∧ Clean sha256 d') d := by
  cases hactive : d.state.active with
  | none => exact wp_pure ⟨rfl, hn, by simp [Linked, hactive]⟩
  | some r =>
    refine wp_bind (wp_validateActivePreflight sha256 fun _ hinstalled => wp_bind (wp_check ?_))
    have hclean : Clean sha256 { d with current := some r.path } := by
      refine ⟨hn, fun r' hr => ?_⟩
      cases hactive.symm.trans hr
      exact ⟨rfl, hinstalled⟩
    exact wp_bind (wp_durable hclean.recoverable trivial (wp_check ⟨rfl, hclean⟩))

theorem tends_executeRecovery {isBoot : Bool} :
    Tends sha256 (executeRecovery sha256 isBoot) (Clean sha256) d := by
  apply wp_of_inv
  intro hd
  refine wp_bind (wp_read ?_)
  have hrepair (hn : d.state.transaction = none) : Tends sha256 _ (Clean sha256) d :=
    wp_mono (fun _ _ _ h => h.2) (tends_repairActive hn)
  cases ht : d.state.transaction with
  | some t =>
    have hphase := hd.phases t ht
    cases hp : t.phase <;> simp_all only [classifyRecovery, List.mem_cons, List.not_mem_nil,
      reduceCtorEq, or_self, or_true, true_or]
    all_goals first | exact tends_rollbackActivationFailure | exact wp_fail
  | none =>
    simp only [classifyRecovery, ht]
    split_ifs with hpending hactive
    · exact wp_onlyIf (fun _ => wp_bind (wp_check (hrepair ht)))
        fun _ => ⟨ht, hd.pending ht hpending⟩
    · exact wp_then (tends_repairActive ht) fun _ d' _ h => tends_clean ⟨rfl, h.2.linked⟩
    · exact hrepair ht

/-! ## The other commands -/

theorem tends_applyRetention (h : Clean sha256 d) :
    Tends sha256 applyRetention (Clean sha256) d := by
  refine wp_bind (wp_read (wp_bind (wp_check (wp_forM (fun _ => Clean sha256) ?_ h))))
  exact fun _ _ _ _ h' => tends_clean ⟨h'.idle, h'.linked⟩

section

variable {c : PendingCandidateRecord}

theorem tends_activateCandidate (h : Clean sha256 d) :
    Tends sha256 (activateCandidate sha256 c) (Clean sha256) d := by
  refine wp_bind (wp_require fun _ => wp_bind (wp_check (wp_bind (wp_read ?_))))
  rw [h.idle]
  refine wp_bind (wp_bind (wp_read (wp_bind (wp_durable
    (Clean.recoverable ⟨h.idle, h.linked⟩) trivial (wp_pure ?_)))))
  refine wp_then (Q := fun _ d' => d'.state.transaction.isSome) ?_ fun _ d₁ _ h₁ => ?_
  · refine wp_bind (wp_read (wp_bind (wp_require fun _ => ?_)))
    simp only [h.idle]
    split
    · exact wp_fail
    · exact wp_durable ⟨by simp, fun _ _ r hr => (h.linked r hr).1, nofun⟩ trivial rfl
  refine wp_then (Q := fun _ d' => d'.state.transaction = none ∧
    d'.state.active = some (c.record sha256) ∧ InstalledAs sha256 (c.record sha256) d')
    (wp_orElse (inside_pipeline sha256 inside_recoverable h₁ fun d' _ _ _ hinstalled =>
      wp_durable ⟨nofun, nofun, nofun⟩ trivial ⟨rfl, rfl, hinstalled⟩) fun d' hd' => ?_)
    fun _ d' _ ⟨hn, hactive, hinstalled⟩ => ?_
  · refine wp_bind (wp_durable ⟨hd'.phases, hd'.current, hd'.pending⟩ trivial
      (wp_bind (wp_read ?_)))
    exact wp_then (wp_orElse (wp_mono (fun _ _ _ _ => trivial) tends_rollbackActivationFailure)
      fun _ _ => tends_saveFailed) fun _ _ _ _ => wp_fail
  · refine wp_then (tends_clean ⟨hn, fun r hr => ?_⟩) fun _ _ _ h => tends_applyRetention h
    cases hactive.symm.trans hr
    exact ⟨rfl, hinstalled⟩

theorem tends_executeActivation {serviceUser : Option Rendered} (h : Clean sha256 d) :
    Tends sha256 (executeActivation sha256 serviceUser) (Clean sha256) d := by
  refine wp_bind (wp_read ?_)
  split
  · exact wp_then (wp_onlyIf (fun _ => tends_clean ⟨h.idle, h.linked⟩) fun _ => h)
      fun _ _ _ h' => tends_activateCandidate h'
  · split
    · exact wp_fail
    · exact wp_bind (wp_validateActivePreflight sha256 fun _ _ => wp_check h)

theorem tends_executeManualRollback {files : Rendered} (h : Clean sha256 d) :
    Tends sha256 (executeManualRollback sha256 files) (Clean sha256) d := by
  refine wp_bind (wp_read ?_)
  split
  · exact wp_fail
  · exact wp_bind (wp_require fun _ => wp_bind (wp_check (wp_then
      (tends_clean ⟨h.idle, h.linked⟩) fun _ _ _ h' => tends_executeActivation h')))

theorem tends_stageReleaseBundle {hostToml : String} {reinstall : Bool} (h : Clean sha256 d) :
    Tends sha256 (stageReleaseBundle c hostToml reinstall) (Clean sha256) d := by
  have hremove : ∀ {p d'}, Clean sha256 d' → Tends sha256 (removeRelease p) (Clean sha256) d' :=
    fun h' => tends_clean ⟨h'.idle, h'.linked⟩
  have hclear : Tends sha256 (clearDestination c reinstall) (Clean sha256) d := by
    refine wp_bind (wp_read (wp_onlyIf (fun _ => ?_) fun _ => h))
    refine wp_then (wp_onlyIf (fun _ => wp_bind (wp_require fun _ => ?_)) fun _ => h)
      fun _ _ _ h' => hremove h'
    exact tends_clean ⟨h.idle, fun r hr => h.linked r (Option.mem_filter_iff.mp hr).1⟩
  refine wp_bind (wp_check (wp_then hclear fun _ d₁ _ h₁ => ?_))
  refine wp_then (tends_clean ⟨h₁.idle, h₁.linked⟩) fun _ d₂ _ h₂ => ?_
  refine wp_bind (wp_checkOr ?_ (wp_mono (fun _ _ _ _ => trivial) (hremove h₂)))
  refine wp_then (tends_clean ⟨h₂.idle, fun r hr => ?_⟩) fun _ d₃ _ h₃ =>
    tends_clean ⟨rfl, h₃.linked⟩
  simpa [InstalledAs, Verified] using h₂.linked r hr

end

theorem tends_execute {c : Command} (h : Clean sha256 d ∨ c.isRecover = true) :
    Tends sha256 (c.execute sha256) (Clean sha256) d := by
  cases c with
  | recover isBoot => exact tends_executeRecovery
  | stage c hostToml reinstall => exact tends_stageReleaseBundle (h.resolve_right nofun)
  | activate serviceUser => exact tends_executeActivation (h.resolve_right nofun)
  | rollback files => exact tends_executeManualRollback (h.resolve_right nofun)
  | retention => exact tends_applyRetention (h.resolve_right nofun)

/-! ## Runs -/

/-- In a tended run every command starts on a clean disk, or recovers. -/
theorem recoverable_run {invocations : List Invocation} (hd : Recoverable sha256 d)
    (hstart : ∀ i ∈ invocations.head?, Clean sha256 d ∨ i.1.isRecover = true)
    (h : Tended sha256 d invocations) :
    Recoverable sha256 (run (step sha256) d invocations) := by
  induction invocations generalizing d with
  | nil => exact hd
  | cons i rest ih =>
    have hi := tends_execute (hstart i rfl)
    cases rest with
    | nil => exact (hi.result hd).1
    | cons j rest =>
      refine ih (hi.result hd).1 ?_ h.2
      rintro _ ⟨⟩
      exact h.1.imp_left fun hok => (hi.result hd).2.2 () hok

/-- **Successful recovery.** After every run of the manager's commands, wherever they die
and whatever fails, if a command that died or failed is followed by `recover`: when
`recover` returns without an error, at boot or not, the installation is consistent. -/
theorem recovery_consistent (sha256 : String → String) (invocations : List Invocation)
    (h : Tended sha256 {} invocations) (isBoot : Bool) (fates : List Bool)
    (hok : (perform sha256 (run (step sha256) {} invocations) (.recover isBoot, fates)).1 =
      .ok ()) :
    Consistent sha256
      (step sha256 (run (step sha256) {} invocations) (.recover isBoot, fates)) := by
  have hclean : Clean sha256 {} := ⟨rfl, nofun⟩
  have hd := recoverable_run hclean.recoverable (fun _ _ => .inl hclean) h
  exact ((tends_executeRecovery.result hd).2.2 () hok).consistent

/-! A release is committed, the process dies before the link is switched, and another
bundle is staged: `recover` then finds a pending candidate and looks no further. -/

def sampleRelease (tag : String) (units : List (ManagedFile × String)) :
    PendingCandidateRecord :=
  { tag := tag, role := .server
    files := { units := units, hostConfigJson := tag, hostToml := tag } }

def serverUnits (version : String) : List (ManagedFile × String) :=
  [(.apiUnit, version), (.helperUnit, version), (.recoveryUnit, version),
    (.runtimeTmpfilesConf, "d /run/dam-hopper")]

def deployed (tag : String) (fates : List Bool) : List Invocation :=
  [(.stage (sampleRelease tag (serverUnits tag)) "host" false, []), (.activate none, fates)]

def unlinked : List Invocation :=
  deployed "v1" [] ++ deployed "v2" (List.replicate 23 true ++ [false])

def staged : Invocation := (.stage (sampleRelease "v3" (serverUnits "v3")) "host" false, [])

theorem recovery_consistent_staged :
    let d := run (step id) {} (unlinked ++ [(.recover false, []), staged])
    d.state.active.isSome ∧ Consistent id (step id d (.recover false, [])) :=
  ⟨by decide +kernel, recovery_consistent id (unlinked ++ [(.recover false, []), staged])
    ⟨.inl (by decide +kernel), .inl (by decide +kernel), .inl (by decide +kernel), .inr rfl,
      .inl (by decide +kernel), trivial⟩ false [] (by decide +kernel)⟩

theorem stale_link_after_recover :
    let d := run (step id) {} (unlinked ++ [staged])
    (perform id d (.recover false, [])).1 = .ok () ∧
      ¬Consistent id (step id d (.recover false, [])) := by
  refine ⟨by decide +kernel, fun h => ?_⟩
  have hlink := (h ⟨"v2", .server, "v2", none, "v2", "v2"⟩ (by decide +kernel)).2.1
  revert hlink
  decide +kernel

end DamHopper.LinuxRelease
