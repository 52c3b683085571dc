import DamHopper.LinuxRelease.Previous

/-!
# Backups — what an unfinished activation can be rolled back to

While a transaction is recorded, each managed file of the release it replaces is
either still installed or in the transaction's backup. Runs have to be `Orderly`
for that: the backup is taken again if an activation is, staging forgets the
record, a rollback restores files but removes none, and two files are installed
without a backup.
-/

namespace DamHopper.LinuxRelease

open Cmd

variable (sha256 : String → String) {d : Disk}

/-- Every file of the release that was active is installed or in the backup. -/
def Restorable (d : Disk) : Prop :=
  ∀ t ∈ d.state.transaction, ∀ files ∈ t.began, ∀ f,
    d.installed f = files f ∨ d.backups t.txId f = files f

/-- A recorded transaction is cleared by a commit, or with the files put back. -/
def ClearsProperly (a b : Disk) : Prop :=
  ∀ t ∈ a.state.transaction, b.state.transaction = none →
    b.everActive ≠ a.everActive ∨ ∀ files ∈ t.began, ∀ f, b.installed f = files f

/-- The candidate installs nothing that is absent, and what is not backed up as it is. -/
def Replaces (c : PendingCandidateRecord) (files : Files) : Prop :=
  (∀ e ∈ c.files.units, (files e.1).isSome ∧
      (e.1 ∈ allServiceUnits ∨ files e.1 = some e.2)) ∧
    (files .hostConfigJson).isSome ∧ (c.role.includesServer → (files .hostToml).isSome)

def Begins (d : Disk) (c : PendingCandidateRecord) : Prop :=
  d.state.transaction.isNone ∧ (d.state.active.isSome → Replaces c d.installed)

/-- Nothing but `recover` is run on an unfinished transaction, and over an active release
no absent file is installed and none changed that is not backed up. -/
def Orderly (d : Disk) : Command → Prop
  | .stage .. => d.state.transaction.isNone
  | .activate serviceUser => ∀ c ∈ activationCandidate d.state serviceUser, Begins d c
  | .rollback files =>
    ∀ p ∈ d.state.previous, Begins d { tag := p.tag, role := p.role, files := files }
  | _ => True

instance (d : Disk) (c : PendingCandidateRecord) : Decidable (Begins d c) := by
  delta Begins Replaces; infer_instance

instance (d : Disk) : ∀ c, Decidable (Orderly d c)
  | .stage .. | .activate _ | .rollback _ | .recover _ | .retention => by
    unfold Orderly
    infer_instance

instance (p : ManagedFile → Prop) [DecidablePred p] : Decidable (∀ f, p f) :=
  decidable_of_iff (∀ f ∈ backedUpFiles ++ [.webSysusersConf, .runtimeTmpfilesConf], p f)
    ⟨fun h f => h f (by cases f <;> decide), fun h f _ => h f⟩

instance : DecidablePred Restorable := fun _ => by delta Restorable; infer_instance

instance (a b : Disk) : Decidable (ClearsProperly a b) := by
  delta ClearsProperly; infer_instance

/-- A file not touched yet, or one that is in the backup. -/
def Covered (files installed backup : Files) (f : ManagedFile) : Prop :=
  (backup f = none ∧ installed f = files f) ∨ ((files f).isSome ∧ backup f = files f)

structure Backed (d : Disk) : Prop where
  fresh : ∀ id f, d.transactions ≤ id ∨ f ∉ backedUpFiles → d.backups id f = none
  unfinished : ∀ t ∈ d.state.transaction, t.phase ≠ .committed ∧ t.txId < d.transactions ∧
    ∀ files ∈ t.began, d.state.active.isSome ∧
      ∀ f, Covered files d.installed (d.backups t.txId) f

def Clearing (a b : Disk) : Prop := Restorable b ∧ ClearsProperly a b

theorem Backed.restorable (h : Backed d) : Restorable d := by
  intro t ht files hfiles f
  rcases (h.unfinished t ht).2.2 files hfiles |>.2 f with ⟨_, hf⟩ | ⟨_, hf⟩
  · exact .inl hf
  · exact .inr hf

/-- With no transaction recorded only the fresh ids matter. -/
theorem Backed.idle {a b : Disk} (h : Backed a) (hn : b.state.transaction = none)
    (ht : b.transactions = a.transactions) (hb : b.backups = a.backups) : Backed b :=
  ⟨fun id f hid => by rw [hb]; exact h.fresh id f (ht ▸ hid),
    fun _ ht => absurd (hn.symm.trans ht) nofun⟩

/-- A change of the envelope that keeps the active release and the transaction, but for
its phase. -/
theorem Backed.save {s : ManagerState} (h : Backed d)
    (hs : ∀ t ∈ s.transaction, t.phase ≠ .committed ∧ ∃ t' ∈ d.state.transaction,
      t.txId = t'.txId ∧ t.began = t'.began) (ha : s.active = d.state.active) :
    Backed { d with state := s } := by
  refine ⟨h.fresh, fun t ht => ?_⟩
  obtain ⟨hphase, t', ht', hid, hbegan⟩ := hs t ht
  obtain ⟨_, hlt, hfiles⟩ := h.unfinished t' ht'
  refine ⟨hphase, hid ▸ hlt, fun files hf => ?_⟩
  obtain ⟨hactive, hcovered⟩ := hfiles files (hbegan ▸ hf)
  exact ⟨ha ▸ hactive, hid ▸ hcovered⟩

variable {d : Disk}

abbrev Covers (m : Manager Unit) (Q : Disk → Prop) (d : Disk) : Prop :=
  wp Backed Clearing m (fun _ => Q) d

section

variable {Q : Disk → Prop} {f : Disk → Disk}

theorem covers_durable (hb : Backed d → Backed (f d))
    (hkeep : (f d).state.transaction = none → d.state.transaction = none) (h : Q (f d)) :
    Covers (durable f) Q d := by
  apply wp_of_inv
  intro hd
  exact wp_durable (hb hd) ⟨(hb hd).restorable, fun _ ht hnone =>
    absurd ((hkeep hnone).symm.trans ht) nofun⟩ h

theorem covers_aside (h : Q (f d)) (hs : (f d).state.transaction = d.state.transaction := by rfl)
    (ha : (f d).state.active = d.state.active := by rfl)
    (hi : (f d).installed = d.installed := by rfl) (hb : (f d).backups = d.backups := by rfl)
    (ht : (f d).transactions = d.transactions := by rfl) : Covers (durable f) Q d := by
  refine covers_durable (fun hd => ⟨?_, ?_⟩) (by rw [hs]; exact id) h
  · rw [hb, ht]
    exact hd.fresh
  · rw [hs, ha, hi, hb, ht]
    exact hd.unfinished

theorem covers_idle (hn : d.state.transaction = none) (ht : (f d).state.transaction = none)
    (hid : (f d).transactions = d.transactions) (hb : (f d).backups = d.backups) :
    Covers (durable f) (fun d' => d'.state.transaction = none) d :=
  covers_durable (fun hd => hd.idle ht hid hb) (fun _ => hn) ht

theorem covers_failed {failure : Option (Option String)} :
    Covers (saveManagerState fun s => { failed s with latestFailure := failure })
      (fun _ => True) d := by
  refine covers_durable (fun hd => hd.save ?_ rfl) (fun h => by simpa [failed] using h) trivial
  intro t ht
  obtain ⟨t', ht', rfl⟩ := Option.map_eq_some_iff.mp ht
  exact ⟨by simp, t', ht', rfl, rfl⟩

/-- The record is cleared with the files put back. -/
theorem covers_clear {change : ManagerState → ManagerState}
    (hs : (change d.state).transaction = none)
    (hback : ∀ t ∈ d.state.transaction, ∀ files ∈ t.began, ∀ f, d.installed f = files f)
    (h : Q { d with state := change d.state }) : Covers (saveManagerState change) Q d := by
  apply wp_of_inv
  intro hd
  have hb := hd.idle (b := { d with state := change d.state }) hs rfl rfl
  exact wp_durable hb ⟨hb.restorable, fun t ht _ => .inr (hback t ht)⟩ h

end

/-! ## Rollback -/

/-- A file that is in the backup is put back; one that is not has not been touched. -/
theorem covers_restoreFile {t : TransactionRecord} (ht : d.state.transaction = some t)
    {f : ManagedFile} :
    Covers (restoreFile t.txId f) (fun d' => d'.state = d.state ∧ ∀ files ∈ t.began,
      d'.installed = Function.update d.installed f (files f)) d := by
  apply wp_of_inv
  intro hd
  obtain ⟨hphase, hlt, hfiles⟩ := hd.unfinished t ht
  refine wp_bind (wp_read ?_)
  split
  · next hnone =>
    refine wp_pure ⟨rfl, fun files hf => ?_⟩
    rcases (hfiles files hf).2 f with ⟨_, hsame⟩ | ⟨hsome, hsame⟩
    · rw [← hsame, Function.update_eq_self]
    · exact absurd hsome (by simp [← hsame, hnone])
  · next content hsome =>
    have hfile : ∀ files ∈ t.began, files f = some content := by
      intro files hf
      rcases (hfiles files hf).2 f with ⟨hnone, _⟩ | ⟨_, hsame⟩
      · exact absurd (hsome.symm.trans hnone) nofun
      · exact hsame.symm.trans hsome
    refine covers_durable (fun _ => ⟨hd.fresh, fun t' ht' => ?_⟩) id
      ⟨rfl, fun files hf => by rw [hfile files hf]⟩
    cases ht.symm.trans ht'
    refine ⟨hphase, hlt, fun files hf => ⟨(hfiles files hf).1, fun g => ?_⟩⟩
    by_cases hg : g = f
    · subst hg
      exact .inr ⟨by simp [hfile files hf], hsome.trans (hfile files hf).symm⟩
    · simpa [Covered, hg] using (hfiles files hf).2 g

theorem covers_restoreBackups :
    Covers (restoreBackups d.state.transaction) (fun d' => d'.state = d.state ∧
      ∀ t ∈ d.state.transaction, ∀ files ∈ t.began, ∀ f, d'.installed f = files f) d := by
  cases ht : d.state.transaction with
  | none => exact wp_pure ⟨rfl, nofun⟩
  | some t =>
    apply wp_of_inv
    intro hd
    -- the files still to come are the only ones that may differ
    refine wp_mono (fun _ d' _ h => ⟨h.1, ?_⟩) (wp_forM (fun rest (d' : Disk) =>
      d'.state = d.state ∧ ∀ files ∈ t.began, ∀ f, f ∉ rest → d'.installed f = files f)
      (fun f rest d' _ h => ?_) ⟨rfl, fun files hfiles f hf => ?_⟩)
    · rintro _ ⟨⟩ files hfiles f
      exact h.2 files hfiles f List.not_mem_nil
    · refine wp_mono (fun _ d₁ _ h₁ => ⟨h₁.1.trans h.1, fun files hfiles g hg => ?_⟩)
        (covers_restoreFile (h.1 ▸ ht))
      rw [h₁.2 files hfiles]
      by_cases hfg : g = f
      · subst hfg
        exact Function.update_self ..
      · rw [Function.update_of_ne hfg]
        exact h.2 files hfiles g (by simp [hfg, hg])
    · rcases (hd.unfinished t ht).2.2 files hfiles |>.2 f with ⟨_, hsame⟩ | ⟨hsome, hsame⟩
      · exact hsame
      · exact absurd hsome (by simp [← hsame, hd.fresh _ f (.inr hf)])

theorem covers_rollbackActivationFailure :
    Covers (rollbackActivationFailure sha256) (fun _ => True) d := by
  apply wp_of_inv
  intro hd
  refine wp_bind (wp_read ?_)
  cases hactive : d.state.active with
  | none =>
    -- no release was active, so no transaction recorded one
    have hbegan : ∀ t ∈ d.state.transaction, ∀ files, files ∉ t.began := by
      intro t ht files hf
      simpa [hactive] using ((hd.unfinished t ht).2.2 files hf).1
    refine wp_bind (covers_aside (wp_bind (covers_durable (fun _ =>
      ⟨hd.fresh, fun t ht => ?_⟩) id (covers_clear rfl ?_ trivial))))
    · obtain ⟨hphase, hlt, _⟩ := hd.unfinished t ht
      exact ⟨hphase, hlt, fun files hf => absurd hf (hbegan t ht files)⟩
    · exact fun t ht files hf => absurd hf (hbegan t ht files)
  | some active =>
    refine wp_then covers_restoreBackups fun _ d₁ _ h₁ => wp_bind (wp_check ?_)
    refine wp_bind (wp_validateActivePreflight sha256 fun _ _ => wp_bind (wp_check ?_))
    refine wp_bind (wp_checkOr ?_ covers_failed)
    exact wp_bind (covers_clear rfl (fun t ht => h₁.2 t (h₁.1 ▸ ht))
      (covers_aside trivial))

theorem covers_repairActive (active : Option ReleaseRecord) :
    Covers (repairActive sha256 active) (fun d' => d'.state = d.state) d := by
  cases active with
  | none => exact wp_pure rfl
  | some r =>
    exact wp_bind (wp_validateActivePreflight sha256 fun _ _ => wp_bind (wp_check
      (wp_bind (covers_aside (wp_check rfl)))))

theorem covers_executeRecovery (isBoot : Bool) :
    Covers (executeRecovery sha256 isBoot) (fun _ => True) d := by
  apply wp_of_inv
  intro hd
  have hrepair := wp_mono (T := fun _ _ => True) (fun _ _ _ _ => trivial)
    (covers_repairActive sha256 d.state.active (d := d))
  refine wp_bind (wp_read ?_)
  split
  · exact hrepair
  · exact wp_onlyIf (fun _ => wp_bind (wp_check hrepair)) fun _ => trivial
  · exact covers_rollbackActivationFailure sha256
  · next haction =>
    -- nothing is recorded as committed, so there is no record to clear
    refine wp_then (covers_repairActive sha256 _) fun _ d' _ h' => ?_
    refine covers_clear rfl (fun t ht => ?_) trivial
    rw [h'] at ht
    have hphase := (hd.unfinished t ht).1
    rw [classifyRecovery] at haction
    cases hp : t.phase <;> simp_all
  · exact wp_fail

/-! ## Activation -/

/-- The transaction `tx` of `c` is under way: the files `saved` are in the backup, the
others as they were. -/
def Saving (tx : Nat) (c : PendingCandidateRecord) (saved : ManagedFile → Prop) (d : Disk) :
    Prop :=
  ∃ t, d.state.transaction = some t ∧ t.txId = tx ∧ ∀ files ∈ t.began, Replaces c files ∧
    ∀ f, (saved f → (files f).isSome → d.backups tx f = files f) ∧
      (¬saved f → d.installed f = files f)

section

variable {tx : Nat} {c : PendingCandidateRecord} {saved : ManagedFile → Prop}

theorem covers_backupFile (h : Saving tx c saved d) {f : ManagedFile} (hf : ¬saved f)
    (hmem : f ∈ backedUpFiles) :
    Covers (backupFile tx f) (Saving tx c fun g => saved g ∨ g = f) d := by
  obtain ⟨t, ht, rfl, hfiles⟩ := h
  refine wp_bind (wp_read ?_)
  split
  · next hnone =>
    refine wp_pure ⟨t, ht, rfl, fun files hb => ⟨(hfiles files hb).1, fun g => ⟨?_, ?_⟩⟩⟩
    · rintro (hg | rfl) hsome
      · exact ((hfiles files hb).2 g).1 hg hsome
      · exact absurd hsome (by simp [← ((hfiles files hb).2 g).2 hf, hnone])
    · exact fun hg => ((hfiles files hb).2 g).2 fun hs => hg (.inl hs)
  next content hsome =>
  have hfile : ∀ files ∈ t.began, files f = some content :=
    fun files hb => (((hfiles files hb).2 f).2 hf).symm.trans hsome
  refine covers_durable (fun hd => ⟨fun id g hid => ?_, fun t' ht' => ?_⟩) id
    ⟨t, ht, rfl, fun files hb => ⟨(hfiles files hb).1, fun g => ⟨fun hg hs => ?_, ?_⟩⟩⟩
  · by_cases hne : id = t.txId
    · subst hne
      have hg := hid.resolve_left (Nat.not_le_of_gt (hd.unfinished t ht).2.1)
      have hgf : g ≠ f := fun he => hg (he ▸ hmem)
      simpa [hgf] using hd.fresh t.txId g hid
    · simpa [hne] using hd.fresh id g hid
  · cases ht.symm.trans ht'
    obtain ⟨hphase, hlt, hcovered⟩ := hd.unfinished t ht
    refine ⟨hphase, hlt, fun files hb => ⟨(hcovered files hb).1, fun g => ?_⟩⟩
    by_cases hg : g = f
    · subst hg
      exact .inr ⟨by simp [hfile files hb], by simp [hfile files hb]⟩
    · simpa [Covered, hg] using (hcovered files hb).2 g
  · by_cases hgf : g = f
    · subst hgf
      simp [hfile files hb]
    · simpa [hgf] using ((hfiles files hb).2 g).1 (hg.resolve_right hgf) hs
  · exact fun hg => ((hfiles files hb).2 g).2 fun hs => hg (.inl hs)

/-- A file is installed that is in the backup, or as it is. -/
theorem covers_install (h : Saving tx c saved d) {f : ManagedFile} {content : String}
    (hf : ∀ files, Replaces c files →
      saved f ∧ (files f).isSome ∨ files f = some content) :
    Covers (install f content) (Saving tx c saved) d := by
  obtain ⟨t, ht, rfl, hfiles⟩ := h
  refine covers_durable (fun hd => ⟨hd.fresh, fun t' ht' => ?_⟩) id
    ⟨t, ht, rfl, fun files hb => ⟨(hfiles files hb).1, fun g => ⟨?_, fun hg => ?_⟩⟩⟩
  · cases ht.symm.trans ht'
    obtain ⟨hphase, hlt, hcovered⟩ := hd.unfinished t ht
    refine ⟨hphase, hlt, fun files hb => ⟨(hcovered files hb).1, fun g => ?_⟩⟩
    by_cases hg : g = f
    · subst hg
      rcases hf files (hfiles files hb).1 with ⟨hsaved, hsome⟩ | hsame
      · exact .inr ⟨hsome, ((hfiles files hb).2 g).1 hsaved hsome⟩
      · exact ((hcovered files hb).2 g).imp_left fun h => ⟨h.1, by simp [hsame]⟩
    · simpa [Covered, hg] using (hcovered files hb).2 g
  · exact ((hfiles files hb).2 g).1
  · by_cases hgf : g = f
    · subst hgf
      simpa using ((hf files (hfiles files hb).1).resolve_left fun h => hg h.1).symm
    · simpa [hgf] using ((hfiles files hb).2 g).2 hg

theorem covers_recordPhase (h : Saving tx c saved d) {phase : TransactionPhase}
    (hphase : phase ≠ .committed) : Covers (recordPhase tx phase) (Saving tx c saved) d := by
  obtain ⟨t, ht, rfl, hfiles⟩ := h
  refine wp_bind (wp_read (wp_bind (wp_require fun _ => ?_)))
  rw [ht]
  refine wp_bind (wp_require fun _ => covers_durable (fun hd => hd.save ?_ rfl) nofun
    ⟨_, rfl, rfl, hfiles⟩)
  rintro _ ⟨⟩
  exact ⟨hphase, t, ht, rfl, rfl⟩

theorem covers_backupUnits (h : Saving tx c (fun _ => False) d) :
    Covers (allServiceUnits.forM (backupFile tx)) (Saving tx c (· ∈ allServiceUnits)) d := by
  refine wp_then (covers_backupFile h id (by decide)) fun _ d₁ _ h₁ => ?_
  refine wp_then (covers_backupFile h₁ (by simp) (by decide)) fun _ d₂ _ h₂ => ?_
  refine wp_then (covers_backupFile h₂ (by simp) (by decide)) fun _ d₃ _ h₃ => ?_
  refine wp_then (covers_backupFile h₃ (by simp) (by decide)) fun _ d₄ _ h₄ => wp_pure ?_
  simpa only [allServiceUnits, List.mem_cons, List.not_mem_nil, or_assoc, false_or, or_false]
    using h₄

theorem covers_pipeline (h : Saving tx c (fun _ => False) d) :
    Covers (executeActivationPipeline sha256 tx c) (fun _ => True) d := by
  refine wp_bind (wp_check ?_)
  refine wp_then (covers_backupUnits h) fun _ d₁ _ h₁ => ?_
  refine wp_then (wp_forM (fun rest d' => (∀ e ∈ rest, e ∈ c.files.units) ∧
    Saving tx c (· ∈ allServiceUnits) d') (fun e rest d' _ h' => ?_) ⟨fun _ h => h, h₁⟩)
    fun _ d₂ _ h₂ => wp_bind (wp_check ?_)
  · refine wp_bind (wp_require fun _ => ?_)
    refine wp_mono (fun _ _ _ h => ⟨fun e he => h'.1 e (List.mem_cons_of_mem _ he), h⟩)
      (covers_install h'.2 fun files hr => ?_)
    obtain ⟨hsome, he⟩ := hr.1 e (h'.1 e List.mem_cons_self)
    exact he.imp_left fun he => ⟨he, hsome⟩
  refine wp_then (covers_backupFile h₂.2 (by decide) (by decide)) fun _ d₃ _ h₃ => ?_
  refine wp_then (covers_backupFile h₃ (by decide) (by decide)) fun _ d₄ _ h₄ => ?_
  refine wp_then (wp_onlyIf (fun hs => covers_install h₄ fun files hr =>
    .inl ⟨.inr rfl, hr.2.2 hs⟩) fun _ => h₄) fun _ d₅ _ h₅ => ?_
  refine wp_then (covers_install h₅ fun files hr => .inl ⟨.inl (.inr rfl), hr.2.1⟩)
    fun _ d₆ _ h₆ => wp_bind (wp_check ?_)
  refine wp_then (covers_recordPhase h₆ nofun) fun _ d₇ _ h₇ => ?_
  refine wp_bind (wp_validateActivePreflight sha256 fun _ _ => wp_bind (wp_check ?_))
  refine wp_then (covers_recordPhase h₇ nofun) fun _ d₈ hd₈ h₈ => wp_bind (wp_check ?_)
  have hb : Backed _ := hd₈.idle (b := { d₈ with
    state := { d₈.state with
      previous := d₈.state.active, active := some (c.record sha256)
      pending := none, transaction := none }
    everActive := c.path :: d₈.everActive }) rfl rfl rfl
  exact wp_durable hb ⟨hb.restorable, fun _ _ _ => .inl (List.cons_ne_self _ _)⟩ trivial

theorem covers_newTransaction (hnone : d.state.transaction = none) :
    wp Backed Clearing newTransaction (fun tx d' => d'.state = d.state ∧
      d'.installed = d.installed ∧ tx < d'.transactions ∧ ∀ f, d'.backups tx f = none) d := by
  apply wp_of_inv
  intro hd
  refine wp_bind (wp_read (wp_bind (covers_durable (fun _ => ⟨fun id f hid => ?_, fun t ht =>
    ?_⟩) id (wp_pure ⟨rfl, rfl, Nat.lt_succ_self _, fun f => hd.fresh _ f (.inl Nat.le.refl)⟩))))
  · exact hd.fresh id f (hid.imp_left Nat.le_of_succ_le)
  · exact absurd (hnone.symm.trans ht) nofun

/-- The record of a transaction that begins: nothing is touched, nothing saved. -/
theorem covers_begin (hnone : d.state.transaction = none)
    (hr : d.state.active.isSome → Replaces c d.installed) (hlt : tx < d.transactions)
    (hempty : ∀ f, d.backups tx f = none) :
    Covers (recordPhase tx .quiesced) (Saving tx c fun _ => False) d := by
  refine wp_bind (wp_read (wp_bind (wp_require fun _ => ?_)))
  rw [hnone]
  dsimp only
  split
  · exact wp_fail
  have hbegan : ∀ files ∈ d.state.active.map fun _ => d.installed,
      d.state.active.isSome ∧ files = d.installed := by
    intro files hf
    obtain ⟨r, hr, rfl⟩ := Option.map_eq_some_iff.mp hf
    exact ⟨by simp [hr], rfl⟩
  refine covers_durable (fun hd => ⟨hd.fresh, ?_⟩) nofun ⟨_, rfl, rfl, fun files hf => ?_⟩
  · rintro t ⟨⟩
    refine ⟨nofun, hlt, fun files hf => ⟨(hbegan files hf).1, fun f => .inl ⟨hempty f, ?_⟩⟩⟩
    rw [(hbegan files hf).2]
  · obtain ⟨hsome, rfl⟩ := hbegan files hf
    exact ⟨hr hsome, fun f => ⟨nofun, fun _ => rfl⟩⟩

theorem covers_applyRetention : Covers applyRetention (fun _ => True) d := by
  refine wp_bind (wp_read (wp_bind (wp_check (wp_forM (fun _ _ => True) ?_ trivial))))
  exact fun _ _ _ _ _ => covers_aside trivial

theorem covers_activateCandidate (h : Begins d c) :
    Covers (activateCandidate sha256 c) (fun _ => True) d := by
  have hnone := Option.isNone_iff_eq_none.mp h.1
  refine wp_bind (wp_require fun _ => wp_bind (wp_check (wp_bind (wp_read ?_))))
  rw [hnone]
  refine wp_then (covers_newTransaction hnone) fun tx d₁ _ ⟨hs, hi, hlt, hempty⟩ => ?_
  refine wp_then (covers_begin (hs ▸ hnone) (hs ▸ hi ▸ h.2) hlt hempty) fun _ d₂ _ h₂ => ?_
  refine wp_then (wp_orElse (covers_pipeline sha256 h₂) fun d₃ _ => ?_) fun _ d₄ _ _ => ?_
  · refine wp_bind (covers_aside (wp_bind (wp_read ?_)))
    exact wp_then (wp_orElse (covers_rollbackActivationFailure sha256) fun _ _ => covers_failed)
      fun _ _ _ _ => wp_fail
  · exact wp_bind (covers_aside covers_applyRetention)

theorem covers_executeActivation {serviceUser : Option Rendered}
    (h : ∀ c ∈ activationCandidate d.state serviceUser, Begins d c) :
    Covers (executeActivation sha256 serviceUser) (fun _ => True) d := by
  refine wp_bind (wp_read ?_)
  cases hc : activationCandidate d.state serviceUser with
  | some c =>
    exact wp_then (Q := fun _ d' => Begins d' c) (wp_onlyIf (fun _ => covers_aside (h c hc))
      fun _ => h c hc) fun _ _ _ h' => covers_activateCandidate sha256 h'
  | none =>
    dsimp only
    split
    · exact wp_fail
    · exact wp_bind (wp_validateActivePreflight sha256 fun _ _ => wp_check trivial)

theorem covers_executeManualRollback {files : Rendered}
    (h : ∀ p ∈ d.state.previous, Begins d { tag := p.tag, role := p.role, files := files }) :
    Covers (executeManualRollback sha256 files) (fun _ => True) d := by
  refine wp_bind (wp_read ?_)
  split
  · exact wp_fail
  next prev hprev =>
  refine wp_bind (wp_require fun _ => wp_bind (wp_check (wp_bind (covers_aside
    (covers_executeActivation sha256 fun c hc => ?_)))))
  cases activationCandidate_pending.symm.trans hc
  exact h prev hprev

theorem covers_stageReleaseBundle {hostToml : String} {reinstall : Bool}
    (h : d.state.transaction = none) :
    Covers (stageReleaseBundle c hostToml reinstall) (fun _ => True) d := by
  have hclear : Covers (clearDestination c reinstall)
      (fun d' => d'.state.transaction = none) d := by
    refine wp_bind (wp_read (wp_onlyIf (fun _ => ?_) fun _ => h))
    refine wp_then (wp_onlyIf (fun _ => ?_) fun _ => h) fun _ d' _ h' =>
      covers_idle h' h' rfl rfl
    exact wp_bind (wp_require fun _ => covers_idle h h rfl rfl)
  refine wp_bind (wp_check (wp_then hclear fun _ d₁ _ h₁ => ?_))
  refine wp_then (covers_idle h₁ h₁ rfl rfl) fun _ d₂ _ h₂ => ?_
  refine wp_bind (wp_checkOr ?_ (covers_aside trivial))
  refine wp_then (covers_idle h₂ h₂ rfl rfl) fun _ d₃ _ h₃ => ?_
  exact wp_mono (fun _ _ _ _ => trivial) (covers_idle h₃ rfl rfl rfl)

end

theorem covers_execute {c : Command} (h : Orderly d c) :
    Covers (c.execute sha256) (fun _ => True) d := by
  cases c with
  | stage c hostToml reinstall => exact covers_stageReleaseBundle (Option.isNone_iff_eq_none.mp h)
  | activate serviceUser => exact covers_executeActivation sha256 h
  | rollback files => exact covers_executeManualRollback sha256 h
  | recover isBoot => exact covers_executeRecovery sha256 isBoot
  | retention => exact covers_applyRetention

/-- **A release can be rolled back.** In every run of the manager's commands, wherever they
die and whatever fails, if an unfinished transaction is recovered before anything else is
started and under an active release no file is installed that was absent and none changed
that is not backed up: after every durable step each file of the release a transaction
replaces is installed or in its backup, and a recorded transaction is cleared only by a
commit or with all those files put back. -/
theorem rollback_kept (invocations : List Invocation)
    (h : EveryStep (step sha256) (fun d i => Orderly d i.1) {} invocations) :
    EveryStep (step sha256)
      (fun d i => ∀ p ∈ durableSteps sha256 d i, Restorable p.2 ∧ ClearsProperly p.1 p.2) {}
      invocations :=
  EveryStep.under (I := Backed) (fun _ _ hd hi => ((covers_execute sha256 hi).result hd).1)
    (fun _ _ hd hi => ((covers_execute sha256 hi).result hd).2.1) ⟨fun _ _ _ => rfl, nofun⟩ h

/-- An activation dies half way, is recovered, and succeeds. -/
theorem rollback_kept_recovered : EveryStep (step id)
      (fun d i => ∀ p ∈ durableSteps id d i, Restorable p.2 ∧ ClearsProperly p.1 p.2) {}
      (deployed "v1" [] ++ deployed "v2" (List.replicate 9 true ++ [false]) ++
        [(.recover false, []), (.activate none, [])]) :=
  rollback_kept id _ (by decide +kernel)

/-- Staging forgets a transaction that died half way, with the units of the candidate
installed. -/
theorem staging_forgets_transaction : ¬EveryStep (step id)
      (fun d i => ∀ p ∈ durableSteps id d i, Restorable p.2 ∧ ClearsProperly p.1 p.2) {}
      (deployed "v1" [] ++ deployed "v2" (List.replicate 9 true ++ [false]) ++
        [(.stage (sampleRelease "v3" (serverUnits "v3")) "host" false, [])]) := by
  decide +kernel

end DamHopper.LinuxRelease
