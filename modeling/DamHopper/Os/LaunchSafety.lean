import DamHopper.Lib.Numbering
import DamHopper.Lib.Runs
import DamHopper.Os.LaunchJournal

/-!
# LaunchSafety — what the launch journal guarantees over a run

The calls of all tabs are one list, since each runs under the journal's lock. Beside the
stored text a run remembers what the journal forgets: the attempt ids that were drawn, the
explicitly requested terminal ids that were returned, and those that a record was written
for (`JournalRun`).

Compaction drops settled records, which the check for used terminal ids looks at, so an id
can be granted again once no record carries it (`Evicted`).
-/

namespace DamHopper.Os

open List

inductive JournalCall where
  | reserve (call : ReserveCall)
  | settle (call : SettleCall)
  deriving Repr, DecidableEq

def JournalCall.attemptId? : JournalCall → Option String
  | .reserve call => some call.attemptId
  | .settle _ => none

structure JournalRun where
  stored : Option JournalText
  drawn : List String
  /-- The answers to explicit requests: attempt id and terminal id. -/
  issued : List (String × String)
  /-- The explicitly requested terminal ids whose record has been in the stored text. -/
  written : List String
  deriving Repr, DecidableEq

namespace JournalRun

def start : JournalRun := { stored := none, drawn := [], issued := [], written := [] }

def records (r : JournalRun) : List StoredLaunchRecord := JournalText.records? r.stored

def attemptIds (r : JournalRun) : List String := r.records.map (·.attemptId)

section

variable (json : JsonLengths)

/-- The terminal id that a call returns although it was asked for explicitly. -/
def grant? (r : JournalRun) : JournalCall → Option String
  | .settle _ => none
  | .reserve call =>
    match (reserveTerminalLaunch json call r.stored).1 with
    | .reserved _ _ => call.explicit?
    | .blocked _ _ => none

def step (r : JournalRun) : JournalCall → JournalRun
  | .settle call => { r with stored := (settleTerminalLaunch json call r.stored).2 }
  | .reserve call =>
    let stored := (reserveTerminalLaunch json call r.stored).2
    { stored
      drawn := r.drawn ++ [call.attemptId]
      issued := r.issued ++
        (r.grant? json (.reserve call)).toList.map (call.attemptId, ·)
      written := r.written ++ if call.attemptId ∈ (JournalText.records? stored).map (·.attemptId)
        then call.explicit?.toList else [] }

end

def Fresh (r : JournalRun) : JournalCall → Prop
  | .settle _ => True
  | .reserve call => call.attemptId ∉ r.drawn

/-- A record was written for the terminal id on request, and no stored one carries it. -/
def Evicted (r : JournalRun) (terminalId : String) : Prop :=
  terminalId ∈ r.written ∧ Unused r.stored terminalId

/-- The call asks for no evicted id, unless something else blocks it. -/
def AsksUnevicted (json : JsonLengths) (r : JournalRun) : JournalCall → Prop
  | .settle _ => True
  | .reserve call => ∀ id ∈ call.explicit?, r.Evicted id →
      ∀ kept, ¬ Admits json call r.stored kept

end JournalRun

/-! ## The invariant of a run -/

namespace JournalRun

/-- What holds of the journal and its past in every run with fresh attempt ids. -/
structure Journaled (r : JournalRun) : Prop where
  attempts : r.attemptIds.Nodup
  drawn : ∀ attemptId ∈ r.attemptIds, attemptId ∈ r.drawn
  bounded : r.records.length ≤ MAX_LAUNCH_JOURNAL_RECORDS
  distinct : ((r.records.filter fun record => record.state.unresolved).map
    (·.canonicalIdentity)).Nodup
  written : r.written = r.issued.map Prod.snd

theorem journaled_start : Journaled start where
  attempts := nodup_nil
  drawn := by simp [attemptIds, records, start, JournalText.records?]
  bounded := Nat.zero_le _
  distinct := nodup_nil
  written := rfl

/-- Records with one attempt id are one record. -/
theorem Journaled.eq_of_attemptId {r : JournalRun} (h : Journaled r)
    {record record' : StoredLaunchRecord} (hr : record ∈ r.records) (hr' : record' ∈ r.records)
    (heq : record.attemptId = record'.attemptId) : record = record' :=
  inj_on_of_nodup_map h.attempts hr hr' heq

section

variable {json : JsonLengths} {r : JournalRun}

/-- What a step does to the journal and its past. -/
inductive Stepped (json : JsonLengths) (r : JournalRun) : JournalCall → Prop
  | blocked (call : ReserveCall) :
      (∀ kept, Admits json call r.stored kept →
        ∃ id ∈ call.explicit?, ¬ Unused r.stored id) →
      r.step json (.reserve call) = { r with drawn := r.drawn ++ [call.attemptId] } →
      Stepped json r (.reserve call)
  | granted (call : ReserveCall) (kept : List StoredLaunchRecord) :
      Admits json call r.stored kept →
      (∀ id ∈ call.explicit?, Unused r.stored id) →
      r.step json (.reserve call) =
        { stored := some (.document (kept ++ [call.newRecord]))
          drawn := r.drawn ++ [call.attemptId]
          issued := r.issued ++ call.explicit?.toList.map (call.attemptId, ·)
          written := r.written ++ call.explicit?.toList } →
      Stepped json r (.reserve call)
  | unsettled (call : SettleCall) : r.step json (.settle call) = r →
      Stepped json r (.settle call)
  | settled (call : SettleCall) (front back : List StoredLaunchRecord)
      (current : StoredLaunchRecord) :
      Settles call r.records front back current →
      r.step json (.settle call) =
        ⟨some (.document (front ++ current.settle call.outcome call.now :: back)),
          r.drawn, r.issued, r.written⟩ →
      Stepped json r (.settle call)

variable (json) in
theorem Journaled.stepped (h : Journaled r) {call : JournalCall} (hfresh : r.Fresh call) :
    Stepped json r call := by
  cases call with
  | reserve call =>
    rcases @reserve_cases json call r.stored with
      ⟨hblocked, reason, existing, heq⟩ | ⟨kept, hadmits, hunused, heq⟩
    · have hnew : call.attemptId ∉ (JournalText.records? r.stored).map (·.attemptId) :=
        fun hmem => hfresh (h.drawn _ hmem)
      exact .blocked call hblocked (by simp only [step, grant?, heq, if_neg hnew]; simp)
    · exact .granted call kept hadmits hunused
        (by simp [step, grant?, heq, JournalText.records?, ReserveCall.newRecord])
  | settle call =>
    rcases @settle_cases json call r.stored with
      heq | ⟨front, current, back, hsettles, heq⟩
    · exact .unsettled call (by simp [step, heq])
    · exact .settled call front back current hsettles (by simp [step, heq])

theorem step_drawn {call : JournalCall} :
    (r.step json call).drawn = r.drawn ++ call.attemptId?.toList := by
  cases call with
  | reserve call => rfl
  | settle call => exact (append_nil _).symm

/-- Attempt ids that differ are fresh. -/
theorem fresh_of_nodup {calls : List JournalCall}
    (h : (r.drawn ++ calls.filterMap JournalCall.attemptId?).Nodup) :
    EveryStep (step json) Fresh r calls := by
  induction calls generalizing r with
  | nil => trivial
  | cons call rest ih =>
    refine ⟨?_, ih ?_⟩
    · cases call with
      | settle call => trivial
      | reserve call =>
        intro hdrawn
        exact disjoint_of_nodup_append h hdrawn (by simp [JournalCall.attemptId?])
    · rw [step_drawn, append_assoc]
      cases call with
      | settle call | reserve call => exact h

theorem Journaled.granted (h : Journaled r) {call : ReserveCall} {kept : List StoredLaunchRecord}
    (hg : Admits json call r.stored kept) (hfresh : call.attemptId ∉ r.drawn) :
    Journaled { stored := some (.document (kept ++ [call.newRecord]))
                drawn := r.drawn ++ [call.attemptId]
                issued := r.issued ++ call.explicit?.toList.map (call.attemptId, ·)
                written := r.written ++ call.explicit?.toList } := by
  have hcompacts : Compacts r.records kept := compactRecords_eq_ok hg.room
  have hsub : kept ⊆ r.records := hcompacts.subperm.subset
  have hkept : ∀ record ∈ kept, record.attemptId ∈ r.drawn := fun record hr =>
    h.drawn _ (mem_map_of_mem (hsub hr))
  refine ⟨?_, ?_, ?_, ?_, ?_⟩
  · show ((kept ++ [call.newRecord]).map (·.attemptId)).Nodup
    rw [map_append, map_singleton, ← concat_eq_append]
    refine (hcompacts.nodup_map h.attempts).concat fun hmem => ?_
    obtain ⟨record, hr, heq : _ = call.attemptId⟩ := mem_map.mp hmem
    exact hfresh (heq ▸ hkept record hr)
  · exact forall_mem_map.mpr (forall_mem_append.mpr
      ⟨fun record hr => mem_append_left _ (hkept record hr),
        forall_mem_singleton.mpr (mem_append_right _ (mem_singleton_self _))⟩)
  · show (kept ++ [call.newRecord]).length ≤ _
    have := hcompacts.room
    rw [length_append, length_singleton]
    omega
  · show (((kept ++ [call.newRecord]).filter _).map _).Nodup
    rw [filter_append, hcompacts.unresolved, map_append, nodup_append]
    refine ⟨h.distinct, nodup_singleton _, ?_⟩
    intro a ha b hb hab
    obtain ⟨record, hr, rfl⟩ := mem_map.mp ha
    obtain ⟨hr, hstate⟩ := mem_filter.mp hr
    have hnew : b = buildCanonicalIdentityTuple call.params := mem_singleton.mp hb
    exact hg.identity record hr hstate (hab.trans hnew)
  · simp [h.written, Function.comp_def]

theorem Journaled.settled (h : Journaled r) {call : SettleCall}
    {front back : List StoredLaunchRecord} {current : StoredLaunchRecord}
    (hs : Settles call r.records front back current) :
    Journaled ⟨some (.document (front ++ current.settle call.outcome call.now :: back)),
      r.drawn, r.issued, r.written⟩ := by
  have hids : (front ++ current.settle call.outcome call.now :: back).map (·.attemptId) =
      r.attemptIds := by
    simp [attemptIds, hs.split]
  refine ⟨?_, ?_, ?_, ?_, h.written⟩
  · exact (congrArg Nodup hids).mpr h.attempts
  · exact fun attemptId ha => h.drawn attemptId ((congrArg (attemptId ∈ ·) hids).mp ha)
  · have hlen := congrArg length hids
    rw [attemptIds, length_map, length_map] at hlen
    have := h.bounded
    show (front ++ current.settle call.outcome call.now :: back).length ≤ _
    omega
  · have hdistinct := h.distinct
    rw [hs.split] at hdistinct
    refine hdistinct.sublist ?_
    show List.Sublist (map _ (filter _ (front ++ _ :: back))) _
    simp only [filter_append, filter_cons, hs.unresolved, map_append]
    refine List.Sublist.append_left ?_ _
    split
    · simp
    · exact sublist_cons_self _ _

variable {call : JournalCall}

theorem Journaled.step (h : Journaled r) (hfresh : r.Fresh call) :
    Journaled (r.step json call) := by
  cases h.stepped json hfresh with
  | blocked call _ heq =>
    rw [heq]
    exact { h with drawn := fun a ha => mem_append_left _ (h.drawn a ha) }
  | granted call kept hg _ heq =>
    rw [heq]
    exact h.granted hg hfresh
  | unsettled call heq =>
    rw [heq]
    exact h
  | settled call front back current hs heq =>
    rw [heq]
    exact h.settled hs

/-! ## What becomes of a record -/

/-- No unresolved record is removed or replaced but by its own settlement, and no settled
record is changed while it is stored. -/
structure KeepsRecords (r r' : JournalRun) (call : JournalCall) : Prop where
  unresolved : ∀ record ∈ r.records, record.state.unresolved = true →
    record ∈ r'.records ∨ ∃ settlement, call = .settle settlement ∧
      settlement.attemptId = record.attemptId ∧
      record.settle settlement.outcome settlement.now ∈ r'.records
  settled : ∀ record ∈ r.records, record.state.settled = true →
    ∀ record' ∈ r'.records, record'.attemptId = record.attemptId → record' = record

theorem Journaled.keeps (h : Journaled r) {r' : JournalRun} (heq : r'.stored = r.stored)
    (call : JournalCall) : KeepsRecords r r' call := by
  have hrecords : r'.records = r.records := by rw [records, heq, records]
  refine ⟨fun record hr _ => .inl (hrecords ▸ hr), ?_⟩
  intro record hr _ record' hr' hid
  exact h.eq_of_attemptId (hrecords ▸ hr') hr hid

theorem Journaled.step_keeps (h : Journaled r) (hfresh : r.Fresh call) :
    KeepsRecords r (r.step json call) call := by
  cases h.stepped json hfresh with
  | blocked call _ heq | unsettled call heq => exact h.keeps (by rw [heq]) _
  | granted call kept hg _ heq =>
    rw [heq]
    have hcompacts : Compacts r.records kept := compactRecords_eq_ok hg.room
    have hsub : kept ⊆ r.records := hcompacts.subperm.subset
    constructor
    · intro record hr hstate
      refine .inl (mem_append_left _ (mem_of_mem_filter (p := fun r => r.state.unresolved) ?_))
      rw [hcompacts.unresolved]
      exact mem_filter.mpr ⟨hr, hstate⟩
    · intro record hr _ record' hr' hid
      rcases mem_append.mp hr' with hr' | hr'
      · exact h.eq_of_attemptId (hsub hr') hr hid
      rw [mem_singleton.mp hr'] at hid
      have hdrawn := h.drawn _ (mem_map_of_mem hr)
      rw [← hid] at hdrawn
      exact absurd hdrawn hfresh
  | settled call front back current hs heq =>
    rw [heq]
    have hcurrent : current ∈ r.records := by rw [hs.split]; simp
    have hothers : ∀ record, record ∈ front ∨ record ∈ back → record ∈ r.records := by
      intro record hr
      rw [hs.split]
      rcases hr with hr | hr <;> simp [hr]
    constructor
    · intro record hr hstate
      rw [hs.split] at hr
      rcases mem_append.mp hr with hr | hr
      · exact .inl (mem_append_left _ hr)
      · rcases mem_cons.mp hr with rfl | hr
        · exact .inr ⟨call, rfl, hs.attempt.symm, mem_append_right _ mem_cons_self⟩
        · exact .inl (mem_append_right _ (mem_cons_of_mem _ hr))
    · intro record hr hstate record' hr' hid
      rcases mem_append.mp hr' with hr' | hr'
      · exact h.eq_of_attemptId (hothers record' (.inl hr')) hr hid
      rcases mem_cons.mp hr' with rfl | hr'
      · rw [attemptId_settle] at hid
        rw [← h.eq_of_attemptId hcurrent hr hid, LaunchAttemptState.settled_eq,
          hs.unresolved] at hstate
        cases hstate
      · exact h.eq_of_attemptId (hothers record' (.inr hr')) hr hid

/-! ## Terminal ids that are granted twice -/

/-- No terminal id was granted twice on request. -/
def GrantsOnce (r : JournalRun) : Prop := (r.issued.map Prod.snd).Nodup

/-- A step repeats an id exactly if the call asks for an evicted one and is admitted. -/
theorem Journaled.grantsOnce_step_iff (h : Journaled r) (hfresh : r.Fresh call)
    (honce : r.GrantsOnce) :
    (r.step json call).GrantsOnce ↔ r.AsksUnevicted json call := by
  cases h.stepped json hfresh with
  | blocked call hblocked heq =>
    rw [heq]
    refine iff_of_true honce fun id hid hevicted kept hadmits => ?_
    obtain ⟨id', hid', hused⟩ := hblocked kept hadmits
    exact hused (Option.mem_unique hid hid' ▸ hevicted.2)
  | unsettled call heq | settled call front back current hs heq => exact iff_of_true honce trivial
  | granted call kept hg hunused heq =>
    have hevicted : r.AsksUnevicted json (.reserve call) ↔
        ∀ id ∈ call.explicit?, id ∉ r.issued.map Prod.snd := by
      refine forall₂_congr fun id hid => ?_
      rw [← h.written]
      exact ⟨fun hasks hmem => hasks ⟨hmem, hunused id hid⟩ kept hg,
        fun hnot hevicted => absurd hevicted.1 hnot⟩
    rw [heq, hevicted, GrantsOnce]
    cases call.explicit? with
    | none => exact iff_of_true (by simpa [GrantsOnce] using honce) (by simp)
    | some id =>
      simp only [Option.toList_some, map_append, map_cons, map_nil]
      rw [← concat_eq_append, nodup_concat]
      exact (and_iff_left honce).trans (by simp)

end

/-- **Safety of the launch journal.** For every list of calls of any tabs, with storage
that works or throws, from an empty journal and with fresh attempt ids: there are never more
records than the limit nor two unresolved ones for one identity, an unresolved record is
removed or replaced only by its own settlement, and a settled one is not changed while it
is stored. No two reservations return one explicitly requested terminal id exactly if every
call that asks for an id which had a record, and which no stored record carries, is blocked
by another check. -/
theorem launch_journal_safety (json : JsonLengths) (calls : List JournalCall)
    (hfresh : (calls.filterMap JournalCall.attemptId?).Nodup) :
    Always (step json) (fun r =>
      r.records.length ≤ MAX_LAUNCH_JOURNAL_RECORDS ∧
        ((r.records.filter fun record => record.state.unresolved).map
          (·.canonicalIdentity)).Nodup) start calls ∧
    EveryStep (step json) (fun r call => KeepsRecords r (r.step json call) call) start calls ∧
    (Always (step json) GrantsOnce start calls ↔
      EveryStep (step json) (AsksUnevicted json) start calls) := by
  have hfresh : EveryStep (step json) Fresh start calls := fresh_of_nodup hfresh
  have hstep : ∀ r call, Journaled r → r.Fresh call →
      Journaled (r.step json call) := fun r call h hfresh => h.step hfresh
  refine ⟨?_, ?_, ?_⟩
  · exact (always_of_everyStep hstep journaled_start hfresh).mono fun r h => ⟨h.bounded, h.distinct⟩
  · exact hfresh.under hstep (fun r call h hfresh => h.step_keeps hfresh) journaled_start
  · exact always_iff_everyStep_while (fun r call hfresh h => h.step hfresh)
      (fun r call hfresh h honce => h.grantsOnce_step_iff hfresh honce) journaled_start
      nodup_nil hfresh

/-! ## An id granted twice -/

namespace Sample

def access : StorageAccess := ⟨true, none, none⟩

/-- The `n`th reservation, each for an identity of its own. -/
def reserve (n : Nat) (explicit : Option String) : ReserveCall :=
  { params := ⟨numbered "profile-" n, "endpoint", "project", none, none, none, none, none⟩
    generation := 1
    desktopId := "desktop-1"
    explicitRequestedTerminalId := explicit
    attemptId := numbered "attempt-" n
    generatedTerminalId := numbered "term-" n
    now := n
    access }

def settle (n : Nat) : SettleCall :=
  { attemptId := numbered "attempt-" n
    outcome := .confirmedSuccess ⟨numbered "term-" n, "epoch", "1"⟩
    now := n
    access }

def terminal : String := numbered "term-" 0

abbrev sampleStep : JournalRun → JournalCall → JournalRun := step ⟨fun _ => 400, fun _ => 60000⟩

/-- A terminal id is asked for and its launch settled; `n + 1` launches follow, the last of
them is settled, and the id is asked for again. -/
def calls (n : Nat) : List JournalCall :=
  [.reserve (reserve 0 (some terminal)), .settle (settle 0)] ++
    ((range (n + 1)).map fun k => .reserve (reserve (k + 1) none)) ++
    [.settle (settle (n + 1)), .reserve (reserve (n + 2) (some terminal))]

theorem nodup_attemptIds {n : Nat} :
    ((calls n).filterMap JournalCall.attemptId?).Nodup := by
  have hids : (calls n).filterMap JournalCall.attemptId? =
      (range (n + 3)).map (numbered "attempt-") := by
    rw [range_succ, range_succ_eq_map]
    simp only [calls, filterMap_append, filterMap_map, map_append, map_cons,
      map_map]
    rw [← filterMap_eq_map]
    rfl
  rw [hids]
  exact List.Nodup.map (fun _ _ => numbered_inj) nodup_range

end Sample

/-- The guarantees of the run of the sample. -/
theorem launch_journal_safety_sample :
    Always Sample.sampleStep (fun r => r.records.length ≤ MAX_LAUNCH_JOURNAL_RECORDS ∧
      ((r.records.filter fun record => record.state.unresolved).map
        (·.canonicalIdentity)).Nodup) start (Sample.calls 127) :=
  (launch_journal_safety ⟨fun _ => 400, fun _ => 60000⟩ (Sample.calls 127)
    Sample.nodup_attemptIds).1

/-- The same terminal id is granted at the start and, its record evicted, at the end. -/
theorem explicit_id_granted_twice : ((Sample.calls 127).filterMap JournalCall.attemptId?).Nodup ∧
      (run Sample.sampleStep start (Sample.calls 127)).issued =
        [(numbered "attempt-" 0, Sample.terminal), (numbered "attempt-" 129, Sample.terminal)] ∧
      ¬ (run Sample.sampleStep start (Sample.calls 127)).GrantsOnce := by
  have hissued : (run Sample.sampleStep start (Sample.calls 127)).issued =
      [(numbered "attempt-" 0, Sample.terminal), (numbered "attempt-" 129, Sample.terminal)] := by
    decide +kernel
  refine ⟨Sample.nodup_attemptIds, hissued, ?_⟩
  rw [GrantsOnce, hissued]
  simp

end JournalRun

end DamHopper.Os
