import Mathlib.Data.List.ReduceOption
import Mathlib.Data.Option.Basic
import DamHopper.Lib.Checks
import DamHopper.LinuxRelease.Manager

/-!
# LinuxRelease — Retention

`apply_retention` of `retention.rs` over a directory listing in which every call of the file
system may fail. The first pass looks at all entries and verifies those that nothing refers
to, the second removes what the first has gathered. `none` is an error, whose text is left
out; the tag format and the manifest parser are parameters. Where no call fails, what is
removed is what the manager's `applyRetention` removes.
-/

namespace DamHopper.LinuxRelease

open List Option

/-- An entry of the releases directory, and what the calls on it return. -/
structure ReleaseEntry where
  name : String
  isDir : Option Bool
  canonical : Option (List String)
  contents : Option (List (Option String))
  isFile : List String → Bool
  present : List String → Bool
  read : List String → Option String
  owned : Bool
  /-- Of `remove_dir` if the entry was empty, else of `remove_dir_all`. -/
  removes : Bool

/-- An entry of the staging directory; its name may be the id of a transaction. -/
structure StagingEntry where
  txId : Option Nat
  removes : Bool

structure Layout where
  /-- The canonical path and the entries of the directory, if it exists. -/
  releases : Option (Option (List String) × Option (List (Option ReleaseEntry)))
  /-- Where the link leads, if that exists. -/
  current : Option (Option (List String))
  staging : Option (Option (List (Option StagingEntry)))

section

variable (validTag parses : String → Bool) (root path : List String) (e : ReleaseEntry)
  (layout : Layout) (state : ManagerState)

def verifyCandidateIntegrity : Bool :=
  if path.getLast? = some "imported-format-2" then
    e.isFile ["server", "bin", "dam-hopper-server"] &&
      e.isFile ["server", "systemd", "dam-hopper.service"] && e.owned
  else
    let projected := (e.contents.getD []).reduceOption.map ([·, "release-manifest.json"])
    let manifest := (["release-manifest.json"] :: projected).find? e.present
    (manifest.bind e.read).any parses && e.owned

/-- The verification of an entry to which nothing refers; an empty one has no manifest. -/
def verifyCandidate : Bool :=
  match e.contents with
  | none | some (none :: _) => false
  | some [] => e.owned
  | some (some _ :: _) => verifyCandidateIntegrity parses path e

def candidate? (entry : Option ReleaseEntry) : Option (Option ReleaseEntry) := do
  let e ← entry
  let isDir ← e.isDir
  if isDir = false then some none
  else if ¬ (e.name = "imported-format-2" ∨ validTag e.name) then none
  else if e.name ∈ referencedTags state then some none
  else do
    let path ← e.canonical
    if ¬ root <+: path then none
    else if layout.current.join.any (path <+: ·) then some none
    else if verifyCandidate parses path e then some (some e)
    else none

def gather (canonical : Option (List String)) (listing : Option (List (Option ReleaseEntry))) :
    Option (List ReleaseEntry) := do
  let root ← canonical
  guard (layout.current ≠ some none)
  let entries ← listing
  let found ← entries.mapM (candidate? validTag parses root layout state)
  some found.reduceOption

/-- What is removed, up to the first removal that fails. -/
def attempted {α : Type} (removes : α → Bool) (l : List α) : List α :=
  l.take (l.findIdx (!removes ·) + 1)

structure Outcome where
  removed : List ReleaseEntry
  cleaned : List StagingEntry
  result : Option Nat

def Layout.applyRetention : Outcome :=
  match layout.releases with
  | none => ⟨[], [], some 0⟩
  | some (canonical, listing) =>
    match gather validTag parses layout state canonical listing with
    | none => ⟨[], [], none⟩
    | some candidates =>
      let removed := attempted (·.removes) candidates
      if ¬ candidates.all (·.removes) then ⟨removed, [], none⟩
      else match layout.staging with
        | none => ⟨removed, [], some candidates.length⟩
        | some none => ⟨removed, [], none⟩
        | some (some entries) =>
          let old := entries.reduceOption.filter fun entry =>
            ∀ t ∈ state.transaction, entry.txId ≠ some t.txId
          ⟨removed, attempted (·.removes) old,
            if old.all (·.removes) then some candidates.length else none⟩

/-! ## What is kept -/

/-- The target of the current link is in the directory. -/
def Layout.HoldsCurrent : Prop :=
  ∃ path ∈ e.canonical, ∃ target ∈ layout.current.join, path <+: target

/-- The entry passes the checks of the first pass. -/
def Deletable : Prop :=
  (e.name = "imported-format-2" ∨ validTag e.name) ∧
    ∃ path ∈ e.canonical, root <+: path ∧ verifyCandidate parses path e

end

variable {validTag parses : String → Bool} {layout : Layout} {root : List String}
  {state : ManagerState}

theorem candidate?_cases {entry c : Option ReleaseEntry}
    (h : candidate? validTag parses root layout state entry = some c) :
    ∃ e, entry = some e ∧ e.isDir ≠ none ∧ ((c = none ∧ (e.isDir = some false ∨
        e.name ∈ referencedTags state ∨ layout.HoldsCurrent e)) ∨
        c = some e ∧ e.name ∉ referencedTags state ∧ ¬ layout.HoldsCurrent e ∧
          Deletable validTag parses root e) := by
  simp only [candidate?, bind_eq_bind, bind_eq_some_iff] at h
  obtain ⟨e, rfl, isDir, hdir, h⟩ := h
  refine ⟨e, rfl, by simp [hdir], ?_⟩
  split_ifs at h with hfile htag hreferenced
  · cases h
    exact .inl ⟨rfl, .inl (hfile ▸ hdir)⟩
  · cases h
    exact .inl ⟨rfl, .inr (.inl hreferenced)⟩
  obtain ⟨path, hpath, h⟩ := bind_eq_some_iff.mp h
  have hholds : layout.HoldsCurrent e ↔ layout.current.join.any (path <+: ·) = true := by
    simp [Layout.HoldsCurrent, hpath, Option.any_eq_true]
  split_ifs at h with hinside hcurrent hverified
  · cases h
    exact .inl ⟨rfl, .inr (.inr (hholds.mpr hcurrent))⟩
  · cases h
    exact .inr ⟨rfl, hreferenced, fun h => hcurrent (hholds.mp h), htag, path, hpath, hinside,
      hverified⟩

theorem applyRetention_subset {candidates : List ReleaseEntry} {c l}
    (hreleases : layout.releases = some (c, l))
    (hgather : gather validTag parses layout state c l = some candidates) :
    let outcome := layout.applyRetention validTag parses state
    outcome.removed ⊆ candidates ∧
      ∀ entry ∈ outcome.cleaned, ∀ t ∈ state.transaction, entry.txId ≠ some t.txId := by
  simp only [Layout.applyRetention, hreleases, hgather]
  split_ifs
  · split
    · exact ⟨take_subset _ _, by simp⟩
    · exact ⟨take_subset _ _, by simp⟩
    · refine ⟨take_subset _ _, fun entry hentry => ?_⟩
      exact of_decide_eq_true (mem_filter.mp (mem_of_mem_take hentry)).2
  · exact ⟨take_subset _ _, by simp⟩

/-- **Retention removes nothing that is needed.** A directory that is removed is named by no
record and does not hold the target of the link, a staging directory that is removed is not
that of the transaction; and if an entry's type is unknown, or a directory to which nothing
refers is not verified, nothing is removed. -/
theorem retention_keeps_needed (validTag parses : String → Bool) (layout : Layout)
    (state : ManagerState) :
    let outcome := layout.applyRetention validTag parses state
    (∀ e ∈ outcome.removed, e.name ∉ referencedTags state ∧ ¬ layout.HoldsCurrent e) ∧
      (∀ entry ∈ outcome.cleaned, ∀ t ∈ state.transaction, entry.txId ≠ some t.txId) ∧
      ∀ root entries e, layout.releases = some (some root, some entries) → some e ∈ entries →
        e.isDir = none ∨ (e.isDir = some true ∧ e.name ∉ referencedTags state ∧
          ¬ layout.HoldsCurrent e ∧ ¬ Deletable validTag parses root e) →
        outcome.removed = [] ∧ outcome.cleaned = [] := by
  intro outcome
  cases hreleases : layout.releases with
  | none => simp [outcome, Layout.applyRetention, hreleases]
  | some pair =>
    obtain ⟨canonical, listing⟩ := pair
    cases hgather : gather validTag parses layout state canonical listing with
    | none => simp [outcome, Layout.applyRetention, hreleases, hgather]
    | some candidates =>
      have houtcome := applyRetention_subset hreleases hgather
      simp only [gather, bind_eq_bind, bind_eq_some_iff, mapM_eq_some_iff] at hgather
      obtain ⟨root, rfl, _, _, entries, rfl, found, hfound, ⟨⟩⟩ := hgather
      refine ⟨fun e he => ?_, houtcome.2, ?_⟩
      · have hok := mem_map_of_mem (f := some) (reduceOption_mem_iff.mp (houtcome.1 he))
        rw [← hfound] at hok
        obtain ⟨entry, _, hentry⟩ := mem_map.mp hok
        obtain ⟨e', _, _, ⟨⟨⟩, _⟩ | ⟨⟨⟩, hname, hcurrent, _⟩⟩ := candidate?_cases hentry
        exact ⟨hname, hcurrent⟩
      · rintro _ _ e ⟨⟩ hmem hunknown
        have hok := mem_map_of_mem (f := candidate? validTag parses root layout state) hmem
        rw [hfound] at hok
        obtain ⟨c, _, hc⟩ := mem_map.mp hok
        obtain ⟨_, ⟨⟩, hknown, hturn⟩ := candidate?_cases hc.symm
        obtain ⟨hdir, hname, hcurrent, hverified⟩ := hunknown.resolve_left hknown
        obtain ⟨_, hskipped⟩ | ⟨_, _, _, hdone⟩ := hturn
        · simp [hdir, hname, hcurrent] at hskipped
        · exact absurd hdone hverified

/-! ## Where no call fails -/

/-- The listing is that of the disk's releases, all of them verified. -/
structure Layout.Shows (validTag parses : String → Bool) (layout : Layout) (root : List String)
    (entries : List ReleaseEntry) (d : Disk) : Prop where
  releases : layout.releases = some (some root, some (entries.map some))
  names : entries.map (·.name) = (d.releases.map (·.1)).dedup
  current : ∃ below, layout.current = d.current.map fun path => some (root ++ path.1 :: below)
  entry : ∀ e ∈ entries, e.isDir = some true ∧ e.canonical = some (root ++ [e.name]) ∧
    e.removes ∧ Deletable validTag parses root e

abbrev Unreferenced (d : Disk) (e : ReleaseEntry) : Prop :=
  e.name ∉ referencedTags d.state ∧ d.current.map (·.1) ≠ some e.name

section

variable {entries : List ReleaseEntry} {d : Disk}

theorem Layout.Shows.holdsCurrent_iff (h : layout.Shows validTag parses root entries d)
    {name : String} : layout.current.join.any (root ++ [name] <+: ·) = true ↔
      d.current.map (·.1) = some name := by
  obtain ⟨below, hcurrent⟩ := h.current
  rw [hcurrent]
  cases d.current with
  | none => simp
  | some path => simp [prefix_append_right_inj, eq_comm]

theorem Layout.Shows.candidate?_eq (h : layout.Shows validTag parses root entries d)
    {e : ReleaseEntry} (he : e ∈ entries) :
    candidate? validTag parses root layout d.state (some e) =
      some (Option.guard (fun e => Unreferenced d e) e) := by
  obtain ⟨hdir, hcanonical, _, htag, path, hpath, hinside, hverified⟩ := h.entry e he
  cases hcanonical.symm.trans hpath
  simp only [candidate?, bind_eq_bind, Option.bind_some, hdir, hcanonical, htag, hinside,
    hverified, h.holdsCurrent_iff, Option.guard, Unreferenced]
  by_cases hname : e.name ∈ referencedTags d.state <;>
    by_cases hcurrent : d.current.map (·.1) = some e.name <;> simp [hname, hcurrent]

theorem attempted_all {α : Type} {removes : α → Bool} {l : List α}
    (h : ∀ a ∈ l, removes a = true) : attempted removes l = l := by
  rw [attempted, findIdx_eq_length.mpr (by simpa using h)]
  exact take_of_length_le (Nat.le_succ _)

/-- The directories that are removed are those that the manager removes. -/
theorem Layout.Shows.removed_eq (h : layout.Shows validTag parses root entries d) :
    (layout.applyRetention validTag parses d.state).removed.map (·.name) =
      unreferencedTags d := by
  have hgather : gather validTag parses layout d.state (some root) (some (entries.map some)) =
      some (entries.filter fun e => Unreferenced d e) := by
    obtain ⟨below, hcurrent⟩ := h.current
    have hlink : layout.current ≠ some none := by simp [hcurrent]
    have hfound : (entries.map some).mapM (candidate? validTag parses root layout d.state) =
        some (entries.map (Option.guard fun e => Unreferenced d e)) :=
      mapM_eq_some_iff.mpr (by simpa using fun e he => h.candidate?_eq he)
    simp only [gather, hfound, bind_eq_bind, Option.bind_some]
    simp [hlink, reduceOption, filterMap_map, ← List.filterMap_eq_filter]
  have hremoves : ∀ e ∈ entries.filter fun e => Unreferenced d e, e.removes = true :=
    fun e he => (h.entry e (mem_filter.mp he).1).2.2.1
  have hremoved : (layout.applyRetention validTag parses d.state).removed =
      entries.filter fun e => Unreferenced d e := by
    simp only [Layout.applyRetention, h.releases, hgather, attempted_all hremoves]
    split_ifs
    · split <;> rfl
    · rfl
  rw [hremoved, unreferencedTags, ← h.names, List.filter_map]
  rfl

end

end DamHopper.LinuxRelease
