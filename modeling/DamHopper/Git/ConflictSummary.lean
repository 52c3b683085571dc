import Mathlib.Data.List.Count
import Mathlib.Data.List.Induction
import DamHopper.Git.CommitFormat
import DamHopper.Pty.OutputDecoder

/-!
# Conflict summary — the unmerged paths, page by page

`get_conflicts_summary` of `git/conflict.rs`. A cursor is the revision of HEAD and an
offset into the list of conflicts as it is when the next page is asked for: what is
resolved meanwhile moves the rest of the list to the front.
-/

namespace DamHopper.Git

open List

/-! ## The index -/

structure IndexEntry where
  path : List UInt8
  mode : Nat

structure IndexConflict where
  ancestor : Option IndexEntry
  our : Option IndexEntry
  their : Option IndexEntry

inductive ConflictStatus where
  | bothModified
  | bothAdded
  | deleteModify
  | modifyDelete
  | unsupported
  deriving Repr, DecidableEq

namespace IndexConflict

def rawPath (c : IndexConflict) : Option (List UInt8) :=
  (c.our <|> c.their <|> c.ancestor).map (·.path)

def hasKind (c : IndexConflict) (kind : Nat) : Bool :=
  [c.our, c.their, c.ancestor].any fun e => e.elim 0 (·.mode) &&& 0o170000 = kind

def status (c : IndexConflict) (isNonUtf8 : Bool) : ConflictStatus × Option String :=
  if isNonUtf8 then
    (.unsupported, some "Non-UTF-8 path not supported for in-editor mutation")
  else if c.hasKind 0o120000 then
    (.unsupported, some "Symlink conflict not supported in text resolver")
  else if c.hasKind 0o160000 then
    (.unsupported, some "Submodule gitlink conflict not supported")
  else match c.our, c.their with
    | some o, some t =>
      if o.path ≠ t.path then
        (.unsupported, some "Complex rename conflict with mismatched stage paths")
      else if c.ancestor.isSome then (.bothModified, none)
      else (.bothAdded, none)
    | some _, none => (.deleteModify, none)
    | none, some _ => (.modifyDelete, none)
    | none, none => (.unsupported, some "Unrecognized unmerged stage combination")

end IndexConflict

/-- The conflicts in the order of the index, each path once. -/
structure UnmergedIndex where
  conflicts : List IndexConflict
  distinct : (conflicts.filterMap (·.rawPath)).Nodup

def UnmergedIndex.paths (index : UnmergedIndex) : List (List UInt8) :=
  index.conflicts.filterMap (·.rawPath)

/-! ## A page -/

def encodeConflictId (rawPath : List UInt8) : List Char :=
  "cid_".toList ++ rawPath.flatMap fun b =>
    [hexDigit (Fin.ofNat 16 (b.toNat / 16)), hexDigit (Fin.ofNat 16 b.toNat)]

structure ConflictSummaryEntry where
  conflictId : List Char
  path : List Char
  status : ConflictStatus
  isBinary : Bool
  unsupportedReason : Option String

structure ConflictSummaryResponse where
  targetRevision : List Char
  entries : List ConflictSummaryEntry
  truncated : Bool
  nextCursor : Option (List Char)

/-- The decimal number of a cursor, a plus sign before it or not. -/
def parseUsize (text : List Char) : Option Nat :=
  (Text.parseNat? (if text.head? = some '+' then text.tail else text)).filter (· < 2 ^ 64)

def revision (head : Option Oid) : List Char := head.elim [] Oid.hex

def readOffset (targetRevision : List Char) : Option (List Char) → Except AppError Nat
  | none => .ok 0
  | some cursor =>
    match cursor.dropPrefix? "v1:".toList with
    | none => .error (.invalidInput "Unsupported cursor version")
    | some cursor =>
      match cursor.splitOn ':' with
      | [revision, offset] =>
        if revision ≠ targetRevision then
          .error (.invalidInput "Stale cursor: target revision has changed since cursor was issued")
        else match parseUsize offset with
          | some offset => .ok offset
          | none => .error (.invalidInput "Malformed cursor offset")
      | _ => .error (.invalidInput "Malformed cursor format")

def printCursor (targetRevision : List Char) (offset : Nat) : List Char :=
  "v1:".toList ++ (targetRevision ++ ':' :: Nat.toDigits 10 offset)

def pageLimit (limit : Option Nat) : Nat := max 1 (min (limit.getD 100) 500)

section

-- by the attributes of the path, its extension or the first bytes of the object
variable (isBinary : IndexConflict → Bool)

def summaryEntry (conflict : IndexConflict) (rawPath : List UInt8) : ConflictSummaryEntry :=
  let (status, unsupportedReason) := conflict.status (Utf8.decode rawPath).isNone
  { conflictId := encodeConflictId rawPath, path := Pty.fromUtf8Lossy rawPath
    status, isBinary := isBinary conflict, unsupportedReason }

/-- One round of the loop over the conflicts: the page, and how many were counted. -/
def visitConflict (offset limit : Nat) (acc : List ConflictSummaryEntry × Nat)
    (conflict : IndexConflict) : List ConflictSummaryEntry × Nat :=
  match conflict.rawPath with
  | none => acc
  | some rawPath =>
    if acc.2 < offset ∨ limit ≤ acc.1.length then (acc.1, acc.2 + 1)
    else (acc.1 ++ [summaryEntry isBinary conflict rawPath], acc.2 + 1)

def getConflictsSummary (head : Option Oid) (index : UnmergedIndex)
    (cursor : Option (List Char)) (limit : Option Nat) :
    Except AppError ConflictSummaryResponse := do
  let targetRevision := revision head
  let offset ← readOffset targetRevision cursor
  if index.conflicts.isEmpty then
    return { targetRevision, entries := [], truncated := false, nextCursor := none }
  let (entries, total) :=
    index.conflicts.foldl (visitConflict isBinary offset (pageLimit limit)) ([], 0)
  let truncated := offset + entries.length < total
  return { targetRevision, entries, truncated
           nextCursor := if truncated then
             some (printCursor targetRevision (offset + entries.length)) else none }

variable (head : Option Oid) (limit : Option Nat) in
/-- A client asks for a page and, as long as there is a next cursor, for the page after it:
the index at its request and at the later ones, and all it receives. -/
inductive Walk : Option (List Char) → UnmergedIndex → List UnmergedIndex →
    List ConflictSummaryEntry → Prop where
  | last {cursor index page}
    (hpage : getConflictsSummary isBinary head index cursor limit = .ok page)
    (hend : page.nextCursor = none) : Walk cursor index [] page.entries
  | next {cursor index page following index' later received}
    (hpage : getConflictsSummary isBinary head index cursor limit = .ok page)
    (hmore : page.nextCursor = some following)
    (hrest : Walk (some following) index' later received) :
    Walk cursor index (index' :: later) (page.entries ++ received)

end

/-- Between two requests the conflict moves from behind the offset of the second one to
before it. -/
def Skipped (path : List UInt8) (limit : Nat) : Nat → UnmergedIndex → List UnmergedIndex → Prop
  | _, _, [] => False
  | offset, index, index' :: later =>
    (offset ≤ index.paths.idxOf path ∧ index'.paths.idxOf path < offset) ∨
      Skipped path limit (offset + limit) index' later

/-! ## What a page holds -/

theorem encodeConflictId_injective : Function.Injective encodeConflictId := by
  intro p q h
  have hdigit : Function.Injective hexDigit := fun d e h =>
    Option.some.inj (by rw [← hexValue_hexDigit, h, hexValue_hexDigit])
  replace h := append_cancel_left h
  induction p generalizing q with
  | nil =>
    cases q with
    | nil => rfl
    | cons c q => cases h
  | cons b p ih =>
    cases q with
    | nil => cases h
    | cons c q =>
      simp only [flatMap_cons, cons_append, cons.injEq, hdigit.eq_iff] at h
      obtain ⟨hhigh, hlow, hrest⟩ := h
      have hhigh := congrArg Fin.val hhigh
      have hlow := congrArg Fin.val hlow
      simp only [Fin.val_ofNat] at hhigh hlow
      have hb := b.toNat_lt
      have hc := c.toNat_lt
      rw [ih hrest, show b = c from UInt8.toNat_inj.mp (by omega)]

theorem parseUsize_toDigits {n : Nat} :
    parseUsize (Nat.toDigits 10 n) = (some n).filter (· < 2 ^ 64) := by
  have hplus : (Nat.toDigits 10 n).head? ≠ some '+' := fun hhead =>
    absurd (Text.isDigit_toDigits (mem_of_head? hhead)) (by decide)
  rw [parseUsize, if_neg hplus, Text.parseNat?, if_pos, Nat.ofDigitChars_ten_toDigits]
  exact ⟨Nat.toDigits_ne_nil, all_eq_true.mpr fun _ => Text.isDigit_toDigits⟩

/-- A cursor that is accepted is read as the offset it was printed with. -/
theorem readOffset_printCursor {head : Option Oid} {offset n : Nat}
    (h : readOffset (revision head) (some (printCursor (revision head) offset)) =
      .ok n) : n = offset := by
  have hhex : ':' ∉ revision head := by
    cases head with
    | none => exact not_mem_nil
    | some oid =>
      have hcolon : ∀ d, hexDigit d ≠ ':' := by decide
      simp [revision, Oid.hex, hcolon]
  have hdigits : ':' ∉ Nat.toDigits 10 offset := fun hmem =>
    absurd (Text.isDigit_toDigits hmem) (by decide)
  rw [readOffset, printCursor, dropPrefix?_append_of_beq _ (beq_self_eq_true _)] at h
  simp only [splitOn_append_cons_self_of_not_mem hhex, splitOn_eq_singleton hdigits,
    parseUsize_toDigits] at h
  grind

section

variable {isBinary : IndexConflict → Bool} {head : Option Oid} {limit : Option Nat}
  {cursor : Option (List Char)} {index : UnmergedIndex} {page : ConflictSummaryResponse}
  {path : List UInt8}

theorem foldl_visitConflict (offset limit : Nat) (conflicts : List IndexConflict) :
    conflicts.foldl (visitConflict isBinary offset limit) ([], 0) =
      let listed := conflicts.filterMap fun c => c.rawPath.map (summaryEntry isBinary c)
      ((listed.drop offset).take limit, listed.length) := by
  induction conflicts using List.reverseRecOn with
  | nil => simp
  | append_singleton conflicts c ih =>
    rw [foldl_append, ih]
    cases hpath : c.rawPath with
    | none => simp [visitConflict, hpath]
    | some rawPath =>
      simp only [foldl_cons, visitConflict]
      grind [take_of_length_le]

theorem count_take (hmem : path ∈ index.paths) (n : Nat) :
    (index.paths.take n).count path = if index.paths.idxOf path < n then 1 else 0 := by
  have hnodup : (index.paths.take n).Nodup := index.distinct.sublist (take_sublist ..)
  rw [hnodup.count]
  simp only [mem_take_iff_idxOf_lt hmem]

/-- A page shows the conflicts from its offset to the next, as they are now. -/
theorem page_shows {offset : Nat}
    (h : getConflictsSummary isBinary head index cursor limit = .ok page)
    (hoffset : ∀ n, readOffset (revision head) cursor = .ok n → n = offset)
    (hmem : path ∈ index.paths) :
    let position := index.paths.idxOf path
    let next := offset + pageLimit limit
    (if position < offset then 1 else 0) +
        (page.entries.map (·.conflictId)).count (encodeConflictId path) =
      (if position < next then 1 else 0) ∧ (page.nextCursor = none → position < next) ∧
      ∀ c, page.nextCursor = some c → c = printCursor (revision head) next := by
  have hlisted : (index.conflicts.filterMap fun c =>
      c.rawPath.map (summaryEntry isBinary c)).map (·.conflictId) =
        index.paths.map encodeConflictId := by
    simp only [UnmergedIndex.paths, map_filterMap, Option.map_map]
    rfl
  have hlength := congrArg List.length hlisted
  have hne : index.conflicts.isEmpty = false := by
    simpa using fun hnil : index.conflicts = [] => by simp [UnmergedIndex.paths, hnil] at hmem
  simp only [getConflictsSummary, foldl_visitConflict, bind_eq_ok_iff, hne] at h
  obtain ⟨n, hn, ⟨⟩⟩ := h
  dsimp only
  rw [map_take, map_drop, hlisted, ← map_drop, ← map_take,
    count_map_of_injective _ _ encodeConflictId_injective, ← count_take hmem,
    ← count_take hmem]
  grind

/-- A conflict that stays moves to the front only. -/
theorem idxOf_le_of_sublist {l l' : List (List UInt8)} (h : l' <+ l) (hl : l.Nodup)
    (hmem : path ∈ l') : l'.idxOf path ≤ l.idxOf path := by
  induction h with
  | slnil => cases hmem
  | cons a h ih => grind
  | cons_cons a h ih => grind

/-- What is received from an offset on: nothing of a conflict before it, and one behind it
once unless it is skipped. -/
theorem Walk.count_eq {later : List UnmergedIndex} {received : List ConflictSummaryEntry}
    (h : Walk isBinary head limit cursor index later received) (offset : Nat)
    (hoffset : ∀ n, readOffset (revision head) cursor = .ok n → n = offset)
    (hresolved : (index :: later).IsChain fun now next => next.conflicts <+ now.conflicts)
    (hstays : ∀ i ∈ index :: later, path ∈ i.paths) :
    let count := (received.map (·.conflictId)).count (encodeConflictId path)
    let skipped := Skipped path (pageLimit limit) (offset + pageLimit limit) index later
    (index.paths.idxOf path < offset → count = 0 ∧ ¬ skipped) ∧
      (offset ≤ index.paths.idxOf path → (count = 1 ↔ ¬ skipped)) := by
  induction h generalizing offset with
  | @last cursor index page hpage hend =>
    obtain ⟨hcount, hlast, _⟩ := page_shows hpage hoffset (hstays index mem_cons_self)
    grind [Skipped]
  | @next cursor index page following index' later received hpage hmore hrest ih =>
    obtain ⟨hcount, _, hnext⟩ := page_shows hpage hoffset (hstays index mem_cons_self)
    obtain ⟨hsub, hresolved⟩ := isChain_cons_cons.mp hresolved
    have hle := idxOf_le_of_sublist (hsub.filterMap _) index.distinct (hstays index' (by simp))
    obtain ⟨hbefore, hbehind⟩ := ih _
      (fun n hn => readOffset_printCursor (hnext following hmore ▸ hn)) hresolved
      fun i hi => hstays i (mem_cons_of_mem _ hi)
    grind [Skipped, UnmergedIndex.paths]

end

/-- **Conflicts page by page.** A client that follows the cursors to the end, while
conflicts are resolved between its requests, receives a conflict that stays exactly once if and
only if it never moves from behind the offset of the next request to before it. -/
theorem received_once_iff (isBinary : IndexConflict → Bool) (head : Option Oid)
    (limit : Option Nat) (index : UnmergedIndex) (later : List UnmergedIndex)
    (received : List ConflictSummaryEntry) (path : List UInt8)
    (h : Walk isBinary head limit none index later received)
    (hresolved : (index :: later).IsChain fun now next => next.conflicts <+ now.conflicts)
    (hstays : ∀ i ∈ index :: later, path ∈ i.paths) :
    (received.map (·.conflictId)).count (encodeConflictId path) = 1 ↔
      ¬ Skipped path (pageLimit limit) (pageLimit limit) index later := by
  have honce := (h.count_eq 0 (by rintro _ ⟨⟩; rfl) hresolved hstays).2 (Nat.zero_le _)
  rwa [Nat.zero_add] at honce

def conflictAt (name : UInt8) : IndexConflict :=
  ⟨none, some ⟨[name], 0o100644⟩, some ⟨[name], 0o100644⟩⟩

def twoConflicts : UnmergedIndex := ⟨[conflictAt 97, conflictAt 98], by decide⟩

def threeConflicts : UnmergedIndex :=
  ⟨[conflictAt 97, conflictAt 98, conflictAt 99], by decide⟩

/-- The third conflict is resolved after the first page. -/
theorem received_once_resolved_behind : ∃ received,
    Walk (fun _ => false) none (some 1) none threeConflicts [twoConflicts] received ∧
      (received.map (·.conflictId)).count (encodeConflictId [98]) = 1 := by
  have hwalk : Walk (fun _ => false) none (some 1) none threeConflicts [twoConflicts] _ :=
    .next rfl rfl (.last rfl rfl)
  refine ⟨_, hwalk, (received_once_iff _ _ _ _ _ _ [98] hwalk ?_ ?_).mpr ?_⟩
  · simp [threeConflicts, twoConflicts]
  · decide
  · simp [Skipped, pageLimit]
    decide

/-- The first conflict is resolved after the first page: the second is never shown. -/
theorem second_conflict_skipped : ∃ received,
    Walk (fun _ => false) none (some 1) none twoConflicts [⟨[conflictAt 98], by decide⟩] received ∧
      encodeConflictId [98] ∉ received.map (·.conflictId) :=
  ⟨_, .next rfl rfl (.last rfl rfl), by decide⟩

end DamHopper.Git
