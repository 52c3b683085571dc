import DamHopper.Git.ConflictSummary
import DamHopper.SessionChanges.Store

/-!
# SessionChanges — pages of the changed files

`list_changed_files` of `session_changes/comparison.rs`: the rows of a published comparison,
a page at a time. A cursor is the offset of the next row, printed in decimal and encoded; the
client may send any. An addition of `usize` that overflows panics, so it is checked here.
-/

namespace DamHopper.SessionChanges

open List
open Git (parseUsize parseUsize_toDigits)

def DEFAULT_PAGE_LIMIT : Nat := 100

def MAX_PAGE_LIMIT : Nat := 200

/-- A published comparison; a `Vec` has at most `isize::MAX` rows. -/
structure ComparisonArtifact (Row : Type) where
  comparisonRevision : String
  rows : List Row
  length_lt : rows.length < 2 ^ 63

structure FilePage (Row Cursor : Type) where
  version : Nat
  comparisonRevision : String
  files : List Row
  nextCursor : Option Cursor

inductive PageError where
  | trackingDisabled | baselineMissing | refreshRequired | invalidRequest
  deriving Repr, DecidableEq

/-- The encoding of cursors (base64 of UTF-8): what was encoded can be decoded. -/
structure CursorCodec (Cursor : Type) where
  encode : List Char → Cursor
  decode : Cursor → Option (List Char)
  decode_encode : ∀ text, decode (encode text) = some text

/-- An addition of `usize`, `none` if it overflows. -/
def checkedAdd (a b : Nat) : Option Nat := if a + b < 2 ^ 64 then some (a + b) else none

def pageSize (limit : Option Nat) : Nat :=
  max 1 (min (limit.getD DEFAULT_PAGE_LIMIT) MAX_PAGE_LIMIT)

section

variable {Row Cursor : Type} (codec : CursorCodec Cursor) (enabled : Bool)
  (records : AssocMap SessionChangesKey (Option (ComparisonArtifact Row)))
  (key : SessionChangesKey) (expectedRevision : String) (limit : Option Nat)

def startOffset : Option Cursor → Option Nat
  | none => some 0
  | some cursor => (codec.decode cursor).bind parseUsize

/-- `none` is an overflow. -/
def listChangedFiles (cursor : Option Cursor) :
    Option (Except PageError (FilePage Row Cursor)) :=
  if !enabled then some (.error .trackingDisabled)
  else match records.get? key with
  | none => some (.error .baselineMissing)
  | some none => some (.error .refreshRequired)
  | some (some artifact) =>
    if artifact.comparisonRevision ≠ expectedRevision then some (.error .refreshRequired)
    else match startOffset codec cursor with
    | none => some (.error .invalidRequest)
    | some start => do
      let totalRows := artifact.rows.length
      let files ← if start < totalRows then do
          let stop := min (← checkedAdd start (pageSize limit)) totalRows
          pure ((artifact.rows.take stop).drop start)
        else pure []
      let next ← checkedAdd start (pageSize limit)
      pure (.ok {
        version := 1
        comparisonRevision := artifact.comparisonRevision
        files
        nextCursor := if next < totalRows then some (codec.encode (Nat.toDigits 10 next))
          else none })

/-- The rows of all pages from a cursor on, each page asked for with the cursor of the one
before. -/
def followPages : Nat → Option Cursor → Option (Except PageError (List Row))
  | 0, _ => none
  | fuel + 1, cursor => do
    match ← listChangedFiles codec enabled records key expectedRevision limit cursor with
    | .error error => pure (.error error)
    | .ok page =>
      match page.nextCursor with
      | none => pure (.ok page.files)
      | some next => return (← followPages fuel (some next)).map (page.files ++ ·)

end

section

variable {Row Cursor : Type} (codec : CursorCodec Cursor)
  (others : AssocMap SessionChangesKey (Option (ComparisonArtifact Row))) (key : SessionChangesKey)
  (artifact : ComparisonArtifact Row) (limit : Option Nat) {cursor : Option Cursor} {n : Nat}

theorem pageSize_pos : 0 < pageSize limit := Nat.lt_of_lt_of_le Nat.one_pos (Nat.le_max_left _ _)

theorem pageSize_le : pageSize limit ≤ 200 :=
  Nat.max_le.mpr ⟨by decide, Nat.min_le_right _ _⟩

/-- What a cursor that stands for an offset is answered with. -/
theorem listChangedFiles_of_offset (hcursor : startOffset codec cursor = some n) :
    listChangedFiles codec true (others.insert key (some artifact)) key
        artifact.comparisonRevision limit cursor =
      if n + pageSize limit < 2 ^ 64 then
        some (.ok ⟨1, artifact.comparisonRevision, (artifact.rows.drop n).take (pageSize limit),
          if n + pageSize limit < artifact.rows.length then
            some (codec.encode (Nat.toDigits 10 (n + pageSize limit))) else none⟩)
      else none := by
  by_cases hfit : n + pageSize limit < 2 ^ 64
  · rw [if_pos hfit]
    have hadd : checkedAdd n (pageSize limit) = some (n + pageSize limit) := if_pos hfit
    by_cases hn : n < artifact.rows.length
    · simp [listChangedFiles, hcursor, hadd, hn, ← take_eq_take_min, drop_take]
    · simp [listChangedFiles, hcursor, hadd, hn, drop_eq_nil_of_le (Nat.le_of_not_lt hn)]
  · rw [if_neg hfit]
    have hadd : checkedAdd n (pageSize limit) = none := if_neg hfit
    by_cases hn : n < artifact.rows.length <;> simp [listChangedFiles, hcursor, hadd, hn]

theorem followPages_of_offset {fuel : Nat} (hcursor : startOffset codec cursor = some n)
    (hn : n ≤ artifact.rows.length) (hfuel : artifact.rows.length < n + fuel) :
    followPages codec true (others.insert key (some artifact)) key artifact.comparisonRevision
      limit fuel cursor = some (.ok (artifact.rows.drop n)) := by
  induction fuel generalizing cursor n with
  | zero => omega
  | succ fuel ih =>
    have hlength := artifact.length_lt
    have hsmall := pageSize_le limit
    have hpos := pageSize_pos limit
    rw [followPages, listChangedFiles_of_offset codec others key artifact limit hcursor,
      if_pos (by omega)]
    by_cases hnext : n + pageSize limit < artifact.rows.length
    · have hread : startOffset codec (some (codec.encode (Nat.toDigits 10 (n + pageSize limit)))) =
          some (n + pageSize limit) := by
        rw [startOffset, codec.decode_encode, Option.bind_some, parseUsize_toDigits]
        exact Option.filter_eq_some_iff.mpr ⟨rfl, decide_eq_true (by omega)⟩
      simp [hnext, ih hread (by omega) (by omega), Except.map, ← drop_drop]
    · have hlast : (artifact.rows.drop n).length ≤ pageSize limit := by
        rw [length_drop]
        omega
      simp [hnext, take_of_length_le hlast]

/-- **Paging.** Following the cursors from the first page on gives every row once, in order.
A cursor that stands for a number is answered with the rows from that offset on, without an
overflow, if and only if the number and the page size together are below 2^64. -/
theorem changed_files_paging :
    followPages codec true (others.insert key (some artifact)) key artifact.comparisonRevision
        limit (artifact.rows.length + 1) none = some (.ok artifact.rows) ∧
      ∀ cursor n, startOffset codec (some cursor) = some n →
        ((∃ page, listChangedFiles codec true (others.insert key (some artifact)) key
            artifact.comparisonRevision limit (some cursor) = some (.ok page) ∧
            page.files = (artifact.rows.drop n).take (pageSize limit) ∧
            (page.nextCursor = none ↔ artifact.rows.length ≤ n + pageSize limit)) ↔
          n + pageSize limit < 2 ^ 64) := by
  refine ⟨followPages_of_offset codec others key artifact limit rfl (Nat.zero_le _) (by omega),
    fun cursor n hread => ?_⟩
  rw [listChangedFiles_of_offset codec others key artifact limit hread]
  by_cases hfit : n + pageSize limit < 2 ^ 64
  · rw [if_pos hfit]
    exact iff_of_true ⟨_, rfl, rfl, by simp⟩ hfit
  · rw [if_neg hfit]
    exact iff_of_false (by simp) hfit

end

/-- Exchanges the greatest offset and its Base64 text, and leaves every other text as it is. -/
def greatestCodec : CursorCodec (List Char) where
  encode := Equiv.swap "18446744073709551615".toList "MTg0NDY3NDQwNzM3MDk1NTE2MTU=".toList
  decode text :=
    Equiv.swap "18446744073709551615".toList "MTg0NDY3NDQwNzM3MDk1NTE2MTU=".toList text
  decode_encode _ := congrArg some (Equiv.swap_apply_self ..)

theorem largest_offset_overflows :
    listChangedFiles greatestCodec true
      (AssocMap.empty.insert ⟨"t", "1", "s", "r"⟩ (some ⟨"rev", ["a"], by decide⟩))
      ⟨"t", "1", "s", "r"⟩ "rev" none (some "MTg0NDY3NDQwNzM3MDk1NTE2MTU=".toList) = none := by
  have hcursor : startOffset greatestCodec (some "MTg0NDY3NDQwNzM3MDk1NTE2MTU=".toList) =
      some (2 ^ 64 - 1) := by
    decide +kernel
  rw [listChangedFiles_of_offset greatestCodec _ _ _ _ hcursor]
  exact if_neg (by decide)

end DamHopper.SessionChanges
