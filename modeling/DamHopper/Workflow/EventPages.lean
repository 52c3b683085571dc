import Mathlib.Data.Prod.Lex
import Mathlib.Data.String.Basic
import DamHopper.Workflow.Items

/-!
# EventPages — the workflow history, page by page

`events` of `api/workflow/mod.rs` over `list_events_keyset`. A cursor names the last event of
a page by its time and id, and the next page begins behind it. It is read back only if that id
is a UUID: so are the ids that the API handlers store, but not those of the terminal observation
worker.
-/

namespace DamHopper.Workflow

open List

/-! ## Cursors -/

def observationEventId (sessionId externalId : String) (incarnation : Nat) (action : String) :
    String :=
  s!"evt:obs:term:{sessionId}:{externalId}:{incarnation}:{action}"

abbrev Cursor := Nat × String

/-- How a cursor is printed, as JSON in Base64, and read. -/
structure CursorCodec (τ : Type) where
  encode : Cursor → τ
  /-- The text is empty or holds a `=`. -/
  padded : τ → Bool
  parse : τ → Option Cursor
  padded_encode : ∀ c, padded (encode c) = false
  parse_encode : ∀ c, parse (encode c) = some c

/-- `parses` says what `Uuid::parse_str` accepts. -/
def CursorCodec.decode {τ : Type} [DecidableEq τ] (parses : String → Bool)
    (codec : CursorCodec τ) (value : τ) : Option Cursor := do
  guard (codec.padded value = false)
  let c ← codec.parse value
  guard (c.2 ≠ "" ∧ parses c.2)
  guard (codec.encode c = value)
  return c

/-! ## Pages -/

structure EventTable where
  rows : List WorkflowEvent
  /-- `id TEXT PRIMARY KEY` -/
  distinct : (rows.map (·.id)).Nodup

def EventTable.eventsOf (table : EventTable) (workspaceId : String) : List WorkflowEvent :=
  table.rows.filter (·.workspaceId = workspaceId)

def WorkflowEvent.cursor (e : WorkflowEvent) : Cursor := (e.recordedAt, e.id)

def WorkflowEvent.key (e : WorkflowEvent) : Nat ×ₗ String := toLex e.cursor

/-- `ORDER BY recorded_at DESC, id DESC` -/
def newestFirst (rows : List WorkflowEvent) : List WorkflowEvent :=
  rows.insertionSort fun a b => b.key ≤ a.key

/-- `recorded_at < ?2 OR (recorded_at = ?2 AND id < ?3)` -/
def behind (cursor : Option Cursor) (e : WorkflowEvent) : Bool :=
  cursor.all fun c => e.recordedAt < c.1 ∨ (e.recordedAt = c.1 ∧ e.id < c.2)

def DEFAULT_HISTORY_LIMIT : Nat := 50

def MAX_HISTORY_LIMIT : Nat := 100

def listEventsKeyset (table : EventTable) (workspaceId : String) (cursor : Option Cursor)
    (limit : Nat) : List WorkflowEvent :=
  (newestFirst ((table.eventsOf workspaceId).filter (behind cursor))).take
    (max 1 (min limit (MAX_HISTORY_LIMIT + 1)))

structure EventsDto (τ : Type) where
  events : List WorkflowEvent
  nextCursor : Option τ

inductive WorkflowError where
  | invalidRequest
  | limitExceeded
  deriving Repr, DecidableEq

section

variable {τ : Type} [DecidableEq τ] (parses : String → Bool) (codec : CursorCodec τ)
  (table : EventTable) (workspaceId : String) (limit : Option Nat)

def readCursor : Option τ → Except WorkflowError (Option Cursor)
  | none => .ok none
  | some value => (expect (codec.decode parses value) .invalidRequest).map some

def events (cursor : Option τ) : Except WorkflowError (EventsDto τ) := do
  let cursor ← readCursor parses codec cursor
  require (∀ value ∈ limit, 1 ≤ value ∧ value ≤ MAX_HISTORY_LIMIT) .limitExceeded
  let limit := limit.getD DEFAULT_HISTORY_LIMIT
  let rows := listEventsKeyset table workspaceId cursor (limit + 1)
  return {
    events := rows.take limit
    nextCursor := if limit < rows.length then
        rows[limit - 1]?.map fun e => codec.encode e.cursor
      else none }

/-- A client asks for a page and, as long as there is a next cursor, for the page behind it;
and all that it receives. -/
inductive HistoryWalk : Option τ → List WorkflowEvent → Prop where
  | last {cursor page} (hpage : events parses codec table workspaceId limit cursor = .ok page)
    (hend : page.nextCursor = none) : HistoryWalk cursor page.events
  | next {cursor page following received}
    (hpage : events parses codec table workspaceId limit cursor = .ok page)
    (hmore : page.nextCursor = some following) (hrest : HistoryWalk (some following) received) :
    HistoryWalk cursor (page.events ++ received)

end

/-- Every page of the history behind the first `k` ones that another page follows ends with a
UUID. -/
def UuidEnds (parses : String → Bool) (history : List WorkflowEvent) (size k : Nat) : Prop :=
  ∀ j e, k < j → j * size < history.length → history[j * size - 1]? = some e → parses e.id

/-! ## What a page holds -/

section

variable {τ : Type} [DecidableEq τ] {parses : String → Bool} {codec : CursorCodec τ}
  {table : EventTable} {workspaceId : String} {limit : Option Nat}
  {rows front rest : List WorkflowEvent} {e : WorkflowEvent}

theorem readCursor_encode (hempty : parses "" = false) :
    readCursor parses codec (some (codec.encode e.cursor)) =
      if parses e.id then .ok (some e.cursor) else .error .invalidRequest := by
  simp only [readCursor, CursorCodec.decode, codec.padded_encode, codec.parse_encode,
    WorkflowEvent.cursor]
  by_cases huuid : parses e.id
  · have hne : e.id ≠ "" := fun heq => by simp [heq, hempty] at huuid
    simp [huuid, hne, expect, Except.map]
  · simp [huuid, expect, Except.map]

theorem behind_iff {x : WorkflowEvent} : behind (some e.cursor) x = true ↔ x.key < e.key := by
  simp [behind, WorkflowEvent.key, WorkflowEvent.cursor, Prod.Lex.toLex_lt_toLex]

theorem newestFirst_perm (rows : List WorkflowEvent) : newestFirst rows ~ rows :=
  perm_insertionSort _ rows

/-- Newest first, and no two alike. -/
theorem newestFirst_pairwise (h : (rows.map (·.id)).Nodup) :
    (newestFirst rows).Pairwise fun a b => b.key < a.key := by
  have hids := ((newestFirst_perm rows).map (·.id)).nodup_iff.mpr h
  refine ((pairwise_insertionSort _ rows).and (pairwise_map.mp hids)).imp ?_
  rintro a b ⟨hle, hne⟩
  exact lt_of_le_of_ne hle fun heq => hne (congrArg (fun k => (ofLex k).2) heq.symm)

/-- The rows behind a part of the history are the rest of it. -/
theorem newestFirst_behind (h : newestFirst (table.eventsOf workspaceId) = front ++ rest) :
    newestFirst ((table.eventsOf workspaceId).filter
      (behind (front.getLast?.map WorkflowEvent.cursor))) = rest := by
  have hids : ((table.eventsOf workspaceId).map (·.id)).Nodup :=
    table.distinct.sublist (filter_sublist.map _)
  have hsorted := newestFirst_pairwise hids
  have hperm := newestFirst_perm (table.eventsOf workspaceId)
  rw [h] at hsorted hperm
  rw [pairwise_append] at hsorted
  obtain ⟨hfront, hrest, hacross⟩ := hsorted
  refine Perm.eq_of_pairwise (fun a b _ _ hab hba => absurd hab hba.asymm)
    (newestFirst_pairwise (hids.sublist (filter_sublist.map _))) hrest
    ((newestFirst_perm _).trans ((hperm.symm.filter _).trans (.of_eq ?_)))
  rcases eq_nil_or_concat' front with rfl | ⟨newer, e, rfl⟩
  · simp [behind]
  rw [pairwise_append] at hfront
  have hnewer : ∀ x ∈ newer ++ [e], ¬ behind (some e.cursor) x := by
    simp only [behind_iff, not_lt, mem_append, mem_singleton]
    rintro x (hx | rfl)
    · exact (hfront.2.2 x hx e (mem_singleton_self e)).le
    · exact le_rfl
  have hbehind : ∀ x ∈ rest, behind (some e.cursor) x := fun x hx =>
    behind_iff.mpr (hacross e (by simp) x hx)
  rw [getLast?_concat, Option.map_some, filter_append, filter_eq_nil_iff.mpr hnewer,
    filter_eq_self.mpr hbehind, nil_append]

section

variable (hempty : parses "" = false)
include hempty

/-- A cursor that is followed names a UUID. -/
theorem HistoryWalk.uuid {received : List WorkflowEvent}
    (h : HistoryWalk parses codec table workspaceId limit (some (codec.encode e.cursor)) received) :
    parses e.id := by
  by_contra hnot
  have hpage : events parses codec table workspaceId limit (some (codec.encode e.cursor)) =
      .error .invalidRequest := by
    rw [events, readCursor_encode hempty, if_neg hnot]
    rfl
  cases h with
  | last hpage' _ | next hpage' _ _ => cases hpage.symm.trans hpage'

variable (hlimit : ∀ value ∈ limit, 1 ≤ value ∧ value ≤ MAX_HISTORY_LIMIT)
include hlimit

omit hempty in
theorem size_allowed : 1 ≤ limit.getD DEFAULT_HISTORY_LIMIT ∧
    limit.getD DEFAULT_HISTORY_LIMIT ≤ MAX_HISTORY_LIMIT := by
  cases limit with
  | none => decide
  | some value => exact hlimit value rfl

theorem events_page (h : newestFirst (table.eventsOf workspaceId) = front ++ rest)
    (huuid : ∀ e ∈ front.getLast?, parses e.id) :
    let size := limit.getD DEFAULT_HISTORY_LIMIT
    events parses codec table workspaceId limit
        (front.getLast?.map fun e => codec.encode e.cursor) =
      .ok ⟨rest.take size, if size < rest.length then
        rest[size - 1]?.map fun e => codec.encode e.cursor else none⟩ := by
  have hcursor : readCursor parses codec (front.getLast?.map fun e => codec.encode e.cursor) =
      .ok (front.getLast?.map WorkflowEvent.cursor) := by
    cases hlast : front.getLast? with
    | none => rfl
    | some e => simp [Option.map_some, readCursor_encode hempty, if_pos (huuid e hlast)]
  have hsize := size_allowed hlimit
  simp only [events, hcursor, bind, Except.bind, require, if_pos hlimit, listEventsKeyset,
    newestFirst_behind h]
  generalize limit.getD DEFAULT_HISTORY_LIMIT = size at hsize ⊢
  have hmore : max 1 (min (size + 1) (MAX_HISTORY_LIMIT + 1)) = size + 1 := by omega
  have hlt : size < (rest.take (size + 1)).length ↔ size < rest.length := by
    rw [length_take]
    omega
  simp only [hmore, hlt, take_take, Nat.min_eq_left (Nat.le_succ size)]
  rw [getElem?_take_of_lt (by omega)]
  rfl

variable {history received : List WorkflowEvent} {size : Nat}

omit hempty hlimit in
theorem uuidEnds_succ {k : Nat} (he : history[(k + 1) * size - 1]? = some e)
    (hlong : (k + 1) * size < history.length) :
    UuidEnds parses history size k ↔ parses e.id ∧ UuidEnds parses history size (k + 1) := by
  constructor
  · intro h
    exact ⟨h _ e k.lt_succ_self hlong he, fun j e' hj => h j e' (Nat.lt_of_succ_lt hj)⟩
  · rintro ⟨huuid, h⟩ j e' hj hlt he'
    rcases Nat.eq_or_lt_of_le (Nat.succ_le_of_lt hj) with rfl | hj
    · cases he.symm.trans he'
      exact huuid
    · exact h j e' hj hlt he'

/-- A client that has received `k` pages receives the rest, if no cursor is rejected. -/
theorem walk_iff (hsize : limit.getD DEFAULT_HISTORY_LIMIT = size)
    (hhistory : newestFirst (table.eventsOf workspaceId) = history) (k : Nat)
    (huuid : ∀ e ∈ (history.take (k * size)).getLast?, parses e.id) :
    HistoryWalk parses codec table workspaceId limit
        ((history.take (k * size)).getLast?.map fun e => codec.encode e.cursor) received ↔
      received = history.drop (k * size) ∧ UuidEnds parses history size k := by
  have hpos : 1 ≤ size := hsize ▸ (size_allowed hlimit).1
  induction hn : history.length - k * size using Nat.strong_induction_on
    generalizing k received with
  | _ n ih =>
    have hpage := @events_page _ _ parses codec table workspaceId limit (history.take (k * size))
      (history.drop (k * size)) hempty hlimit (by rw [hhistory, take_append_drop]) huuid
    have hmul : (k + 1) * size = k * size + size := Nat.succ_mul k size
    simp only [hsize, length_drop, getElem?_drop] at hpage
    by_cases hshort : history.length ≤ (k + 1) * size
    · have hends : UuidEnds parses history size k := by
        intro j e hj hlt
        have := Nat.mul_le_mul_right size (show k + 1 ≤ j from hj)
        omega
      have htake : (history.drop (k * size)).take size = history.drop (k * size) :=
        take_of_length_le (by rw [length_drop]; omega)
      rw [if_neg (by omega), htake] at hpage
      constructor
      · intro hwalk
        cases hwalk with
        | last hpage' _ =>
          cases hpage.symm.trans hpage'
          exact ⟨rfl, hends⟩
        | next hpage' hmore _ =>
          cases hpage.symm.trans hpage'
          cases hmore
      · rintro ⟨rfl, _⟩
        exact .last hpage rfl
    obtain ⟨e, he⟩ : ∃ e, history[(k + 1) * size - 1]? = some e :=
      ⟨_, getElem?_eq_getElem (by omega)⟩
    have hlast : (history.take ((k + 1) * size)).getLast? = some e := by
      rw [getLast?_take, if_neg (by omega), he]
      rfl
    have hnext {later : List WorkflowEvent} (huuid : parses e.id) :=
      @ih _ (by omega) later (k + 1) (by simpa [hlast] using huuid) rfl
    simp only [hlast] at hnext
    have hrest : (history.drop (k * size)).take size ++ history.drop ((k + 1) * size) =
        history.drop (k * size) := by
      rw [hmul, ← drop_drop, take_append_drop]
    rw [if_pos (by omega), show k * size + (size - 1) = (k + 1) * size - 1 by omega, he] at hpage
    rw [uuidEnds_succ he (by omega), ← hrest]
    constructor
    · intro hwalk
      cases hwalk with
      | last hpage' hend =>
        cases hpage.symm.trans hpage'
        cases hend
      | next hpage' hmore hlater =>
        cases hpage.symm.trans hpage'
        cases hmore
        obtain ⟨rfl, hends⟩ := (hnext (hlater.uuid hempty)).mp hlater
        exact ⟨rfl, (hlater.uuid hempty), hends⟩
    · rintro ⟨rfl, huuid, hends⟩
      exact .next hpage rfl ((hnext huuid).mpr ⟨rfl, hends⟩)

end

end

/-- **The history page by page.** A client that follows the cursors is never rejected and
receives every event of the workspace once, newest first, if and only if, counting from the
newest, every event at which a page ends and another one follows has a UUID for its id. -/
theorem history_paged_iff {τ : Type} [DecidableEq τ] (parses : String → Bool)
    (hempty : parses "" = false) (codec : CursorCodec τ) (table : EventTable)
    (workspaceId : String) (limit : Option Nat)
    (hlimit : ∀ value ∈ limit, 1 ≤ value ∧ value ≤ MAX_HISTORY_LIMIT) :
    (∃ received, HistoryWalk parses codec table workspaceId limit none received ∧
      received.Pairwise (fun a b => b.key < a.key) ∧ received ~ table.eventsOf workspaceId) ↔
    UuidEnds parses (newestFirst (table.eventsOf workspaceId))
      (limit.getD DEFAULT_HISTORY_LIMIT) 0 := by
  have hids : ((table.eventsOf workspaceId).map (·.id)).Nodup :=
    table.distinct.sublist (filter_sublist.map _)
  have hwalk {received : List WorkflowEvent} :=
    @walk_iff _ _ parses codec table workspaceId limit hempty hlimit _ received _ rfl rfl 0
      (by simp)
  simp only [Nat.zero_mul] at hwalk
  constructor
  · rintro ⟨received, hreceived, _⟩
    exact (hwalk.mp hreceived).2
  · intro h
    exact ⟨_, hwalk.mpr ⟨rfl, h⟩, newestFirst_pairwise hids, newestFirst_perm _⟩

def isHexDigit (c : Char) : Bool := c.isDigit || ('a' ≤ c && c ≤ 'f') || ('A' ≤ c && c ≤ 'F')

def isHyphenated (text : List Char) : Bool :=
  let groups := text.splitOn '-'
  groups.map length = [8, 4, 4, 4, 12] && groups.all (·.all isHexDigit)

/-- What `Uuid::parse_str` accepts: plain, hyphenated, in braces or as a URN. -/
def isUuid (id : String) : Bool :=
  let text := id.toList
  (text.length = 32 && text.all isHexDigit) || isHyphenated text ||
    (text.head? = some '\x7b' && text.getLast? = some '\x7d' && isHyphenated text.tail.dropLast) ||
    ("urn:uuid:".toList.isPrefixOf text && isHyphenated (text.drop 9))

def storedAt (recordedAt : Nat) (id : String) : WorkflowEvent :=
  ⟨id, "w", recordedAt, recordedAt, none, none⟩

def requested : EventTable :=
  ⟨[storedAt 1 "00000000-0000-4000-8000-000000000001",
    storedAt 2 "00000000-0000-4000-8000-000000000002"], by decide⟩

def observed : EventTable :=
  ⟨[storedAt 1 (observationEventId "s" "t" 1 "terminal_created"),
    storedAt 2 (observationEventId "s" "t" 1 "terminal_removed")], by decide⟩

/-- Prints `c` as `text`; the texts of other cursors are not written out. -/
def printing (c : Cursor) (text : String) (h : text ≠ "" ∧ '=' ∉ text.toList) :
    CursorCodec (Cursor ⊕ String) where
  encode d := if d = c then .inr text else .inl d
  padded
    | .inl _ => false
    | .inr s => s = "" ∨ '=' ∈ s.toList
  parse
    | .inl d => some d
    | .inr s => if s = text then some c else none
  padded_encode d := by
    by_cases hd : d = c <;> simp [hd, h]
  parse_encode d := by
    by_cases hd : d = c <;> simp [hd]

theorem history_paged_requested : isUuid "" = false ∧ ∃ received,
    HistoryWalk isUuid (printing (2, "00000000-0000-4000-8000-000000000002")
      "eyJyZWNvcmRlZF9hdCI6MiwiaWQiOiIwMDAwMDAwMC0wMDAwLTQwMDAtODAwMC0wMDAwMDAwMDAwMDIifQ"
      (by decide)) requested "w" (some 1) none received ∧
    received.Pairwise (fun a b => b.key < a.key) ∧ received ~ requested.eventsOf "w" := by
  have hempty : isUuid "" = false := by decide +kernel
  have huuid : ∀ e ∈ requested.eventsOf "w", isUuid e.id := by decide +kernel
  refine ⟨hempty, ?_⟩
  exact (history_paged_iff isUuid hempty _ requested "w" (some 1) (by decide)).mpr
    fun _ e _ _ he => huuid e ((newestFirst_perm _).mem_iff.mp (mem_of_getElem? he))

/-- The cursor behind an observation is rejected. -/
theorem observed_cursor_rejected :
    let text :=
      "eyJyZWNvcmRlZF9hdCI6MiwiaWQiOiJldnQ6b2JzOnRlcm06czp0OjE6dGVybWluYWxfcmVtb3ZlZCJ9"
    let codec := printing (2, "evt:obs:term:s:t:1:terminal_removed") text (by decide)
    ∃ page, events isUuid codec observed "w" (some 1) none = .ok page ∧
      page.nextCursor = some (.inr text) ∧
      events isUuid codec observed "w" (some 1) (some (.inr text)) = .error .invalidRequest := by
  intro text codec
  have hread : readCursor isUuid codec (some (.inr text)) = .error .invalidRequest := by
    decide +kernel
  refine ⟨_, rfl, by decide +kernel, ?_⟩
  rw [events, hread]
  rfl

end DamHopper.Workflow
