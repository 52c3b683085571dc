import Mathlib.Data.List.DropRight
import DamHopper.Pty.ShellTransparency

/-!
# ShellTrust — when the reader believes that a shell is editing a line

The lifecycle leaves `Unverified` only through a marker that carries the nonce, and
entering an alternate buffer puts it back: a full-screen program must not be taken for
an edit line. The order of markers and events is kept in a log, which the source does
not build. Everything below is an invariant of the log along a run; `run_induct` does the
induction over turns and chunks once.

`observe_alternate_buffer` looks at one chunk at a time and before the chunk is fed. An
entry sequence that is cut by the kernel, or that comes in one chunk with the edit marker
before it, does not end that edit: only a chunk that starts behind the marker does
(`EnteredSince`).
-/

namespace DamHopper.Pty

open List

/-- What happened in the filter: a marker was accepted, `stop` being the offset behind
its terminator; an event was emitted; or a chunk that enters an alternate buffer was seen,
which emits a reset. -/
inductive LogEntry where
  | marker (stop : Nat) (body : List UInt8)
  | event (event : LifecycleEvent)
  | entered
  deriving Repr, DecidableEq

def promptKind : List UInt8 := [0x41]

def editKind : List UInt8 := [0x42]

def submitKind : List UInt8 := [0x45]

namespace LogEntry

def event? : LogEntry → Option LifecycleEvent
  | .marker _ _ => none
  | .event e => some e
  | .entered => some ShellLifecycle.resetEvent

def kind? (nonce : List UInt8) : LogEntry → Option (List UInt8)
  | .marker _ body =>
    match splitSemicolon body with
    | [kind, last] => if last = nonce then some kind else none
    | [kind, _, last] => if last = nonce then some kind else none
    | _ => none
  | .event _ | .entered => none

def isReset : LogEntry → Bool
  | .marker _ _ => false
  | .event e => e.state == .unverified
  | .entered => true

def promptStop? (nonce : List UInt8) : LogEntry → Option Nat
  | .marker stop body =>
    if splitSemicolon body = [promptKind, nonce] then some stop else none
  | .event _ | .entered => none

end LogEntry

/-- The kinds of the accepted markers since the last reset. -/
def kindsSinceReset (nonce : List UInt8) (log : List LogEntry) : List (List UInt8) :=
  (log.rtakeWhile fun entry => !entry.isReset).filterMap (LogEntry.kind? nonce)

def lastPrompt (nonce : List UInt8) (log : List LogEntry) : Nat :=
  (log.filterMap (LogEntry.promptStop? nonce)).getLast?.getD 0

/-- An alternate buffer is entered at offset `p` of the stream. -/
def EntersAt (stream : List UInt8) (p : Nat) : Prop := ALT_BUFFER_ENTER <+: stream.drop p

instance (stream : List UInt8) (p : Nat) : Decidable (EntersAt stream p) :=
  inferInstanceAs (Decidable (_ <+: _))

/-- A chunk that starts at or behind `start` contains a whole entry sequence. -/
def EnteredSince (chunks : List (List UInt8)) (start : Nat) : Prop :=
  ∃ before chunk after, chunks = before ++ chunk :: after ∧ start ≤ before.flatten.length ∧
    ShellLifecycle.entersAlternateBuffer chunk = true

/-- The last thing that the markers did was to start an edit: one that ends at `stop` was
accepted, and none was accepted or refused behind it. -/
def EditsLast (nonce : List UInt8) (log : List LogEntry) (stop : Nat) : Prop :=
  ∃ body, splitSemicolon body = [editKind, nonce] ∧
    [.marker stop body, .event { state := .editing }] <:+ log.filter (· ≠ .entered)

/-- The stream holds a complete marker with the nonce in its last field; no terminator
comes before that field. -/
def HoldsMarker (nonce stream : List UInt8) : Prop :=
  ∃ lead terminator, BEL ∉ lead ∧ ¬ [ESC, BACKSLASH] <:+: lead ∧
    (terminator = [BEL] ∨ terminator = [ESC, BACKSLASH]) ∧
    PREFIX ++ lead ++ [0x3B] ++ nonce ++ terminator <:+: stream

namespace ShellLifecycle

section

variable (decode : List UInt8 → Option (List UInt8))

def turnLog (s : ShellLifecycle) (byte : UInt8) (following : Option UInt8) (stop : Nat) :
    List LogEntry :=
  ((s.closed? byte following stop).toList.filter (·.accepted decode)).map
      (fun m => .marker m.stop m.body) ++ (s.turn decode byte following).events.map .event

def feedLog (offset : Nat) : List UInt8 → ShellLifecycle → List LogEntry
  | [], _ => []
  | [byte], s => s.turnLog decode byte none (offset + 1)
  | byte :: following :: rest, s =>
    let t := s.turn decode byte (some following)
    if t.lookahead then
      s.turnLog decode byte (some following) (offset + 2) ++
        feedLog (offset + 2) rest t.next
    else
      s.turnLog decode byte (some following) (offset + 1) ++
        feedLog (offset + 1) (following :: rest) t.next

def processLog (offset : Nat) : List (List UInt8) → ShellLifecycle → List LogEntry
  | [], _ => []
  | chunk :: rest, s =>
    (if entersAlternateBuffer chunk then [.entered] else []) ++
      feedLog decode offset chunk (s.observeAlternateBuffer chunk).2 ++
      processLog (offset + chunk.length) rest (s.processChunk decode chunk).next

/-! ## The log is the run -/

variable (offset : Nat) {s : ShellLifecycle} {chunks : List (List UInt8)}
  {following : Option UInt8}

@[simp] theorem filterMap_event (events : List LifecycleEvent) :
    (events.map LogEntry.event).filterMap LogEntry.event? = events := by
  rw [filterMap_map]
  exact filterMap_some

theorem turnLog_events {byte : UInt8} {stop : Nat} :
    (s.turnLog decode byte following stop).filterMap LogEntry.event? =
      (s.turn decode byte following).events := by
  rw [turnLog, filterMap_append, filterMap_event, filterMap_map]
  exact congrArg (· ++ _) (filterMap_eq_nil_iff.mpr fun _ _ => rfl)

theorem feedLog_events {chunk : List UInt8} :
    (feedLog decode offset chunk s).filterMap LogEntry.event? =
      (feedVisible decode chunk s).events := by
  fun_induction feedLog decode offset chunk s with
  | case1 offset s => rfl
  | case2 offset byte s => exact turnLog_events decode
  | case3 offset byte following rest s t hla | case4 offset byte following rest s t hla =>
    rename_i ih
    simp [feedVisible, t, hla, ih, turnLog_events, Turn.fed, Fed.append]

theorem processLog_events : (processLog decode offset chunks s).filterMap LogEntry.event? =
      (processChunks decode chunks s).events := by
  induction chunks generalizing offset s with
  | nil => rfl
  | cons chunk rest ih =>
    rw [processLog, filterMap_append, filterMap_append, ih, feedLog_events]
    simp only [processChunks, processChunk, Fed.append, observeAlternateBuffer]
    split <;> rfl

theorem mem_feedLog {chunk body : List UInt8} {stop : Nat}
    (h : .marker stop body ∈ feedLog decode offset chunk s) :
    ∃ m ∈ feedMarkers decode offset chunk s, m.stop = stop ∧ m.body = body := by
  have hturn : ∀ {s : ShellLifecycle} {byte following end'},
      .marker stop body ∈ s.turnLog decode byte following end' →
      ∃ m ∈ (s.closed? byte following end').toList, m.stop = stop ∧ m.body = body := by
    intro s byte following end' h
    simp only [turnLog, mem_append, mem_map, mem_filter, reduceCtorEq, and_false, exists_false,
      or_false, LogEntry.marker.injEq] at h
    obtain ⟨m, ⟨hm, _⟩, heq⟩ := h
    exact ⟨m, hm, heq⟩
  fun_induction feedLog decode offset chunk s with
  | case1 offset s => cases h
  | case2 offset byte s => exact hturn h
  | case3 offset byte following rest s t hla | case4 offset byte following rest s t hla =>
    rename_i ih
    rw [feedMarkers]
    simp only [t, hla]
    rcases mem_append.mp h with h | h
    · obtain ⟨m, hm, heq⟩ := hturn h
      exact ⟨m, mem_append_left _ hm, heq⟩
    · obtain ⟨m, hm, heq⟩ := ih h
      exact ⟨m, mem_append_right _ hm, heq⟩

theorem mem_processLog {body : List UInt8} {stop : Nat}
    (h : .marker stop body ∈ processLog decode offset chunks s) :
    ∃ m ∈ processMarkers decode offset chunks s, m.stop = stop ∧ m.body = body := by
  induction chunks generalizing offset s with
  | nil => cases h
  | cons chunk rest ih =>
    rcases mem_append.mp h with h | h
    · rcases mem_append.mp h with h | h
      · split at h <;> simp at h
      obtain ⟨m, hm, heq⟩ := mem_feedLog decode offset h
      exact ⟨m, mem_append_left _ hm, heq⟩
    · obtain ⟨m, hm, heq⟩ := ih _ h
      exact ⟨m, mem_append_right _ hm, heq⟩

/-! ## Induction over a run -/

section

variable {R : List UInt8 → List LogEntry → ShellLifecycle → Prop}

section

variable (hturn : ∀ {input log s} (byte : UInt8) (following : Option UInt8), R input log s →
  ∀ taken, taken = (s.turn decode byte following).taken byte following →
  R (input ++ taken) (log ++ s.turnLog decode byte following (input ++ taken).length)
    (s.turn decode byte following).next) {offset : Nat}
include hturn

/-- Induction over the turns of one chunk. -/
theorem feed_induct (chunk : List UInt8) {input : List UInt8} {log : List LogEntry}
    (hoff : offset = input.length) (h : R input log s) :
    R (input ++ chunk) (log ++ feedLog decode offset chunk s)
      (feedVisible decode chunk s).next := by
  fun_induction feedLog decode offset chunk s generalizing input log with
  | case1 offset s => simpa [feedVisible, Fed.idle] using h
  | case2 offset byte s =>
    simpa [feedVisible, Turn.fed, hoff] using hturn byte none h [byte] (by simp [Turn.taken])
  | case3 offset byte following rest s t hla | case4 offset byte following rest s t hla =>
    rename_i ih
    have hstep := hturn byte (some following) h _ rfl
    have hrest := ih (by simp [Turn.taken, t, hla, hoff]) hstep
    simpa [feedVisible, Fed.append, Turn.taken, t, hla, hoff] using hrest

/-- **Induction over a run of the reader thread.** -/
theorem run_induct
    (hreset : ∀ {input log s}, R input log s → R input (log ++ [.entered]) s.reset)
    (chunks : List (List UInt8)) (input : List UInt8) (log : List LogEntry)
    (hoff : offset = input.length) (h : R input log s) :
    R (input ++ chunks.flatten) (log ++ processLog decode offset chunks s)
      (processChunks decode chunks s).next := by
  induction chunks generalizing offset input log s with
  | nil => simpa [processLog, processChunks, Fed.idle] using h
  | cons chunk rest ih =>
    have hobserved : R input (log ++ if entersAlternateBuffer chunk then [.entered] else [])
        (s.observeAlternateBuffer chunk).2 := by
      unfold observeAlternateBuffer
      split
      · exact hreset h
      · simpa using h
    have hfed := feed_induct decode hturn chunk hoff hobserved
    have hrest := @ih _ (offset + chunk.length) _ _ (by simp [hoff]) hfed
    simpa [processLog, processChunks, processChunk, Fed.append] using hrest

end

end

/-- **Little is held back**: at most the longest marker that is read, however the output
is cut. -/
theorem held_bounded (nonce : List UInt8) (generation : Nat) (adapterVersion : String)
    (supportsExitStatus : Bool) (chunks : List (List UInt8)) :
    (processChunks decode chunks (newWithCapabilities nonce generation adapterVersion
      supportsExitStatus)).next.held.length ≤ PREFIX.length + MAX := by
  refine (run_induct decode (R := fun _ _ s => s.OpenOnce ∧ s.held.length ≤ PREFIX.length + MAX)
    ?_ ?_ chunks [] [] rfl ⟨fun _ => rfl, Nat.zero_le _⟩).2
  · intro _ _ s byte following h _ _
    exact ⟨(turn_spec decode h.1 byte following 0).1, length_held_turn decode h.1 byte following⟩
  · exact fun _ => ⟨reset_openOnce, Nat.zero_le _⟩

variable {byte : UInt8} {stop p : Nat}

/-- What one turn can add to the log: nothing, a reset, an accepted marker that moves the
lifecycle, or one that resets it. -/
theorem turn_cases {P : List LogEntry → ShellLifecycle → Prop} {s : ShellLifecycle}
    (hquiet : ∀ next : ShellLifecycle, next.state = s.state → next.nonce = s.nonce → P [] next)
    (hreset : P [.event resetEvent] s.reset) (hmove : ∀ body state events, s.marker = some body →
      Move s.nonce s.state (splitSemicolon body) state events →
      P (.marker stop body :: events.map .event) { s with marker := none, state })
    (hprivate : ∀ body, s.marker = some body → P [.marker stop body, .event resetEvent] s.reset) :
    P (s.turnLog decode byte following stop) (s.turn decode byte following).next := by
  unfold turnLog
  cases hm : s.marker with
  | none =>
    simp only [turn, closed?, hm, Option.map_none, ite_self, Option.toList_none]
    exact hquiet _ rfl rfl
  | some body =>
    have hclose : ∀ terminator lookahead,
        P ((([(⟨stop, { s with marker := none }, body, terminator⟩ : Closed)].filter
            (·.accepted decode)).map fun m => LogEntry.marker m.stop m.body) ++
            (s.closeMarker decode body terminator lookahead).events.map .event)
          (s.closeMarker decode body terminator lookahead).next := by
      intro terminator lookahead
      rw [filter_singleton]
      refine handle_cases decode (s := { s with marker := none })
        (P := fun handled => P (((bif handled.accepted then
            [(⟨stop, { s with marker := none }, body, terminator⟩ : Closed)] else []).map fun m =>
          LogEntry.marker m.stop m.body) ++ handled.events.map .event) handled.next)
        body hreset ?_ (hprivate body hm)
      intro state events hm'
      exact hmove body state events hm hm'
    simp only [turn, closed?, hm]
    split
    · exact hclose _ _
    split
    · exact hclose _ _
    · split
      · exact hreset
      · exact hquiet _ rfl rfl

variable {body input taken chunk : List UInt8} {entry : LogEntry}
  {log back : List LogEntry} {state state' : LifecycleState}

/-! ## What the log says -/

variable {nonce : List UInt8} {events : List LifecycleEvent}

theorem kindsSinceReset_concat (h : entry.isReset = false) :
    kindsSinceReset nonce (log ++ [entry]) =
      kindsSinceReset nonce log ++ (entry.kind? nonce).toList := by
  rw [kindsSinceReset, rtakeWhile_concat, if_pos (by simp [h])]
  cases hk : entry.kind? nonce <;> simp [kindsSinceReset, hk]

/-- The markers that must have been accepted, in this order and last, for the lifecycle
to be in a state. -/
def required : LifecycleState → List (List UInt8)
  | .prompt => [promptKind]
  | .editing => [promptKind, editKind]
  | .submitted => [promptKind, editKind, submitKind]
  | .unverified | .opaqueRun | .finished => []

/-- Every event is preceded by the markers its state requires, with no reset between. -/
def Justified (nonce : List UInt8) (log : List LogEntry) : Prop :=
  ∀ front e back, log = front ++ .event e :: back →
    required e.state <:+ kindsSinceReset nonce front

theorem justified_concat (h : Justified nonce log)
    (hentry : ∀ e, entry = .event e → required e.state <:+ kindsSinceReset nonce log) :
    Justified nonce (log ++ [entry]) := by
  intro front e back heq
  rcases eq_nil_or_concat back with rfl | ⟨back, last, rfl⟩
  · obtain ⟨rfl, hlast⟩ := append_inj' heq rfl
    exact hentry e (by simpa using hlast)
  · have heq' : log ++ [entry] = (front ++ LogEntry.event e :: back) ++ [last] := by
      simpa using heq
    exact h front e back (append_inj' heq' rfl).1

/-- The state of the lifecycle and all events are backed by accepted markers. -/
structure Backed (nonce : List UInt8) (log : List LogEntry) (s : ShellLifecycle) : Prop where
  nonce_eq : s.nonce = nonce
  state : required s.state <:+ kindsSinceReset nonce log
  events : Justified nonce log

theorem Backed.reset (h : Backed nonce log s) (hentry : entry.event? = some resetEvent) :
    Backed nonce (log ++ [entry]) s.reset where
  nonce_eq := h.nonce_eq
  state := nil_suffix
  events := justified_concat h.events fun e he => by
    rw [he] at hentry
    cases hentry
    exact nil_suffix

theorem Backed.marker (h : Backed nonce log s) (stop : Nat) (body : List UInt8) :
    Justified nonce (log ++ [.marker stop body]) :=
  justified_concat h.events fun e he => by cases he

/-- A move appends its kind to the accepted markers, and requires those before it. -/
theorem Move.required (h : Move nonce state (splitSemicolon body) state' events)
    {kinds : List (List UInt8)} (hstate : required state <:+ kinds) (stop : Nat) :
    required state' <:+ kinds ++ ((LogEntry.marker stop body).kind? nonce).toList := by
  generalize hfields : splitSemicolon body = fields at h
  simp only [LogEntry.kind?, hfields]
  cases h with
  | prompt _ => simp [ShellLifecycle.required, promptKind]
  | edit hs =>
    rw [hs] at hstate
    obtain ⟨before, rfl⟩ := hstate
    exact ⟨before, by simp [ShellLifecycle.required, editKind]⟩
  | submit text command hs =>
    rw [hs] at hstate
    obtain ⟨before, rfl⟩ := hstate
    exact ⟨before, by simp [ShellLifecycle.required, submitKind]⟩
  | run _ | finish _ _ | finishWith _ _ _ => exact nil_suffix

theorem Backed.move (h : Backed nonce log s)
    (hm : Move s.nonce s.state (splitSemicolon body) state events) (stop : Nat) :
    Backed nonce (log ++ LogEntry.marker stop body :: events.map .event)
      { s with marker := none, state } := by
  rw [h.nonce_eq] at hm
  have hkinds : required state <:+ kindsSinceReset nonce (log ++ [.marker stop body]) := by
    rw [kindsSinceReset_concat rfl]
    exact hm.required h.state stop
  generalize splitSemicolon body = fields at hm
  -- a move reports the state it leads to, once or not at all, and that is no reset
  have hreports : state ≠ .unverified ∧ (events = [] ∨ ∃ e, events = [e] ∧ e.state = state) := by
    cases hm <;> simp
  obtain ⟨hne, rfl | ⟨e, rfl, rfl⟩⟩ := hreports
  · exact ⟨h.nonce_eq, hkinds, h.marker stop body⟩
  · have hlog : log ++ LogEntry.marker stop body :: [e].map .event =
        (log ++ [.marker stop body]) ++ [.event e] := by simp
    rw [hlog]
    refine ⟨h.nonce_eq, ?_, justified_concat (h.marker stop body) ?_⟩
    · rw [kindsSinceReset_concat (by simpa [LogEntry.isReset] using hne)]
      simpa [LogEntry.kind?] using hkinds
    · intro e' he'
      cases he'
      exact hkinds

theorem Backed.turn (h : Backed nonce log s) (byte : UInt8) (following : Option UInt8)
    (stop : Nat) :
    Backed nonce (log ++ s.turnLog decode byte following stop)
      (s.turn decode byte following).next := by
  refine turn_cases decode (P := fun entries next => Backed nonce (log ++ entries) next) ?_
    (h.reset rfl) ?_ ?_
  · intro next hstate hnonce
    rw [append_nil]
    exact ⟨hnonce.trans h.nonce_eq, hstate ▸ h.state, h.events⟩
  · intro body state events _ hm
    exact h.move hm stop
  · intro body _
    have hlog : log ++ [LogEntry.marker stop body, .event resetEvent] =
        (log ++ [.marker stop body]) ++ [.event resetEvent] := by simp
    rw [hlog]
    refine ⟨h.nonce_eq, nil_suffix, justified_concat (h.marker stop body) ?_⟩
    rintro e ⟨⟩
    exact nil_suffix

/-! ## Without a prompt marker -/

def Promptless (nonce : List UInt8) (log : List LogEntry) : Prop :=
  ∀ entry ∈ log, entry.promptStop? nonce = none

theorem Promptless.left {front : List LogEntry} (h : Promptless nonce (front ++ back)) :
    Promptless nonce front := fun entry hentry => h entry (mem_append_left _ hentry)

/-- Without an accepted prompt marker nothing but resets happens. -/
structure Idle (nonce : List UInt8) (log : List LogEntry) (s : ShellLifecycle) : Prop where
  nonce_eq : s.nonce = nonce
  state : Promptless nonce log → s.state = .unverified
  events : Promptless nonce log → ∀ e, .event e ∈ log → e.state = .unverified

theorem Idle.reset (h : Idle nonce log s) (front : List LogEntry)
    (hfront : ∀ e, LogEntry.event e ∉ front) (hentry : entry.event? = some resetEvent) :
    Idle nonce (log ++ (front ++ [entry])) s.reset where
  nonce_eq := h.nonce_eq
  state := fun _ => rfl
  events := by
    intro hp e he
    rcases mem_append.mp he with he | he
    · exact h.events hp.left e he
    rcases mem_append.mp he with he | he
    · exact absurd he (hfront e)
    · rw [← mem_singleton.mp he] at hentry
      cases hentry
      rfl

theorem Move.from_unverified (h : Move nonce .unverified (splitSemicolon body) state events) :
    (LogEntry.marker stop body).promptStop? nonce = some stop := by
  generalize hfields : splitSemicolon body = fields at h
  simp only [LogEntry.promptStop?, hfields]
  cases h with
  | prompt _ => simp [promptKind]
  | edit hs | submit _ _ hs | run hs | finish _ hs | finishWith _ _ hs => cases hs

theorem Idle.turn (h : Idle nonce log s) (byte : UInt8) (following : Option UInt8) (stop : Nat) :
    Idle nonce (log ++ s.turnLog decode byte following stop)
      (s.turn decode byte following).next := by
  refine turn_cases decode (P := fun entries next => Idle nonce (log ++ entries) next) ?_
    (h.reset [] (by simp) rfl) ?_ ?_
  · intro next hstate hnonce
    rw [append_nil]
    exact ⟨hnonce.trans h.nonce_eq, fun hp => hstate.trans (h.state hp), h.events⟩
  · intro body state events _ hm
    have hno : ¬ Promptless nonce (log ++ LogEntry.marker stop body :: events.map .event) := by
      intro hp
      rw [h.nonce_eq, h.state hp.left] at hm
      have hnone := hp (.marker stop body) (by simp)
      rw [hm.from_unverified] at hnone
      cases hnone
    exact ⟨h.nonce_eq, fun hp => absurd hp hno, fun hp => absurd hp hno⟩
  · intro body _
    exact h.reset [.marker stop body] (by simp) rfl

/-! ## Markers of the log are in the stream -/

theorem splitSemicolon_eq (body : List UInt8) : splitSemicolon body = body.splitOn 0x3B := by
  induction body with
  | nil => rfl
  | cons b rest ih =>
    rw [splitSemicolon, splitOn_cons_eq_if_modifyHead]
    cases h : splitOn 0x3B rest <;> simp_all

/-- Where no complete marker carries the nonce, no prompt is accepted. -/
theorem promptless (hplaced : ∀ m ∈ processMarkers decode 0 chunks s, m.At chunks.flatten)
    (hno : ¬ HoldsMarker nonce chunks.flatten) :
    Promptless nonce (processLog decode 0 chunks s) := by
  intro entry hentry
  cases entry with
  | event e | entered => rfl
  | marker stop body =>
    simp only [LogEntry.promptStop?]
    rw [if_neg]
    intro hfields
    obtain ⟨m, hm, -, rfl⟩ := mem_processLog decode 0 hentry
    have hat := hplaced m hm
    have hbody : promptKind ++ [0x3B] ++ nonce = m.body := by
      rw [← @intercalate_splitOn _ m.body _ _ 0x3B, ← splitSemicolon_eq, hfields]
      simp
    refine hno ⟨promptKind, m.terminator, by decide, by decide, hat.terminated, ?_⟩
    have hsuffix := hat.suffix
    rw [Closed.bytes, ← hbody] at hsuffix
    simpa using hsuffix.isInfix.trans (List.take_prefix m.stop _).isInfix

/-! ## Entering an alternate buffer -/

theorem enteredSince_concat {start : Nat} : EnteredSince (chunks ++ [chunk]) start ↔
      EnteredSince chunks start ∨
        start ≤ chunks.flatten.length ∧ entersAlternateBuffer chunk = true := by
  constructor
  · rintro ⟨before, chunk', after, heq, hstart, henters⟩
    rcases eq_nil_or_concat after with rfl | ⟨after, last, rfl⟩
    · obtain ⟨rfl, hlast⟩ := append_inj' heq rfl
      cases hlast
      exact .inr ⟨hstart, henters⟩
    · have heq' : chunks ++ [chunk] = (before ++ chunk' :: after) ++ [last] := by simpa using heq
      exact .inl ⟨before, chunk', after, (append_inj' heq' rfl).1, hstart, henters⟩
  · rintro (⟨before, chunk', after, rfl, hstart, henters⟩ | ⟨hstart, henters⟩)
    · exact ⟨before, chunk', after ++ [chunk], by simp, hstart, henters⟩
    · exact ⟨chunks, chunk, [], rfl, hstart, henters⟩

theorem editsLast_entered :
    EditsLast nonce (log ++ [.entered]) stop ↔ EditsLast nonce log stop := by
  simp [EditsLast, filter_append]

/-- After anything else than the start of an edit, there is no edit. -/
theorem not_editsLast (front : List LogEntry) (hentered : entry ≠ .entered)
    (hentry : entry ≠ .event { state := .editing }) :
    ¬ ∃ stop, EditsLast nonce (log ++ (front ++ [entry])) stop ∧ ¬ EnteredSince chunks stop := by
  rintro ⟨stop, ⟨body, -, before, heq⟩, -⟩
  rw [← append_assoc, filter_append, filter_singleton, decide_eq_true hentered] at heq
  have hlast := congrArg getLast? heq
  rw [getLast?_append_of_ne_nil _ (by simp), cond_true, getLast?_concat] at hlast
  exact hentry (Option.some.inj hlast).symm

/-- The lifecycle edits exactly if the last thing that the markers did was to start an edit,
and no chunk behind it was seen to enter an alternate buffer. -/
structure Watched (nonce : List UInt8) (chunks : List (List UInt8)) (input : List UInt8)
    (log : List LogEntry) (s : ShellLifecycle) : Prop where
  nonce_eq : s.nonce = nonce
  stops : ∀ stop body, .marker stop body ∈ log → stop ≤ input.length
  starts : ∀ start, EnteredSince chunks start → start ≤ input.length
  editing : s.state = .editing ↔ ∃ stop, EditsLast nonce log stop ∧ ¬ EnteredSince chunks stop

theorem Watched.advance (h : Watched nonce chunks input log s) (taken : List UInt8)
    {entries : List LogEntry} {next : ShellLifecycle} (hnonce : next.nonce = s.nonce)
    (hstops : ∀ stop body, .marker stop body ∈ entries → stop ≤ (input ++ taken).length)
    (hediting : next.state = .editing ↔
      ∃ stop, EditsLast nonce (log ++ entries) stop ∧ ¬ EnteredSince chunks stop) :
    Watched nonce chunks (input ++ taken) (log ++ entries) next where
  nonce_eq := hnonce.trans h.nonce_eq
  stops := fun stop body hmem => (mem_append.mp hmem).elim
    (fun hmem => (h.stops stop body hmem).trans (by simp)) (hstops stop body)
  starts := fun start hstart => (h.starts start hstart).trans (by simp)
  editing := hediting

theorem Watched.turn (h : Watched nonce chunks input log s) (byte : UInt8)
    (following : Option UInt8) (hlt : input.length < (input ++ taken).length) :
    Watched nonce chunks (input ++ taken)
      (log ++ s.turnLog decode byte following (input ++ taken).length)
      (s.turn decode byte following).next := by
  refine turn_cases decode (P := fun entries next =>
    Watched nonce chunks (input ++ taken) (log ++ entries) next) ?_ ?_ ?_ ?_
  · intro next hstate hnonce
    exact h.advance taken hnonce (by simp) (by rw [hstate, append_nil]; exact h.editing)
  · exact h.advance taken rfl (by simp)
      (iff_of_false (by simp [reset]) (not_editsLast [] (by simp) (by simp [resetEvent])))
  · intro body state events _ hmove
    refine h.advance taken rfl (by simp) ?_
    rw [h.nonce_eq] at hmove
    generalize hfields : splitSemicolon body = fields at hmove
    cases hmove with
    | edit _ =>
      refine iff_of_true rfl ⟨(input ++ taken).length,
        ⟨body, hfields, log.filter (· ≠ .entered), ?_⟩, ?_⟩
      · simp
      · exact fun hentered => absurd (h.starts _ hentered) (by omega)
    | prompt _ => exact iff_of_false (by simp) (not_editsLast [] (by simp) (by simp))
    | submit _ _ _ | run _ | finish _ _ | finishWith _ _ _ =>
      exact iff_of_false (by simp) (not_editsLast [_] (by simp) (by simp))
  · intro body _
    exact h.advance taken rfl (by simp)
      (iff_of_false (by simp [reset]) (not_editsLast [_] (by simp) (by simp [resetEvent])))

/-- The start of a chunk: one that enters an alternate buffer ends every edit before it. -/
theorem Watched.observe (h : Watched nonce chunks input log s) (hin : input = chunks.flatten)
    (chunk : List UInt8) :
    Watched nonce (chunks ++ [chunk]) input
      (log ++ if entersAlternateBuffer chunk then [.entered] else [])
      (s.observeAlternateBuffer chunk).2 := by
  have hstarts : ∀ start, EnteredSince (chunks ++ [chunk]) start → start ≤ input.length := by
    intro start hstart
    rcases enteredSince_concat.mp hstart with hstart | hstart
    · exact h.starts start hstart
    · exact hin ▸ hstart.1
  unfold observeAlternateBuffer
  split
  next henters =>
    refine ⟨h.nonce_eq, by simpa using h.stops, hstarts, iff_of_false (by simp [reset]) ?_⟩
    rintro ⟨stop, hedits, hnot⟩
    obtain ⟨body, -, hsuffix⟩ := editsLast_entered.mp hedits
    have hstop := h.stops stop body (mem_of_mem_filter (hsuffix.subset mem_cons_self))
    exact hnot (enteredSince_concat.mpr (.inr ⟨hin ▸ hstop, henters⟩))
  next hno =>
    refine ⟨h.nonce_eq, by simpa using h.stops, hstarts, ?_⟩
    simpa [enteredSince_concat, hno] using h.editing

theorem Watched.run {front : List (List UInt8)} (h : Watched nonce front input log s)
    (hin : input = front.flatten) (chunks : List (List UInt8)) :
    Watched nonce (front ++ chunks) (input ++ chunks.flatten)
      (log ++ processLog decode input.length chunks s) (processChunks decode chunks s).next := by
  induction chunks generalizing front input log s with
  | nil => simpa [processLog, processChunks, Fed.idle] using h
  | cons chunk rest ih =>
    have hfed := feed_induct decode (R := Watched nonce (front ++ [chunk]))
      (fun byte following h taken htaken =>
        h.turn decode byte following (by simp [htaken, Turn.taken])) chunk rfl (h.observe hin chunk)
    have hrest := ih hfed (by simp [hin])
    simpa [processLog, processChunks, processChunk, Fed.append] using hrest

/-! ## The trust in an edit line -/

/-- **Trust in an edit line.** Whatever the stream, its chunks and the nonce: without a
complete marker that carries the nonce nothing but resets happens, and every `Submitted`
is preceded by accepted prompt, edit and submit markers that carry it, with no reset
between. An alternate buffer entered behind the last accepted prompt ends the edit exactly
if, wherever the last thing the markers did was to start an edit, some chunk that starts
behind the edit marker contains a whole entry sequence. -/
theorem trust_exact (nonce : List UInt8) (generation : Nat) (adapterVersion : String)
    (supportsExitStatus : Bool) (chunks : List (List UInt8)) :
    let s := newWithCapabilities nonce generation adapterVersion supportsExitStatus
    let fed := processChunks decode chunks s
    let log := processLog decode 0 chunks s
    log.filterMap LogEntry.event? = fed.events ∧
    (¬ HoldsMarker nonce chunks.flatten →
      fed.next.state = .unverified ∧ ∀ e ∈ fed.events, e.state = .unverified) ∧
    (∀ front e back, log = front ++ .event e :: back → e.state = .submitted →
      [promptKind, editKind, submitKind] <:+ kindsSinceReset nonce front) ∧
    ((∀ p, EntersAt chunks.flatten p → lastPrompt nonce log ≤ p → fed.next.isEditing = false) ↔
      ∀ p, EntersAt chunks.flatten p → lastPrompt nonce log ≤ p →
        ∀ stop, EditsLast nonce log stop → EnteredSince chunks stop) := by
  intro s fed log
  have hevents : log.filterMap LogEntry.event? = fed.events := processLog_events decode 0
  have hlog : Idle nonce log fed.next := run_induct decode (R := fun _ log s => Idle nonce log s)
    (fun byte following h _ _ => h.turn decode byte following _)
    (fun h => h.reset [] (by simp) rfl) chunks [] [] rfl ⟨rfl, fun _ => rfl, by simp⟩
  have hbacked : Backed nonce log fed.next :=
    run_induct decode (R := fun _ log s => Backed nonce log s)
      (fun byte following h _ _ => h.turn decode byte following _) (fun h => h.reset rfl) chunks
      [] [] rfl ⟨rfl, nil_suffix, by simp [Justified]⟩
  have hwatched : Watched nonce chunks chunks.flatten log fed.next := by
    have hstart : Watched nonce [] [] [] s :=
      ⟨rfl, by simp, by simp [EnteredSince], iff_of_false (by simp [s, newWithCapabilities])
        (by simp [EditsLast])⟩
    simpa using hstart.run decode rfl chunks
  refine ⟨hevents, ?_, ?_, ?_⟩
  · intro hno
    have hpromptless : Promptless nonce log := by
      obtain ⟨_, haccounts, _⟩ := accounts_run decode (s := s) ⟨rfl, rfl⟩ chunks
      exact promptless decode haccounts.placed hno
    refine ⟨hlog.state hpromptless, ?_⟩
    intro e he
    rw [← hevents] at he
    obtain ⟨entry, hentry, heq⟩ := mem_filterMap.mp he
    cases entry with
    | marker stop body => cases heq
    | event e' =>
      cases heq
      exact hlog.events hpromptless e hentry
    | entered =>
      cases heq
      rfl
  · intro front e back heq hstate
    have hrequired := hbacked.events front e back heq
    rwa [hstate] at hrequired
  · have hediting : fed.next.isEditing = false ↔
        ∀ stop, EditsLast nonce log stop → EnteredSince chunks stop := by
      rw [isEditing, beq_eq_false_iff_ne, Ne, hwatched.editing]
      push Not
      rfl
    rw [hediting]

end

def sampleEdit : List UInt8 :=
  PREFIX ++ [0x41, 0x3B, 0x6E, BEL] ++ PREFIX ++ [0x42, 0x3B, 0x6E, BEL]

/-- The lifecycle still edits after a stream that enters an alternate buffer behind the
last prompt. -/
def Overlooks (chunks : List (List UInt8)) (p : Nat) : Prop :=
  EntersAt chunks.flatten p ∧
    lastPrompt [0x6E] (processLog (fun _ => none) 0 chunks (new [0x6E] 0)) ≤ p ∧
    (processChunks (fun _ => none) chunks (new [0x6E] 0)).next.isEditing = true

instance (chunks : List (List UInt8)) (p : Nat) : Decidable (Overlooks chunks p) :=
  inferInstanceAs (Decidable (_ ∧ _ ∧ _))

/-- A boundary in the middle of the sequence hides it, and so does a prompt before it in
the same chunk. -/
theorem alternate_buffer_overlooked :
    Overlooks [sampleEdit, ALT_BUFFER_ENTER.take 5, ALT_BUFFER_ENTER.drop 5] 20 ∧
      Overlooks [sampleEdit ++ ALT_BUFFER_ENTER] 20 := by
  decide +kernel

end ShellLifecycle

end DamHopper.Pty
