import Mathlib.Algebra.Ring.Int.Defs
import Mathlib.Data.List.Infix

/-!
# ShellLifecycle — the OSC 633 filter of the PTY reader

Model of `server/src/pty/shell_lifecycle.rs`: a byte-at-a-time observer that
looks for private `ESC ] 633 ; … BEL` markers in a terminal's output, holds
back what may still become one, deletes the markers it accepts and re-emits
everything else; and of the two calls `process_chunk` of
`server/src/pty/manager.rs` makes for each chunk it reads.

Strings are their UTF-8 bytes: `handle` checks the marker with `from_utf8`
and then only splits at the ASCII `;` and compares, so the byte level loses
nothing. The base64 decoder is a crate the repository does not contain and
stays a parameter. `std` is modelled where the filter uses it: `validUtf8`
(`str::from_utf8`), `splitSemicolon` (`str::split`), `parseI32`.
-/

namespace DamHopper.Pty

/-! ## The pieces of `std` -/

private def within (b lo hi : UInt8) : Bool := lo ≤ b && b ≤ hi

/-- `str::from_utf8(bytes).is_ok()`: well-formed UTF-8, without overlong
forms, surrogates or scalars above `10FFFF`. -/
def validUtf8 : List UInt8 → Bool
  | [] => true
  | [a] => a < 0x80
  | a :: b :: rest =>
    if a < 0x80 then validUtf8 (b :: rest)
    else if within a 0xC2 0xDF then within b 0x80 0xBF && validUtf8 rest
    else match rest with
      | [] => false
      | c :: rest' =>
        if within a 0xE0 0xEF then
          within b (if a == 0xE0 then 0xA0 else 0x80)
              (if a == 0xED then 0x9F else 0xBF) &&
            within c 0x80 0xBF && validUtf8 rest'
        else match rest' with
          | [] => false
          | d :: rest'' =>
            within a 0xF0 0xF4 &&
              within b (if a == 0xF0 then 0x90 else 0x80)
                (if a == 0xF4 then 0x8F else 0xBF) &&
              within c 0x80 0xBF && within d 0x80 0xBF && validUtf8 rest''

/-- `str::split(';')`: always at least one part. -/
def splitSemicolon : List UInt8 → List (List UInt8)
  | [] => [[]]
  | b :: rest =>
    if b == 0x3B then [] :: splitSemicolon rest
    else match splitSemicolon rest with
      | [] => [[b]]
      | part :: parts => (b :: part) :: parts

def parseDigits : Nat → List UInt8 → Option Nat
  | acc, [] => some acc
  | acc, b :: rest =>
    if within b 0x30 0x39 then parseDigits (10 * acc + (b.toNat - 0x30)) rest
    else none

/-- `str::parse::<i32>().ok()`: an optional sign, at least one digit, in
range. -/
def parseI32 (value : List UInt8) : Option Int :=
  let unsigned (sign : Int) : List UInt8 → Option Int
    | [] => none
    | digits => (parseDigits 0 digits).map (fun n => sign * n)
  let number := match value with
    | 0x2B :: digits => unsigned 1 digits
    | 0x2D :: digits => unsigned (-1) digits
    | digits => unsigned 1 digits
  number.filter fun n => -2 ^ 31 ≤ n && n < 2 ^ 31

/-! ## The filter -/

def PREFIX : List UInt8 := [0x1B, 0x5D, 0x36, 0x33, 0x33, 0x3B]

/-- The longest marker body that is held back. -/
def MAX : Nat := 8 * 1024

def MAX_EXIT_STATUS : Int := 255

def ALT_BUFFER_ENTER : List UInt8 :=
  [0x1B, 0x5B, 0x3F, 0x31, 0x30, 0x34, 0x39, 0x68]

def BEL : UInt8 := 0x07

def ESC : UInt8 := 0x1B

/-- `\`, the second byte of the two-byte terminator `ESC \`. -/
def BACKSLASH : UInt8 := 0x5C

/-- `opaqueRun` is the source's `Opaque`: a command is running and its output
is not interpreted. -/
inductive LifecycleState where
  | unverified | prompt | editing | submitted | opaqueRun | finished
  deriving Repr, DecidableEq

structure LifecycleEvent where
  state : LifecycleState
  command : Option (List UInt8) := none
  exitCode : Option Int := none
  deriving Repr, DecidableEq

structure ShellLifecycle where
  nonce : List UInt8
  generation : Nat
  adapterVersion : String
  supportsExitStatus : Bool
  state : LifecycleState
  /-- The body of an open marker, without `PREFIX`. -/
  marker : Option (List UInt8)
  pendingPrefix : List UInt8
  deriving Repr, DecidableEq

def parseExitStatus (value : List UInt8) : Option Int :=
  (parseI32 value).filter fun status =>
    -MAX_EXIT_STATUS ≤ status && status ≤ MAX_EXIT_STATUS

namespace ShellLifecycle

def newWithCapabilities (nonce : List UInt8) (generation : Nat)
    (adapterVersion : String) (supportsExitStatus : Bool) : ShellLifecycle :=
  { nonce, generation, adapterVersion, supportsExitStatus,
    state := .unverified, marker := none, pendingPrefix := [] }

def new (nonce : List UInt8) (generation : Nat) : ShellLifecycle :=
  newWithCapabilities nonce generation "unknown" false

def isEditing (s : ShellLifecycle) : Bool := s.state == .editing

/-- `reset` drops whatever is held back; the event it returns is always
`resetEvent`. -/
def reset (s : ShellLifecycle) : ShellLifecycle :=
  { s with marker := none, pendingPrefix := [], state := .unverified }

def resetEvent : LifecycleEvent := { state := .unverified }

def valid (s : ShellLifecycle) (candidate : Option (List UInt8)) : Bool :=
  match candidate with
  | some value => s.nonce == value
  | none => false

structure Handled where
  accepted : Bool
  events : List LifecycleEvent
  next : ShellLifecycle
  deriving Repr, DecidableEq

/-- Every rejection: `(false, vec![self.reset()])`. -/
def reject (s : ShellLifecycle) : Handled :=
  { accepted := false, events := [resetEvent], next := s.reset }

def accept (s : ShellLifecycle) (state : LifecycleState)
    (events : List LifecycleEvent) : Handled :=
  { accepted := true, events, next := { s with state } }

section

-- `URL_SAFE_NO_PAD.decode(value).ok()` of the `base64` crate
variable (decode : List UInt8 → Option (List UInt8))

def handle (s : ShellLifecycle) (marker : List UInt8) : Handled :=
  if !validUtf8 marker then s.reject
  else
    let parts := splitSemicolon marker
    let kind := parts.headD []
    let parts := parts.tail
    -- a guard that fails falls through to the last arm: no other arm has its kind
    if kind == [0x41] then -- A
      if s.valid parts[0]? && parts[1]?.isNone &&
          (s.state == .unverified || s.state == .finished) then
        s.accept .prompt []
      else s.reject
    else if kind == [0x42] then -- B
      if s.valid parts[0]? && parts[1]?.isNone && s.state == .prompt then
        s.accept .editing [{ state := .editing }]
      else s.reject
    else if kind == [0x45] then -- E
      if s.state == .editing then
        let command := ((parts[0]?).bind decode).filter validUtf8
        if command.any (fun value => value.length ≤ MAX) &&
            s.valid parts[1]? && parts[2]?.isNone then
          s.accept .submitted [{ state := .submitted, command }]
        else s.reject
      else s.reject
    else if kind == [0x43] then -- C
      if s.valid parts[0]? && parts[1]?.isNone && s.state == .submitted then
        s.accept .opaqueRun [{ state := .opaqueRun }]
      else s.reject
    else if kind == [0x44] then -- D
      match parts with
      | [nonce] => finish none nonce false
      | [status, nonce] => finish (parseExitStatus status) nonce true
      | _ => s.reject
    else s.reject
where
  /-- The tail of the `D` arm, after the fields have been told apart. -/
  finish (exitCode : Option Int) (nonce : List UInt8) (withStatus : Bool) : Handled :=
    if !s.valid (some nonce) ||
        (withStatus && (!s.supportsExitStatus || exitCode.isNone)) then s.reject
    else if !(s.state == .prompt || s.state == .editing || s.state == .submitted ||
        s.state == .opaqueRun) then s.reject
    else if s.state != .opaqueRun then
      -- an abandoned edit: a private reset, the marker is not replayed
      { accepted := true, events := [resetEvent], next := s.reset }
    else s.accept .finished [{ state := .finished, exitCode }]

/-- The markers that move the lifecycle, by their fields, and what they report. Each
has the nonce in its last field. -/
inductive Move (nonce : List UInt8) (state : LifecycleState) :
    List (List UInt8) → LifecycleState → List LifecycleEvent → Prop
  | prompt : state = .unverified ∨ state = .finished →
      Move nonce state [[0x41], nonce] .prompt []
  | edit : state = .prompt →
      Move nonce state [[0x42], nonce] .editing [{ state := .editing }]
  | submit (text : List UInt8) (command : Option (List UInt8)) : state = .editing →
      Move nonce state [[0x45], text, nonce] .submitted [{ state := .submitted, command }]
  | run : state = .submitted →
      Move nonce state [[0x43], nonce] .opaqueRun [{ state := .opaqueRun }]
  | finish (exitCode : Option Int) : state = .opaqueRun →
      Move nonce state [[0x44], nonce] .finished [{ state := .finished, exitCode }]
  | finishWith (status : List UInt8) (exitCode : Option Int) : state = .opaqueRun →
      Move nonce state [[0x44], status, nonce] .finished [{ state := .finished, exitCode }]

variable {s : ShellLifecycle} {parts : List (List UInt8)} {kind : List UInt8} {P : Handled → Prop}
  {byte : UInt8}

/-- The nonce is the only field behind the kind. -/
theorem fields_of_valid (hkind : (parts.headD [] == kind) = true)
    (hvalid : (s.valid parts.tail[0]? && parts.tail[1]?.isNone) = true) :
    parts = [kind, s.nonce] := by
  match parts with
  | [first, second] =>
    simp only [valid, List.tail_cons, List.getElem?_cons_zero, Bool.and_eq_true,
      beq_iff_eq, List.headD_cons] at hvalid hkind
    rw [hkind, hvalid.1]
  | _ :: _ :: _ :: _ => simp at hvalid

/-- The nonce is the second of two fields behind the kind. -/
theorem fields_of_valid_second (hkind : (parts.headD [] == kind) = true)
    (hvalid : (s.valid parts.tail[1]? && parts.tail[2]?.isNone) = true) :
    ∃ text, parts = [kind, text, s.nonce] := by
  match parts with
  | [first, second, third] =>
    simp only [valid, List.tail_cons, List.getElem?_cons_succ, List.getElem?_cons_zero,
      Bool.and_eq_true, beq_iff_eq, List.headD_cons] at hvalid hkind
    exact ⟨second, by rw [hkind, hvalid.1]⟩
  | _ :: _ :: _ :: _ :: _ => simp at hvalid

/-- What the tail of the `D` arm can answer. -/
theorem finish_cases (hreject : P s.reject)
    (hreset : P { accepted := true, events := [resetEvent], next := s.reset })
    {nonce : List UInt8} {exitCode : Option Int} {withStatus : Bool}
    (hmove : s.nonce = nonce → s.state = .opaqueRun →
      P (s.accept .finished [{ state := .finished, exitCode }])) :
    P (handle.finish s exitCode nonce withStatus) := by
  unfold handle.finish
  split
  · exact hreject
  rename_i hvalid
  split
  · exact hreject
  split_ifs with hrun
  · exact hreset
  refine hmove ?_ (by simpa using hrun)
  by_contra hne
  simp [valid, hne] at hvalid

/-- Everything `handle` can answer: a rejection, a move to another state, or
the private reset of an abandoned edit. -/
theorem handle_cases (marker : List UInt8) (hreject : P s.reject) (hmove : ∀ state events,
      Move s.nonce s.state (splitSemicolon marker) state events →
      P (s.accept state events))
    (hreset : P { accepted := true, events := [resetEvent], next := s.reset }) :
    P (s.handle decode marker) := by
  have harm : ∀ (c : Prop) [Decidable c] (state : LifecycleState) (events : List LifecycleEvent),
      (c → Move s.nonce s.state (splitSemicolon marker) state events) →
      P (if c then s.accept state events else s.reject) := by
    intro c _ state events hc
    split_ifs with h
    · exact hmove state events (hc h)
    · exact hreject
  unfold handle
  split
  · exact hreject
  simp only
  split
  next hkind =>
    refine harm _ _ _ fun h => ?_
    obtain ⟨hvalid, hstate⟩ := (Bool.and_eq_true _ _).mp h
    rw [fields_of_valid hkind hvalid]
    exact .prompt (by simpa using hstate)
  split
  next hkind =>
    refine harm _ _ _ fun h => ?_
    obtain ⟨hvalid, hstate⟩ := (Bool.and_eq_true _ _).mp h
    rw [fields_of_valid hkind hvalid]
    exact .edit (by simpa using hstate)
  split
  next hkind =>
    split
    next hstate =>
      refine harm _ _ _ fun h => ?_
      rw [Bool.and_assoc] at h
      obtain ⟨text, htext⟩ :=
        fields_of_valid_second hkind ((Bool.and_eq_true _ _).mp h).2
      rw [htext]
      exact .submit text _ (by simpa using hstate)
    · exact hreject
  · split
    next hkind =>
      refine harm _ _ _ fun h => ?_
      obtain ⟨hvalid, hstate⟩ := (Bool.and_eq_true _ _).mp h
      rw [fields_of_valid hkind hvalid]
      exact .run (by simpa using hstate)
    · split_ifs with hkind
      · have hparts : splitSemicolon marker = [0x44] :: (splitSemicolon marker).tail := by
          cases hs : splitSemicolon marker with
          | nil => simp [hs] at hkind
          | cons first rest => simpa [hs] using hkind
        split
        next nonce htail =>
          refine finish_cases hreject hreset fun hnonce hstate => ?_
          refine hmove _ _ ?_
          rw [hparts, htail, ← hnonce]
          exact .finish none hstate
        next status nonce htail =>
          refine finish_cases hreject hreset fun hnonce hstate => ?_
          refine hmove _ _ ?_
          rw [hparts, htail, ← hnonce]
          exact .finishWith status _ hstate
        · exact hreject
      · exact hreject

structure Turn where
  visible : List UInt8
  events : List LifecycleEvent
  next : ShellLifecycle
  /-- Input bytes taken beyond the first. -/
  lookahead : Bool
  deriving Repr, DecidableEq

/-- The inner `loop` over `pending_prefix`: give up bytes from the front until
what is left could still become `PREFIX`. Returns the bytes given up, what
stays pending, and whether a marker opened. -/
def settlePending : List UInt8 → List UInt8 × List UInt8 × Bool
  | [] => ([], [], false)
  | b :: rest =>
    if (b :: rest).isPrefixOf PREFIX then
      if (b :: rest).length == PREFIX.length then ([], [], true)
      else ([], b :: rest, false)
    else
      let (given, pending, opened) := settlePending rest
      (b :: given, pending, opened)

/-- A terminator was read: `handle` the marker and re-emit it if rejected. -/
def closeMarker (s : ShellLifecycle) (marker terminator : List UInt8)
    (lookahead : Bool) : Turn :=
  let handled := { s with marker := none }.handle decode marker
  { visible := if handled.accepted then [] else PREFIX ++ marker ++ terminator
    events := handled.events
    next := handled.next
    lookahead }

/-- The body of `while index < input.len()`: `byte` is `input[index]` and
`following` is `input.get(index + 1)`. -/
def turn (s : ShellLifecycle) (byte : UInt8) (following : Option UInt8) : Turn :=
  match s.marker with
  | some marker =>
    if byte == BEL then s.closeMarker decode marker [BEL] false
    else if byte == ESC && following == some BACKSLASH then
      s.closeMarker decode marker [ESC, BACKSLASH] true
    else
      let marker := marker ++ [byte]
      if marker.length > MAX then
        { visible := PREFIX ++ marker, events := [resetEvent], next := s.reset,
          lookahead := false }
      else
        { visible := [], events := [], next := { s with marker := some marker },
          lookahead := false }
  | none =>
    let (given, pending, opened) := settlePending (s.pendingPrefix ++ [byte])
    { visible := given
      events := []
      next := { s with
        marker := if opened then some [] else none, pendingPrefix := pending }
      lookahead := false }

/-- Only the second byte of a two-byte terminator is looked ahead at. -/
theorem turn_lookahead {following : Option UInt8}
    (h : (s.turn decode byte following).lookahead = true) :
    following = some BACKSLASH := by
  unfold ShellLifecycle.turn at h
  split at h
  · split at h
    · cases h
    · split_ifs at h with hst
      · simp only [Bool.and_eq_true, beq_iff_eq] at hst
        exact hst.2
      · simp only at h
        split at h <;> cases h
  · cases h

theorem turn_none_lookahead : (s.turn decode byte none).lookahead = false := by
  by_contra hne
  cases turn_lookahead decode (by simpa using hne)

structure Fed where
  visible : List UInt8
  events : List LifecycleEvent
  next : ShellLifecycle
  deriving Repr, DecidableEq

def Fed.append (a b : Fed) : Fed :=
  { visible := a.visible ++ b.visible
    events := a.events ++ b.events
    next := b.next }

def Fed.idle (s : ShellLifecycle) : Fed :=
  { visible := [], events := [], next := s }

def Turn.fed (t : Turn) : Fed := { visible := t.visible, events := t.events, next := t.next }

def feedVisible : List UInt8 → ShellLifecycle → Fed
  | [], s => .idle s
  | [byte], s => (s.turn decode byte none).fed
  | byte :: following :: rest, s =>
    let t := s.turn decode byte (some following)
    if t.lookahead then
      t.fed.append (feedVisible rest t.next)
    else t.fed.append (feedVisible (following :: rest) t.next)

def feedChunks : List (List UInt8) → ShellLifecycle → Fed
  | [], s => .idle s
  | chunk :: rest, s =>
    let fed := feedVisible decode chunk s
    fed.append (feedChunks rest fed.next)

/-- `input.windows(n).any(|window| window == ALT_BUFFER_ENTER)` -/
def entersAlternateBuffer (input : List UInt8) : Bool :=
  input.tails.any fun window => ALT_BUFFER_ENTER.isPrefixOf window

/-- Alternate buffers are TUI territory, never a trustworthy shell edit line. -/
def observeAlternateBuffer (s : ShellLifecycle) (input : List UInt8) :
    Option LifecycleEvent × ShellLifecycle :=
  if entersAlternateBuffer input then (some resetEvent, s.reset) else (none, s)

/-- The lifecycle part of `process_chunk` in the reader thread. -/
def processChunk (s : ShellLifecycle) (chunk : List UInt8) : Fed :=
  let (event, s) := s.observeAlternateBuffer chunk
  let fed := feedVisible decode chunk s
  { fed with events := event.toList ++ fed.events }

def processChunks : List (List UInt8) → ShellLifecycle → Fed
  | [], s => .idle s
  | chunk :: rest, s =>
    let fed := s.processChunk decode chunk
    fed.append (processChunks rest fed.next)

end

end ShellLifecycle

end DamHopper.Pty
