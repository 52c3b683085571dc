import DamHopper.Lib.Spans
import DamHopper.Pty.ShellLifecycle

/-!
# ShellTransparency — no byte of PTY output gets lost in the filter

The reader thread hands each chunk to `observe_alternate_buffer` and then to
`feed_visible`. What the terminal must see is the stream with the accepted
markers deleted (`deleteSpans`), a held-back end aside. Which markers these are
is decided outside the filter's output: `processMarkers` lists every complete
marker with the lifecycle it meets, and `handle` of that lifecycle decides.

The account is kept in a `Ledger`: on the part of the stream that is settled the
visible output is the stream minus the accepted markers, up to the bytes a reset
has thrown away. One turn of the loop settles bytes without losing any
(`turn_spec`); the reset on entering an alternate buffer may lose some.
-/

namespace DamHopper.Pty

open List

namespace ShellLifecycle

/-- The bytes held back: an open marker with its `PREFIX`, or what may
become one. -/
def held (s : ShellLifecycle) : List UInt8 :=
  match s.marker with
  | some marker => PREFIX ++ marker
  | none => s.pendingPrefix

/-- While a marker is open no bytes of a next `PREFIX` are pending. -/
def OpenOnce (s : ShellLifecycle) : Prop :=
  s.marker.isSome → s.pendingPrefix = []

/-- A complete marker: the offset behind it, the lifecycle whose `handle` gets it, and its
bytes between `PREFIX` and the terminator. -/
structure Closed where
  stop : Nat
  state : ShellLifecycle
  body : List UInt8
  terminator : List UInt8
  deriving Repr, DecidableEq

namespace Closed

def bytes (m : Closed) : List UInt8 := PREFIX ++ m.body ++ m.terminator

def span (m : Closed) : Nat × Nat := (m.stop - m.bytes.length, m.bytes.length)

/-- The marker stands in the stream. -/
structure At (m : Closed) (stream : List UInt8) : Prop where
  terminated : m.terminator = [BEL] ∨ m.terminator = [ESC, BACKSLASH]
  suffix : m.bytes <:+ stream.take m.stop
  within : m.stop ≤ stream.length

theorem At.append {m : Closed} {stream : List UInt8} (h : m.At stream) (more : List UInt8) :
    m.At (stream ++ more) where
  terminated := h.terminated
  suffix := by
    rw [take_append_of_le_length h.within]
    exact h.suffix
  within := by
    rw [length_append]
    exact Nat.le_add_right_of_le h.within

end Closed

/-- The marker that a turn closes; the turn ends at offset `stop`. -/
def closed? (s : ShellLifecycle) (byte : UInt8) (following : Option UInt8) (stop : Nat) :
    Option Closed :=
  let close (terminator body : List UInt8) : Closed :=
    { stop, state := { s with marker := none }, body, terminator }
  if byte == BEL then s.marker.map (close [BEL])
  else if byte == ESC && following == some BACKSLASH then s.marker.map (close [ESC, BACKSLASH])
  else none

section

variable (decode : List UInt8 → Option (List UInt8))

def Closed.accepted (m : Closed) : Bool := (m.state.handle decode m.body).accepted

/-- The complete markers that `feedVisible` meets; the first byte is at `offset`. -/
def feedMarkers (offset : Nat) : List UInt8 → ShellLifecycle → List Closed
  | [], _ => []
  | [byte], s => (s.closed? byte none (offset + 1)).toList
  | byte :: following :: rest, s =>
    let t := s.turn decode byte (some following)
    if t.lookahead then
      (s.closed? byte (some following) (offset + 2)).toList ++
        feedMarkers (offset + 2) rest t.next
    else
      (s.closed? byte (some following) (offset + 1)).toList ++
        feedMarkers (offset + 1) (following :: rest) t.next

/-- The complete markers that `processChunks` meets. -/
def processMarkers (offset : Nat) : List (List UInt8) → ShellLifecycle → List Closed
  | [], _ => []
  | chunk :: rest, s =>
    feedMarkers decode offset chunk (s.observeAlternateBuffer chunk).2 ++
      processMarkers (offset + chunk.length) rest (s.processChunk decode chunk).next

/-- Where the markers stand that `handle` accepts. -/
def acceptedSpans (markers : List Closed) : List (Nat × Nat) :=
  (markers.filter (·.accepted decode)).map Closed.span

/-- Every chunk that enters an alternate buffer arrives while nothing is
held back. -/
def EntersQuietly : List (List UInt8) → ShellLifecycle → Prop
  | [], _ => True
  | chunk :: rest, s =>
    (entersAlternateBuffer chunk = true → s.held = []) ∧
      EntersQuietly rest (s.processChunk decode chunk).next

end

/-! ## One turn -/

variable {s : ShellLifecycle}

@[simp] theorem reset_held : s.reset.held = [] := rfl

theorem reset_openOnce : s.reset.OpenOnce := fun _ => rfl

theorem held_of_marker {marker : List UInt8} (h : s.marker = some marker) :
    s.held = PREFIX ++ marker := by
  simp [held, h]

theorem held_of_none (h : s.marker = none) : s.held = s.pendingPrefix := by
  simp [held, h]

/-- The inner loop only moves bytes from the front. -/
theorem settlePending_eq (bytes : List UInt8) : bytes = (settlePending bytes).1 ++
      (if (settlePending bytes).2.2 then PREFIX else (settlePending bytes).2.1) := by
  induction bytes with
  | nil => rfl
  | cons b rest ih =>
    simp only [settlePending]
    split
    next hpre =>
      split
      next hlen =>
        have hpre' : (b :: rest) <+: PREFIX := isPrefixOf_iff_prefix.mp hpre
        simpa using hpre'.eq_of_length (by simpa using hlen)
      · rfl
    · simpa using ih

theorem settlePending_opened {bytes : List UInt8} (h : (settlePending bytes).2.2 = true) :
    (settlePending bytes).2.1 = [] := by
  induction bytes with
  | nil => rfl
  | cons b rest ih =>
    simp only [settlePending] at h ⊢
    split at h
    next hpre =>
      split at h
      next hlen => rw [if_pos hpre, if_pos hlen]
      · cases h
    next hpre =>
      rw [if_neg hpre]
      exact ih h

theorem settlePending_pending (bytes : List UInt8) : (settlePending bytes).2.1 <+: PREFIX := by
  induction bytes with
  | nil => exact nil_prefix
  | cons b rest ih =>
    simp only [settlePending]
    split_ifs with hpre
    · exact nil_prefix
    · exact isPrefixOf_iff_prefix.mp hpre
    · exact ih

/-- Nothing is held back: no open marker and no pending bytes. -/
def Clear (s : ShellLifecycle) : Prop := s.marker = none ∧ s.pendingPrefix = []

theorem Clear.held (h : s.Clear) : s.held = [] := by
  rw [held_of_none h.1, h.2]

theorem Clear.openOnce (h : s.Clear) : s.OpenOnce := fun _ => h.2

section

variable (decode : List UInt8 → Option (List UInt8))
  {s : ShellLifecycle}

def Turn.taken (t : Turn) (byte : UInt8) (following : Option UInt8) : List UInt8 :=
  byte :: if t.lookahead then following.toList else []

/-- A turn settles the held bytes and the bytes it takes: they become
visible or stay held, in order, or they are a complete marker that is accepted, and the
turn deletes it. -/
inductive Settles (t : Turn) (closed : Option Closed) (bytes : List UInt8) : Prop
  | keep : (∀ m ∈ closed, m.bytes = bytes ∧ m.accepted decode = false) →
      bytes = t.visible ++ t.next.held → Settles t closed bytes
  | delete (m : Closed) : closed = some m → m.bytes = bytes → m.accepted decode = true →
      t.visible = [] → t.next.Clear → Settles t closed bytes

theorem Settles.bytes_eq {t : Turn} {closed : Option Closed} {bytes : List UInt8}
    (h : Settles decode t closed bytes) : ∀ m ∈ closed, m.bytes = bytes := by
  cases h with
  | keep hclosed _ => exact fun m hm => (hclosed m hm).1
  | delete m hclosed hbytes _ _ _ =>
    rw [hclosed]
    rintro m' ⟨⟩
    exact hbytes

/-- A turn that closes a marker takes its terminator. -/
theorem closed?_eq_some {byte : UInt8} {following : Option UInt8} {stop : Nat} {m : Closed}
    (h : s.closed? byte following stop = some m) :
    s.marker = some m.body ∧ m.stop = stop ∧
      (m.terminator = [BEL] ∨ m.terminator = [ESC, BACKSLASH]) := by
  unfold closed? at h
  simp only at h
  split_ifs at h <;> obtain ⟨body, hbody, rfl⟩ := Option.map_eq_some_iff.mp h <;>
    exact ⟨hbody, rfl, by simp⟩

theorem closeMarker_clear (hp : s.pendingPrefix = []) (marker terminator : List UInt8)
    (lookahead : Bool) :
    (s.closeMarker decode marker terminator lookahead).next.Clear :=
  handle_cases decode (s := { s with marker := none }) (P := fun handled => handled.next.Clear)
    marker ⟨rfl, rfl⟩ (fun _ _ _ => ⟨rfl, hp⟩) ⟨rfl, rfl⟩

theorem closeMarker_spec {marker terminator : List UInt8} (hp : s.pendingPrefix = [])
    {lookahead : Bool} {stop : Nat} :
    Settles decode (s.closeMarker decode marker terminator lookahead)
      (some ⟨stop, { s with marker := none }, marker, terminator⟩)
      (PREFIX ++ marker ++ terminator) := by
  have hclear := closeMarker_clear decode hp marker terminator lookahead
  by_cases hacc : ({ s with marker := none }.handle decode marker).accepted = true
  · exact .delete _ rfl rfl hacc (by simp [closeMarker, hacc]) hclear
  · refine .keep ?_ ?_
    · rintro m ⟨⟩
      exact ⟨rfl, Bool.eq_false_iff.mpr hacc⟩
    · rw [hclear.held]
      simp [closeMarker, hacc]

/-- **One turn loses nothing.** -/
theorem turn_spec (h : s.OpenOnce) (byte : UInt8) (following : Option UInt8) (stop : Nat) :
    (s.turn decode byte following).next.OpenOnce ∧
      Settles decode (s.turn decode byte following) (s.closed? byte following stop)
        (s.held ++ (s.turn decode byte following).taken byte following) := by
  cases hm : s.marker with
  | some marker =>
    have hp : s.pendingPrefix = [] := h (by simp [hm])
    rw [held_of_marker hm]
    simp only [turn, closed?, hm]
    split
    next hbel =>
      have hb : byte = BEL := by simpa using hbel
      subst hb
      exact ⟨(closeMarker_clear decode hp marker _ _).openOnce, closeMarker_spec decode hp⟩
    split
    next hst =>
      simp only [Bool.and_eq_true, beq_iff_eq] at hst
      obtain ⟨rfl, rfl⟩ := hst
      exact ⟨(closeMarker_clear decode hp marker _ _).openOnce, closeMarker_spec decode hp⟩
    · split
      · exact ⟨reset_openOnce, .keep (by simp) (by simp [Turn.taken])⟩
      · exact ⟨fun _ => hp, .keep (by simp) (by simp [Turn.taken, held])⟩
  | none =>
    rw [held_of_none hm]
    simp only [turn, closed?, hm]
    have heq := settlePending_eq (s.pendingPrefix ++ [byte])
    cases ho : (settlePending (s.pendingPrefix ++ [byte])).2.2 with
    | true =>
      have hnil := settlePending_opened ho
      rw [ho] at heq
      refine ⟨fun _ => hnil, .keep (by simp) ?_⟩
      simpa [Turn.taken, held] using heq
    | false =>
      rw [ho] at heq
      refine ⟨fun hsome => by simp at hsome, .keep (by simp) ?_⟩
      simpa [Turn.taken, held] using heq

/-- A marker that gets too long is not held any longer. -/
theorem length_held_turn (h : s.OpenOnce) (byte : UInt8) (following : Option UInt8) :
    (s.turn decode byte following).next.held.length ≤ PREFIX.length + MAX := by
  cases hm : s.marker with
  | some marker =>
    have hclosed := closeMarker_clear decode (h (by simp [hm])) marker
    simp only [turn, hm]
    split_ifs with _ _ hlong
    · simp [(hclosed _ _).held]
    · simp [(hclosed _ _).held]
    · exact Nat.zero_le _
    · simpa [held] using hlong
  | none =>
    have hle := (settlePending_pending (s.pendingPrefix ++ [byte])).length_le
    simp only [turn, hm, held]
    cases (settlePending (s.pendingPrefix ++ [byte])).2.2 with
    | true => simp
    | false => exact Nat.le_add_right_of_le hle

end

/-! ## The ledger of a run -/

/-- The account of a run over its settled bytes: the deleted spans are
inside them, and the visible output is what deleting these leaves, short of `lost` bytes. -/
structure Ledger (settled visible : List UInt8) (deleted : List (Nat × Nat)) (lost : Nat) :
    Prop where
  within : SpansWithin deleted settled.length
  length : (deleteSpans deleted settled).length = visible.length + lost
  exact : lost = 0 → deleteSpans deleted settled = visible

section

variable {settled visible bytes : List UInt8} {deleted : List (Nat × Nat)} {lost : Nat}

theorem Ledger.nil : Ledger [] [] [] 0 where
  within := by intro s hs; cases hs
  length := rfl
  exact := fun _ => rfl

section

variable (h : Ledger settled visible deleted lost)
include h

theorem Ledger.keep (bytes : List UInt8) :
    Ledger (settled ++ bytes) (visible ++ bytes) deleted lost where
  within := h.within.mono (by simp)
  length := by
    rw [deleteSpans_append h.within, length_append, h.length, length_append]
    omega
  exact := by
    intro h0
    rw [deleteSpans_append h.within, h.exact h0]

theorem Ledger.delete : Ledger (settled ++ bytes) visible
      (deleted ++ [(settled.length, bytes.length)]) lost where
  within := by
    rw [length_append]
    exact h.within.concat bytes.length
  length := by rw [deleteSpans_concat, h.length]
  exact := by
    intro h0
    rw [deleteSpans_concat, h.exact h0]

/-- A reset settles the held bytes without showing them. -/
theorem Ledger.lose : Ledger (settled ++ bytes) visible deleted (lost + bytes.length) where
  within := h.within.mono (by simp)
  length := by
    rw [deleteSpans_append h.within, length_append, h.length]
    omega
  exact := by
    intro h0
    have hb : bytes = [] := length_eq_zero_iff.mp (by omega)
    rw [hb, append_nil]
    exact h.exact (by omega)

/-- The output is faithful exactly when nothing was lost. -/
theorem Ledger.faithful_iff {rest : List UInt8} :
    visible ++ rest = deleteSpans deleted (settled ++ rest) ↔ lost = 0 := by
  rw [deleteSpans_append h.within, append_left_inj]
  constructor
  · intro heq
    have := h.length
    rw [← heq] at this
    omega
  · intro h0
    exact (h.exact h0).symm

end

end

/-- The markers met so far stand in the stream read so far, which is a settled part,
accounted for by a ledger, and the bytes still held. -/
structure Accounts (decode : List UInt8 → Option (List UInt8)) (input visible : List UInt8)
    (markers : List Closed) (lost : Nat) (s : ShellLifecycle) : Prop where
  openOnce : s.OpenOnce
  placed : ∀ m ∈ markers, m.At input
  ledger : ∃ settled, input = settled ++ s.held ∧
    Ledger settled visible (acceptedSpans decode markers) lost

/-- The bytes a chunk loses: what is held when it enters an alternate buffer. -/
def lostBy (s : ShellLifecycle) (chunk : List UInt8) : Nat :=
  if entersAlternateBuffer chunk then s.held.length else 0

section

variable {decode : List UInt8 → Option (List UInt8)} {input visible : List UInt8}
  {markers : List Closed} {lost : Nat} {s : ShellLifecycle}
  (h : Accounts decode input visible markers lost s)
include h

/-- One turn moves the account forward by the bytes it takes. -/
theorem Accounts.turn (byte : UInt8) (following : Option UInt8) {t : Turn}
    (ht : t = s.turn decode byte following) (stop : Nat)
    (hstop : stop = (input ++ t.taken byte following).length) :
    Accounts decode (input ++ t.taken byte following) (visible ++ t.visible)
      (markers ++ (s.closed? byte following stop).toList) lost t.next := by
  obtain ⟨hopen, hplaced, settled, hin, hl⟩ := h
  obtain ⟨hopen', hs⟩ := turn_spec decode hopen byte following stop
  rw [← ht] at hopen' hs
  have hinput : input ++ t.taken byte following =
      settled ++ (s.held ++ t.taken byte following) := by rw [hin, append_assoc]
  refine ⟨hopen', forall_mem_append.mpr ⟨fun m hm => (hplaced m hm).append _, fun m hm => ?_⟩, ?_⟩
  · have hclosed : s.closed? byte following stop = some m := by simpa using hm
    obtain ⟨_, hmstop, hterm⟩ := closed?_eq_some hclosed
    refine ⟨hterm, ?_, by omega⟩
    rw [hmstop, hstop, take_length, hinput, hs.bytes_eq decode m hclosed]
    exact suffix_append _ _
  rw [hinput] at hstop ⊢
  cases hs with
  | keep hrejected hb =>
    refine ⟨settled ++ t.visible, by rw [hb, append_assoc], ?_⟩
    have hsame : acceptedSpans decode (markers ++ (s.closed? byte following stop).toList) =
        acceptedSpans decode markers := by
      have hnone : (s.closed? byte following stop).toList.filter (·.accepted decode) = [] :=
        filter_eq_nil_iff.mpr fun m hm => by simp [(hrejected m (by simpa using hm)).2]
      rw [acceptedSpans, filter_append, hnone, append_nil, acceptedSpans]
    rw [hsame]
    exact hl.keep t.visible
  | delete m hclosed hbytes hacc hv hc =>
    refine ⟨_, by rw [hc.held, append_nil], ?_⟩
    have hspan : m.span = (settled.length, (s.held ++ t.taken byte following).length) := by
      rw [Closed.span, hbytes, (closed?_eq_some hclosed).2.1, hstop, length_append,
        Nat.add_sub_cancel]
    have hspans : acceptedSpans decode (markers ++ [m]) =
        acceptedSpans decode markers ++ [m.span] := by simp [acceptedSpans, hacc]
    rw [hclosed, Option.toList_some, hspans, hspan, hv, append_nil]
    exact hl.delete

variable {chunk : List UInt8}

/-- **Feeding a chunk loses nothing.** -/
theorem Accounts.feed {offset : Nat} (hoff : offset = input.length) :
    Accounts decode (input ++ chunk) (visible ++ (feedVisible decode chunk s).visible)
      (markers ++ feedMarkers decode offset chunk s) lost (feedVisible decode chunk s).next := by
  -- the recursion of `feedMarkers`: an end, a last byte, a turn of two bytes, of one
  fun_induction feedMarkers decode offset chunk s generalizing input visible markers with
  | case1 offset s => simpa [feedVisible, Fed.idle] using h
  | case2 offset byte s =>
    have hstep := h.turn byte none rfl (offset + 1) (by simp [Turn.taken, hoff])
    simpa [feedVisible, Turn.fed, Turn.taken, turn_none_lookahead] using hstep
  | case3 offset byte following rest s t hla | case4 offset byte following rest s t hla =>
    rename_i ih
    have hstep := h.turn byte (some following) (t := t) rfl _ rfl
    have hrest := ih hstep (by simp [Turn.taken, hla, hoff])
    simpa [feedVisible, t, Turn.fed, Fed.append, Turn.taken, hla, hoff] using hrest

theorem Accounts.observe (chunk : List UInt8) :
    Accounts decode input visible markers (lost + s.lostBy chunk)
      (s.observeAlternateBuffer chunk).2 := by
  unfold observeAlternateBuffer lostBy
  split
  · obtain ⟨_, hplaced, settled, hin, hl⟩ := h
    exact ⟨reset_openOnce, hplaced, input, by simp, by rw [hin]; exact hl.lose⟩
  · exact h

/-- **A run of the reader thread**, and when it loses nothing. -/
theorem Accounts.run (chunks : List (List UInt8)) :
    ∃ lost', Accounts decode (input ++ chunks.flatten)
        (visible ++ (processChunks decode chunks s).visible)
        (markers ++ processMarkers decode input.length chunks s) lost'
        (processChunks decode chunks s).next ∧
      (lost' = 0 ↔ lost = 0 ∧ EntersQuietly decode chunks s) := by
  induction chunks generalizing input visible markers lost s with
  | nil => exact ⟨lost, by simpa [processChunks, processMarkers, Fed.idle] using h,
      by simp [EntersQuietly]⟩
  | cons chunk rest ih =>
    obtain ⟨lost', hrun, hlost⟩ := ih ((h.observe chunk).feed rfl)
    refine ⟨lost', by simpa [processChunks, processMarkers, processChunk, Fed.append] using hrun,
      ?_⟩
    rw [hlost]
    simp only [EntersQuietly, processChunk, lostBy, Nat.add_eq_zero_iff, and_assoc]
    split <;> simp_all

end

section

variable (decode : List UInt8 → Option (List UInt8))

/-- A run from a lifecycle that holds nothing back. -/
theorem accounts_run {s : ShellLifecycle} (h : s.Clear) (chunks : List (List UInt8)) :
    ∃ lost, Accounts decode chunks.flatten (processChunks decode chunks s).visible
        (processMarkers decode 0 chunks s) lost (processChunks decode chunks s).next ∧
      (lost = 0 ↔ EntersQuietly decode chunks s) := by
  have hstart : Accounts decode [] [] [] 0 s :=
    ⟨h.openOnce, by simp, [], by rw [h.held]; rfl, .nil⟩
  simpa using hstart.run chunks

/-- **Transparency.** Over any chunks, every complete marker that the filter meets stands
in the stream; and visible output and held bytes together are the stream minus exactly
those that `handle` accepts in the state the run meets them in, exactly when every chunk
that enters an alternate buffer finds nothing held back. -/
theorem transparent_iff_entersQuietly (nonce : List UInt8) (generation : Nat)
    (adapterVersion : String) (supportsExitStatus : Bool) (chunks : List (List UInt8)) :
    let s := newWithCapabilities nonce generation adapterVersion supportsExitStatus
    let run := processChunks decode chunks s
    let markers := processMarkers decode 0 chunks s
    (∀ m ∈ markers, m.At chunks.flatten) ∧
    (run.visible ++ run.next.held = deleteSpans (acceptedSpans decode markers) chunks.flatten ↔
      EntersQuietly decode chunks s) := by
  intro s
  obtain ⟨lost, ⟨_, hplaced, settled, hin, hl⟩, hlost⟩ :=
    accounts_run decode (s := s) ⟨rfl, rfl⟩ chunks
  refine ⟨hplaced, ?_⟩
  rw [hin]
  exact hl.faithful_iff.trans hlost

/-- A chunk boundary inside `ESC ] 6 3 3 ;`, followed by the switch to the
alternate buffer: the `ESC` of the first chunk never reaches the terminal. -/
theorem esc_before_alternate_buffer_lost :
    let chunks := [[ESC], ALT_BUFFER_ENTER]
    let run := processChunks (fun _ => none) chunks (new [0x6E] 1)
    run.visible ++ run.next.held = ALT_BUFFER_ENTER ∧
      processMarkers (fun _ => none) 0 chunks (new [0x6E] 1) = [] ∧
      run.visible ++ run.next.held ≠ deleteSpans [] chunks.flatten := by
  decide

end

end ShellLifecycle

end DamHopper.Pty
