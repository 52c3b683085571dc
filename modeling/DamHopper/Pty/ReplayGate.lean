import DamHopper.Lib.Runs
import DamHopper.Lib.TextDecoder

/-!
# ReplayGate — a terminal renders its output once

Model of `reconcileTerminalOutput` in `ui/src/lib/terminal-stream-replay-gate.ts` and of a
client that passes every chunk it gets through it. The server sends the output of a session
in chunks cut between scalars, each with the byte offset of its end; they may be lost,
repeated and reordered on the way. Texts are lists of scalars: the server's strings have no
lone surrogates. Offsets are numbers of bytes; the start of a chunk may come out negative.

The purpose of the client is `Exact`: what it has rendered is the output up to its offset.
A chunk that overlaps what has been rendered is decoded again from the offset on, and a
byte order mark there is dropped (`DropsMark`).
-/

namespace DamHopper.Pty

open Utf8 List

inductive ReconcileOutputResult where
  | render (data : List Char) (nextOffset : Nat)
  | discard (nextOffset : Nat)
  | gap (expectedOffset : Nat) (receivedStartOffset : Int)
  deriving Repr, DecidableEq

def reconcileTerminalOutput (data : List Char) (endOffset currentOffset : Nat) :
    ReconcileOutputResult :=
  if endOffset ≤ currentOffset then .discard currentOffset
  else
    let bytes := encode data
    let startOffset : Int := endOffset - bytes.length
    if startOffset > currentOffset then .gap currentOffset startOffset
    else if startOffset < currentOffset then
      let bytesToSkip := (currentOffset - startOffset).toNat
      .render (textDecode (bytes.drop bytesToSkip)) endOffset
    else .render data endOffset

/-- What a client has written to its terminal, and the offset it carries forward. -/
structure StreamClient where
  rendered : List Char
  offset : Nat
  deriving Repr, DecidableEq

structure Delivery where
  data : List Char
  endOffset : Nat
  deriving Repr, DecidableEq

namespace StreamClient

def reconcile (client : StreamClient) (chunk : Delivery) : ReconcileOutputResult :=
  reconcileTerminalOutput chunk.data chunk.endOffset client.offset

def receive (client : StreamClient) (chunk : Delivery) : StreamClient :=
  match client.reconcile chunk with
  | .render data nextOffset => ⟨client.rendered ++ data, nextOffset⟩
  | .discard nextOffset => { client with offset := nextOffset }
  | .gap _ _ => client

/-- The client has rendered `output` up to its offset. -/
def Exact (output : List Char) (client : StreamClient) : Prop :=
  client.rendered <+: output ∧ client.offset = (encode client.rendered).length

end StreamClient

/-- The chunk is a part of `output` and knows where it ends. -/
def Delivery.Of (output : List Char) (chunk : Delivery) : Prop :=
  ∃ front, front ++ chunk.data <+: output ∧
    chunk.endOffset = (encode (front ++ chunk.data)).length

def Delivery.startOffset (chunk : Delivery) : Nat :=
  chunk.endOffset - (encode chunk.data).length

/-- The chunk overlaps what has been rendered, and what is new in it starts with a byte
order mark. -/
def StreamClient.DropsMark (client : StreamClient) (chunk : Delivery) : Prop :=
  ∃ seen unseen, chunk.data = seen ++ byteOrderMark :: unseen ∧ seen ≠ [] ∧
    client.offset = chunk.startOffset + (encode seen).length

/-! ## Prefixes by their length in bytes -/

theorem encode_eq_nil_iff (text : List Char) : (encode text).length = 0 ↔ text = [] := by
  cases text with
  | nil => simp
  | cons c text =>
    obtain ⟨lead, tail, hc, -, -⟩ := encodeChar_shape c
    simp [hc]

/-- Of two prefixes of a text the shorter one in bytes is a prefix of the other. -/
theorem prefix_of_encode_le {front front' text : List Char} (h : front <+: text)
    (h' : front' <+: text) (hle : (encode front).length ≤ (encode front').length) :
    front <+: front' := by
  rcases prefix_or_prefix_of_prefix h h' with hp | ⟨more, rfl⟩
  · exact hp
  · rw [encode_append, length_append] at hle
    have hmore : more = [] := (encode_eq_nil_iff more).mp (by omega)
    simp [hmore]

theorem prefix_eq_of_encode_eq {front front' text : List Char} (h : front <+: text)
    (h' : front' <+: text) (heq : (encode front).length = (encode front').length) :
    front = front' := by
  obtain ⟨more, rfl⟩ := prefix_of_encode_le h h' (Nat.le_of_eq heq)
  rw [encode_append, length_append] at heq
  have hmore : more = [] := (encode_eq_nil_iff more).mp (by omega)
  rw [hmore, append_nil]

/-! ## What one chunk does -/

namespace StreamClient

variable {output : List Char} {client : StreamClient} {chunk : Delivery}

section

variable (hlen : (encode chunk.data).length ≤ chunk.endOffset)
include hlen

theorem reconcile_gap (h : client.offset < chunk.startOffset) :
    client.reconcile chunk = .gap client.offset chunk.startOffset := by
  unfold Delivery.startOffset at h ⊢
  rw [reconcile, reconcileTerminalOutput, if_neg (by omega)]
  rw [if_pos (by omega)]
  congr 1
  omega

theorem reconcile_overlap (hstart : chunk.startOffset < client.offset)
    (hend : client.offset < chunk.endOffset) :
    client.reconcile chunk =
      .render (textDecode ((encode chunk.data).drop (client.offset - chunk.startOffset)))
        chunk.endOffset := by
  unfold Delivery.startOffset at hstart ⊢
  rw [reconcile, reconcileTerminalOutput, if_neg (by omega)]
  simp only
  rw [if_neg (by omega), if_pos (by omega)]
  congr 3
  omega

theorem reconcile_contiguous (hstart : chunk.startOffset = client.offset)
    (hend : client.offset < chunk.endOffset) :
    client.reconcile chunk = .render chunk.data chunk.endOffset := by
  unfold Delivery.startOffset at hstart
  rw [reconcile, reconcileTerminalOutput, if_neg (by omega)]
  rw [if_neg (by omega), if_neg (by omega)]

end

/-- The four answers, each with when it is given. -/
inductive Reconciled (client : StreamClient) (chunk : Delivery) : Prop
  | discard : chunk.endOffset ≤ client.offset →
      client.reconcile chunk = .discard client.offset → Reconciled client chunk
  | gap : client.offset < chunk.startOffset →
      client.reconcile chunk = .gap client.offset chunk.startOffset → Reconciled client chunk
  | overlap : chunk.startOffset < client.offset → client.offset < chunk.endOffset →
      client.reconcile chunk =
        .render (textDecode ((encode chunk.data).drop (client.offset - chunk.startOffset)))
          chunk.endOffset → Reconciled client chunk
  | contiguous : chunk.startOffset = client.offset → client.offset < chunk.endOffset →
      client.reconcile chunk = .render chunk.data chunk.endOffset → Reconciled client chunk

theorem reconciled (client : StreamClient) (hlen : (encode chunk.data).length ≤ chunk.endOffset) :
    Reconciled client chunk := by
  by_cases hend : chunk.endOffset ≤ client.offset
  · exact .discard hend (if_pos hend)
  rcases Nat.lt_trichotomy chunk.startOffset client.offset with hlt | heq | hgt
  · exact .overlap hlt (by omega) (reconcile_overlap hlen hlt (by omega))
  · exact .contiguous heq (by omega) (reconcile_contiguous hlen heq (by omega))
  · exact .gap hgt (reconcile_gap hlen hgt)

/-! ## Exactly once -/

theorem length_le_of (h : chunk.Of output) : (encode chunk.data).length ≤ chunk.endOffset := by
  obtain ⟨front, -, hend⟩ := h
  rw [hend, encode_append, length_append]
  omega

/-- The text of an overlapping chunk that has been rendered, and the text that has not. -/
theorem Exact.overlap (hexact : client.Exact output) {front : List Char}
    (hfront : front ++ chunk.data <+: output)
    (hend : chunk.endOffset = (encode (front ++ chunk.data)).length)
    (hlt : chunk.startOffset < client.offset) (hgt : client.offset < chunk.endOffset) :
    ∃ seen unseen, chunk.data = seen ++ unseen ∧ client.rendered = front ++ seen ∧ seen ≠ [] ∧
      client.offset = chunk.startOffset + (encode seen).length := by
  obtain ⟨hrendered, hoffset⟩ := hexact
  have hstart : chunk.startOffset = (encode front).length := by
    rw [Delivery.startOffset, hend, encode_append, length_append]
    omega
  obtain ⟨seen, hseen⟩ : front <+: client.rendered :=
    prefix_of_encode_le ((prefix_append _ _).trans hfront) hrendered (by omega)
  obtain ⟨unseen, hunseen⟩ : client.rendered <+: front ++ chunk.data :=
    prefix_of_encode_le hrendered hfront (by omega)
  rw [← hseen, append_assoc] at hunseen
  rw [← hseen, encode_append, length_append] at hoffset
  refine ⟨seen, unseen, (append_cancel_left hunseen).symm, hseen.symm, ?_, by omega⟩
  rintro rfl
  simp at hoffset
  omega

/-- The mark is dropped if the text that has not been rendered starts with it. -/
theorem dropsMark_iff {seen unseen : List Char} (hdata : chunk.data = seen ++ unseen)
    (hne : seen ≠ []) (hoffset : client.offset = chunk.startOffset + (encode seen).length) :
    client.DropsMark chunk ↔ unseen.head? = some byteOrderMark := by
  constructor
  · rintro ⟨seen', unseen', hdata', -, hoffset'⟩
    have hsame : seen = seen' := by
      have hseen : seen <+: chunk.data := ⟨unseen, hdata.symm⟩
      exact prefix_eq_of_encode_eq hseen ⟨byteOrderMark :: unseen', hdata'.symm⟩ (by omega)
    rw [hdata, hsame] at hdata'
    simp [append_cancel_left hdata']
  · intro hhead
    obtain ⟨unseen', rfl⟩ : ∃ unseen', unseen = byteOrderMark :: unseen' := by
      cases unseen with
      | nil => cases hhead
      | cons c unseen' => exact ⟨unseen', by simpa using hhead⟩
    exact ⟨seen, unseen', hdata, hne, hoffset⟩

theorem not_dropsMark (h : byteOrderMark ∉ chunk.data) : ¬ client.DropsMark chunk := by
  rintro ⟨seen, unseen, hdata, -⟩
  rw [hdata] at h
  exact h (by simp)

/-- A chunk keeps the rendering exact unless a mark is dropped from it. -/
theorem exact_receive_iff (hexact : client.Exact output) (hof : chunk.Of output) :
    (client.receive chunk).Exact output ↔ ¬ client.DropsMark chunk := by
  have hlen := length_le_of hof
  have hlate : client.DropsMark chunk →
      chunk.startOffset < client.offset ∧ client.offset < chunk.endOffset := by
    rintro ⟨seen, unseen, hdata, hne, hoffset⟩
    have hseen := mt (encode_eq_nil_iff seen).mp hne
    have hlong : (encode seen).length < (encode chunk.data).length := by
      have hrest := mt (encode_eq_nil_iff (byteOrderMark :: unseen)).mp (by simp)
      rw [hdata, encode_append, length_append]
      omega
    rw [Delivery.startOffset] at hoffset ⊢
    omega
  obtain ⟨front, hfront, hend⟩ := hof
  cases reconciled client hlen with
  | discard hle hrec | gap hgt hrec =>
    rw [receive, hrec]
    exact iff_of_true hexact fun h => by have := hlate h; omega
  | contiguous hstart hlt hrec =>
    rw [receive, hrec]
    refine iff_of_true ?_ fun h => by have := hlate h; omega
    have hrendered : client.rendered = front := by
      refine prefix_eq_of_encode_eq hexact.1 ((prefix_append _ _).trans hfront) ?_
      rw [← hexact.2, ← hstart, Delivery.startOffset, hend, encode_append, length_append]
      omega
    rw [hrendered]
    exact ⟨hfront, hend⟩
  | overlap hlt hgt hrec =>
    obtain ⟨seen, unseen, hdata, hrendered, hne, hoffset⟩ := hexact.overlap hfront hend hlt hgt
    have hskip : (encode chunk.data).drop (client.offset - chunk.startOffset) = encode unseen := by
      rw [hoffset, Nat.add_sub_cancel_left, hdata, encode_append, drop_left]
    rw [receive, hrec, hskip, textDecode_encode, dropsMark_iff hdata hne hoffset,
      ← Ne, ← dropMark_eq_iff]
    have hwhole : front ++ chunk.data = client.rendered ++ unseen := by
      rw [hdata, hrendered, append_assoc]
    rw [hwhole] at hfront hend
    constructor
    · rintro ⟨hpart, hbytes⟩
      have heq := prefix_eq_of_encode_eq hpart hfront (hbytes.symm.trans hend)
      exact append_cancel_left heq
    · intro hsame
      rw [hsame]
      exact ⟨hfront, hend⟩

/-- The offset never decreases, and the answer follows from where the chunk lies. -/
theorem receive_offset (hof : chunk.Of output) : client.offset ≤ (client.receive chunk).offset ∧
      ((∃ expected received, client.reconcile chunk = .gap expected received) ↔
        client.offset < chunk.startOffset) ∧
      ((∃ next, client.reconcile chunk = .discard next) ↔ chunk.endOffset ≤ client.offset) := by
  have hlen := length_le_of hof
  have hstart : chunk.startOffset ≤ chunk.endOffset := Nat.sub_le _ _
  cases reconciled client hlen with
  | discard hle hrec =>
    rw [receive, hrec]
    exact ⟨Nat.le_refl _, by simp; omega, by simp [hle]⟩
  | gap hgt hrec =>
    rw [receive, hrec]
    exact ⟨Nat.le_refl _, by simp [hgt], by simp; omega⟩
  | overlap hlt hgt hrec | contiguous heq hgt hrec =>
    rw [receive, hrec]
    exact ⟨Nat.le_of_lt hgt, by simp; omega, by simp; omega⟩

/-- **Exactly once.** A client that has rendered the output up to its offset and then gets
chunks of it in any order, with losses and repetitions, stays exact at every point if and
only if no chunk makes it drop a byte order mark. Its offset never decreases, a gap is
reported exactly for a chunk that starts beyond it, and a chunk is discarded exactly if it
ends at or before it. -/
theorem exactly_once (output : List Char) (client : StreamClient) (hexact : client.Exact output)
    (chunks : List Delivery) (hof : ∀ chunk ∈ chunks, chunk.Of output) :
    (Always receive (Exact output) client chunks ↔
      EveryStep receive (fun client chunk => ¬ client.DropsMark chunk) client chunks) ∧
    EveryStep receive (fun client chunk =>
      client.offset ≤ (client.receive chunk).offset ∧
        ((∃ expected received, client.reconcile chunk = .gap expected received) ↔
          client.offset < chunk.startOffset) ∧
        ((∃ next, client.reconcile chunk = .discard next) ↔
          chunk.endOffset ≤ client.offset)) client chunks := by
  constructor
  · refine always_iff_everyStep_within (I := fun _ => True) (E := Delivery.Of output)
      (fun _ _ _ _ => trivial) ?_ trivial hexact hof
    intro client chunk hchunk _ hexact
    exact exact_receive_iff hexact hchunk
  · exact (everyStep_forall_iff.mpr hof).mono fun client chunk hchunk => receive_offset hchunk

/-- An overlap without a mark is rendered from the offset on. -/
theorem exactly_once_overlap :
    Always receive (Exact ['a', 'b']) ⟨['a'], 1⟩ [⟨['a', 'b'], 2⟩, ⟨['a'], 1⟩] := by
  have hexact : (⟨['a'], 1⟩ : StreamClient).Exact ['a', 'b'] := ⟨⟨['b'], rfl⟩, by decide⟩
  have hof : ∀ chunk ∈ [(⟨['a', 'b'], 2⟩ : Delivery), ⟨['a'], 1⟩], chunk.Of ['a', 'b'] := by
    simp only [mem_cons, not_mem_nil, or_false, forall_eq_or_imp, forall_eq]
    exact ⟨⟨[], ⟨[], rfl⟩, by decide⟩, ⟨[], ⟨['b'], rfl⟩, by decide⟩⟩
  exact (exactly_once ['a', 'b'] ⟨['a'], 1⟩ hexact _ hof).1.mpr
    ⟨not_dropsMark (by decide), not_dropsMark (by decide), trivial⟩

def sampleOutput : List Char := ['a', byteOrderMark, 'b']

/-- The mark is lost when the first byte has been rendered before the chunk comes. -/
theorem overlapping_mark_lost : (⟨['a'], 1⟩ : StreamClient).Exact sampleOutput ∧
      (⟨sampleOutput, 5⟩ : Delivery).Of sampleOutput ∧
      (⟨['a'], 1⟩ : StreamClient).receive ⟨sampleOutput, 5⟩ = ⟨['a', 'b'], 5⟩ ∧
      ¬ ((⟨['a'], 1⟩ : StreamClient).receive ⟨sampleOutput, 5⟩).Exact sampleOutput := by
  have hreceive : (⟨['a'], 1⟩ : StreamClient).receive ⟨sampleOutput, 5⟩ = ⟨['a', 'b'], 5⟩ := by
    decide
  refine ⟨⟨⟨[byteOrderMark, 'b'], rfl⟩, by decide⟩, ⟨[], prefix_rfl, by decide⟩, hreceive, ?_⟩
  rintro ⟨hpart, -⟩
  exact absurd hpart (by decide)

end StreamClient

end DamHopper.Pty
