import DamHopper.Lib.TextDecoder

/-!
# OutputDecoder — text out of the reads of a PTY

Model of `Utf8StreamDecoder` in `server/src/pty/output_control_parser.rs`. A read may end
inside a scalar; what it has of it waits for the next read. `String::from_utf8_lossy` is the
decoder of `TextDecoder`, and `std::str::from_utf8` runs it up to a byte that it rejects.
-/

namespace DamHopper.Pty

open Utf8 List

def fromUtf8Lossy (bytes : List UInt8) : List Char := Decoder.start.run bytes

structure Utf8Error where
  validUpTo : Nat
  errorLen : Option Nat

def rejects (d : Decoder) (b : Nat) : Bool :=
  if d.bytesNeeded = 0 then 0x7F < b && (b < 0xC2 || 0xF4 < b) else b < d.lower || d.upper < b

def width (d : Decoder) : Nat := if d.bytesNeeded = 0 then 0 else d.bytesSeen + 1

/-- The error in the bytes after those of the scalar that `d` is in, which starts at `offset`. -/
def scan (offset : Nat) (d : Decoder) : List UInt8 → Option Utf8Error
  | [] => if width d = 0 then none else some ⟨offset, none⟩
  | b :: rest =>
    if rejects d b.toNat then some ⟨offset, some (max 1 (width d))⟩
    else
      let next := (d.byte b.toNat).2
      scan (if width next = 0 then offset + width d + 1 else offset) next rest

def fromUtf8 (bytes : List UInt8) : Option Utf8Error := scan 0 .start bytes

variable {d : Decoder} {b : UInt8} {valid seen rest bytes : List UInt8}

theorem scan_len {offset v n : Nat} (h : scan offset d bytes = some ⟨v, some n⟩) :
    0 < n ∧ bytes ≠ [] := by
  fun_induction scan offset d bytes with grind

def decodeLoop (remaining : List UInt8) : List Char × List UInt8 :=
  match h : fromUtf8 remaining with
  | none => (fromUtf8Lossy remaining, [])
  | some ⟨validUpTo, none⟩ =>
    (fromUtf8Lossy (remaining.take validUpTo), remaining.drop validUpTo)
  | some ⟨validUpTo, some errorLen⟩ =>
    let invalid := remaining.drop validUpTo
    let (output, pending) := decodeLoop (invalid.drop errorLen)
    (fromUtf8Lossy (remaining.take validUpTo) ++ fromUtf8Lossy (invalid.take errorLen) ++ output,
      pending)
termination_by remaining.length
decreasing_by grind [scan_len h, length_pos_iff]

structure Utf8StreamDecoder where
  pending : List UInt8 := []

namespace Utf8StreamDecoder

def decode (d : Utf8StreamDecoder) (input : List UInt8) : List Char × Utf8StreamDecoder :=
  if input.isEmpty && d.pending.isEmpty then ([], d)
  else
    let (output, pending) := decodeLoop (d.pending ++ input)
    (output, ⟨pending⟩)

def finish (d : Utf8StreamDecoder) : List Char := fromUtf8Lossy d.pending

def decodeAll (d : Utf8StreamDecoder) : List (List UInt8) → List Char × Utf8StreamDecoder
  | [] => ([], d)
  | input :: rest =>
    let (output, d) := d.decode input
    let (more, d) := d.decodeAll rest
    (output ++ more, d)

end Utf8StreamDecoder

/-! ## Where the text of a byte string can be cut -/

/-- Whatever follows `valid` is decoded on its own. -/
def Whole (valid : List UInt8) : Prop :=
  ∀ rest, fromUtf8Lossy (valid ++ rest) = fromUtf8Lossy valid ++ fromUtf8Lossy rest

/-- `seen` is the beginning of a scalar, and `d` the decoder after it. -/
structure Inside (seen : List UInt8) (d : Decoder) : Prop where
  run_eq : ∀ rest, fromUtf8Lossy (seen ++ rest) = d.run rest
  length_eq : seen.length = width d
  bounded : d.bytesNeeded ≠ 0 → d.bytesSeen < d.bytesNeeded ∧ d.bytesNeeded ≤ 3

theorem Inside.start : Inside [] .start := ⟨fun _ => rfl, rfl, by simp [Decoder.start]⟩

theorem run_nil : d.run [] = if width d = 0 then [] else [replacement] := by
  grind [Decoder.run, width]

theorem run_rejected (h : rejects d b.toNat) : d.run (b :: rest) =
    replacement :: fromUtf8Lossy (if width d = 0 then rest else b :: rest) := by
  grind [rejects, Decoder.run, Decoder.byte, Decoder.lead, width, fromUtf8Lossy, Decoder.start]

theorem byte_accepted {text : List Char} {next : Decoder} (h : ¬rejects d b.toNat)
    (hd : d.bytesNeeded ≠ 0 → d.bytesSeen < d.bytesNeeded ∧ d.bytesNeeded ≤ 3)
    (hbyte : d.byte b.toNat = (text, next)) :
    next = .start ∨ text = [] ∧ width next = width d + 1 ∧
      next.bytesSeen < next.bytesNeeded ∧ next.bytesNeeded ≤ 3 := by
  grind [rejects, Decoder.byte, Decoder.lead, width]

/-- What an error says about the bytes it is found in. -/
def Splits (bytes : List UInt8) : Option Utf8Error → Prop
  | none => Whole bytes
  | some ⟨v, none⟩ => Whole (bytes.take v) ∧ (bytes.drop v).length ≤ 3
  | some ⟨v, some n⟩ => Whole (bytes.take v) ∧ ∀ more, fromUtf8Lossy (bytes.drop v ++ more) =
      fromUtf8Lossy ((bytes.drop v).take n) ++ fromUtf8Lossy ((bytes.drop v).drop n ++ more)

theorem scan_splits (hvalid : Whole valid) (h : Inside seen d) :
    Splits (valid ++ (seen ++ bytes)) (scan valid.length d bytes) := by
  induction bytes generalizing valid seen d with
  | nil =>
    obtain ⟨-, hlen, hd⟩ := h
    simp only [scan]
    split
    · simp_all [Splits]
    · simp only [Splits, take_left]
      exact ⟨hvalid, by grind [width]⟩
  | cons b rest ih =>
    rw [scan]
    by_cases hreject : rejects d b.toNat
    · simp only [if_pos hreject, Splits, take_left]
      refine ⟨hvalid, fun more => ?_⟩
      have hsplit := h.run_eq (b :: (rest ++ more))
      rcases Nat.eq_zero_or_pos (width d) with hzero | hpos
      · obtain rfl : seen = [] := by simpa [hzero] using h.length_eq
        have hone := h.run_eq [b]
        simp_all [run_rejected hreject]
        rfl
      · have hseen := h.run_eq []
        rw [Nat.max_eq_right hpos, ← h.length_eq]
        simp_all [run_rejected hreject, run_nil, Nat.ne_of_gt hpos]
    rw [if_neg hreject]
    obtain ⟨hrun, hlen, hd⟩ := h
    cases hbyte : d.byte b.toNat with
    | mk text next =>
      rcases byte_accepted hreject hd hbyte with rfl | ⟨rfl, hwidth, hnext⟩
      · have hwhole : Whole (valid ++ (seen ++ [b])) := by
          intro more
          rw [append_assoc, hvalid, hvalid, append_assoc, hrun, hrun]
          simp [Decoder.run, hbyte]
          rfl
        simpa [← hlen, Nat.add_assoc, show width .start = 0 from rfl] using ih hwhole .start
      · have hinside : Inside (seen ++ [b]) next :=
          ⟨by simp [hrun, Decoder.run, hbyte], by simp [hlen, hwidth], fun _ => hnext⟩
        simpa [hwidth] using ih hvalid hinside

theorem fromUtf8_splits : Splits bytes (fromUtf8 bytes) :=
  scan_splits (show Whole [] from fun _ => rfl) .start

theorem decodeLoop_spec (bytes more : List UInt8) : (decodeLoop bytes).2.length ≤ 3 ∧
    fromUtf8Lossy (bytes ++ more) =
      (decodeLoop bytes).1 ++ fromUtf8Lossy ((decodeLoop bytes).2 ++ more) := by
  have h : Splits bytes (fromUtf8 bytes) := fromUtf8_splits
  fun_induction decodeLoop bytes with
  | case1 bytes heq => simp_all [Splits, Whole]
  | case2 bytes v heq =>
    simp only [heq] at h
    rw [← h.1, ← append_assoc, take_append_drop]
    exact ⟨h.2, rfl⟩
  | case3 bytes v n heq invalid output pending hrest ih =>
    simp only [heq] at h
    rw [hrest] at ih
    obtain ⟨hlen, htext⟩ := ih fromUtf8_splits
    refine ⟨hlen, ?_⟩
    rw [append_assoc, append_assoc, ← htext, ← h.2, ← h.1, ← append_assoc, take_append_drop]

namespace Utf8StreamDecoder

theorem decode_eq (d : Utf8StreamDecoder) (input : List UInt8) : d.decode input =
    ((decodeLoop (d.pending ++ input)).1, ⟨(decodeLoop (d.pending ++ input)).2⟩) := by
  have hnil : decodeLoop [] = ([], []) := by
    rw [decodeLoop]
    rfl
  obtain ⟨pending⟩ := d
  unfold decode
  split <;> simp_all

theorem decodeAll_spec (d : Utf8StreamDecoder) (hd : d.pending.length ≤ 3)
    (chunks : List (List UInt8)) :
    let (output, after) := d.decodeAll chunks
    output ++ after.finish = fromUtf8Lossy (d.pending ++ chunks.flatten) ∧
      after.pending.length ≤ 3 := by
  induction chunks generalizing d with
  | nil => simp [decodeAll, finish, hd]
  | cons input rest ih =>
    obtain ⟨hlen, htext⟩ := decodeLoop_spec (d.pending ++ input) rest.flatten
    simp_all [decodeAll, decode_eq]

/-- **Streaming decoding is whole-input decoding.** However the bytes are cut into reads,
the text of the reads and of the end is the lossy text of all bytes, and no more than three
bytes are pending after a read. -/
theorem decode_chunks (chunks : List (List UInt8)) :
    let (output, d) := decodeAll {} chunks
    output ++ d.finish = fromUtf8Lossy chunks.flatten ∧ d.pending.length ≤ 3 :=
  decodeAll_spec {} (by simp) chunks

end Utf8StreamDecoder

end DamHopper.Pty
