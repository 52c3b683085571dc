import Mathlib.Data.List.Basic

/-!
# UTF-8 — scalar boundaries of a byte string

Byte strings are `List UInt8`, texts are `List Char`, and `encode` is the
encoding of the core library. A *boundary* of a byte string is an offset
between two encoded scalars. The definition speaks about the text; the
programs that look for boundaries test one byte (`isContinuation`), and
`boundary_iff` says that on valid input the two agree.

`skipContinuation` is the loop such programs run, and
`skipContinuation_least` its specification: it stops at the least boundary
from where it started.
-/

namespace DamHopper.Utf8

open List

def encode (text : List Char) : List UInt8 :=
  text.flatMap String.utf8EncodeChar

/-- `10xxxxxx`: a byte that never starts a scalar. -/
def isContinuation (b : UInt8) : Bool := (b &&& 0xC0) == 0x80

/-- The byte string encodes some text. -/
def Valid (bytes : List UInt8) : Prop := ∃ text, bytes = encode text

/-- A byte string together with the fact that it is UTF-8. -/
abbrev Chunk := { bytes : List UInt8 // Valid bytes }

/-- Offset `p` falls between two scalars of `bytes` (or at an end). -/
def Boundary (bytes : List UInt8) (p : Nat) : Prop :=
  ∃ front back, bytes = encode (front ++ back) ∧ p = (encode front).length

/-- Leading continuation bytes of `bytes`: how far a scan for the next
scalar start advances. -/
def skipContinuation : List UInt8 → Nat
  | [] => 0
  | b :: rest => if isContinuation b then skipContinuation rest + 1 else 0

/-! ## Encodings -/

@[simp] theorem encode_nil : encode [] = [] := rfl

@[simp] theorem encode_cons {c : Char} {text : List Char} :
    encode (c :: text) = String.utf8EncodeChar c ++ encode text := rfl

@[simp] theorem encode_append {s t : List Char} : encode (s ++ t) = encode s ++ encode t := by
  simp [encode]

theorem Valid.nil : Valid [] := ⟨[], rfl⟩

variable {a b bytes : List UInt8} {p : Nat}

theorem Valid.append (ha : Valid a) (hb : Valid b) : Valid (a ++ b) := by
  obtain ⟨s, rfl⟩ := ha
  obtain ⟨t, rfl⟩ := hb
  exact ⟨s ++ t, encode_append.symm⟩

private theorem lead_byte : ∀ n < 0x100, n < 0x80 ∨ 0xC0 ≤ n →
    isContinuation (UInt8.ofNat n) = false := by decide +kernel

private theorem tail_byte : ∀ n < 0x40, isContinuation (UInt8.ofNat (n + 0x80)) = true := by decide

/-- Every scalar is one lead byte followed by continuation bytes. -/
theorem encodeChar_shape (c : Char) : ∃ b tail,
    String.utf8EncodeChar c = b :: tail ∧ isContinuation b = false ∧
      ∀ t ∈ tail, isContinuation t = true := by
  have mod64 : ∀ v : Nat, isContinuation (UInt8.ofNat (v % 0x40 + 0x80)) = true :=
    fun v => tail_byte _ (Nat.mod_lt _ (by decide))
  unfold String.utf8EncodeChar
  simp only
  split
  next h => exact ⟨_, _, rfl, lead_byte _ (by omega) (by omega), by simp⟩
  split
  on_goal 2 => split
  all_goals
    refine ⟨_, _, rfl, lead_byte _ (by omega) (by omega), ?_⟩
    simp [-UInt8.ofNat_add, mod64]

/-! ## Boundaries -/

theorem Boundary.le_length (h : Boundary bytes p) : p ≤ bytes.length := by
  obtain ⟨front, back, rfl, rfl⟩ := h
  simp

theorem boundary_zero (h : Valid bytes) : Boundary bytes 0 := by
  obtain ⟨text, rfl⟩ := h
  exact ⟨[], text, rfl, rfl⟩

/-- Boundaries of a concatenation, seen from its second part. -/
theorem Boundary.append_left (ha : Valid a) (h : Boundary b p) :
    Boundary (a ++ b) (a.length + p) := by
  obtain ⟨s, rfl⟩ := ha
  obtain ⟨front, back, rfl, rfl⟩ := h
  exact ⟨s ++ front, back, by simp, by simp⟩

/-- A boundary is never followed by a continuation byte. -/
theorem Boundary.lead (h : Boundary bytes p) {b : UInt8} (hb : bytes[p]? = some b) :
    isContinuation b = false := by
  obtain ⟨front, back, rfl, rfl⟩ := h
  rw [encode_append, getElem?_append_right (Nat.le_refl _), Nat.sub_self] at hb
  cases back with
  | nil => simp at hb
  | cons c back =>
    obtain ⟨lead, tail, hc, hlead, -⟩ := encodeChar_shape c
    rw [encode_cons, hc] at hb
    cases hb
    exact hlead

/-- An offset that no continuation byte follows is a boundary: inside a
scalar every byte but the first is a continuation byte. -/
theorem boundary_of_lead (text : List Char) (p : Nat) (hp : p ≤ (encode text).length)
    (h : ∀ b, (encode text)[p]? = some b → isContinuation b = false) :
    Boundary (encode text) p := by
  induction text generalizing p with
  | nil =>
    have hp0 : p = 0 := by simpa using hp
    subst hp0
    exact boundary_zero Valid.nil
  | cons c text ih =>
    obtain ⟨lead, tail, hc, -, htail⟩ := encodeChar_shape c
    rw [encode_cons, hc] at hp h ⊢
    rcases Nat.lt_or_ge p (lead :: tail).length with hlt | hge
    · cases p with
      | zero => exact boundary_zero (by rw [← hc]; exact ⟨c :: text, rfl⟩)
      | succ p =>
        -- strictly inside the first scalar
        have hp' : p < tail.length := by simpa using hlt
        have hcont := htail tail[p] (getElem_mem hp')
        rw [h tail[p] (by simp [getElem?_append_left hp'])] at hcont
        cases hcont
    · rw [getElem?_append_right hge] at h
      have hq := ih (p - (lead :: tail).length) (by simp only [length_append] at hp; omega) h
      have := hq.append_left (a := lead :: tail) (by rw [← hc]; exact ⟨[c], by simp⟩)
      rwa [Nat.add_sub_cancel' hge] at this

/-- **On valid input the one-byte test finds exactly the boundaries.** -/
theorem boundary_iff (h : Valid bytes) : Boundary bytes p ↔ p ≤ bytes.length ∧
      ∀ b, bytes[p]? = some b → isContinuation b = false := by
  constructor
  · intro hb
    exact ⟨hb.le_length, fun b => hb.lead⟩
  · rintro ⟨hle, hb⟩
    obtain ⟨text, rfl⟩ := h
    exact boundary_of_lead text p hle hb

theorem Boundary.append_right (h : Boundary a p) (hb : Valid b) : Boundary (a ++ b) p := by
  obtain ⟨front, back, rfl, rfl⟩ := h
  obtain ⟨t, rfl⟩ := hb
  exact ⟨front, back ++ t, by simp, rfl⟩

/-- A boundary of a concatenation that falls in its first part. -/
theorem Boundary.of_append (ha : Valid a) (h : Boundary (a ++ b) p) (hp : p ≤ a.length) :
    Boundary a p := by
  rw [boundary_iff ha]
  refine ⟨hp, fun c hc => h.lead ?_⟩
  have hlt : p < a.length := (List.getElem?_eq_some_iff.mp hc).1
  rwa [List.getElem?_append_left hlt]

/-! ## Scanning for the next boundary -/

theorem skipContinuation_le (bytes : List UInt8) : skipContinuation bytes ≤ bytes.length := by
  induction bytes with
  | nil => exact Nat.le_refl _
  | cons b rest ih =>
    simp only [skipContinuation, length_cons]
    split <;> omega

/-- A scan that reaches the end of its text does not run into the next. -/
theorem skipContinuation_append (hb : Valid b) :
    skipContinuation (a ++ b) = skipContinuation a := by
  induction a with
  | nil =>
    obtain ⟨text, rfl⟩ := hb
    cases text with
    | nil => rfl
    | cons c text =>
      obtain ⟨lead, tail, hc, hlead, -⟩ := encodeChar_shape c
      simp [hc, skipContinuation, hlead]
  | cons c rest ih => simp only [cons_append, skipContinuation, ih]

/-- The scan stops at a byte that starts a scalar, or at the end. -/
theorem skipContinuation_stop {b : UInt8} (h : bytes[skipContinuation bytes]? = some b) :
    isContinuation b = false := by
  induction bytes with
  | nil => cases h
  | cons c rest ih =>
    simp only [skipContinuation] at h
    split_ifs at h with hc
    · exact ih (by simpa using h)
    · cases h
      simpa using hc

/-- Everything the scan passes is a continuation byte. -/
theorem skipContinuation_pass (bytes : List UInt8) {i : Nat} (h : i < skipContinuation bytes) :
    ∃ b, bytes[i]? = some b ∧ isContinuation b = true := by
  induction bytes generalizing i with
  | nil => simp [skipContinuation] at h
  | cons c rest ih =>
    simp only [skipContinuation] at h
    split_ifs at h with hc
    · cases i with
      | zero => exact ⟨c, rfl, hc⟩
      | succ i => simpa using ih (by omega : i < skipContinuation rest)
    · omega

/-- **The scan finds the least boundary from its start.** -/
theorem skipContinuation_least (h : Valid bytes) {start : Nat} (hs : start ≤ bytes.length) :
    Boundary bytes (start + skipContinuation (bytes.drop start)) ∧
      ∀ q, Boundary bytes q → start ≤ q → start + skipContinuation (bytes.drop start) ≤ q := by
  have hlen := skipContinuation_le (bytes.drop start)
  rw [length_drop] at hlen
  constructor
  · rw [boundary_iff h]
    refine ⟨by omega, fun b hb => ?_⟩
    exact skipContinuation_stop (by rwa [getElem?_drop])
  · intro q hq hle
    by_contra hlt
    obtain ⟨b, hb, hcont⟩ := skipContinuation_pass (bytes.drop start) (i := q - start) (by omega)
    rw [getElem?_drop, Nat.add_sub_cancel' hle] at hb
    rw [hq.lead hb] at hcont
    cases hcont

end DamHopper.Utf8
