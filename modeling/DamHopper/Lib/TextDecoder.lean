import DamHopper.Lib.Utf8

/-!
# TextDecoder — the UTF-8 decoder of the web platform

The decoder of the Encoding Standard, one byte at a time, as `new TextDecoder()` runs it
by default: malformed sequences become U+FFFD, and a byte order mark at the start of the
input is dropped. On the encoding of a text the first never happens (`run_encode`) and the
second still does (`textDecode_encode`).
-/

namespace DamHopper.Utf8

def replacement : Char := Char.ofNat 0xFFFD

def byteOrderMark : Char := Char.ofNat 0xFEFF

structure Decoder where
  codePoint : Nat
  bytesSeen : Nat
  bytesNeeded : Nat
  lower : Nat
  upper : Nat
  deriving Repr, DecidableEq

namespace Decoder

/-- Between two scalars. -/
def start : Decoder := ⟨0, 0, 0, 0x80, 0xBF⟩

/-- The first byte of a scalar: the text it gives, and the decoder after it. -/
def lead (b : Nat) : List Char × Decoder :=
  if b ≤ 0x7F then ([Char.ofNat b], start)
  else if 0xC2 ≤ b ∧ b ≤ 0xDF then ([], ⟨b % 0x20, 0, 1, 0x80, 0xBF⟩)
  else if 0xE0 ≤ b ∧ b ≤ 0xEF then
    ([], ⟨b % 0x10, 0, 2, if b = 0xE0 then 0xA0 else 0x80, if b = 0xED then 0x9F else 0xBF⟩)
  else if 0xF0 ≤ b ∧ b ≤ 0xF4 then
    ([], ⟨b % 0x08, 0, 3, if b = 0xF0 then 0x90 else 0x80, if b = 0xF4 then 0x8F else 0xBF⟩)
  else ([replacement], start)

def byte (d : Decoder) (b : Nat) : List Char × Decoder :=
  if d.bytesNeeded = 0 then lead b
  else if b < d.lower ∨ d.upper < b then
    -- the sequence is malformed, and the byte is read again as the first of a scalar
    (replacement :: (lead b).1, (lead b).2)
  else
    let codePoint := d.codePoint * 0x40 + b % 0x40
    if d.bytesSeen + 1 = d.bytesNeeded then ([Char.ofNat codePoint], start)
    else ([], ⟨codePoint, d.bytesSeen + 1, d.bytesNeeded, 0x80, 0xBF⟩)

def run : Decoder → List UInt8 → List Char
  | d, [] => if d.bytesNeeded = 0 then [] else [replacement]
  | d, b :: rest => (d.byte b.toNat).1 ++ run (d.byte b.toNat).2 rest

end Decoder

def dropMark : List Char → List Char
  | [] => []
  | c :: text => if c = byteOrderMark then text else c :: text

/-- `new TextDecoder().decode(bytes)` -/
def textDecode (bytes : List UInt8) : List Char := dropMark (Decoder.start.run bytes)

/-! ## Decoding an encoded text -/

namespace Decoder

variable {b n a : Nat} {d : Decoder} {out : List Char}

/-- A first byte that needs more, and the bounds of the next. -/
theorem lead_two (h : 0xC2 ≤ b ∧ b ≤ 0xDF) : lead b = ([], ⟨b % 0x20, 0, 1, 0x80, 0xBF⟩) := by
  rw [lead, if_neg (by omega), if_pos h]

theorem lead_three (h : 0xE0 ≤ b ∧ b ≤ 0xEF) :
    lead b = ([], ⟨b % 0x10, 0, 2, if b = 0xE0 then 0xA0 else 0x80,
      if b = 0xED then 0x9F else 0xBF⟩) := by
  rw [lead, if_neg (by omega), if_neg (by omega), if_pos h]

theorem lead_four (h : 0xF0 ≤ b ∧ b ≤ 0xF4) :
    lead b = ([], ⟨b % 0x08, 0, 3, if b = 0xF0 then 0x90 else 0x80,
      if b = 0xF4 then 0x8F else 0xBF⟩) := by
  rw [lead, if_neg (by omega), if_neg (by omega), if_neg (by omega), if_pos h]

/-- A continuation byte within the bounds that does not end its scalar. -/
theorem byte_more (hneeded : d.bytesSeen + 1 < d.bytesNeeded) (hlower : d.lower ≤ b)
    (hupper : b ≤ d.upper) :
    d.byte b = ([], ⟨d.codePoint * 0x40 + b % 0x40, d.bytesSeen + 1, d.bytesNeeded,
      0x80, 0xBF⟩) := by
  rw [byte, if_neg (by omega), if_neg (by omega)]
  rw [if_neg (by omega)]

/-- A continuation byte within the bounds that ends its scalar. -/
theorem byte_last (hneeded : d.bytesSeen + 1 = d.bytesNeeded) (hlower : d.lower ≤ b)
    (hupper : b ≤ d.upper) :
    d.byte b = ([Char.ofNat (d.codePoint * 0x40 + b % 0x40)], start) := by
  rw [byte, if_neg (by omega), if_neg (by omega)]
  rw [if_pos hneeded]

variable {rest : List UInt8}

theorem run_byte (h : n < 0x100) {d' : Decoder} (hbyte : d.byte n = (out, d')) :
    d.run (UInt8.ofNat n :: rest) = out ++ d'.run rest := by
  rw [run, UInt8.toNat_ofNat', Nat.mod_eq_of_lt h, hbyte]

theorem run_lead (h : n < 0x100) (hlead : lead n = (out, d)) :
    start.run (UInt8.ofNat n :: rest) = out ++ d.run rest :=
  run_byte (d := start) h hlead

theorem run_one (ha : a ≤ 0x7F) :
    start.run (UInt8.ofNat a :: rest) = Char.ofNat a :: start.run rest :=
  run_lead (by omega) (if_pos ha)

theorem run_two (ha : 0xC2 ≤ a ∧ a ≤ 0xDF) (hb : 0x80 ≤ b ∧ b ≤ 0xBF) :
    start.run (UInt8.ofNat a :: UInt8.ofNat b :: rest) =
      Char.ofNat (a % 0x20 * 0x40 + b % 0x40) :: start.run rest := by
  rw [run_lead (by omega) (lead_two ha), run_byte (by omega) (byte_last rfl hb.1 hb.2)]
  rfl

theorem run_three {c : Nat} (ha : 0xE0 ≤ a ∧ a ≤ 0xEF) (hb : 0x80 ≤ b ∧ b ≤ 0xBF)
    (hlower : a = 0xE0 → 0xA0 ≤ b) (hupper : a = 0xED → b ≤ 0x9F) (hc : 0x80 ≤ c ∧ c ≤ 0xBF) :
    start.run (UInt8.ofNat a :: UInt8.ofNat b :: UInt8.ofNat c :: rest) =
      Char.ofNat ((a % 0x10 * 0x40 + b % 0x40) * 0x40 + c % 0x40) :: start.run rest := by
  rw [run_lead (by omega) (lead_three ha), run_byte (by omega) (byte_more (by simp) ?_ ?_),
    run_byte (by omega) (byte_last rfl hc.1 hc.2)]
  · rfl
  · simp only
    split <;> omega
  · simp only
    split <;> omega

theorem run_four {c e : Nat} (ha : 0xF0 ≤ a ∧ a ≤ 0xF4) (hb : 0x80 ≤ b ∧ b ≤ 0xBF)
    (hlower : a = 0xF0 → 0x90 ≤ b) (hupper : a = 0xF4 → b ≤ 0x8F) (hc : 0x80 ≤ c ∧ c ≤ 0xBF)
    (he : 0x80 ≤ e ∧ e ≤ 0xBF) :
    start.run (UInt8.ofNat a :: UInt8.ofNat b :: UInt8.ofNat c :: UInt8.ofNat e :: rest) =
      Char.ofNat (((a % 0x08 * 0x40 + b % 0x40) * 0x40 + c % 0x40) * 0x40 + e % 0x40) ::
        start.run rest := by
  rw [run_lead (by omega) (lead_four ha), run_byte (by omega) (byte_more (by simp) ?_ ?_),
    run_byte (by omega) (byte_more (by simp) hc.1 hc.2),
    run_byte (by omega) (byte_last rfl he.1 he.2)]
  · rfl
  · simp only
    split <;> omega
  · simp only
    split <;> omega

theorem run_encodeChar {c : Char} :
    start.run (String.utf8EncodeChar c ++ rest) = c :: start.run rest := by
  have hvalid : c.val.toNat < 0xD800 ∨ 0xDFFF < c.val.toNat ∧ c.val.toNat < 0x110000 := c.valid
  have hc : ∀ n, n = c.val.toNat → Char.ofNat n = c := by
    rintro n rfl
    exact Char.ofNat_toNat c
  generalize hv : c.val.toNat = v at hvalid hc
  unfold String.utf8EncodeChar
  simp only [hv]
  split
  · simp [List.cons_append, run_one (by omega), hc _ rfl]
  split
  · simp only [List.cons_append, List.nil_append]
    rw [run_two (by omega) (by omega), hc _ (by omega)]
  split
  · simp only [List.cons_append, List.nil_append]
    rw [run_three (by omega) (by omega) (by omega) (by omega) (by omega), hc _ (by omega)]
  · simp only [List.cons_append, List.nil_append]
    rw [run_four (by omega) (by omega) (by omega) (by omega) (by omega) (by omega),
      hc _ (by omega)]

/-- **An encoded text is read back.** -/
theorem run_encode {text : List Char} : start.run (encode text) = text := by
  induction text with
  | nil => rfl
  | cons c text ih => rw [encode_cons, run_encodeChar, ih]

end Decoder

variable {text : List Char}

/-- **Only a byte order mark is lost.** -/
theorem textDecode_encode : textDecode (encode text) = dropMark text := by
  rw [textDecode, Decoder.run_encode]

theorem dropMark_eq_iff : dropMark text = text ↔ text.head? ≠ some byteOrderMark := by
  cases text with
  | nil => simp [dropMark]
  | cons c text => simp [dropMark]

end DamHopper.Utf8
