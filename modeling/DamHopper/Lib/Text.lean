import DamHopper.Lib.Utf8

/-!
# Text — decoding, white space, numbers and lines

`Utf8.decode` is the inverse of `Utf8.encode`: it fails on exactly the byte strings that
encode no text. White space is that of the Unicode property `White_Space`. A byte string
of lines is taken apart by `lines` and put together by `unlines`; `splitAtBlank` cuts it
at its first empty line.
-/

namespace DamHopper

open List

/-! ## Decoding -/

namespace Utf8

def decodeChar? (bytes : List UInt8) : Option Char := bytes.toByteArray.utf8DecodeChar? 0

/-- At most so many scalars. -/
def decodeUpTo : Nat → List UInt8 → Option (List Char)
  | _, [] => some []
  | 0, _ :: _ => none
  | fuel + 1, b :: rest =>
    match decodeChar? (b :: rest) with
    | none => none
    | some c => (decodeUpTo fuel ((b :: rest).drop c.utf8Size)).map (c :: ·)

def decode (bytes : List UInt8) : Option (List Char) := decodeUpTo bytes.length bytes

theorem decodeChar?_encode (c : Char) (rest : List UInt8) :
    decodeChar? (String.utf8EncodeChar c ++ rest) = some c := by
  rw [decodeChar?, toByteArray_append]
  exact ByteArray.utf8DecodeChar?_utf8EncodeChar_append

variable {text : List Char} {bytes : List UInt8} {fuel : Nat}

/-- A byte that is a scalar by itself stands for that scalar wherever it occurs. -/
theorem mem_of_mem_encode {d : Char} {b : UInt8} (hd : String.utf8EncodeChar d = [b])
    (hb : isContinuation b = false) (h : b ∈ encode text) : d ∈ text := by
  rw [encode, mem_flatMap] at h
  obtain ⟨c, hc, hmem⟩ := h
  obtain ⟨lead, tail, hshape, _, htail⟩ := encodeChar_shape c
  rw [hshape] at hmem
  rcases mem_cons.mp hmem with rfl | hmem
  · have hc' := decodeChar?_encode c []
    have hd' := decodeChar?_encode d tail
    rw [append_nil, hshape] at hc'
    rw [hd] at hd'
    rw [← Option.some.inj (hc'.symm.trans hd')]
    exact hc
  · rw [htail b hmem] at hb
    cases hb

theorem decodeUpTo_encode (h : (encode text).length ≤ fuel) :
    decodeUpTo fuel (encode text) = some text := by
  induction text generalizing fuel with
  | nil => cases fuel <;> rfl
  | cons c text ih =>
    obtain ⟨lead, tail, hc, _, _⟩ := encodeChar_shape c
    have hsize : (String.utf8EncodeChar c).length = c.utf8Size := String.length_utf8EncodeChar c
    have hpos : (encode (c :: text)) = lead :: (tail ++ encode text) := by
      rw [encode_cons, hc, cons_append]
    cases fuel with
    | zero =>
      simp [hpos] at h
    | succ fuel =>
      have hfirst : decodeChar? (encode (c :: text)) = some c := decodeChar?_encode c _
      have hdrop : (encode (c :: text)).drop c.utf8Size = encode text := by
        rw [encode_cons, ← hsize, drop_left]
      rw [hpos] at h hfirst hdrop ⊢
      rw [decodeUpTo, hfirst]
      dsimp only
      rw [hdrop, ih]
      · rfl
      · simp only [length_cons, length_append] at h
        omega

@[simp] theorem decode_encode : decode (encode text) = some text :=
  decodeUpTo_encode (Nat.le_refl _)

theorem encode_of_decodeUpTo (h : decodeUpTo fuel bytes = some text) :
    bytes = encode text := by
  induction fuel generalizing bytes text with
  | zero =>
    cases bytes with
    | nil =>
      cases h
      rfl
    | cons b rest => cases h
  | succ fuel ih =>
    cases bytes with
    | nil =>
      cases h
      rfl
    | cons b rest =>
      rw [decodeUpTo] at h
      split at h
      · cases h
      rename_i c hc
      obtain ⟨text', htext, rfl⟩ := Option.map_eq_some_iff.mp h
      -- the bytes are those of `c`, then the rest
      have hbytes := congrArg (·.data.toList) (ByteArray.eq_of_utf8DecodeChar?_eq_some hc)
      simp only [ByteArray.data_append, ByteArray.data_extract, data_toByteArray,
        Array.toList_append, Array.toList_extract, extract_eq_take_drop] at hbytes
      rw [take_of_length_le (by simp), ih htext] at hbytes
      exact hbytes

/-- **Decoding succeeds exactly on encodings.** -/
theorem decode_eq_some_iff : decode bytes = some text ↔ bytes = encode text :=
  ⟨encode_of_decodeUpTo, fun h => h ▸ decode_encode⟩

end Utf8

/-! ## White space -/

namespace Text

def isWhitespace (c : Char) : Bool :=
  let n := c.toNat
  (9 ≤ n && n ≤ 13) || n == 0x20 || n == 0x85 || n == 0xA0 || n == 0x1680 ||
    (0x2000 ≤ n && n ≤ 0x200A) || n == 0x2028 || n == 0x2029 || n == 0x202F || n == 0x205F ||
    n == 0x3000

def trimStart (text : List Char) : List Char := text.dropWhile isWhitespace

def trim (text : List Char) : List Char := (trimStart (trimStart text).reverse).reverse

/-- Take a pattern away from the front as often as it stands there. -/
def trimStartMatches (pattern : List Char) (text : List Char) : List Char :=
  go text.length text
where
  go : Nat → List Char → List Char
    | 0, text => text
    | fuel + 1, text =>
      match text.dropPrefix? pattern with
      | some rest => go fuel rest
      | none => text

variable {c : Char}

/-- A pattern that stands there once goes once. -/
theorem trimStartMatches_once {pattern text : List Char} (h : text.head? ≠ some c) :
    trimStartMatches (c :: pattern) ((c :: pattern) ++ text) = text := by
  have hagain : ∀ fuel, trimStartMatches.go (c :: pattern) fuel text = text := by
    intro fuel
    cases fuel with
    | zero => rfl
    | succ fuel =>
      have hnone : text.dropPrefix? (c :: pattern) = none := by
        cases text with
        | nil => rfl
        | cons d text =>
          rw [dropPrefix?, if_neg]
          intro heq
          exact h (congrArg some (eq_of_beq heq))
      rw [trimStartMatches.go, hnone]
  rw [trimStartMatches, cons_append, length_cons, trimStartMatches.go,
    ← cons_append, dropPrefix?_append_of_beq text (beq_self_eq_true (c :: pattern))]
  exact hagain _

/-- White space around a text without any is all that goes. -/
theorem trim_surrounded {before text after : List Char}
    (hbefore : ∀ c ∈ before, isWhitespace c = true) (hafter : ∀ c ∈ after, isWhitespace c = true)
    (htext : ∀ c ∈ text, isWhitespace c = false) (hne : text ≠ []) :
    trim (before ++ text ++ after) = text := by
  have hstart : ∀ {front body : List Char}, (∀ c ∈ front, isWhitespace c = true) →
      (∀ c ∈ body.head?, isWhitespace c = false) → body ≠ [] →
      trimStart (front ++ body) = body := by
    intro front body hfront hhead hbody
    rw [trimStart, dropWhile_append_of_pos hfront]
    cases body with
    | nil => exact absurd rfl hbody
    | cons c body => exact dropWhile_cons_of_neg (by simp [hhead c rfl])
  rw [trim, append_assoc, hstart hbefore, reverse_append, hstart, reverse_reverse]
  · exact fun c hc => hafter c (mem_reverse.mp hc)
  · rw [head?_reverse]
    exact fun c hc => htext c (mem_of_getLast? hc)
  · simpa using hne
  · intro c hc
    rw [head?_append_of_ne_nil _ hne] at hc
    exact htext c (mem_of_head? hc)
  · simp [hne]

/-! ## Words and numbers -/

def isAsciiWhitespace (c : Char) : Bool :=
  c = ' ' || c = '\t' || c = '\n' || c = '\r' || c.toNat == 12

/-- The parts of a text between ASCII white space. -/
def words (text : List Char) : List (List Char) :=
  (text.splitOnP isAsciiWhitespace).filter (· ≠ [])

def parseNat? (digits : List Char) : Option Nat :=
  if digits ≠ [] ∧ digits.all Char.isDigit then some (Nat.ofDigitChars 10 digits 0) else none

def parseInt? (text : List Char) : Option Int :=
  if text.head? = some '-' then (parseNat? text.tail).map fun n : Nat => -(n : Int)
  else if text.head? = some '+' then (parseNat? text.tail).map fun n : Nat => (n : Int)
  else (parseNat? text).map fun n : Nat => (n : Int)

def printInt (n : Int) : List Char :=
  if n < 0 then '-' :: Nat.toDigits 10 n.natAbs else Nat.toDigits 10 n.natAbs

theorem isDigit_toDigits {n : Nat} (h : c ∈ Nat.toDigits 10 n) : c.isDigit = true :=
  Nat.isDigit_of_mem_toDigits (by decide) (by decide) h

theorem mem_printInt {n : Int} (h : c ∈ printInt n) : c = '-' ∨ c.isDigit = true := by
  unfold printInt at h
  split at h
  · exact (mem_cons.mp h).imp id isDigit_toDigits
  · exact .inr (isDigit_toDigits h)

/-! ## Lines -/

section

variable {α : Type _} [DecidableEq α] (lf : α)

def lines : List α → List (List α)
  | [] => []
  | b :: rest =>
    if b = lf then [] :: lines rest
    else match lines rest with
      | [] => [[b]]
      | line :: more => (b :: line) :: more

omit [DecidableEq α] in
def unlines (ls : List (List α)) : List α := ls.flatMap (· ++ [lf])

/-- What stands before the first empty line, the byte that ends its last line included, and
what stands after it. -/
def splitAtBlank : List α → Option (List α × List α)
  | [] => none
  | b :: rest =>
    if b = lf ∧ rest.head? = some lf then some ([b], rest.tail)
    else (splitAtBlank rest).map fun (front, back) => (b :: front, back)

variable {lf}
  {line rest : List α} {ls : List (List α)}

theorem not_mem_of_mem_lines {bytes : List α} (h : line ∈ lines lf bytes) : lf ∉ line := by
  induction bytes generalizing line with
  | nil => cases h
  | cons b rest ih =>
    rw [lines] at h
    split_ifs at h with hb
    · rcases mem_cons.mp h with rfl | h
      · exact not_mem_nil
      · exact ih h
    split at h
    · rw [mem_singleton] at h
      simpa [h] using Ne.symm hb
    next first more hlines =>
      rcases mem_cons.mp h with rfl | h
      · rw [mem_cons, not_or]
        exact ⟨Ne.symm hb, ih (hlines ▸ mem_cons_self)⟩
      · exact ih (hlines ▸ mem_cons_of_mem _ h)

theorem lines_append (h : lf ∉ line) : lines lf (line ++ lf :: rest) = line :: lines lf rest := by
  induction line with
  | nil => rw [nil_append, lines, if_pos rfl]
  | cons b line ih =>
    rw [mem_cons, not_or] at h
    rw [cons_append, lines, if_neg (Ne.symm h.1), ih h.2]

/-- Lines put together come apart again, whatever stands after them. -/
theorem lines_unlines_append (h : ∀ line ∈ ls, lf ∉ line) :
    lines lf (unlines lf ls ++ rest) = ls ++ lines lf rest := by
  induction ls with
  | nil => rfl
  | cons line ls ih =>
    rw [forall_mem_cons] at h
    rw [unlines, flatMap_cons, append_assoc, append_assoc, singleton_append, lines_append h.1]
    exact congrArg _ (ih h.2)

theorem lines_unlines (h : ∀ line ∈ ls, lf ∉ line) : lines lf (unlines lf ls) = ls := by
  rw [← append_nil (unlines lf ls), lines_unlines_append h, lines, append_nil]

theorem splitAtBlank_line (hline : lf ∉ line) (hne : line ≠ []) :
    splitAtBlank lf (line ++ lf :: lf :: rest) = some (line ++ [lf], rest) := by
  induction line with
  | nil => exact absurd rfl hne
  | cons b line ih =>
    rw [mem_cons, not_or] at hline
    rw [cons_append, splitAtBlank, if_neg (fun h => hline.1 h.1.symm)]
    cases line with
    | nil => simp [splitAtBlank]
    | cons b' line => rw [ih hline.2 (cons_ne_nil _ _)]; rfl

theorem splitAtBlank_cons (hline : lf ∉ line) (hrest : rest.head? ≠ some lf) :
    splitAtBlank lf (line ++ lf :: rest) =
      (splitAtBlank lf rest).map fun (front, back) => (line ++ lf :: front, back) := by
  induction line with
  | nil => rw [nil_append, splitAtBlank, if_neg fun h => hrest h.2]; rfl
  | cons b line ih =>
    rw [mem_cons, not_or] at hline
    rw [cons_append, splitAtBlank, if_neg (fun h => hline.1 h.1.symm), ih hline.2,
      Option.map_map]
    rfl

/-- Lines of which none is empty end at the empty line that is put after them. -/
theorem splitAtBlank_unlines (hne : ls ≠ []) (h : ∀ line ∈ ls, lf ∉ line ∧ line ≠ []) :
    splitAtBlank lf (unlines lf ls ++ lf :: rest) = some (unlines lf ls, rest) := by
  induction ls with
  | nil => exact absurd rfl hne
  | cons line ls ih =>
    rw [forall_mem_cons] at h
    have hcons : ∀ ls : List (List α), unlines lf (line :: ls) = line ++ lf :: unlines lf ls := by
      intro ls
      simp [unlines, flatMap_cons, append_assoc]
    cases ls with
    | nil =>
      rw [hcons, append_assoc]
      exact splitAtBlank_line h.1.1 h.1.2
    | cons line' ls =>
      have hhead : (unlines lf (line' :: ls) ++ lf :: rest).head? ≠ some lf := by
        have hline' := h.2 line' mem_cons_self
        cases line' with
        | nil => exact absurd rfl hline'.2
        | cons b line' =>
          rw [mem_cons, not_or] at hline'
          simpa [unlines] using Ne.symm hline'.1.1
      rw [hcons, append_assoc, cons_append, splitAtBlank_cons h.1.1 hhead,
        ih (cons_ne_nil _ _) h.2]
      rfl

end

end Text

end DamHopper
