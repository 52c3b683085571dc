import Mathlib.Algebra.Ring.Nat
import Mathlib.Data.List.Infix
import DamHopper.Lib.TextDecoder

/-!
# Fs — ReplaceAll

What Replace All of the search panel writes for one file. The bytes are decoded by
`new TextDecoder()`, which drops a byte order mark, and the query is escaped into a regular
expression that matches nothing else. The replacement is not escaped: `String.replace` reads
the pairs that begin with a dollar sign in it as references to the match and to the text
around it.
-/

namespace DamHopper.Fs

open List Utf8

/-- The characters that make a reference after a dollar sign: itself, the match, the text
before and the text behind it. -/
def references : List Char := "$&`'".toList

/-- `GetSubstitution` of the language for a pattern without groups, for which `$1` and `$<`
stand for themselves. -/
def getSubstitution (before matched after : List Char) : List Char → List Char
  | [] => []
  | [c] => [c]
  | c :: d :: rest =>
    if c = '$' ∧ d ∈ references then
      (match references.idxOf d with
        | 0 => ['$']
        | 1 => matched
        | 2 => before
        | _ => after) ++ getSubstitution before matched after rest
    else c :: getSubstitution before matched after (d :: rest)

/-- `decoded.replace(regex, replacement)` from behind `before`, where `skip` characters of a
match are still to be passed. -/
def replaceFrom (query replacement : List Char) : List Char → Nat → List Char → List Char
  | _, _, [] => []
  | before, skip + 1, c :: rest => replaceFrom query replacement (before ++ [c]) skip rest
  | before, 0, c :: rest =>
    if query <+: c :: rest then
      getSubstitution before query ((c :: rest).drop query.length) replacement ++
        replaceFrom query replacement (before ++ [c]) (query.length - 1) rest
    else c :: replaceFrom query replacement (before ++ [c]) 0 rest

def units (query : List Char) : Nat := (query.map fun c => if c.toNat < 0x10000 then 1 else 2).sum

/-- The content `replaceAll` writes for a file, if it writes any. -/
def replaceAll (bytes : List UInt8) (searchQuery replaceQuery : List Char) :
    Option (List Char) :=
  if units searchQuery < 2 then none
  else
    let decoded := textDecode bytes
    if searchQuery <:+: decoded then some (replaceFrom searchQuery replaceQuery [] 0 decoded)
    else none

/-- Each occurrence of the query, from left to right, is replaced; everything else is kept. -/
inductive Replaced (query replacement : List Char) : List Char → List Char → Prop
  | nil : Replaced query replacement [] []
  | kept {c : Char} {rest out : List Char} : ¬ query <+: c :: rest →
    Replaced query replacement rest out → Replaced query replacement (c :: rest) (c :: out)
  | replaced {text out : List Char} : query <+: text →
    Replaced query replacement (text.drop query.length) out →
    Replaced query replacement text (replacement ++ out)

def Plain (replacement : List Char) : Prop := ∀ d ∈ references, ¬ ['$', d] <:+: replacement

instance (replacement : List Char) : Decidable (Plain replacement) :=
  inferInstanceAs (Decidable (∀ d ∈ references, _))

variable {query replacement before after text out : List Char} {c : Char}

theorem plain_cons_cons_iff {d : Char} {rest : List Char} :
    Plain (c :: d :: rest) ↔ ¬ (c = '$' ∧ d ∈ references) ∧ Plain (d :: rest) := by
  simp only [Plain, infix_cons_iff, cons_prefix_cons, nil_prefix, and_true]
  grind

theorem getSubstitution_plain (h : Plain replacement) (matched : List Char) :
    getSubstitution before matched after replacement = replacement := by
  fun_induction getSubstitution before matched after replacement with
  | case1 | case2 => rfl
  | case3 c d rest href ih => exact absurd href (plain_cons_cons_iff.mp h).1
  | case4 c d rest href ih => rw [ih (plain_cons_cons_iff.mp h).2]

/-- A reference to a text of one character, with none around it, is longer than what it
stands for. -/
theorem length_getSubstitution (c : Char) (replacement : List Char) :
    (getSubstitution [] [c] [] replacement).length ≤ replacement.length ∧
      ((getSubstitution [] [c] [] replacement).length = replacement.length →
        Plain replacement) := by
  fun_induction getSubstitution [] [c] [] replacement with
  | case1 => simp [Plain]
  | case2 c => simp [Plain, infix_cons_iff]
  | case3 _ d rest href ih =>
    have hshort : (match references.idxOf d with
        | 0 => ['$'] | 1 => [c] | 2 => [] | _ => []).length ≤ 1 := by
      split <;> simp
    simp only [length_append, length_cons]
    omega
  | case4 _ d rest href ih =>
    simp only [length_cons, Nat.add_right_cancel_iff, plain_cons_cons_iff] at ih ⊢
    exact ⟨by omega, fun hlength => ⟨href, ih.2 hlength⟩⟩

/-- **A plain replacement is taken literally.** -/
theorem replaced_replaceFrom (h : Plain replacement) (hquery : query ≠ []) (skip : Nat) :
    Replaced query replacement (text.drop skip)
      (replaceFrom query replacement before skip text) := by
  induction text generalizing before skip with
  | nil =>
    rw [drop_nil, replaceFrom]
    exact .nil
  | cons c rest ih =>
    cases skip with
    | succ skip => exact ih skip
    | zero =>
      rw [replaceFrom, getSubstitution_plain h]
      split
      next hhere =>
        have hbehind : (c :: rest).drop query.length = rest.drop (query.length - 1) := by
          obtain ⟨_, _, rfl⟩ := exists_cons_of_ne_nil hquery
          rfl
        refine .replaced hhere ?_
        rw [drop_zero, hbehind]
        exact ih _
      next hnot => exact .kept hnot (ih 0)

theorem Replaced.eq_of_self (h : Replaced query replacement text out) (htext : text = query)
    (hquery : query ≠ []) : out = replacement := by
  cases h with
  | nil => exact absurd htext.symm hquery
  | kept hnot _ => exact absurd (htext ▸ prefix_refl _) hnot
  | replaced _ hrest =>
    rw [htext, drop_length] at hrest
    cases hrest with
    | nil => exact append_nil _
    | replaced hnone _ => exact absurd (prefix_nil.mp hnone) hquery

/-- The least query Replace All accepts in characters: one of two units. -/
def astral : Char := Char.ofNat 0x1F600

theorem replaceAll_astral (h : text = [astral] ∨ text = [byteOrderMark, astral]) :
    replaceAll (encode text) [astral] replacement =
      some (getSubstitution [] [astral] [] replacement) := by
  have hdecoded : textDecode (encode text) = [astral] := by
    rw [textDecode_encode]
    rcases h with rfl | rfl <;> decide
  rw [replaceAll, if_neg (by decide), hdecoded, if_pos (infix_refl _)]
  simp [replaceFrom]

/-- **Replace All is literal and lossless** for all files with a byte order mark, or for all
without one, and every query, exactly if there is no mark and no reference in the
replacement. -/
theorem replace_all_literal_iff (marked : Bool) (replacement : List Char) :
    (∀ file query out, (file.head? == some byteOrderMark) = marked →
      replaceAll (encode file) query replacement = some out →
      Replaced query replacement file out) ↔ marked = false ∧ Plain replacement := by
  obtain ⟨hle, hplain⟩ := length_getSubstitution astral replacement
  constructor
  · intro h
    cases marked with
    | false =>
      have hself := (h _ _ _ (by decide) (replaceAll_astral (.inl rfl))).eq_of_self rfl
        (cons_ne_nil _ _)
      exact ⟨rfl, hplain (congrArg length hself)⟩
    | true =>
      -- the mark is kept by a literal replacement, and the code has dropped it
      have hmarked := h _ _ _ (by decide) (replaceAll_astral (.inr rfl))
      generalize getSubstitution [] [astral] [] replacement = out at hmarked hle
      cases hmarked with
      | kept _ hrest =>
        rw [hrest.eq_of_self rfl (cons_ne_nil _ _), length_cons] at hle
        omega
      | replaced hhere _ => exact absurd hhere (by decide)
  · rintro ⟨rfl, hplain⟩ file query out hfile hout
    have hdecoded : textDecode (encode file) = file :=
      textDecode_encode.trans (dropMark_eq_iff.mpr (by simpa using hfile))
    simp only [replaceAll, hdecoded, Option.ite_none_left_eq_some,
      Option.ite_none_right_eq_some, Option.some.injEq] at hout
    obtain ⟨hunits, _, rfl⟩ := hout
    refine replaced_replaceFrom hplain ?_ 0
    rintro rfl
    exact hunits (by decide)

/-- A pair of dollar signs becomes one. -/
theorem dollars_replaced : ∃ out,
    replaceAll (encode ['a', 'b']) ['a', 'b'] ['$', '$'] = some out ∧
      ¬ Replaced ['a', 'b'] ['$', '$'] ['a', 'b'] out := by
  refine ⟨['$'], by decide, fun h => ?_⟩
  cases h.eq_of_self rfl (cons_ne_nil _ _)

end DamHopper.Fs
