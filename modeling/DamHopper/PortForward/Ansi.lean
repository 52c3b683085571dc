import Mathlib.Data.List.Infix

/-!
# Ansi — what `strip_ansi` leaves of terminal output

`scan_chunk` looks for port announcements in what `strip_ansi` returns. The
loop over an OSC sequence ends at BEL only, although its comment names the
terminator `ESC \` too: after a sequence that ends with it the scanner is
*deaf* and drops everything up to the next BEL.
-/

namespace DamHopper.PortForward

open List

def ESC : Char := '\x1b'

def BEL : Char := '\x07'

/-- `for c in chars.by_ref()`, left with `break` at the first `c` that ends the sequence. -/
def skipPast (ends : Char → Bool) (chars : List Char) : List Char :=
  (chars.dropWhile fun c => !ends c).tail

theorem length_skipPast (ends : Char → Bool) (chars : List Char) :
    (skipPast ends chars).length ≤ chars.length - 1 := by
  rw [skipPast, length_tail]
  exact Nat.sub_le_sub_right (dropWhile_suffix _).length_le 1

def stripAnsi : List Char → List Char
  | [] => []
  | '\x1b' :: '[' :: chars => stripAnsi (skipPast Char.isAlpha chars)
  | '\x1b' :: ']' :: chars => stripAnsi (skipPast (· == BEL) chars)
  | '\x1b' :: chars => stripAnsi chars -- a lone ESC is discarded
  | ch :: chars => ch :: stripAnsi chars
termination_by input => input.length
decreasing_by
  · grind [length_skipPast]
  · grind [length_skipPast]
  all_goals exact Nat.lt_succ_self _

/-- One piece of well-formed terminal output. -/
inductive Segment where
  | plain (text : List Char) (noEsc : ESC ∉ text)
  | csi (body : List Char) (final : Char) (unended : ∀ c ∈ body, c.isAlpha = false ∧ c ≠ ESC)
    (letter : final.isAlpha = true)
  | osc (body : List Char) (bel : Bool) (unended : BEL ∉ body ∧ ESC ∉ body)

/-- The text of a segment; an OSC sequence ends with BEL or with `ESC \`. -/
def Segment.chars : Segment → List Char
  | plain text _ => text
  | csi body final _ _ => ESC :: '[' :: (body ++ [final])
  | osc body bel _ => ESC :: ']' :: (body ++ if bel then [BEL] else [ESC, '\\'])

def Segment.kept : Segment → List Char
  | plain text _ => text
  | _ => []

/-- A deaf scanner passes over the segment without a trace: it has no plain text, and no BEL
inside a CSI sequence. -/
def Segment.Audible (deaf : Bool) : Segment → Prop
  | plain text _ => deaf → text = []
  | csi body _ _ _ => deaf → BEL ∉ body
  | osc _ _ _ => True

def Segment.deafens (deaf : Bool) : Segment → Bool
  | osc _ bel _ => !bel
  | _ => deaf

def Audible : Bool → List Segment → Prop
  | _, [] => True
  | deaf, s :: rest => s.Audible deaf ∧ Audible (s.deafens deaf) rest

/-- What a scanner reads, when it is deaf and when it is not. -/
def heard (deaf : Bool) (chars : List Char) : List Char :=
  if deaf then skipPast (· == BEL) chars else chars

/-! ## One segment -/

variable {ends : Char → Bool} {deaf : Bool} {final : Char} {l rest : List Char} {s : Segment}

theorem skipPast_append (h : ∀ c ∈ l, ends c = false) :
    skipPast ends (l ++ rest) = skipPast ends rest := by
  rw [skipPast, dropWhile_append_of_pos (by simpa using h), skipPast]

theorem deaf_append (h : BEL ∉ l) : heard true (l ++ rest) = heard true rest :=
  skipPast_append fun _ hc => beq_eq_false_iff_ne.mpr (ne_of_mem_of_not_mem hc h)

theorem stripAnsi_append (h : ESC ∉ l) : stripAnsi (l ++ rest) = l ++ stripAnsi rest := by
  induction l with
  | nil => rfl
  | cons c l ih =>
    have hc : c ≠ '\x1b' := fun heq => h (heq ▸ mem_cons_self)
    simp [stripAnsi, hc, ih fun hmem => h (mem_cons_of_mem c hmem)]

/-- What a deaf scanner hears of a text without ESC it shows. -/
theorem stripAnsi_deaf (h : ESC ∉ l) : stripAnsi (heard true l) = heard true l := by
  have hsuffix : heard true l <:+ l := (tail_suffix _).trans (dropWhile_suffix _)
  simpa [stripAnsi] using @stripAnsi_append _ [] fun hmem => h (hsuffix.subset hmem)

theorem ne_of_letter (h : final.isAlpha = true) : final ≠ BEL ∧ final ≠ ESC := by
  constructor <;> exact ne_of_apply_ne Char.isAlpha (by rw [h]; decide)

theorem Segment.shown (h : s.Audible deaf) : stripAnsi (heard deaf (s.chars ++ rest)) =
    s.kept ++ stripAnsi (heard (s.deafens deaf) rest) := by
  cases s with
  | plain text noEsc =>
    cases deaf with
    | false => exact stripAnsi_append noEsc
    | true =>
      obtain rfl : text = [] := h rfl
      rfl
  | csi body final unended letter =>
    cases deaf with
    | false =>
      have hskip : skipPast Char.isAlpha (body ++ final :: rest) = rest := by
        rw [skipPast_append fun c hc => (unended c hc).1]
        simp [skipPast, letter]
      simp [chars, heard, ESC, stripAnsi, hskip, kept, deafens]
    | true =>
      have hbel : BEL ∉ body ++ [final] := by simp [h rfl, (ne_of_letter letter).1.symm]
      exact congrArg stripAnsi (deaf_append (l := body ++ [final]) hbel)
  | osc body bel unended =>
    have hdeaf (l : List Char) : stripAnsi (heard deaf (ESC :: ']' :: l)) =
        stripAnsi (heard true l) := by
      cases deaf with
      | false => simp [heard, ESC, stripAnsi]
      | true => rfl
    rw [chars, cons_append, cons_append, hdeaf, append_assoc, deaf_append unended.1]
    cases bel <;> rfl

theorem Segment.lost (h : ¬ s.Audible deaf) : stripAnsi (heard deaf s.chars) ≠ s.kept := by
  intro hshown
  refine h ?_
  cases s with
  | plain text noEsc =>
    rintro rfl
    have hlength := length_skipPast (· == BEL) text
    rw [show skipPast _ text = text from (stripAnsi_deaf noEsc).symm.trans hshown] at hlength
    exact length_eq_zero_iff.mp (by omega)
  | csi body final unended letter =>
    rintro rfl hbel
    have hesc : ESC ∉ body ++ [final] := by
      simpa [(ne_of_letter letter).2.symm] using fun hmem => (unended ESC hmem).2 rfl
    obtain ⟨before, after, rfl, hfirst⟩ := eq_append_cons_of_mem hbel
    have hnil := (stripAnsi_deaf hesc).symm.trans hshown
    rw [append_assoc, deaf_append hfirst] at hnil
    exact append_ne_nil_of_right_ne_nil after (cons_ne_nil final []) hnil
  | osc => trivial

/-- **What `strip_ansi` keeps.** Wherever a text of plain segments, CSI and OSC sequences is cut
off, exactly its plain text comes through, if and only if no plain text and no BEL of a CSI
sequence stands between an OSC sequence that `ESC \` ends and the next that BEL ends. -/
theorem stripAnsi_keeps_plain_iff (segments : List Segment) :
    (∀ p, p <+: segments → stripAnsi (p.flatMap Segment.chars) = p.flatMap Segment.kept) ↔
      Audible false segments := by
  suffices ∀ deaf, (∀ p, p <+: segments → stripAnsi (heard deaf (p.flatMap Segment.chars)) =
      p.flatMap Segment.kept) ↔ Audible deaf segments from this false
  have hnil (deaf : Bool) : stripAnsi (heard deaf []) = [] := by
    cases deaf <;> simp [heard, skipPast, stripAnsi]
  induction segments with
  | nil => simp [hnil, Audible]
  | cons s segments ih =>
    intro deaf
    by_cases h : s.Audible deaf
    · simp only [Audible, h, true_and, ← ih]
      constructor
      · intro hall p hp
        simpa [Segment.shown h] using hall _ ((prefix_cons_inj s).mpr hp)
      · rintro hall (_ | ⟨_, p⟩) hp
        · exact hnil deaf
        · obtain ⟨rfl, htail⟩ := cons_prefix_cons.mp hp
          simpa [Segment.shown h] using hall p htail
    · exact iff_of_false (fun hall => Segment.lost h (by simpa using hall [s] ⟨segments, rfl⟩))
        fun haudible => h haudible.1

/-- A window title ended by `ESC \` swallows the announcement after it. -/
theorem announcement_lost :
    let title : Segment := .osc "0;vite".toList false (by decide)
    let announcement : Segment := .plain "localhost:5173".toList (by decide)
    stripAnsi (title.chars ++ announcement.chars) ≠ announcement.kept := by
  decide +kernel

end DamHopper.PortForward
