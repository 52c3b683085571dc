import Mathlib.Data.List.Infix

/-!
# Git — the result text of a conflicted file

`conflict-merge-actions.ts` and `conflict-tokenization.ts`: the editor of a conflicted file
takes the text of the work tree as the first result. A leading byte-order mark is split off
when the file is opened and put back when the result is written, but only in front of a text
that does not begin with one.

A text is the list of its UTF-16 units. How regions are found in the stages and in the result
plays no part in the text and is a parameter.
-/

namespace DamHopper.Git

abbrev JsText := List UInt16

def BOM : UInt16 := 0xfeff

inductive LineEnding where
  | crlf | lf | mixed | none
  deriving Repr, DecidableEq

/-- The lines with their terminators; `line` is what was read of the current one. -/
def tokenizeFrom (line : JsText) : JsText → List JsText
  | [] => if line = [] then [] else [line]
  | 13 :: 10 :: rest => (line ++ [13, 10]) :: tokenizeFrom [] rest
  | c :: rest =>
    if c = 13 ∨ c = 10 then (line ++ [c]) :: tokenizeFrom [] rest
    else tokenizeFrom (line ++ [c]) rest

def tokenizeLosslessLines (text : JsText) : List JsText := tokenizeFrom [] text

def detectFrom (hasCRLF hasLF : Bool) : JsText → LineEnding
  | [] =>
    if hasCRLF && hasLF then .mixed else if hasCRLF then .crlf else if hasLF then .lf else .none
  | 13 :: 10 :: rest => detectFrom true hasLF rest
  | c :: rest => detectFrom hasCRLF (hasLF || c == 10) rest

def detectLineEnding (text : JsText) : LineEnding := detectFrom false false text

def detectBOM (text : JsText) : Bool := text.head? == some BOM

structure StrippedText where
  text : JsText
  hasBOM : Bool

def stripBOM (text : JsText) : StrippedText :=
  if detectBOM text then ⟨text.drop 1, true⟩ else ⟨text, false⟩

def applyBOM (text : JsText) (hasBOM : Bool) : JsText :=
  if hasBOM && !detectBOM text then BOM :: text else text

structure StageContent where
  content : JsText
  present : Bool
  tokens : List JsText

def StageContent.new (content : JsText) (present : Bool) : StageContent :=
  ⟨content, present, if present then tokenizeLosslessLines (stripBOM content).text else []⟩

structure CreateModelOptions where
  baseContent : JsText
  basePresent : Bool
  oursContent : JsText
  oursPresent : Bool
  theirsContent : JsText
  theirsPresent : Bool
  worktreeContent : JsText

/-- The functions of `conflict-region-mapper.ts`. -/
structure RegionMapper (Source Region Readiness : Type) where
  buildSourceRegions (ours base theirs : List JsText) : List Source
  mapRegionsToResultText (sources : List Source) (resultText : JsText) : List Region
  computeConflictReadiness (regions : List Region) (resultText : JsText) : Readiness

structure ConflictMergeModel (Region Readiness : Type) where
  base : StageContent
  ours : StageContent
  theirs : StageContent
  eol : LineEnding
  hasBom : Bool
  regions : List Region
  resultText : JsText
  resultRevision : Nat
  readiness : Readiness

variable {Source Region Readiness : Type}

def createConflictMergeModel (mapper : RegionMapper Source Region Readiness)
    (options : CreateModelOptions) : ConflictMergeModel Region Readiness :=
  let ⟨cleanWorktree, hasBOM⟩ := stripBOM options.worktreeContent
  let base := .new options.baseContent options.basePresent
  let ours := .new options.oursContent options.oursPresent
  let theirs := .new options.theirsContent options.theirsPresent
  let mappedRegions := mapper.mapRegionsToResultText
    (mapper.buildSourceRegions ours.tokens base.tokens theirs.tokens) cleanWorktree
  { base, ours, theirs
    eol := detectLineEnding cleanWorktree
    hasBom := hasBOM
    regions := mappedRegions
    resultText := cleanWorktree
    resultRevision := 1
    readiness := mapper.computeConflictReadiness mappedRegions cleanWorktree }

def getModelSerializedResult (model : ConflictMergeModel Region Readiness) : JsText :=
  applyBOM model.resultText model.hasBom

/-- **Opening and saving without edits.** The saved text is the text of the work tree if and
only if this does not begin with two byte-order marks. -/
theorem serialized_unedited_iff (mapper : RegionMapper Source Region Readiness)
    (options : CreateModelOptions) :
    getModelSerializedResult (createConflictMergeModel mapper options) =
        options.worktreeContent ↔
      ¬ [BOM, BOM] <+: options.worktreeContent := by
  show applyBOM (stripBOM options.worktreeContent).text (stripBOM options.worktreeContent).hasBOM =
    options.worktreeContent ↔ _
  rcases options.worktreeContent with _ | ⟨a, _ | ⟨b, rest⟩⟩
  · simp [stripBOM, applyBOM, detectBOM]
  · by_cases ha : a = BOM <;> simp [stripBOM, applyBOM, detectBOM, ha]
  · by_cases ha : BOM = a
    · subst ha
      by_cases hb : BOM = b
      · simp [stripBOM, applyBOM, detectBOM, ← hb]
      · simp [stripBOM, applyBOM, detectBOM, hb, Ne.symm hb]
    · simp [stripBOM, applyBOM, detectBOM, ha, Ne.symm ha]

/-- Of two byte-order marks one is lost. -/
theorem doubled_mark_lost :
    getModelSerializedResult (createConflictMergeModel
        (⟨fun _ _ _ => [], fun _ _ => [], fun _ _ => ()⟩ : RegionMapper Unit Unit Unit)
        ⟨[], false, [], false, [], false, [BOM, BOM, 97]⟩) = [BOM, 97] := by
  decide

end DamHopper.Git
