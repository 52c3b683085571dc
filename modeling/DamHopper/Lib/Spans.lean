import Mathlib.Data.List.Basic

/-!
# Spans — deleting stretches of a list

A span is a start and a length. `deleteSpans spans xs` is `xs` without the
positions the spans cover. A program that deletes stretches of a stream as
it reads it only ever appends: `deleteSpans_append` moves past kept
elements, `deleteSpans_concat` past a stretch that a new span covers.
-/

namespace DamHopper

open List

/-- Position `i` lies in one of the spans. -/
def covered (spans : List (Nat × Nat)) (i : Nat) : Bool :=
  spans.any fun s => s.1 ≤ i && i < s.1 + s.2

/-- `xs` without the positions that `spans` cover. -/
def deleteSpans {α : Type*} (spans : List (Nat × Nat)) (xs : List α) : List α :=
  (xs.zipIdx.filter fun x => !covered spans x.2).map Prod.fst

/-- No span reaches past position `n`. -/
def SpansWithin (spans : List (Nat × Nat)) (n : Nat) : Prop :=
  ∀ s ∈ spans, s.1 + s.2 ≤ n

section

variable {α : Type*} {spans : List (Nat × Nat)} {n i : Nat}

theorem SpansWithin.mono {m : Nat} (h : SpansWithin spans n) (hnm : n ≤ m) : SpansWithin spans m :=
  fun s hs => Nat.le_trans (h s hs) hnm

theorem SpansWithin.concat (h : SpansWithin spans n) (len : Nat) :
    SpansWithin (spans ++ [(n, len)]) (n + len) :=
  forall_mem_append.mpr ⟨h.mono (Nat.le_add_right _ _), forall_mem_singleton.mpr (Nat.le_refl _)⟩

theorem covered_of_within (h : SpansWithin spans n) (hi : n ≤ i) :
    covered spans i = false := by
  simp only [covered, any_eq_false, Bool.and_eq_true, decide_eq_true_eq]
  intro s hs hle
  have := h s hs
  omega

theorem covered_concat {s : Nat × Nat} : covered (spans ++ [s]) i
      = (covered spans i || (s.1 ≤ i && i < s.1 + s.2)) := by
  simp [covered]

/-- Elements no span covers are kept. -/
theorem deleteSpans_append {xs ys : List α} (h : SpansWithin spans xs.length) :
    deleteSpans spans (xs ++ ys) = deleteSpans spans xs ++ ys := by
  have hys : (ys.zipIdx xs.length).filter (fun x => !covered spans x.2) =
      ys.zipIdx xs.length := by
    rw [filter_eq_self]
    rintro ⟨y, i⟩ hmem
    simp [covered_of_within h (mem_zipIdx hmem).1]
  simp only [deleteSpans, zipIdx_append, filter_append, map_append,
    Nat.zero_add, hys, zipIdx_map_fst]

/-- A stretch that a new span covers disappears. -/
theorem deleteSpans_concat {xs ys : List α} :
    deleteSpans (spans ++ [(xs.length, ys.length)]) (xs ++ ys) = deleteSpans spans xs := by
  have hys : (ys.zipIdx xs.length).filter
      (fun x => !covered (spans ++ [(xs.length, ys.length)]) x.2) = [] := by
    rw [filter_eq_nil_iff]
    rintro ⟨y, i⟩ hmem
    have hb := mem_zipIdx hmem
    simp [covered_concat, hb.1, hb.2.1]
  have hxs : (xs.zipIdx).filter (fun x => !covered (spans ++ [(xs.length, ys.length)]) x.2)
      = (xs.zipIdx).filter (fun x => !covered spans x.2) := by
    apply filter_congr
    rintro ⟨x, i⟩ hmem
    have hb := mem_zipIdx hmem
    have hi : ¬ xs.length ≤ i := by omega
    simp [covered_concat, hi]
  simp only [deleteSpans, zipIdx_append, filter_append, Nat.zero_add,
    hys, hxs, append_nil]

end

end DamHopper
