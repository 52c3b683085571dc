import DamHopper.Lib.Recency
import Mathlib.Data.Finset.Max
import Mathlib.Data.String.Basic

/-!
# SessionChanges — settled turns

`handle_settled` of `session_changes/control.rs`: a terminal reports that a turn has settled
and is told whether it has reported that turn before. The record keeps the ids of the last
turns in an ordered set. When the set has more than 64 ids the first one is removed: the
least id, which need not be the one that was reported longest ago.

Only reports that are accepted reach the record. The checks of the request, the lookup of the
record and the comparison of its baseline id come before and are left out.
-/

namespace DamHopper.SessionChanges

open List

structure SettledRecord where
  recentTurnIds : Finset String
  lastSettledTurnId : Option String
  dirtySettledHint : Bool

structure SettledResponse where
  version : Nat
  accepted : Bool
  duplicate : Bool

/-- More than 64 ids lose the first one in the order of the set. -/
def trim (ids : Finset String) : Finset String :=
  if h : 64 < ids.card then ids.erase (ids.min' (Finset.card_pos.mp (Nat.zero_lt_of_lt h)))
  else ids

def SettledRecord.handleSettled (rec : SettledRecord) (turnId : String) :
    SettledResponse × SettledRecord :=
  (⟨1, true, turnId ∈ rec.recentTurnIds⟩,
    ⟨trim (insert turnId rec.recentTurnIds), some turnId, true⟩)

/-- The record after the reports that were accepted since its registration, the latest first. -/
def reported (turns : List String) : SettledRecord :=
  turns.foldr (fun turnId rec => (rec.handleSettled turnId).2) ⟨∅, none, false⟩

/-- The last 64 distinct turns that were reported, the latest first. -/
def window (turns : List String) : List String := (recent turns).take 64

/-- Whenever a turn outside a full window is reported, the turn of the window that was reported
longest ago has the least id. -/
def OldestLeast (turns : List String) : Prop :=
  ∀ x earlier, x :: earlier <:+ turns → ∀ newer oldest, window earlier = newer ++ [oldest] →
    newer.length = 63 → x ∉ window earlier → ∀ y ∈ x :: newer, oldest < y

variable {x : String} {turns : List String}

theorem nodup_window (turns : List String) : (window turns).Nodup :=
  (nodup_recent turns).sublist (take_sublist _ _)

theorem length_window_le (turns : List String) : (window turns).length ≤ 64 := length_take_le _ _

theorem window_cons : window (x :: turns) = x :: ((window turns).filter (· != x)).take 63 :=
  congrArg (x :: ·) (take_filter_ne (nodup_recent turns))

theorem mem_window_cons_of_mem (hx : x ∈ window turns) (y : String) :
    y ∈ window (x :: turns) ↔ y ∈ window turns := by
  have hshort : ((window turns).filter (· != x)).length < (window turns).length :=
    length_filter_lt_length_iff_exists.mpr ⟨x, hx, by simp⟩
  rw [window_cons, take_of_length_le (by have := length_window_le turns; omega)]
  by_cases hyx : y = x <;> simp [hyx, hx]

theorem window_cons_of_notMem (hx : x ∉ window turns) :
    window (x :: turns) = x :: (window turns).take 63 := by
  rw [window_cons, filter_eq_self.mpr]
  intro y hy
  simpa using fun hyx : y = x => hx (hyx ▸ hy)

theorem card_window : (window turns).toFinset.card = (window turns).length :=
  toFinset_card_of_nodup (nodup_window turns)

/-- One report keeps the memory equal to the window, unless it removes the wrong id. -/
theorem trim_window :
    trim (insert x (window turns).toFinset) = (window (x :: turns)).toFinset ↔
      ∀ newer oldest, window turns = newer ++ [oldest] → newer.length = 63 →
        x ∉ window turns → ∀ y ∈ x :: newer, oldest < y := by
  have hle := length_window_le turns
  by_cases hx : x ∈ window turns
  · rw [Finset.insert_eq_of_mem (mem_toFinset.mpr hx), trim, dif_neg (by rw [card_window]; omega)]
    refine iff_of_true ?_ fun _ _ _ _ hnot => absurd hx hnot
    ext y
    rw [mem_toFinset, mem_toFinset, mem_window_cons_of_mem hx]
  have hcard : (insert x (window turns).toFinset).card = (window turns).length + 1 := by
    rw [Finset.card_insert_of_notMem (by simpa using hx), card_window]
  rw [window_cons_of_notMem hx]
  by_cases hfull : (window turns).length = 64
  · -- the full window is `newer ++ [oldest]`, and the memory loses its least id
    obtain hnil | ⟨newer, oldest, hw⟩ := eq_nil_or_concat' (window turns)
    · simp [hnil] at hfull
    have hnodup := nodup_window turns
    have hlen : newer.length = 63 := by simpa [hw] using hfull
    have htake : (window turns).take 63 = newer := by rw [hw, ← hlen, take_left]
    have hout : oldest ∉ x :: newer := by grind
    have hsplit : insert x (window turns).toFinset = insert oldest (x :: newer).toFinset := by
      ext y
      simp [hw]
      tauto
    have herase : (insert x (window turns).toFinset).erase oldest = (x :: newer).toFinset := by
      rw [hsplit, Finset.erase_insert (by simpa using hout)]
    rw [trim, dif_pos (by omega), htake, ← herase,
      Finset.erase_inj _ (Finset.min'_mem _ _), Finset.min'_eq_iff]
    constructor
    · rintro ⟨-, hleast⟩ newer' oldest' hw' - - y hy
      obtain ⟨rfl, heq⟩ := append_inj' (hw.symm.trans hw') rfl
      cases heq
      refine (hleast y ?_).lt_of_ne fun heq => hout (heq ▸ hy)
      rw [hsplit]
      exact Finset.mem_insert_of_mem (mem_toFinset.mpr hy)
    · intro h
      rw [hsplit]
      refine ⟨Finset.mem_insert_self _ _, fun y hy => ?_⟩
      rw [Finset.mem_insert, mem_toFinset] at hy
      rcases hy with rfl | hy
      · exact le_rfl
      · exact (h newer oldest hw hlen hx y hy).le
  · rw [trim, dif_neg (by omega), take_of_length_le (by omega), toFinset_cons]
    refine iff_of_true rfl fun newer oldest hw hlen => absurd ?_ hfull
    rw [hw, length_append, hlen, length_singleton]

/-- **Which turns are recognised.** After every part of a sequence of reports, the next report
is answered as a duplicate exactly when its turn is one of the last 64 distinct turns reported
before it, if and only if whenever a turn outside a full window is reported, the turn that was
reported longest ago has the least id. -/
theorem settled_duplicates_iff (turns : List String) :
    (∀ past turnId, past <:+ turns →
      (((reported past).handleSettled turnId).1.duplicate = true ↔ turnId ∈ window past)) ↔
      OldestLeast turns := by
  constructor
  · intro h x earlier hsuffix
    have hids : ∀ past, past <:+ turns →
        (reported past).recentTurnIds = (window past).toFinset := by
      intro past hpast
      ext turnId
      rw [mem_toFinset, ← h past turnId hpast]
      exact decide_eq_true_iff.symm
    rw [← trim_window, ← hids _ hsuffix, ← hids _ ((suffix_cons x earlier).trans hsuffix)]
    rfl
  · intro h past turnId hpast
    have hids : (reported past).recentTurnIds = (window past).toFinset := by
      induction past with
      | nil => rfl
      | cons x earlier ih =>
        rw [← trim_window.mpr (h x earlier hpast), ← ih ((suffix_cons x earlier).trans hpast)]
        rfl
    rw [← mem_toFinset, ← hids]
    exact decide_eq_true_iff

def laterIds : List String := (range 64).map fun n => String.ofList ['b', Char.ofNat (n + 48)]

/-- After these the turn "a" is forgotten as soon as it is reported: when it is reported once
more, it is the last turn before and is not recognised. -/
theorem reported_turn_forgotten :
    ((reported ("a" :: laterIds)).handleSettled "a").1 = ⟨1, true, false⟩ ∧
      "a" ∈ window ("a" :: laterIds) := by
  have hforgotten : "a" ∉ (reported ("a" :: laterIds)).recentTurnIds := by decide +kernel
  exact ⟨by rw [SettledRecord.handleSettled, decide_eq_false hforgotten], mem_cons_self⟩

end DamHopper.SessionChanges
