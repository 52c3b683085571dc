import Mathlib.Data.List.Basic

/-!
# Leases — what a log says about a right that can lapse

A right is begun by one event of a log, renewed by later ones and ended by others.
`Signs` says which events do what; `Held` says of a log (newest event first) that the
right was begun once, was not ended since, and was never left alone for the idle
time up to a given moment. The three rules follow the log as it grows.
-/

namespace DamHopper

open List

/-- How a right shows in a log of events. -/
structure Signs (ε : Type _) where
  time : ε → Nat
  begins : ε → Prop
  ends : ε → Prop
  touches : ε → Prop
  idle : Nat

section

variable {ε : Type _} (σ : Signs ε)

/-- The right was begun by `e`, the first event that begins it, and no event since then
has ended it; up to `until` some touch is always less than the idle time old. -/
structure Held (log : List ε) (e : ε) (before : List ε) (until_ : Nat) : Prop where
  begun : σ.begins e
  since : ∃ after, log = after ++ e :: before ∧ ∀ e' ∈ after, ¬ σ.ends e'
  first : ∀ e' ∈ before, ¬ σ.begins e'
  touched : ∀ x, σ.time e ≤ x → x < until_ →
    ∃ e' ∈ log, σ.touches e' ∧ σ.time e' ≤ x ∧ x < σ.time e' + σ.idle

variable {σ} {log before : List ε} {e e' : ε} {until_ : Nat}

theorem Held.start (hbegins : σ.begins e) (htouches : σ.touches e)
    (hfirst : ∀ e' ∈ log, ¬ σ.begins e') (huntil : until_ ≤ σ.time e + σ.idle) :
    Held σ (e :: log) e log until_ where
  begun := hbegins
  since := ⟨[], rfl, fun _ h => absurd h not_mem_nil⟩
  first := hfirst
  touched _ hle hlt := ⟨e, mem_cons_self, htouches, hle, Nat.lt_of_lt_of_le hlt huntil⟩

section

variable (h : Held σ log e before until_)
include h

theorem Held.mono {sooner : Nat} (hle : sooner ≤ until_) : Held σ log e before sooner where
  __ := h
  touched x hx hlt := h.touched x hx (Nat.lt_of_lt_of_le hlt hle)

theorem Held.mem : e ∈ log := by
  obtain ⟨after, hlog, _⟩ := h.since
  rw [hlog]
  exact mem_append_right _ mem_cons_self

theorem Held.pass (hends : ¬ σ.ends e') : Held σ (e' :: log) e before until_ where
  __ := h
  since := by
    obtain ⟨after, hlog, hafter⟩ := h.since
    exact ⟨e' :: after, by rw [hlog, cons_append], forall_mem_cons.mpr ⟨hends, hafter⟩⟩
  touched x hle hlt := by
    obtain ⟨a, ha, htouch⟩ := h.touched x hle hlt
    exact ⟨a, mem_cons_of_mem _ ha, htouch⟩

theorem Held.touch (hends : ¬ σ.ends e') (htouches : σ.touches e') (htime : σ.time e' ≤ until_)
    {later : Nat} (hlater : later ≤ σ.time e' + σ.idle) : Held σ (e' :: log) e before later where
  __ := h.pass hends
  touched x hle hlt := by
    by_cases hx : x < until_
    · exact (h.pass hends).touched x hle hx
    · exact ⟨e', mem_cons_self, htouches, by omega, by omega⟩

end

end

end DamHopper
