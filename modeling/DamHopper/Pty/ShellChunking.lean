import DamHopper.Pty.ShellLifecycle

/-!
# ShellChunking — when the cutting of the stream does not matter

`feed_visible` keeps its state between chunks, so a marker may be cut
anywhere; except that the two-byte terminator `ESC \` is recognised by a look
at the next byte *of the same chunk*. A chunk boundary between the two bytes
hides the terminator, and the marker stays open.

`feedVisible_append` is the one fact everything else is built from: two chunks
may be glued together unless their boundary falls inside such a terminator.
-/

namespace DamHopper.Pty

open List

namespace ShellLifecycle

/-! ## A feed, turn by turn -/

theorem Fed.append_assoc (a b c : Fed) : (a.append b).append c = a.append (b.append c) := by
  simp [Fed.append]

@[simp] theorem Fed.append_next {a b : Fed} : (a.append b).next = b.next := rfl

theorem Fed.append_idle {a : Fed} {s : ShellLifecycle} (h : a.next = s) :
    a.append (.idle s) = a := by
  subst h
  simp [Fed.append, Fed.idle]

theorem Turn.fed_next {t : Turn} : t.fed.next = t.next := rfl

section

variable (decode : List UInt8 → Option (List UInt8))
  {s : ShellLifecycle} {b byte : UInt8} {marker xs ys : List UInt8}
  {chunks : List (List UInt8)}

/-- Only an `ESC` in an open marker looks at the next byte. -/
theorem turn_following {following : Option UInt8}
    (h : b = ESC → following = some BACKSLASH → s.marker = none) :
    s.turn decode b following = s.turn decode b none := by
  unfold turn
  cases hm : s.marker with
  | none => rfl
  | some marker =>
    have hst : (b == ESC && following == some BACKSLASH) = false := by
      rw [hm] at h
      simpa using h
    simp only [hst]
    simp

theorem feedVisible_cons (rest : List UInt8)
    (h : byte = ESC → rest.head? = some BACKSLASH → s.marker = none) :
    feedVisible decode (byte :: rest) s = ((s.turn decode byte none).fed).append
          (feedVisible decode rest (s.turn decode byte none).next) := by
  cases rest with
  | nil => exact (Fed.append_idle rfl).symm
  | cons following rest =>
    have ht := turn_following decode (s := s) (b := byte) h
    simp only [head?_cons] at ht
    simp [feedVisible, ht, turn_none_lookahead]

/-- **Gluing two chunks**: cutting a stream changes nothing unless the cut falls
behind an `ESC` of an open marker and in front of a `\`. -/
theorem feedVisible_append (h : ∀ body, xs = body ++ [ESC] → ys.head? = some BACKSLASH →
      (feedVisible decode body s).next.marker = none) :
    feedVisible decode (xs ++ ys) s = (feedVisible decode xs s).append
          (feedVisible decode ys (feedVisible decode xs s).next) := by
  fun_induction feedVisible decode xs s with
  | case1 s => rfl
  | case2 byte s =>
    refine (feedVisible_cons decode ys fun hb hy => ?_)
    exact h [] (by rw [hb, nil_append]) hy
  | case3 byte following rest s t hla =>
    rename_i ih
    have ht : (s.turn decode byte (some following)).lookahead = true := hla
    have hrest := ih fun body hbody hy => by
      have := h (byte :: following :: body) (by simp [hbody]) hy
      simpa [feedVisible, ht] using this
    rw [cons_append, cons_append, feedVisible]
    simp only [ht]
    rw [hrest, Fed.append_assoc]
    rfl
  | case4 byte following rest s t hla =>
    rename_i ih
    have hst : byte = ESC → following = BACKSLASH → s.marker = none := by
      intro hb hf
      by_contra hm
      obtain ⟨marker, hm⟩ := Option.ne_none_iff_exists'.mp hm
      subst hb hf
      exact hla (show (s.turn decode ESC (some BACKSLASH)).lookahead = true by rw [turn, hm]; rfl)
    have ht : t = s.turn decode byte none := turn_following decode (by simpa using hst)
    have hrest := ih fun body hbody hy => by
      have hnone := h (byte :: body) (by rw [hbody, cons_append]) hy
      rw [feedVisible_cons decode body] at hnone
      · rwa [ht]
      · -- `body` begins as `following :: rest` does
        intro hb hhead
        refine hst hb ?_
        cases body with
        | nil => cases hhead
        | cons b body =>
          cases hbody
          simpa using hhead
    rw [cons_append, feedVisible_cons decode _ (by simpa using hst), ← ht,
      hrest, Fed.append_assoc]
    rfl

/-! ## A cut inside a terminator -/

theorem Fed.append_cancel {a b c : Fed} (h : a.append b = a.append c) : b = c := by
  obtain ⟨hvisible, hevents, hnext⟩ := Fed.mk.inj h
  exact Fed.mk.injEq _ _ _ _ _ _ ▸
    ⟨append_cancel_left hvisible, append_cancel_left hevents, hnext⟩

/-- The boundary between `chunk` and what follows it separates the two bytes
of a terminator of an open marker. A marker that is refused anyway and has
no room for the two bytes does not count: it is re-emitted either way. -/
def SplitsTerminator (s : ShellLifecycle) (chunk rest : List UInt8) : Prop :=
  ∃ body marker, chunk = body ++ [ESC] ∧ rest.head? = some BACKSLASH ∧
    (feedVisible decode body s).next.marker = some marker ∧
    (marker.length + 2 ≤ MAX ∨
      ({ (feedVisible decode body s).next with marker := none }.handle decode marker).accepted =
        true)

theorem turn_open (hm : s.marker = some marker) (hb : b ≠ BEL) : s.turn decode b none =
      if MAX < marker.length + 1 then
        { visible := PREFIX ++ (marker ++ [b]), events := [resetEvent],
          next := s.reset, lookahead := false }
      else
        { visible := [], events := [], next := { s with marker := some (marker ++ [b]) },
          lookahead := false } := by
  have hbel : (b == BEL) = false := by simpa using hb
  simp [turn, hm, hbel]

/-- The two bytes of a terminator, fed separately. -/
def feedCut (s : ShellLifecycle) : Fed :=
  (s.turn decode ESC none).fed.append
    ((s.turn decode ESC none).next.turn decode BACKSLASH none).fed

theorem feedCut_overflow (hm : s.marker = some marker) (hlen : MAX < marker.length + 2) :
    feedCut decode s = { visible := PREFIX ++ marker ++ [ESC, BACKSLASH]
                         events := [resetEvent], next := s.reset } := by
  unfold feedCut
  rw [turn_open decode hm (by decide)]
  by_cases hfull : MAX < marker.length + 1
  · -- the `ESC` overflows; the backslash is an ordinary byte after the reset
    rw [if_pos hfull]
    simp [Turn.fed, Fed.append, turn, settlePending, reset, PREFIX, BACKSLASH]
  · rw [if_neg hfull, turn_open (b := BACKSLASH) decode rfl (by decide),
      if_pos (by rwa [length_append])]
    simp [Turn.fed, Fed.append, reset]

theorem feedCut_open (hm : s.marker = some marker) (hlen : marker.length + 2 ≤ MAX) :
    (feedCut decode s).next.marker = some (marker ++ [ESC, BACKSLASH]) := by
  unfold feedCut
  rw [turn_open decode hm (by decide), if_neg (by omega),
    turn_open (b := BACKSLASH) decode rfl (by decide),
    if_neg (by rw [length_append]; exact Nat.not_lt.mpr hlen)]
  simp [Turn.fed]

variable {rest body : List UInt8} {n : Nat}

theorem feedVisible_terminator (hm : s.marker = some marker) :
    feedVisible decode (ESC :: BACKSLASH :: rest) s =
      ((s.closeMarker decode marker [ESC, BACKSLASH] true).fed).append
        (feedVisible decode rest
          (s.closeMarker decode marker [ESC, BACKSLASH] true).next) := by
  have ht : s.turn decode ESC (some BACKSLASH)
      = s.closeMarker decode marker [ESC, BACKSLASH] true := by
    rw [turn, hm]
    rfl
  rw [feedVisible, ht]
  rfl

theorem handle_rejected (h : (s.handle decode marker).accepted = false) :
    s.handle decode marker = s.reject := by
  refine handle_cases decode (P := fun handled => handled.accepted = false → handled = s.reject)
    marker (fun _ => rfl) ?_ ?_ h
  · rintro state events _ ⟨⟩
  · rintro ⟨⟩

theorem feedCut_ne (hm : s.marker = some marker) (h : marker.length + 2 ≤ MAX ∨
      ({ s with marker := none }.handle decode marker).accepted = true) :
    feedCut decode s ≠ (s.closeMarker decode marker [ESC, BACKSLASH] true).fed := by
  intro hsame
  by_cases hlen : marker.length + 2 ≤ MAX
  · -- cut, the marker stays open; `handle` never leaves one open
    have hnext := congrArg (·.next.marker) hsame
    simp only [feedCut_open decode hm hlen] at hnext
    have hclosed := handle_cases decode
      (P := fun handled => handled.next.marker = none) (s := { s with marker := none })
      marker rfl (fun _ _ _ => rfl) rfl
    rw [show ((s.closeMarker decode marker [ESC, BACKSLASH] true).fed).next.marker
      = none from hclosed] at hnext
    cases hnext
  · have hacc := h.resolve_left hlen
    rw [feedCut_overflow decode hm (by omega)] at hsame
    simp [Turn.fed, closeMarker, hacc] at hsame

/-! ## Cutting and gluing -/

theorem feedVisible_before_esc : feedVisible decode (body ++ ESC :: rest) s
      = (feedVisible decode body s).append
          (feedVisible decode (ESC :: rest)
            (feedVisible decode body s).next) := by
  refine feedVisible_append decode fun _ _ hhead => ?_
  simp only [head?_cons] at hhead
  exact absurd hhead (by decide)

/-- The two sides of a boundary inside a terminator. -/
theorem feedVisible_around_cut : (feedVisible decode (body ++ [ESC]) s).append
        (feedVisible decode (BACKSLASH :: rest)
          (feedVisible decode (body ++ [ESC]) s).next)
      = (feedVisible decode body s).append ((feedCut decode
              (feedVisible decode body s).next).append
            (feedVisible decode rest
              (feedCut decode
                (feedVisible decode body s).next).next)) := by
  rw [feedVisible_before_esc, feedVisible_cons decode rest (fun hb => absurd hb (by decide))]
  simp only [feedCut, Fed.append_assoc]
  rfl

/-- **Gluing two chunks** whose boundary splits no terminator. -/
theorem feedVisible_glue (h : ¬ SplitsTerminator decode s xs ys) :
    feedVisible decode (xs ++ ys) s = (feedVisible decode xs s).append
          (feedVisible decode ys (feedVisible decode xs s).next) := by
  by_cases hcut : ∃ body marker, xs = body ++ [ESC] ∧ ys.head? = some BACKSLASH ∧
      (feedVisible decode body s).next.marker = some marker
  · obtain ⟨body, marker, rfl, hys, hm⟩ := hcut
    obtain ⟨rest, rfl⟩ := head?_eq_some_iff.mp hys
    have hkeep : ¬ (marker.length + 2 ≤ MAX ∨
        ({ (feedVisible decode body s).next with marker := none }.handle decode
          marker).accepted = true) :=
      fun hbad => h ⟨body, marker, rfl, hys, hm, hbad⟩
    rw [not_or, Bool.not_eq_true] at hkeep
    -- a refused marker without room for the terminator is re-emitted either way
    rw [feedVisible_around_cut, feedCut_overflow decode hm (by omega), append_assoc,
      singleton_append, feedVisible_before_esc, feedVisible_terminator decode hm, closeMarker,
      handle_rejected decode hkeep.2]
    rfl
  · refine feedVisible_append decode fun body hbody hys => ?_
    by_contra hne
    obtain ⟨marker, hm⟩ := Option.ne_none_iff_exists'.mp hne
    exact hcut ⟨body, marker, hbody, hys, hm⟩

/-- A boundary that splits a terminator shows as soon as the second byte of
the terminator has been read. -/
theorem SplitsTerminator.differs (h : SplitsTerminator decode s xs ys) :
    (feedVisible decode xs s).append (feedVisible decode [BACKSLASH]
        (feedVisible decode xs s).next) ≠ feedVisible decode (xs ++ [BACKSLASH]) s := by
  obtain ⟨body, marker, rfl, _, hm, hbad⟩ := h
  rw [feedVisible_around_cut, append_assoc, singleton_append,
    feedVisible_before_esc, feedVisible_terminator decode hm]
  intro hsame
  have hcut := Fed.append_cancel hsame
  rw [feedVisible, feedVisible, Fed.append_idle rfl, Fed.append_idle Turn.fed_next] at hcut
  exact feedCut_ne decode hm hbad hcut

theorem SplitsTerminator.of_head {zs : List UInt8} (h : SplitsTerminator decode s xs ys)
    (hz : ys.head? = some BACKSLASH → zs.head? = some BACKSLASH) :
    SplitsTerminator decode s xs zs := by
  obtain ⟨body, marker, hxs, hys, hm⟩ := h
  exact ⟨body, marker, hxs, hz hys, hm⟩

/-! ## Whole cuttings -/

/-- No chunk boundary of a cutting splits a terminator. -/
def KeepsTerminators : List (List UInt8) → ShellLifecycle → Prop
  | [], _ => True
  | chunk :: rest, s =>
    ¬ SplitsTerminator decode s chunk rest.flatten ∧
      KeepsTerminators rest
        (feedVisible decode chunk s).next

/-- The first `n` bytes of a cut stream, cut in the same places. -/
def cutTo (n : Nat) : List (List UInt8) → List (List UInt8)
  | [] => []
  | chunk :: rest => chunk.take n :: cutTo (n - chunk.length) rest

theorem cutTo_flatten : (cutTo n chunks).flatten = chunks.flatten.take n := by
  induction chunks generalizing n with
  | nil => simp [cutTo]
  | cons chunk rest ih => simp [cutTo, ih, take_append]

/-- **Feeding a cut stream is feeding the stream**, if no terminator is split. -/
theorem KeepsTerminators.feedChunks_eq (h : KeepsTerminators decode chunks s) :
    feedChunks decode chunks s = feedVisible decode chunks.flatten s := by
  induction chunks generalizing s with
  | nil => rfl
  | cons chunk rest ih =>
    rw [flatten_cons, feedVisible_glue decode h.1, ← ih h.2]
    rfl

/-- Two bytes are needed to split a terminator. -/
theorem keepsTerminators_of_short (h : chunks.flatten.length ≤ 1) :
    KeepsTerminators decode chunks s := by
  induction chunks generalizing s with
  | nil => trivial
  | cons chunk rest ih =>
    rw [flatten_cons, length_append] at h
    refine ⟨?_, ih (by omega)⟩
    rintro ⟨body, marker, rfl, hhead, _⟩
    obtain ⟨tail, htail⟩ := head?_eq_some_iff.mp hhead
    rw [htail, length_append, length_singleton, length_cons] at h
    omega

theorem head?_of_take (h : (xs.take n).head? = some b) : xs.head? = some b := by
  rw [head?_take] at h
  split at h
  · cases h
  · exact h

theorem KeepsTerminators.cutTo (h : KeepsTerminators decode chunks s) (n : Nat) :
    KeepsTerminators decode (cutTo n chunks) s := by
  induction chunks generalizing s n with
  | nil => trivial
  | cons chunk rest ih =>
    by_cases hn : chunk.length ≤ n
    · rw [ShellLifecycle.cutTo, take_of_length_le hn]
      refine ⟨fun hsplit => h.1 (hsplit.of_head decode ?_), ih h.2 _⟩
      rw [cutTo_flatten]
      exact head?_of_take
    · -- the stream ends inside this chunk
      have hend : (ShellLifecycle.cutTo (n - chunk.length) rest).flatten = [] := by
        rw [cutTo_flatten, show n - chunk.length = 0 by omega, take_zero]
      refine ⟨?_, keepsTerminators_of_short decode (by simp [hend])⟩
      rintro ⟨_, _, _, hhead, _⟩
      simp [hend] at hhead

/-- A cutting that splits a terminator shows at the terminator's last byte. -/
theorem exists_differing_of_not_keeps (h : ¬ KeepsTerminators decode chunks s) :
    ∃ n, feedChunks decode (cutTo n chunks) s ≠
      feedVisible decode (chunks.flatten.take n) s := by
  induction chunks generalizing s with
  | nil => exact absurd trivial h
  | cons chunk rest ih =>
    by_cases hsplit : SplitsTerminator decode s chunk rest.flatten
    · refine ⟨chunk.length + 1, ?_⟩
      obtain ⟨tail, htail⟩ : ∃ tail, rest.flatten = BACKSLASH :: tail := by
        obtain ⟨_, _, _, hhead, _⟩ := hsplit
        exact head?_eq_some_iff.mp hhead
      have hone : (cutTo 1 rest).flatten = [BACKSLASH] := by
        simp [cutTo_flatten, htail]
      have hfeed : feedChunks decode (cutTo 1 rest)
          (feedVisible decode chunk s).next
            = feedVisible decode [BACKSLASH]
              (feedVisible decode chunk s).next := by
        rw [← hone]
        exact (keepsTerminators_of_short decode (by simp [hone])).feedChunks_eq
      have hcut : cutTo (chunk.length + 1) (chunk :: rest) = chunk :: cutTo 1 rest := by
        simp [cutTo]
      rw [hcut, feedChunks, hfeed, flatten_cons, htail, take_length_add_append]
      exact hsplit.differs decode
    · have hrest : ¬ KeepsTerminators decode rest
          (feedVisible decode chunk s).next :=
        fun hkeep => h ⟨hsplit, hkeep⟩
      obtain ⟨n, hn⟩ := ih hrest
      refine ⟨chunk.length + n, fun hsame => hn ?_⟩
      have hcut : cutTo (chunk.length + n) (chunk :: rest) = chunk :: cutTo n rest := by
        simp [cutTo]
      have hkeep : ¬ SplitsTerminator decode s chunk (rest.flatten.take n) :=
        fun hbad => hsplit (hbad.of_head decode head?_of_take)
      rw [hcut, flatten_cons, take_length_add_append,
        feedVisible_glue decode hkeep] at hsame
      exact Fed.append_cancel hsame

/-- **Chunking.** A cutting agrees with the uncut stream at every prefix of
it exactly when no chunk boundary splits a terminator; and any two such
cuttings of one stream give the same visible bytes, events and state. -/
theorem chunking_iff_keepsTerminators (s : ShellLifecycle) (chunks : List (List UInt8)) :
    ((∀ n, feedChunks decode (cutTo n chunks) s =
        feedVisible decode (chunks.flatten.take n) s) ↔ KeepsTerminators decode chunks s) ∧
    (KeepsTerminators decode chunks s → ∀ others, others.flatten = chunks.flatten →
      KeepsTerminators decode others s →
      feedChunks decode others s = feedChunks decode chunks s) := by
  refine ⟨⟨fun hall => ?_, fun hkeep n => ?_⟩, fun hkeep others hflat hothers => ?_⟩
  · by_contra hne
    obtain ⟨n, hn⟩ := exists_differing_of_not_keeps decode hne
    exact hn (hall n)
  · rw [(hkeep.cutTo decode n).feedChunks_eq, cutTo_flatten]
  · rw [hothers.feedChunks_eq, hkeep.feedChunks_eq, hflat]

/-- The prompt marker `A` of the nonce `n`, cut inside its `ESC \`: the whole
marker is accepted, the cut one stays open. -/
theorem cut_terminator_keeps_marker_open :
    let s := new [0x6E] 1
    let marker := PREFIX ++ [0x41, 0x3B, 0x6E, ESC]
    let decode : List UInt8 → Option (List UInt8) := fun _ => none
    let whole := feedChunks decode [marker ++ [BACKSLASH]] s
    let cut := feedChunks decode [marker, [BACKSLASH]] s
    whole.next.state = .prompt ∧ whole.next.marker = none ∧ cut.next.state = .unverified ∧
      cut.next.marker = some [0x41, 0x3B, 0x6E, ESC, BACKSLASH] ∧ cut ≠ whole := by
  decide

end

end ShellLifecycle

end DamHopper.Pty
