import DamHopper.AgentStatus.Types
import DamHopper.Lib.Utf8

/-!
# Scrollback — the replay buffer of a terminal

Model of `server/src/pty/buffer.rs`. The buffer keeps the tail of what a
terminal wrote, cut at UTF-8 scalar boundaries, and a byte counter that
survives eviction; a client that comes back names the offset it has
rendered and gets the missing bytes or a full snapshot.

Byte counts are `Nat`: `total_written` is a `u64` that grows by what was
pushed, and `data.len() + chunk.len()` is bounded by two allocations.

The abstract side is `IsTail`: the longest suffix of the stream that fits
and starts on a boundary. `Tracks` ties a buffer to the stream written so
far; `push` keeps it (`Tracks.push`), and every statement about replay
follows from it.
-/

namespace DamHopper.Pty

open Utf8 List

/-! ## The model -/

structure ScrollbackBuffer where
  data : List UInt8
  capacity : Nat
  /-- Total bytes ever written (survives eviction). -/
  totalWritten : Nat
  deriving Repr, DecidableEq

attribute [ext] ScrollbackBuffer

structure BufferReplay where
  data : List UInt8
  offset : Nat
  reset : Bool
  truncated : Bool
  deriving Repr, DecidableEq

namespace ScrollbackBuffer

def new (capacity : Nat) : ScrollbackBuffer :=
  { data := [], capacity, totalWritten := 0 }

def push (buf : ScrollbackBuffer) (chunk : List UInt8) : ScrollbackBuffer :=
  let totalWritten := buf.totalWritten + chunk.length
  let total := buf.data.length + chunk.length
  if total > buf.capacity then
    let keepFrom := total - buf.capacity
    if keepFrom ≥ buf.data.length then
      -- chunk alone exceeds capacity: keep its tail
      let chunkStart := keepFrom - buf.data.length
      let chunkStart := chunkStart + skipContinuation (chunk.drop chunkStart)
      { buf with data := chunk.drop chunkStart, totalWritten }
    else
      let drainTo := keepFrom + skipContinuation (buf.data.drop keepFrom)
      { buf with data := buf.data.drop drainTo ++ chunk, totalWritten }
  else
    { buf with data := buf.data ++ chunk, totalWritten }

def currentOffset (buf : ScrollbackBuffer) : Nat := buf.totalWritten

def readReplay (buf : ScrollbackBuffer) (fromOffset : Option Nat) : BufferReplay :=
  let bufferStartOffset := buf.totalWritten - buf.data.length
  let snapshot (truncated : Bool) : BufferReplay :=
    { data := buf.data, offset := buf.totalWritten, reset := true, truncated }
  match fromOffset with
  | none => snapshot (bufferStartOffset > 0)
  | some requestedOffset =>
    if requestedOffset < bufferStartOffset then snapshot true
    else if requestedOffset > buf.totalWritten then snapshot (bufferStartOffset > 0)
    else
      let skip := requestedOffset - bufferStartOffset
      match buf.data[skip]? with
      | some b =>
        -- a delta cannot start inside a scalar
        if isContinuation b then snapshot (bufferStartOffset > 0)
        else
          { data := buf.data.drop skip, offset := buf.totalWritten,
            reset := false, truncated := false }
      | none =>
        { data := buf.data.drop (min skip buf.data.length),
          offset := buf.totalWritten, reset := false, truncated := false }

/-- Seed a buffer with persisted data, keeping the tail that fits. -/
def hydrate (buf : ScrollbackBuffer) (data : List UInt8) (totalWritten : Nat) :
    ScrollbackBuffer :=
  let start := data.length - min data.length buf.capacity
  { buf with data := data.drop (start + skipContinuation (data.drop start)), totalWritten }

/-- Seed persisted data before what has been captured from the relaunched terminal. -/
def hydratePrefix (buf : ScrollbackBuffer) (data : List UInt8) (totalWritten : Nat) :
    ScrollbackBuffer :=
  buf.hydrate (data ++ buf.data) (AgentStatus.satAdd totalWritten buf.totalWritten)

def pushAll (buf : ScrollbackBuffer) (chunks : List (List UInt8)) :
    ScrollbackBuffer :=
  chunks.foldl push buf

/-! ## What the buffer is for -/

/-- `tail` is the longest suffix of `stream` of length at most `capacity`
that starts on a scalar boundary. -/
structure IsTail (capacity : Nat) (stream tail : List UInt8) : Prop where
  boundary : ∃ p, Boundary stream p ∧ tail = stream.drop p
  fits : tail.length ≤ capacity
  longest : ∀ q, Boundary stream q → (stream.drop q).length ≤ capacity →
    (stream.drop q).length ≤ tail.length

variable {stream : List UInt8} {buf : ScrollbackBuffer} {capacity p : Nat}

/-- The tail in terms of its offset: the least boundary that leaves at
most `capacity` bytes. -/
theorem IsTail.of_least (hp : Boundary stream p) (hfit : stream.length - p ≤ capacity)
    (hleast : ∀ q, Boundary stream q → stream.length - capacity ≤ q → p ≤ q) :
    IsTail capacity stream (stream.drop p) where
  boundary := ⟨p, hp, rfl⟩
  fits := by rwa [length_drop]
  longest := by
    intro q hq hcap
    rw [length_drop] at hcap ⊢
    have := hleast q hq (by omega)
    rw [length_drop]
    omega

/-- What a scan from the first offset that fits leaves. -/
theorem isTail_scan (h : Valid stream) {start : Nat} (hstart : start = stream.length - capacity) :
    IsTail capacity stream (stream.drop (start + skipContinuation (stream.drop start))) := by
  obtain ⟨hb, hl⟩ := skipContinuation_least h (show start ≤ stream.length by omega)
  exact IsTail.of_least hb (by omega) fun q hq hcap => hl q hq (by omega)

/-- The buffer holds the tail of `stream` and knows its length. -/
structure Tracks (buf : ScrollbackBuffer) (stream : List UInt8) : Prop where
  valid : Valid stream
  written : buf.totalWritten = stream.length
  tail : IsTail buf.capacity stream buf.data

theorem tracks_new (capacity : Nat) : Tracks (new capacity) [] where
  valid := Valid.nil
  written := rfl
  tail := by
    refine ⟨⟨0, boundary_zero Valid.nil, rfl⟩, Nat.zero_le _, ?_⟩
    simp

/-- What the buffer holds, by the offset it starts at. -/
theorem Tracks.start (h : Tracks buf stream) : ∃ p, Boundary stream p ∧ buf.data = stream.drop p ∧
      stream.length - buf.capacity ≤ p ∧
      ∀ q, Boundary stream q → stream.length - buf.capacity ≤ q → p ≤ q := by
  obtain ⟨p, hp, hdata⟩ := h.tail.boundary
  have hfits := h.tail.fits
  have hple := hp.le_length
  rw [hdata, length_drop] at hfits
  refine ⟨p, hp, hdata, by omega, fun q hq hcap => ?_⟩
  have hlong := h.tail.longest q hq (by rw [length_drop]; omega)
  rw [hdata, length_drop, length_drop] at hlong
  omega

/-- **One push keeps the invariant.** The three branches of `push` are the
three places the least fitting boundary of the longer stream can be: inside
the new chunk, inside the old data, or where it was. -/
theorem Tracks.push {chunk : List UInt8} (h : Tracks buf stream) (hc : Valid chunk) :
    Tracks (buf.push chunk) (stream ++ chunk) := by
  obtain ⟨p, hp, hdata, hpcap, hleast⟩ := h.start
  have hvalid : Valid (stream ++ chunk) := h.valid.append hc
  have hple := hp.le_length
  have hlen : buf.data.length = stream.length - p := by rw [hdata, length_drop]
  have hwritten : buf.totalWritten + chunk.length = (stream ++ chunk).length := by
    rw [h.written, length_append]
  -- an evicting push scans from the first offset that fits
  have hscan : ∀ start, start = (stream ++ chunk).length - buf.capacity →
      IsTail buf.capacity (stream ++ chunk) ((stream ++ chunk).drop
        (start + skipContinuation ((stream ++ chunk).drop start))) :=
    fun start heq => isTail_scan hvalid heq
  rw [length_append] at hwritten hscan
  unfold ScrollbackBuffer.push
  simp only
  split
  next hover =>
    split
    · -- the cut is inside the chunk
      refine ⟨hvalid, by simpa using hwritten, ?_⟩
      have htail := hscan (stream.length + (buf.data.length + chunk.length
        - buf.capacity - buf.data.length)) (by omega)
      rwa [Nat.add_assoc, drop_length_add_append, drop_length_add_append] at htail
    · -- the cut is inside the old data
      refine ⟨hvalid, by simpa using hwritten, ?_⟩
      have htail := hscan (p + (buf.data.length + chunk.length - buf.capacity)) (by omega)
      generalize hk : buf.data.length + chunk.length - buf.capacity = keepFrom at *
      have hdrop : ∀ n, n ≤ buf.data.length →
          (stream ++ chunk).drop (p + n) = buf.data.drop n ++ chunk := by
        intro n hn
        rw [drop_append_of_le_length (by omega), hdata, drop_drop]
      have hskip := skipContinuation_le (buf.data.drop keepFrom)
      rw [length_drop] at hskip
      rwa [hdrop keepFrom (by omega), skipContinuation_append hc, Nat.add_assoc,
        hdrop _ (by omega)] at htail
  next hfit =>
    refine ⟨hvalid, by simpa using hwritten, ?_⟩
    show IsTail buf.capacity (stream ++ chunk) (buf.data ++ chunk)
    have hsame : buf.data ++ chunk = (stream ++ chunk).drop p := by
      rw [hdata, drop_append_of_le_length hple]
    rw [hsame]
    refine IsTail.of_least (hp.append_right hc) (by rw [length_append]; omega) ?_
    intro q hq hcap
    rw [length_append] at hcap
    by_contra hlt
    exact hlt (hleast q (hq.of_append h.valid (by omega)) (by omega))

theorem push_capacity (buf : ScrollbackBuffer) (chunk : List UInt8) :
    (buf.push chunk).capacity = buf.capacity := by
  unfold ScrollbackBuffer.push
  simp only
  split
  · split <;> rfl
  · rfl

theorem pushAll_capacity (buf : ScrollbackBuffer) (chunks : List (List UInt8)) :
    (buf.pushAll chunks).capacity = buf.capacity := by
  induction chunks generalizing buf with
  | nil => rfl
  | cons c rest ih => exact (ih (buf.push c)).trans (push_capacity buf c)

theorem Tracks.pushAll (h : Tracks buf stream) (chunks : List Chunk) :
    Tracks (buf.pushAll (chunks.map Subtype.val)) (stream ++ (chunks.map Subtype.val).flatten) := by
  induction chunks generalizing buf stream with
  | nil => simpa [ScrollbackBuffer.pushAll] using h
  | cons c rest ih =>
    have hrest := ih (h.push c.property)
    rwa [append_assoc] at hrest

/-! ## Replay -/

def Resumable (buf : ScrollbackBuffer) (stream : List UInt8) (o : Nat) : Prop :=
  stream.length - buf.data.length ≤ o ∧ o ≤ stream.length ∧ Boundary stream o

section Replay

variable {buf : ScrollbackBuffer} {stream : List UInt8} (h : Tracks buf stream) {o : Nat}
include h

/-- The retained bytes sit at the end of the stream. -/
theorem Tracks.data_eq : buf.data = stream.drop (stream.length - buf.data.length) := by
  obtain ⟨p, hp, hdata, -⟩ := h.start
  have hple := hp.le_length
  rw [hdata, length_drop]
  congr 1
  omega

/-- A resumable offset gets exactly the missing bytes. -/
theorem Tracks.readReplay_delta (ho : Resumable buf stream o) :
    buf.readReplay (some o) =
      { data := stream.drop o, offset := stream.length, reset := false,
        truncated := false } := by
  obtain ⟨hlo, hhi, hb⟩ := ho
  have hdrop : ∀ n, buf.data.drop n = stream.drop (stream.length - buf.data.length + n) := by
    intro n
    conv_lhs => rw [h.data_eq]
    rw [drop_drop]
  unfold ScrollbackBuffer.readReplay
  simp only [h.written]
  rw [if_neg (by omega), if_neg (by omega)]
  cases hbyte : buf.data[o - (stream.length - buf.data.length)]? with
  | none =>
    simp [hdrop]
    omega
  | some b =>
    have hlead : isContinuation b = false := by
      apply hb.lead
      rw [h.data_eq, getElem?_drop] at hbyte
      rwa [← h.data_eq, Nat.add_sub_cancel' hlo] at hbyte
    simp [hlead, hdrop, Nat.add_sub_cancel' hlo]

/-- Any other offset gets the whole retained tail. -/
theorem Tracks.readReplay_reset (ho : ¬ Resumable buf stream o) :
    buf.readReplay (some o) =
      { data := buf.data, offset := stream.length, reset := true,
        truncated := decide (0 < stream.length - buf.data.length) } := by
  unfold ScrollbackBuffer.readReplay
  simp only [h.written]
  split
  next hlt =>
    have : 0 < stream.length - buf.data.length := by omega
    simp [this]
  split
  · rfl
  have hnb : ¬ Boundary stream o := fun hb => ho ⟨by omega, by omega, hb⟩
  rw [boundary_iff h.valid] at hnb
  push Not at hnb
  obtain ⟨b, hb, hcont⟩ := hnb (by omega)
  have hbyte : buf.data[o - (stream.length - buf.data.length)]? = some b := by
    rw [h.data_eq, getElem?_drop, ← h.data_eq, Nat.add_sub_cancel' (by omega)]
    exact hb
  have hcont' : isContinuation b = true := by simpa using hcont
  simp [hbyte, hcont']

/-- A replay flagged as truncated misses the beginning of the stream. -/
theorem Tracks.truncated_ne (fromOffset : Option Nat)
    (ht : (buf.readReplay fromOffset).truncated = true) :
    (buf.readReplay fromOffset).data ≠ stream := by
  have hshort : 0 < stream.length - buf.data.length → buf.data ≠ stream := by
    intro hlt heq
    rw [heq] at hlt
    omega
  cases fromOffset with
  | none =>
    simp only [readReplay, h.written] at ht ⊢
    exact hshort (by simpa using ht)
  | some o =>
    by_cases ho : Resumable buf stream o
    · rw [h.readReplay_delta ho] at ht
      cases ht
    · rw [h.readReplay_reset ho] at ht ⊢
      exact hshort (by simpa using ht)

end Replay

/-- **Replay is correct over every run.** After any pushes of UTF-8 chunks
the buffer holds the longest fitting boundary suffix of what was written and
its exact length; a client that rendered the first `o` bytes gets either the
rest of the stream or a reset with the retained suffix, the former exactly at
the boundaries inside the retained range; a truncated replay is never the
whole stream. -/
theorem replay_correct (capacity : Nat) (chunks : List Chunk) :
    let stream := (chunks.map Subtype.val).flatten
    let buf := (new capacity).pushAll (chunks.map Subtype.val)
    IsTail capacity stream buf.data ∧
    buf.currentOffset = stream.length ∧
    (∀ o, ((buf.readReplay (some o)).reset = false ∧
            (buf.readReplay (some o)).data = stream.drop o ∧
            stream.take o ++ (buf.readReplay (some o)).data = stream) ∨
          ((buf.readReplay (some o)).reset = true ∧ (buf.readReplay (some o)).data = buf.data)) ∧
    (∀ o, (buf.readReplay (some o)).reset = false ↔
      stream.length - buf.data.length ≤ o ∧ o ≤ stream.length ∧ Boundary stream o) ∧
    (∀ fromOffset, (buf.readReplay fromOffset).truncated = true →
      (buf.readReplay fromOffset).data ≠ stream) := by
  intro stream buf
  have h : Tracks buf stream := by
    have := (tracks_new capacity).pushAll chunks
    rwa [nil_append] at this
  have hcap : buf.capacity = capacity := pushAll_capacity _ _
  refine ⟨hcap ▸ h.tail, h.written, fun o => ?_, fun o => ?_, h.truncated_ne⟩
  · by_cases ho : Resumable buf stream o
    · rw [h.readReplay_delta ho]
      exact .inl ⟨rfl, rfl, take_append_drop o stream⟩
    · rw [h.readReplay_reset ho]
      exact .inr ⟨rfl, rfl⟩
  · constructor
    · intro hreset
      by_contra ho
      rw [h.readReplay_reset ho] at hreset
      cases hreset
    · intro ho
      rw [h.readReplay_delta ho]

/-- An eviction inside a three-byte scalar moves the head to its end. -/
example : ((new 6).pushAll [[0xE2, 0x9C, 0xA6, 0x31, 0x32, 0x33], [0x61, 0x62]]).data
    = [0x31, 0x32, 0x33, 0x61, 0x62] := by decide

/-! ## Hydration -/

section Hydration

variable {capacity : Nat} {data c tail tail' : List UInt8} {b : ScrollbackBuffer}

theorem IsTail.unique (h : IsTail capacity stream tail) (h' : IsTail capacity stream tail') :
    tail = tail' := by
  obtain ⟨p, hp, rfl⟩ := h.boundary
  obtain ⟨q, hq, rfl⟩ := h'.boundary
  have hle := h.longest q hq h'.fits
  have hge := h'.longest p hp h.fits
  have hp := hp.le_length
  have hq := hq.le_length
  rw [length_drop, length_drop] at hle hge
  rw [show p = q by omega]

theorem isTail_self (h : Valid stream) (hfits : stream.length ≤ capacity) :
    IsTail capacity stream stream :=
  ⟨⟨0, boundary_zero h, rfl⟩, hfits, fun q _ _ => by simp⟩

theorem hydrate_isTail (h : Valid data) (buf : ScrollbackBuffer) (totalWritten : Nat) :
    IsTail buf.capacity data (buf.hydrate data totalWritten).data :=
  isTail_scan h (by omega)

/-- The counter does not matter to what is kept. -/
theorem push_rebase (n : Nat) (chunk : List UInt8) :
    { b with totalWritten := n }.push chunk =
    { b.push chunk with totalWritten := n + chunk.length } := by
  unfold ScrollbackBuffer.push
  dsimp only
  split_ifs <;> rfl

theorem pushAll_rebase (n : Nat) (chunks : List (List UInt8)) :
    { b with totalWritten := n }.pushAll chunks =
      { b.pushAll chunks with totalWritten := n + chunks.flatten.length } := by
  induction chunks generalizing b n with
  | nil => rfl
  | cons chunk rest ih =>
    show ({ b with totalWritten := n }.push chunk).pushAll rest = _
    rw [push_rebase, ih, flatten_cons, length_append, Nat.add_assoc]
    rfl

/-- Early hydration keeps the tail of the whole stream. -/
theorem hydrate_pushAll (hdata : Valid data) (totalWritten : Nat) (chunks : List Chunk) :
    let early := ((new capacity).hydrate data totalWritten).pushAll (chunks.map Subtype.val)
    let c := (chunks.map Subtype.val).flatten
    IsTail capacity (data ++ c) early.data ∧ early.capacity = capacity ∧
      early.totalWritten = totalWritten + c.length := by
  have htracks : Tracks ((new capacity).hydrate data data.length) data :=
    ⟨hdata, rfl, hydrate_isTail hdata _ _⟩
  have hrebase := pushAll_rebase (b := (new capacity).hydrate data data.length) totalWritten
    (chunks.map Subtype.val)
  have htail := (htracks.pushAll chunks).tail
  rw [pushAll_capacity] at htail
  intro early c
  rw [show early = _ from hrebase]
  exact ⟨htail, pushAll_capacity _ _, rfl⟩

theorem boundary_append_iff (hdata : Valid data) (hc : Valid c) :
    Boundary (data ++ c) (data.length + p) ↔ Boundary c p := by
  rw [boundary_iff (hdata.append hc), boundary_iff hc, length_append,
    getElem?_append_right (Nat.le_add_right _ _), Nat.add_sub_cancel_left,
    Nat.add_le_add_iff_left]

/-- Nothing in front matters to a stream that does not fit. -/
theorem IsTail.append_left (hdata : Valid data) (hc : Valid c) (hlong : capacity < c.length)
    (h : IsTail capacity c tail) : IsTail capacity (data ++ c) tail := by
  obtain ⟨p, hp, rfl⟩ := h.boundary
  refine ⟨⟨data.length + p, (boundary_append_iff hdata hc).mpr hp, ?_⟩, h.fits,
    fun q hq hfits => ?_⟩
  · rw [drop_length_add_append]
  · rw [length_drop, length_append] at hfits
    obtain ⟨q, rfl⟩ := Nat.exists_eq_add_of_le (show data.length ≤ q by omega)
    rw [drop_length_add_append]
    refine h.longest q ((boundary_append_iff hdata hc).mp hq) ?_
    rw [length_drop]
    omega

/-- No character of the persisted data fits in beside the tail of an output that is longer
than the buffer. -/
def NoGap (capacity : Nat) (data c : List UInt8) : Prop :=
  c.length ≤ capacity ∨ ∀ q, Boundary data q → q < data.length →
    ∃ p, Boundary c p ∧ c.length - p ≤ capacity ∧ capacity < data.length - q + (c.length - p)

theorem noGap_iff (hdata : Valid data) (hc : Valid c) (h : IsTail capacity c tail)
    (hlong : capacity < c.length) :
    IsTail capacity (data ++ tail) tail ↔ NoGap capacity data c := by
  obtain ⟨p, hp, rfl⟩ := h.boundary
  have hfits := h.fits
  rw [length_drop] at hfits
  have htail : Valid (c.drop p) := by
    obtain ⟨front, back, rfl, rfl⟩ := hp
    exact ⟨back, by simp⟩
  constructor
  · intro hall
    refine .inr fun q hq hlt => ⟨p, hp, hfits, ?_⟩
    have hlongest := hall.longest q (hq.append_right htail)
    simp only [length_drop, length_append] at hlongest
    omega
  · rintro (hshort | hgap)
    · omega
    · refine ⟨⟨data.length, ?_, by simp⟩, h.fits, fun q hq hcap => ?_⟩
      · exact (boundary_append_iff hdata htail).mpr (boundary_zero htail)
      · simp only [length_drop, length_append] at hcap ⊢
        by_contra hlonger
        obtain ⟨p', hp', hfits', hgap⟩ := hgap q (hq.of_append hdata (by omega)) (by omega)
        have hlongest := h.longest p' hp' (by rwa [length_drop])
        rw [length_drop, length_drop] at hlongest
        omega

/-- **Late hydration equals early hydration** exactly if the counters stay below the top of
their range and nothing of the persisted data is put in front of a tail it does not touch. What
early hydration keeps is at its place in the stream. -/
theorem hydrate_late_iff (capacity totalWritten : Nat) (data : Chunk) (chunks : List Chunk) :
    let pushed := chunks.map Subtype.val
    let late := ((new capacity).pushAll pushed).hydratePrefix data.val totalWritten
    let early := ((new capacity).hydrate data.val totalWritten).pushAll pushed
    early.data <:+ data.val ++ pushed.flatten ∧ (late = early ↔
      totalWritten + pushed.flatten.length ≤ AgentStatus.U64_MAX ∧
        NoGap capacity data.val pushed.flatten) := by
  intro pushed late early
  obtain ⟨htail, hcapacity, htotal⟩ := hydrate_pushAll data.property totalWritten chunks
  obtain ⟨hvalid, hwritten, hpushed⟩ := (tracks_new capacity).pushAll chunks
  rw [nil_append] at hvalid hwritten hpushed
  have hnew : ((new capacity).pushAll pushed).capacity = capacity := pushAll_capacity _ _
  rw [hnew] at hpushed
  refine ⟨?_, ?_⟩
  · obtain ⟨p, -, hdrop⟩ := htail.boundary
    exact hdrop ▸ drop_suffix p _
  have hlate : IsTail capacity (data.val ++ ((new capacity).pushAll pushed).data) late.data := by
    obtain ⟨p, ⟨front, back, htext, rfl⟩, hdrop⟩ := hpushed.boundary
    have hkept : Valid ((new capacity).pushAll pushed).data :=
      ⟨back, by rw [hdrop, htext, encode_append, drop_left]⟩
    have hkeeps := hydrate_isTail (data.property.append hkept) ((new capacity).pushAll pushed)
      (AgentStatus.satAdd totalWritten ((new capacity).pushAll pushed).totalWritten)
    rwa [hnew] at hkeeps
  have hdata : late.data = early.data ↔ NoGap capacity data.val pushed.flatten := by
    by_cases hshort : pushed.flatten.length ≤ capacity
    · rw [hpushed.unique (isTail_self hvalid hshort)] at hlate
      exact iff_of_true (hlate.unique htail) (.inl hshort)
    have hlong := Nat.lt_of_not_le hshort
    rw [htail.unique (hpushed.append_left data.property hvalid hlong),
      ← noGap_iff data.property hvalid hpushed hlong]
    exact ⟨fun heq => heq ▸ hlate, hlate.unique⟩
  have htotals : late.totalWritten = early.totalWritten ↔
      totalWritten + pushed.flatten.length ≤ AgentStatus.U64_MAX := by
    show min (totalWritten + ((new capacity).pushAll pushed).totalWritten) _ = _ ↔ _
    rw [htotal, hwritten]
    exact ⟨fun h => h ▸ Nat.min_le_right _ _, Nat.min_eq_left⟩
  have hcapacities : late.capacity = early.capacity := hnew.trans hcapacity.symm
  rw [ScrollbackBuffer.ext_iff]
  tauto

/-- The last character of the persisted data lands in front of a tail that is a byte short. -/
theorem late_hydration_gap :
    let pushed : List (List UInt8) := [[0xC3, 0xA9, 0xC3, 0xA9, 0xC3, 0xA9]]
    let late := ((new 5).pushAll pushed).hydratePrefix [0x61] 1
    (((new 5).hydrate [0x61] 1).pushAll pushed).data = [0xC3, 0xA9, 0xC3, 0xA9] ∧
      late.readReplay (some 2) = ⟨[0x61, 0xC3, 0xA9, 0xC3, 0xA9], 7, false, false⟩ := by
  decide

end Hydration

end ScrollbackBuffer

end DamHopper.Pty
