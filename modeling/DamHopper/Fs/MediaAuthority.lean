import DamHopper.Lib.Leases
import DamHopper.Fs.MediaMoves

/-!
# MediaAuthority — a ticket is only as good as the session and the login behind it

A `World` is a store with its two clocks, which advance together, and the log of every
call with its result. Whether a ticket or a session is still in force can be read off
the log alone (`ticketSigns`, `sessionSigns`); the invariant `Lawful` says that the store
keeps a ticket or a session only while the log says so. From it follow that whatever is
authorized or finalized has its authority in the log, and that a revocation leaves
everything it does not name as it was.
-/

namespace DamHopper.Fs

open AssocMap MediaTicketInner StoredMediaTicket Option

section

variable (digest : MediaSessionToken → MediaSessionDigest)

def ticketSigns (ticket : String) (kind : MediaTicketKind)
    (binding : Option MediaSessionBinding) : Signs Event where
  time e := e.at_.instant
  begins e := ∃ i, e.issue? = some i ∧ i.ticket = ticket
  ends e := e.op.revokesTicket ticket kind binding
  touches e := (∃ i, e.issue? = some i ∧ i.ticket = ticket) ∨
    ∃ d, e.used? digest = some (ticket, d)
  idle := MEDIA_TICKET_IDLE_TTL

def sessionSigns (binding : MediaSessionBinding) (login : Option String) : Signs Event where
  time e := e.at_.instant
  begins e := ∃ g, e.grant? = some g ∧ g.binding.sessionDigest = binding.sessionDigest
  ends e := e.op.revokesSession digest binding login
  touches e := (∃ g, e.grant? = some g ∧ g.binding.sessionDigest = binding.sessionDigest) ∨
    ∃ ticket, e.used? digest = some (ticket, some binding.sessionDigest)
  idle := MEDIA_SESSION_IDLE_TTL

def ticketsIssued (log : List Event) : Nat := log.countP fun e => e.issue?.isSome

/-! ## Worlds -/

structure World where
  inner : MediaTicketInner
  clock : Reading
  log : List Event

def Reading.after (at_ : Reading) (elapsed : Nat) : Reading :=
  ⟨at_.instant + elapsed, at_.system + elapsed⟩

namespace World

def new (clock : Reading) : World := ⟨.new, clock, []⟩

def result (w : World) (input : Nat × MediaOp) : MediaResult :=
  (w.inner.perform digest (w.clock.after input.1) input.2).2

def step (w : World) (input : Nat × MediaOp) : World where
  inner := (w.inner.perform digest (w.clock.after input.1) input.2).1
  clock := w.clock.after input.1
  log := ⟨w.clock.after input.1, input.2, w.result digest input⟩ :: w.log

end World

/-- The random tokens of a call have never been issued. -/
def World.Fresh (w : World) (input : Nat × MediaOp) : Prop :=
  ∀ e ∈ w.log, (∀ i ∈ e.issue?, i.ticket ∉ input.2.ticketDraws) ∧
    ∀ g ∈ e.grant?, g.binding.sessionDigest ∉ input.2.sessionDraws.map digest

/-! ## What is stored is in force -/

/-- The log has issued this ticket, once, and nothing has revoked it; its expiry times
are bounded by what was touched and agreed. -/
structure TicketInForce (log : List Event) (ticket : String) (stored : StoredMediaTicket)
    (e : Event) (before : List Event) (i : Issue) : Prop where
  held : Held (ticketSigns digest ticket stored.record.kind stored.binding) log e before
    stored.idleExpiresAt
  issue : e.issue? = some i
  named : i.ticket = ticket
  record : i.record = stored.record
  binding : i.binding = stored.binding
  incarnation : stored.incarnation = UInt64.ofNat (ticketsIssued before)
  absolute : stored.absoluteExpiresAt ≤ e.at_.instant +
    ttlUntil MEDIA_TICKET_ABSOLUTE_TTL i.deadline e.at_.system

/-- The log has handed out this session and nothing has revoked it. -/
structure SessionInForce (log : List Event) (d : MediaSessionDigest)
    (session : StoredMediaSession) (e : Event) (before : List Event) (g : Grant) : Prop where
  held : Held (sessionSigns digest ⟨session.actorSubject, session.clientId, d⟩
    session.authSessionId) log e before session.idleExpiresAt
  grant : e.grant? = some g
  binding : g.binding = ⟨session.actorSubject, session.clientId, d⟩
  login : g.login = session.authSessionId
  absolute : session.absoluteExpiresAt ≤ e.at_.instant +
    ttlUntil MEDIA_SESSION_ABSOLUTE_TTL g.deadline e.at_.system

/-- The store keeps only what is in force, tickets carry the login of their session, and
the clocks agree with the log. -/
structure Lawful (w : World) : Prop where
  tickets : ∀ ticket stored, w.inner.tickets.get? ticket = some stored →
    ∃ e before i, TicketInForce digest w.log ticket stored e before i
  sessions : ∀ d session, w.inner.sessions.get? d = some session →
    ∃ e before g, SessionInForce digest w.log d session e before g
  bound : ∀ ticket stored b, w.inner.tickets.get? ticket = some stored →
    stored.binding = some b → ∃ e ∈ w.log, ∃ g, e.grant? = some g ∧
      g.binding.sessionDigest = b.sessionDigest
  backed : ∀ ticket stored b session, w.inner.tickets.get? ticket = some stored →
    stored.binding = some b → w.inner.sessions.get? b.sessionDigest = some session →
    session.Backs b stored.authSessionId
  clocks : ∀ e ∈ w.log, e.at_.instant ≤ w.clock.instant ∧
    w.clock.system + e.at_.instant = e.at_.system + w.clock.instant
  incarnation : w.inner.nextTicketIncarnation = UInt64.ofNat (ticketsIssued w.log)

variable {digest}
  {log before : List Event} {ticket : String} {stored : StoredMediaTicket} {i : Issue}
  {d d' : MediaSessionDigest} {session : StoredMediaSession} {g : Grant} {now elapsed : Nat}
  {input : Nat × MediaOp} {b : MediaSessionBinding} {at_ : Reading} {op : MediaOp}
  {kind : MediaTicketKind} {a : MediaTicketAuthorization}
  {check : MediaSessionBinding → Sessions → Bool}

/-- What is not expired: neither time is reached. -/
theorem live_iff {idle absolute : Nat} :
    (decide (idle ≤ now) || decide (absolute ≤ now)) = false ↔ now < idle ∧ now < absolute := by
  simp

theorem TicketInForce.touch {e e' : Event} {d : Option MediaSessionDigest}
    (h : TicketInForce digest log ticket stored e before i)
    (hends : ¬ e'.op.revokesTicket ticket stored.record.kind stored.binding)
    (hused : e'.used? digest = some (ticket, d)) (hlive : stored.expired e'.at_.instant = false) :
    TicketInForce digest (e' :: log) ticket (stored.touched e'.at_.instant) e before i := by
  unfold StoredMediaTicket.touched
  exact { h with
    held := h.held.touch hends (.inr ⟨d, hused⟩) (Nat.le_of_lt (live_iff.mp hlive).1)
      (Nat.min_le_left _ _) }

theorem SessionInForce.touch {e e' : Event} (h : SessionInForce digest log d session e before g)
    (hends : ¬ e'.op.revokesSession digest ⟨session.actorSubject, session.clientId, d⟩
      session.authSessionId)
    (htouch : (sessionSigns digest ⟨session.actorSubject, session.clientId, d⟩
      session.authSessionId).touches e')
    (hlive : session.expired e'.at_.instant = false) :
    SessionInForce digest (e' :: log) d (session.touched e'.at_.instant) e before g := by
  unfold StoredMediaSession.touched
  exact { h with
    held := h.held.touch hends htouch (Nat.le_of_lt (live_iff.mp hlive).1) (Nat.min_le_left _ _) }

/-! ### Where an entry comes from -/

variable (digest) in
/-- A stored ticket was there before, was touched, or was issued by the call. -/
inductive TicketOrigin (s : MediaTicketInner) (e : Event) (s' : MediaTicketInner)
    (ticket : String) (stored : StoredMediaTicket) : Prop
  | kept (hget : s.tickets.get? ticket = some stored)
      (hends : ¬ e.op.revokesTicket ticket stored.record.kind stored.binding)
  | touched (old : StoredMediaTicket) (d : Option MediaSessionDigest)
      (hget : s.tickets.get? ticket = some old)
      (hends : ¬ e.op.revokesTicket ticket old.record.kind old.binding)
      (heq : stored = old.touched e.at_.instant) (hused : e.used? digest = some (ticket, d))
      (hlive : old.expired e.at_.instant = false)
  | issued (i : Issue) (hput : TicketPut s' e ticket stored i)
      (hincarnation : stored.incarnation = s.nextTicketIncarnation)

variable (digest) in
/-- A stored session was there before, was touched, or was created by the call. -/
inductive SessionOrigin (s : MediaTicketInner) (e : Event) (d : MediaSessionDigest)
    (session : StoredMediaSession) : Prop
  | kept (hget : s.sessions.get? d = some session)
      (hends : ¬ e.op.revokesSession digest ⟨session.actorSubject, session.clientId, d⟩
        session.authSessionId)
  | touched (old : StoredMediaSession) (hget : s.sessions.get? d = some old)
      (hends : ¬ e.op.revokesSession digest ⟨old.actorSubject, old.clientId, d⟩
        old.authSessionId)
      (heq : session = old.touched e.at_.instant)
      (htouch : (sessionSigns digest ⟨old.actorSubject, old.clientId, d⟩
        old.authSessionId).touches e)
      (hlive : old.expired e.at_.instant = false)
  | fresh (g : Grant) (hgrant : e.grant? = some g)
      (hbinding : g.binding = ⟨session.actorSubject, session.clientId, d⟩)
      (hlogin : g.login = session.authSessionId) (hdraw : d ∈ e.op.sessionDraws.map digest)
      (hidle : session.idleExpiresAt = e.at_.instant + MEDIA_SESSION_IDLE_TTL)
      (habsolute : session.absoluteExpiresAt = e.at_.instant +
        ttlUntil MEDIA_SESSION_ABSOLUTE_TTL g.deadline e.at_.system)

variable {s s' p : MediaTicketInner} {e : Event} {clock : Reading}

section

variable (h : Filtered digest s e p)
include h

theorem Filtered.ticket_origin (hget : p.tickets.get? ticket = some stored) :
    TicketOrigin digest s e s' ticket stored :=
  .kept (h.tickets ticket stored hget).1 (h.tickets ticket stored hget).2

theorem Filtered.session_origin (hget : p.sessions.get? d = some session) :
    SessionOrigin digest s e d session :=
  .kept (h.sessions d session hget).1 (h.sessions d session hget).2

theorem SessionPut.origin (hput : SessionPut digest p e d session) :
    SessionOrigin digest s e d session := by
  cases hput with
  | reused old hget hlive heq hgrant =>
    exact .touched old (h.sessions d old hget).1 (h.sessions d old hget).2 heq (.inl hgrant) hlive
  | fresh g hgrant hbinding hlogin hdraw hidle habsolute =>
    exact .fresh g hgrant hbinding hlogin hdraw hidle habsolute

end

theorem putTicket_origin {q : MediaTicketInner} (h : Filtered digest s e p)
    (htickets : q.tickets = p.tickets) (hnext : q.nextTicketIncarnation = p.nextTicketIncarnation)
    {ticket' : String} {stored' : StoredMediaTicket} (hput : TicketPut q e ticket stored i)
    (hget : (q.putTicket ticket stored).tickets.get? ticket' = some stored') :
    TicketOrigin digest s e (q.putTicket ticket stored) ticket' stored' := by
  rw [putTicket, get?_insert] at hget
  split_ifs at hget with heq
  · cases hget
    subst heq
    refine .issued i { hput with } ?_
    rw [← h.nextIncarnation, ← hnext]
  · rw [htickets] at hget
    exact h.ticket_origin hget

theorem touch_tickets {d : Option MediaSessionDigest} :
    (p.touch now d ticket stored).tickets = p.tickets.insert ticket (stored.touched now) := by
  unfold touch
  split <;> rfl

theorem touch_sessions {d : Option MediaSessionDigest}
    (h : (p.touch now d ticket stored).sessions.get? d' = some session) :
    p.sessions.get? d' = some session ∨ (d = some d' ∧ ∃ old, p.sessions.get? d' = some old ∧
      session = old.touched now) := by
  unfold touch at h
  split at h
  next d₀ old hold =>
    obtain ⟨d₁, rfl, hmap⟩ := bind_eq_some_iff.mp hold
    obtain ⟨old', hget, heq⟩ := map_eq_some_iff.mp hmap
    obtain ⟨rfl, rfl⟩ := Prod.mk.inj heq
    rw [putSession, get?_insert] at h
    split_ifs at h with hd
    · cases h
      subst hd
      exact .inr ⟨rfl, old', hget, rfl⟩
    · exact .inl h
  · exact .inl h

theorem Move.ticket_origin (h : Move digest s e s') (hget : s'.tickets.get? ticket = some stored) :
    TicketOrigin digest s e s' ticket stored := by
  cases h with
  | filtered h _ | session h _ _ => exact h.ticket_origin hget
  | @bound p d session _ _ _ h _ hticket =>
    exact putTicket_origin (q := p.putSession d session) h rfl rfl hticket hget
  | ticket h hticket => exact putTicket_origin h rfl rfl hticket hget
  | @touch p d ticket' stored' h hold hlive _ hused _ =>
    rw [touch_tickets, get?_insert] at hget
    split_ifs at hget with heq
    · cases hget
      subst heq
      exact .touched stored' d (h.tickets _ _ hold).1 (h.tickets _ _ hold).2 rfl hused hlive
    · exact h.ticket_origin hget

theorem Move.session_origin (h : Move digest s e s') (hget : s'.sessions.get? d = some session) :
    SessionOrigin digest s e d session := by
  cases h with
  | filtered h _ | ticket h _ => exact h.session_origin hget
  | session h hput _ | bound h hput _ =>
    exact forall_insert (fun _ _ hold => h.session_origin hold) (hput.origin h) d session hget
  | @touch p d' ticket stored h _ _ hlive hused _ =>
    rcases touch_sessions hget with hsame | ⟨rfl, old, hold, rfl⟩
    · exact h.session_origin hsame
    · exact .touched old (h.sessions _ _ hold).1 (h.sessions _ _ hold).2 rfl
        (.inr ⟨ticket, hused⟩) (hlive _ _ hold)

theorem Move.nextIncarnation (h : Move digest s e s') {n : Nat}
    (hs : s.nextTicketIncarnation = UInt64.ofNat n) :
    s'.nextTicketIncarnation = UInt64.ofNat (n + if e.issue?.isSome then 1 else 0) := by
  have hput : ∀ q : MediaTicketInner, q.nextTicketIncarnation = s.nextTicketIncarnation →
      ∀ i, e.issue? = some i →
      q.nextTicketIncarnation + 1 = UInt64.ofNat (n + if e.issue?.isSome then 1 else 0) := by
    intro q hq i hi
    rw [hq, hs, hi, UInt64.ofNat_add]
    rfl
  cases h with
  | filtered h hissue => rw [h.nextIncarnation, hs, hissue]; rfl
  | session h _ hissue => rw [hissue]; exact h.nextIncarnation.trans hs
  | bound h _ hticket | ticket h hticket => exact hput _ h.nextIncarnation _ hticket.issue
  | touch h _ _ _ _ hissue =>
    unfold MediaTicketInner.touch
    split <;> simp [putSession, h.nextIncarnation, hs, hissue]

/-! ### The invariant -/

theorem TicketPut.inForce (h : TicketPut s' e ticket stored i)
    (hincarnation : stored.incarnation = UInt64.ofNat (ticketsIssued log))
    (hfresh : ∀ e' ∈ log, ∀ j ∈ e'.issue?, j.ticket ∉ e.op.ticketDraws) :
    TicketInForce digest (e :: log) ticket stored e log i where
  held := by
    refine Held.start ⟨i, h.issue, h.named⟩ (.inl ⟨i, h.issue, h.named⟩) ?_ (Nat.le_of_eq h.idle)
    rintro e' he' ⟨j, hj, hticket⟩
    exact hfresh e' he' j hj (hticket ▸ h.draw)
  issue := h.issue
  named := h.named
  record := h.record
  binding := h.binding
  incarnation := hincarnation
  absolute := Nat.le_of_eq h.absolute

theorem lawful_new : Lawful digest (.new clock) where
  tickets _ _ h := nomatch h
  sessions _ _ h := nomatch h
  bound _ _ _ h := nomatch h
  backed _ _ _ _ h := nomatch h
  clocks _ h := absurd h List.not_mem_nil
  incarnation := rfl

variable {w : World}

theorem Lawful.step_tickets (h : Lawful digest w) (hfresh : w.Fresh digest input)
    (hget : (w.step digest input).inner.tickets.get? ticket = some stored) :
    ∃ e before i, TicketInForce digest (w.step digest input).log ticket stored e before i := by
  cases (perform_move digest w.inner _ input.2).ticket_origin hget with
  | kept hold hends =>
    obtain ⟨e, before, i, hforce⟩ := h.tickets _ _ hold
    exact ⟨e, before, i, { hforce with held := hforce.held.pass hends }⟩
  | touched old d hold hends heq hused hlive =>
    obtain ⟨e, before, i, hforce⟩ := h.tickets _ _ hold
    rw [heq]
    exact ⟨e, before, i, hforce.touch hends hused hlive⟩
  | issued i hput hincarnation =>
    rw [h.incarnation] at hincarnation
    exact ⟨_, _, i, hput.inForce hincarnation fun e' he' j hj => (hfresh e' he').1 j hj⟩

theorem Lawful.step_sessions (h : Lawful digest w) (hfresh : w.Fresh digest input)
    (hget : (w.step digest input).inner.sessions.get? d = some session) :
    ∃ e before g, SessionInForce digest (w.step digest input).log d session e before g := by
  cases (perform_move digest w.inner _ input.2).session_origin hget with
  | kept hold hends =>
    obtain ⟨e, before, g, hforce⟩ := h.sessions _ _ hold
    exact ⟨e, before, g, { hforce with held := hforce.held.pass hends }⟩
  | touched old hold hends heq htouch hlive =>
    obtain ⟨e, before, g, hforce⟩ := h.sessions _ _ hold
    rw [heq]
    exact ⟨e, before, g, hforce.touch hends htouch hlive⟩
  | fresh g hgrant hbinding hlogin hdraw hidle habsolute =>
    refine ⟨_, w.log, g, ?_, hgrant, hbinding, hlogin, Nat.le_of_eq habsolute⟩
    have hbegins : ∃ g', (Event.mk (w.clock.after input.1) input.2
        (w.result digest input)).grant? = some g' ∧ g'.binding.sessionDigest = d :=
      ⟨g, hgrant, by rw [hbinding]⟩
    refine Held.start hbegins (.inl hbegins) ?_ (Nat.le_of_eq hidle)
    rintro e' he' ⟨g', hg', hd'⟩
    have hd : g'.binding.sessionDigest = d := hd'
    exact (hfresh e' he').2 g' hg' (hd ▸ hdraw)

section

variable (h : Lawful digest w) (hfresh : w.Fresh digest input)
  (hget : (w.step digest input).inner.tickets.get? ticket = some stored)
  (hb : stored.binding = some b)
include h hfresh hget hb

theorem Lawful.step_bound : ∃ e ∈ (w.step digest input).log, ∃ g, e.grant? = some g ∧
      g.binding.sessionDigest = b.sessionDigest := by
  cases (perform_move digest w.inner _ input.2).ticket_origin hget with
  | kept hold _ =>
    obtain ⟨e, he, hgrant⟩ := h.bound _ _ b hold hb
    exact ⟨e, List.mem_cons_of_mem _ he, hgrant⟩
  | touched old d hold _ heq _ _ =>
    rw [heq, StoredMediaTicket.touched] at hb
    obtain ⟨e, he, hgrant⟩ := h.bound _ _ b hold hb
    exact ⟨e, List.mem_cons_of_mem _ he, hgrant⟩
  | issued i hput _ =>
    obtain ⟨session, hsession, _⟩ := hput.bound b hb
    obtain ⟨e, before, g, hforce⟩ := h.step_sessions hfresh hsession
    exact ⟨e, hforce.held.mem, g, hforce.grant, by rw [hforce.binding]⟩

theorem Lawful.step_backed
    (hsession : (w.step digest input).inner.sessions.get? b.sessionDigest = some session) :
    session.Backs b stored.authSessionId := by
  have hmove := perform_move digest w.inner (w.clock.after input.1) input.2
  -- a ticket that was there before: its session is not a new one
  have hold : ∀ old, w.inner.tickets.get? ticket = some old → old.binding = some b →
      session.Backs b old.authSessionId := by
    intro old hget hbinding
    cases hmove.session_origin hsession with
    | kept hold _ => exact h.backed _ _ b _ hget hbinding hold
    | touched old' hold _ heq _ _ =>
      have hbacks := h.backed _ _ b _ hget hbinding hold
      rw [heq, StoredMediaSession.touched]
      exact { hbacks with }
    | fresh g _ _ _ hdraw _ _ =>
      obtain ⟨e, he, g', hg', hd⟩ := h.bound _ _ b hget hbinding
      exact absurd (hd ▸ hdraw) ((hfresh e he).2 g' hg')
  cases hmove.ticket_origin hget with
  | kept hget _ => exact hold _ hget hb
  | touched old d hget _ heq _ _ =>
    rw [heq, StoredMediaTicket.touched] at hb ⊢
    exact hold old hget hb
  | issued i hput _ =>
    obtain ⟨session', hsession', hbacks⟩ := hput.bound b hb
    rwa [show session = session' from Option.some.inj (hsession.symm.trans hsession')]

end

theorem Lawful.step (h : Lawful digest w) (hfresh : w.Fresh digest input) :
    Lawful digest (w.step digest input) where
  tickets _ _ hget := h.step_tickets hfresh hget
  sessions _ _ hget := h.step_sessions hfresh hget
  bound _ _ _ hget hb := h.step_bound hfresh hget hb
  backed _ _ _ _ hget hb hsession := h.step_backed hfresh hget hb hsession
  clocks := List.forall_mem_cons.mpr ⟨⟨Nat.le_refl _, rfl⟩, fun e he => by
    obtain ⟨hle, hsame⟩ := h.clocks e he
    simp only [World.step, Reading.after]
    omega⟩
  incarnation := by
    rw [ticketsIssued, World.step, List.countP_cons]
    exact (perform_move digest w.inner _ input.2).nextIncarnation h.incarnation

/-! ## Authority -/

variable (digest)

/-- At the given time the ticket is in force: it was issued once, with this record and
binding and under this incarnation, it has not been revoked, no idle time has passed
without a touch, and neither its lifetime nor the deadline of its login is over. -/
structure TicketAuthority (log : List Event) (at_ : Reading) (ticket : String)
    (record : MediaTicketRecord) (b : MediaSessionBinding) (incarnation : UInt64)
    (e : Event) (before : List Event) (i : Issue) : Prop where
  held : Held (ticketSigns digest ticket record.kind (some b)) log e before (at_.instant + 1)
  issue : e.issue? = some i
  named : i.ticket = ticket
  record : i.record = record
  binding : i.binding = some b
  incarnation : incarnation = UInt64.ofNat (ticketsIssued before)
  absolute : at_.instant < e.at_.instant + MEDIA_TICKET_ABSOLUTE_TTL
  deadline : ∀ deadline, i.deadline = some deadline → at_.system < deadline

/-- At the given time the session is in force: it was created for this actor and client,
none of the revocations has covered it, and it has not expired. -/
structure SessionAuthority (log : List Event) (at_ : Reading) (b : MediaSessionBinding)
    (e : Event) (before : List Event) (g : Grant) : Prop where
  held : Held (sessionSigns digest b g.login) log e before (at_.instant + 1)
  grant : e.grant? = some g
  binding : g.binding = b
  absolute : at_.instant < e.at_.instant + MEDIA_SESSION_ABSOLUTE_TTL
  deadline : ∀ deadline, g.deadline = some deadline → at_.system < deadline

/-- The ticket and the session it is bound to are in force. -/
def Authority (log : List Event) (at_ : Reading) (ticket : String) (record : MediaTicketRecord)
    (b : MediaSessionBinding) (incarnation : UInt64) : Prop :=
  (∃ e before i, TicketAuthority digest log at_ ticket record b incarnation e before i) ∧
    ∃ e before g, SessionAuthority digest log at_ b e before g

def MediaOp.authorizes : MediaOp → Option (String × MediaTicketKind)
  | .authorizeStream ticket kind _ _ => some (ticket, kind)
  | .authorizeBound ticket kind _ => some (ticket, kind)
  | .authorizeTicket ticket kind => some (ticket, kind)
  | _ => none

def MediaOp.finalizes : MediaOp → Option (String × MediaTicketKind × MediaTicketAuthorization)
  | .finalizeStream ticket kind _ authorization _ => some (ticket, kind, authorization)
  | .finalizeBound ticket kind _ authorization => some (ticket, kind, authorization)
  | .finalizeTicket ticket kind authorization => some (ticket, kind, authorization)
  | _ => none

/-- A call that accepts a ticket has its authority in the log. -/
def World.AcceptsOnly (w : World) (input : Nat × MediaOp) : Prop :=
  (∀ ticket kind a, input.2.authorizes = some (ticket, kind) →
    w.result digest input = .authorization (some a) → a.record.kind = kind ∧
      Authority digest w.log (w.clock.after input.1) ticket a.record a.binding
        a.ticketIncarnation) ∧
  ∀ ticket kind a, input.2.finalizes = some (ticket, kind, a) →
    w.result digest input = .finalized true → ∃ record, record.kind = kind ∧
      Authority digest w.log (w.clock.after input.1) ticket record a.binding
        a.ticketIncarnation

variable {digest}

/-- Before an absolute expiry neither the lifetime nor the deadline is over: the clocks have
advanced together since. -/
theorem before_deadline {cap expires : Nat} {deadline : Option Nat}
    (hclock : e.at_.instant ≤ clock.instant ∧
      clock.system + e.at_.instant = e.at_.system + clock.instant)
    (hexpires : expires ≤ e.at_.instant + ttlUntil cap deadline e.at_.system)
    (hlive : (clock.after elapsed).instant < expires) :
    (clock.after elapsed).instant < e.at_.instant + cap ∧
      ∀ d, deadline = some d → (clock.after elapsed).system < d := by
  simp only [Reading.after] at hlive ⊢
  cases deadline with
  | none =>
    simp only [ttlUntil] at hexpires
    exact ⟨by omega, by simp⟩
  | some deadline =>
    simp only [ttlUntil, some.injEq, forall_eq'] at hexpires ⊢
    omega

theorem Lawful.authority (h : Lawful digest w)
    (hget : (w.inner.pruneExpired (w.clock.after elapsed).instant).tickets.get? ticket =
      some stored)
    (hb : stored.binding = some b)
    (hmatch : bindingMatchesLiveSession b
      (w.inner.pruneExpired (w.clock.after elapsed).instant).sessions = true) :
    Authority digest w.log (w.clock.after elapsed) ticket stored.record b stored.incarnation := by
  constructor
  · obtain ⟨hold, hlive, _⟩ := pruneExpired_tickets.mp hget
    obtain ⟨hidle, hlive⟩ := live_iff.mp hlive
    obtain ⟨e, before, i, hforce⟩ := h.tickets _ _ hold
    have hheld := hforce.held
    rw [hb] at hheld
    obtain ⟨habsolute, hdeadline⟩ :=
      before_deadline (h.clocks e hheld.mem) hforce.absolute hlive
    exact ⟨e, before, i, hheld.mono hidle, hforce.issue, hforce.named, hforce.record,
      hforce.binding.trans hb, hforce.incarnation, habsolute, hdeadline⟩
  · obtain ⟨session, hsession, hactor, hclient⟩ := bindingMatches_iff.mp hmatch
    obtain ⟨hold, hlive⟩ := pruneExpired_sessions.mp hsession
    obtain ⟨hidle, hlive⟩ := live_iff.mp hlive
    obtain ⟨e, before, g, hforce⟩ := h.sessions _ _ hold
    have hbinding : (⟨session.actorSubject, session.clientId, b.sessionDigest⟩ :
        MediaSessionBinding) = b := by
      rw [hactor, hclient]
    have hheld := hforce.held
    rw [hbinding, ← hforce.login] at hheld
    obtain ⟨habsolute, hdeadline⟩ :=
      before_deadline (h.clocks e hheld.mem) hforce.absolute hlive
    exact ⟨e, before, g, hheld.mono hidle, hforce.grant, hforce.binding.trans hbinding,
      habsolute, hdeadline⟩

/-! ### Accepting calls -/

/-- A check of the bound session that lets only live sessions pass and looks at nothing but
the session of that digest. -/
structure Sharp (check : MediaSessionBinding → Sessions → Bool) : Prop where
  live : ∀ b sessions, check b sessions = true → bindingMatchesLiveSession b sessions = true
  alike : ∀ b sessions sessions',
    sessions.get? b.sessionDigest = sessions'.get? b.sessionDigest →
    check b sessions = check b sessions'

theorem sharp_bindingMatches : Sharp bindingMatchesLiveSession where
  live _ _ h := h
  alike b sessions sessions' h := by rw [bindingMatchesLiveSession, bindingMatchesLiveSession, h]

variable (digest) in
theorem sharp_tokenCheck (token : MediaSessionToken) : Sharp (tokenCheck digest token) where
  live b sessions h := by
    rw [tokenCheck, sessionMatches, Bool.and_eq_true] at h
    exact h.2
  alike b sessions sessions' h := by
    rw [tokenCheck, tokenCheck, sessionMatches, sessionMatches,
      sharp_bindingMatches.alike b sessions sessions' h]

variable (digest) in
theorem sharp_finalTokenCheck (token : MediaSessionToken) :
    Sharp (finalTokenCheck digest token) where
  live b sessions h := by
    rw [finalTokenCheck, Bool.and_eq_true] at h
    exact (sharp_tokenCheck digest token).live b sessions h.1
  alike b sessions sessions' h := by
    have htoken := (sharp_tokenCheck digest token).alike b sessions sessions' h
    unfold tokenCheck at htoken
    rw [finalTokenCheck, finalTokenCheck, htoken, contains, contains, h]

theorem sharp_streamCheck {cookies : MediaClientId → HeaderCookieParseResult} {allow : Bool} :
    Sharp (streamCheck digest cookies allow) where
  live b sessions h := by
    rw [streamCheck, Bool.and_eq_true] at h
    exact h.1
  alike b sessions sessions' h := by
    have hcookie : cookieAdmits digest cookies allow b sessions =
        cookieAdmits digest cookies allow b sessions' := by
      unfold cookieAdmits
      split
      · rfl
      · exact (sharp_tokenCheck digest _).alike b sessions sessions' h
      · rfl
    rw [streamCheck, streamCheck, hcookie, sharp_bindingMatches.alike b sessions sessions' h]

variable (digest) in
/-- Every `authorize_*` call is `authorizeIf` with a sharp check. -/
theorem authorizes_perform (h : op.authorizes = some (ticket, kind)) :
    ∃ check, Sharp check ∧ ∀ (s : MediaTicketInner) (at_ : Reading), (s.perform digest at_ op).2 =
        .authorization (s.authorizeIf at_ ticket kind check).2 := by
  cases op with
  | authorizeStream ticket' kind' cookies allow =>
    cases h
    exact ⟨_, sharp_streamCheck, fun _ _ => rfl⟩
  | authorizeBound ticket' kind' token =>
    cases h
    exact ⟨_, sharp_tokenCheck digest token, fun _ _ => rfl⟩
  | authorizeTicket ticket' kind' =>
    cases h
    exact ⟨_, sharp_bindingMatches, fun _ _ => rfl⟩
  | _ => cases h

variable (digest) in
/-- Every `finalize_*` call is `finalizeIf` with a sharp check. -/
theorem finalizes_perform (h : op.finalizes = some (ticket, kind, a)) :
    ∃ check, Sharp check ∧ ∀ (s : MediaTicketInner) (at_ : Reading), (s.perform digest at_ op).2 =
        .finalized (s.finalizeIf at_ ticket kind a check).2 := by
  cases op with
  | finalizeStream ticket' kind' cookies a' allow =>
    cases h
    exact ⟨_, sharp_streamCheck, fun _ _ => rfl⟩
  | finalizeBound ticket' kind' token a' =>
    cases h
    exact ⟨_, sharp_finalTokenCheck digest token, fun _ _ => rfl⟩
  | finalizeTicket ticket' kind' a' =>
    cases h
    exact ⟨_, sharp_bindingMatches, fun _ _ => rfl⟩
  | _ => cases h

theorem Lawful.acceptsOnly (h : Lawful digest w) : w.AcceptsOnly digest input := by
  constructor
  · intro ticket kind a hop hresult
    obtain ⟨check, hsharp, hperform⟩ := authorizes_perform digest hop
    rw [World.result, hperform] at hresult
    rcases authorizeIf_cases w.inner (w.clock.after input.1) ticket kind check with
      hnone | ⟨stored, b, hget, hb, hkind, hcheck, hsome⟩
    · simp [hnone] at hresult
    · rw [hsome] at hresult
      cases hresult
      exact ⟨hkind, h.authority hget hb (hsharp.live _ _ hcheck)⟩
  · intro ticket kind a hop hresult
    obtain ⟨check, hsharp, hperform⟩ := finalizes_perform digest hop
    rw [World.result, hperform] at hresult
    rcases finalizeIf_cases w.inner (w.clock.after input.1) ticket kind a check with
      hfalse | ⟨stored, hget, hkind, hincarnation, hb, hcheck, _⟩
    · simp [hfalse] at hresult
    · rw [← hincarnation]
      exact ⟨stored.record, hkind, h.authority hget hb (hsharp.live _ _ hcheck)⟩

/-! ## What a revocation leaves alone -/

/-- The two stores hold the same ticket, bound to the same session, or neither does. -/
def Alike (s s' : MediaTicketInner) (ticket : String) : Prop :=
  ∀ stored b session, stored.binding = some b →
    (s.tickets.get? ticket = some stored ∧ s.sessions.get? b.sessionDigest = some session ↔
      s'.tickets.get? ticket = some stored ∧ s'.sessions.get? b.sessionDigest = some session)

/-- A ticket that is authorized was stored with its session, both live. -/
theorem live_pair (hb : stored.binding = some b) :
    ((s.pruneExpired now).tickets.get? ticket = some stored ↔
      ∃ session, (s.tickets.get? ticket = some stored ∧
          s.sessions.get? b.sessionDigest = some session) ∧
        stored.expired now = false ∧ session.expired now = false) := by
  rw [pruneExpired_tickets, hb, all_some, contains_iff]
  constructor
  · rintro ⟨hget, hlive, session, hsession⟩
    obtain ⟨hold, hlive'⟩ := pruneExpired_sessions.mp hsession
    exact ⟨session, ⟨hget, hold⟩, hlive, hlive'⟩
  · rintro ⟨session, ⟨hget, hold⟩, hlive, hlive'⟩
    exact ⟨hget, hlive, session, pruneExpired_sessions.mpr ⟨hold, hlive'⟩⟩

theorem Alike.symm (h : Alike s s' ticket) :
    Alike s' s ticket := fun stored b session hb => (h stored b session hb).symm

theorem Alike.pruned (h : Alike s s' ticket) (hb : stored.binding = some b)
    (hget : (s.pruneExpired now).tickets.get? ticket = some stored) :
    (s'.pruneExpired now).tickets.get? ticket = some stored ∧
      (s.pruneExpired now).sessions.get? b.sessionDigest =
        (s'.pruneExpired now).sessions.get? b.sessionDigest := by
  obtain ⟨session, hpair, hlive, hlive'⟩ := (live_pair hb).mp hget
  have hpair' := (h stored b session hb).mp hpair
  refine ⟨(live_pair hb).mpr ⟨session, hpair', hlive, hlive'⟩, ?_⟩
  rw [pruneExpired_sessions.mpr ⟨hpair.2, hlive'⟩, pruneExpired_sessions.mpr ⟨hpair'.2, hlive'⟩]

theorem Alike.authorizes (h : Alike s s' ticket) (hsharp : Sharp check)
    (ha : (s.authorizeIf at_ ticket kind check).2 = some a) :
    (s'.authorizeIf at_ ticket kind check).2 = some a := by
  rcases authorizeIf_cases s at_ ticket kind check with
    hnone | ⟨stored, b, hget, hb, hkind, hcheck, hsome⟩
  · simp [hnone] at ha
  rw [hsome] at ha
  cases ha
  obtain ⟨hget', hsame⟩ := h.pruned hb hget
  have hcheck' := hcheck
  rw [hsharp.alike b _ _ hsame] at hcheck'
  simp [authorizeIf, hget', hb, hkind, hcheck']

theorem Alike.finalizes (h : Alike s s' ticket) (hsharp : Sharp check)
    (ha : (s.finalizeIf at_ ticket kind a check).2 = true) :
    (s'.finalizeIf at_ ticket kind a check).2 = true := by
  rcases finalizeIf_cases s at_ ticket kind a check with
    hfalse | ⟨stored, hget, hkind, hincarnation, hb, hcheck, _⟩
  · simp [hfalse] at ha
  · obtain ⟨hget', hsame⟩ := h.pruned hb hget
    rw [hsharp.alike a.binding _ _ hsame] at hcheck
    simp [finalizeIf, hget', hb, hkind, hincarnation, hcheck]

def MediaOp.revokesSessions : MediaOp → Bool
  | .revokeClient .. | .revokeSessionForActor .. | .revokeSession .. => true
  | .revokeAll | .revokeByActorOrSession .. => true
  | _ => false

theorem dropSession_keeps (hb : stored.binding = some b) (hne : b.sessionDigest ≠ d)
    (hget : s.tickets.get? ticket = some stored)
    (hsession : s.sessions.get? b.sessionDigest = some session) :
    (s.dropSession d).tickets.get? ticket = some stored ∧
      (s.dropSession d).sessions.get? b.sessionDigest = some session := by
  constructor
  · exact get?_retain_eq_some_iff.mpr ⟨hget, by simpa [hb] using hne⟩
  · rw [dropSession, get?_erase_of_ne _ hne, hsession]

/-- A revocation of sessions keeps every ticket whose session it does not cover. -/
theorem revocation_keeps (hop : op.revokesSessions = true) (hb : stored.binding = some b)
    (hget : s.tickets.get? ticket = some stored)
    (hsession : s.sessions.get? b.sessionDigest = some session)
    (hbacks : session.Backs b stored.authSessionId)
    (hspared : ¬ op.revokesSession digest b session.authSessionId) :
    (s.perform digest at_ op).1.tickets.get? ticket = some stored ∧
      (s.perform digest at_ op).1.sessions.get? b.sessionDigest = some session := by
  cases op with
  | revokeAll => exact absurd trivial hspared
  | revokeSession token =>
    have hne : b.sessionDigest ≠ digest token := fun heq => hspared heq.symm
    simp only [perform, revokeSession]
    split
    · exact dropSession_keeps hb hne hget hsession
    · exact ⟨hget, hsession⟩
  | revokeSessionForActor actor token =>
    simp only [perform, revokeSessionForActor]
    split_ifs with hactor
    · refine dropSession_keeps hb (fun heq => hspared ⟨heq.symm, ?_⟩) hget hsession
      rw [← heq, hsession, any_some, beq_iff_eq] at hactor
      rw [← hbacks.actorSubject, hactor]
    · exact ⟨hget, hsession⟩
  | revokeClient actor client =>
    have hother : ¬ (b.actorSubject = actor ∧ b.clientId = client) := hspared
    constructor
    · refine get?_retain_eq_some_iff.mpr ⟨hget, ?_⟩
      simpa [hb, ← not_and_or] using hother
    · refine get?_retain_eq_some_iff.mpr ⟨hsession, ?_⟩
      simpa [hbacks.actorSubject, hbacks.clientId, ← not_and_or] using hother
  | revokeByActorOrSession actor sessionId =>
    cases sessionId with
    | none =>
      constructor
      · refine get?_retain_eq_some_iff.mpr ⟨hget, ?_⟩
        simpa [hb, MediaOp.revokesSession] using hspared
      · refine get?_retain_eq_some_iff.mpr ⟨hsession, ?_⟩
        simpa [hbacks.actorSubject, MediaOp.revokesSession] using hspared
    | some sid =>
      have hlogin : session.authSessionId ≠ some sid := hspared
      constructor
      · refine get?_retain_eq_some_iff.mpr ⟨hget, ?_⟩
        simpa using fun hsid => hlogin (hbacks.login sid hsid)
      · refine get?_retain_eq_some_iff.mpr ⟨hsession, ?_⟩
        simpa using hlogin
  | _ => cases hop

theorem filtered_revocation (s : MediaTicketInner) (at_ : Reading)
    (hop : op.revokesSessions = true) :
    Filtered digest s ⟨at_, op, .done⟩ (s.perform digest at_ op).1 := by
  cases op with
  | revokeClient actor client => exact filtered_revokeClient digest
  | revokeSessionForActor actor token => exact filtered_revokeSessionForActor digest
  | revokeSession token => exact filtered_revokeSession digest
  | revokeAll => exact filtered_revokeAll digest
  | revokeByActorOrSession actor sessionId => exact filtered_revokeByActorOrSession digest
  | _ => cases hop

variable (digest) in
/-- The call revokes sessions, but not the one this ticket is bound to. -/
def World.Spares (w : World) (op : MediaOp) (ticket : String) : Prop :=
  op.revokesSessions = true ∧ ∀ stored b session, w.inner.tickets.get? ticket = some stored →
    stored.binding = some b → w.inner.sessions.get? b.sessionDigest = some session →
    ¬ op.revokesSession digest b session.authSessionId

def MediaOp.asksFor (op : MediaOp) : Option String :=
  (op.authorizes.map (·.1)).or (op.finalizes.map (·.1))

variable (digest) in
/-- A ticket whose session is spared by a revocation is accepted after it exactly as it
would have been without it. -/
def World.Steadfast (w : World) : Prop :=
  ∀ elapsed elapsed' op query ticket, w.Spares digest op ticket →
    query.asksFor = some ticket →
    (w.step digest (elapsed, op)).result digest (elapsed', query) =
      w.result digest (elapsed + elapsed', query)

theorem Lawful.alike (h : Lawful digest w) (hspares : w.Spares digest op ticket) :
    Alike w.inner (w.inner.perform digest at_ op).1 ticket := by
  obtain ⟨hop, hspared⟩ := hspares
  intro stored b session hb
  constructor
  · rintro ⟨hget, hsession⟩
    exact revocation_keeps hop hb hget hsession (h.backed _ _ _ _ hget hb hsession)
      (hspared _ _ _ hget hb hsession)
  · rintro ⟨hget, hsession⟩
    have hfiltered : Filtered digest w.inner _ _ := filtered_revocation w.inner at_ hop
    exact ⟨(hfiltered.tickets _ _ hget).1, (hfiltered.sessions _ _ hsession).1⟩

/-- What a call asking for a ticket returns depends only on the ticket and its session. -/
theorem Alike.perform_eq (h : Alike s s' ticket) {query : MediaOp}
    (hquery : query.asksFor = some ticket) :
    (s'.perform digest at_ query).2 = (s.perform digest at_ query).2 := by
  rw [MediaOp.asksFor, or_eq_some_iff, map_eq_some_iff,
    map_eq_some_iff] at hquery
  rcases hquery with ⟨⟨t, kind⟩, hop, rfl⟩ | ⟨_, ⟨t, kind, a⟩, hop, rfl⟩
  · obtain ⟨check, hsharp, hperform⟩ := authorizes_perform digest hop
    rw [hperform, hperform]
    congr 1
    ext a
    exact ⟨h.symm.authorizes hsharp, h.authorizes hsharp⟩
  obtain ⟨check, hsharp, hperform⟩ := finalizes_perform digest hop
  rw [hperform, hperform]
  congr 1
  exact Bool.eq_iff_iff.mpr ⟨h.symm.finalizes hsharp, h.finalizes hsharp⟩

theorem Lawful.steadfast (h : Lawful digest w) : w.Steadfast digest := by
  intro elapsed elapsed' op query ticket hspares hquery
  have hclock : (w.clock.after elapsed).after elapsed' = w.clock.after (elapsed + elapsed') := by
    simp only [Reading.after, Nat.add_assoc]
  rw [World.result, World.result, ← hclock]
  exact (h.alike hspares).perform_eq hquery

/-- **Media tickets never outlive their authority.** Over every run of calls with fresh
random tokens and clocks that advance together, whatever ticket an `authorize_*` or
`finalize_*` call accepts was issued in the log under the incarnation accepted and is in
force, with the session it is bound to; and a revocation changes nothing for the
tickets of the sessions it does not cover. -/
theorem World.media_authority (digest : MediaSessionToken → MediaSessionDigest) (clock : Reading)
    (inputs : List (Nat × MediaOp))
    (hfresh : EveryStep (World.step digest) (World.Fresh digest) (.new clock) inputs) :
    EveryStep (World.step digest) (World.AcceptsOnly digest) (.new clock) inputs ∧
      Always (World.step digest) (World.Steadfast digest) (.new clock) inputs := by
  have hlawful : Always (World.step digest) (Lawful digest) (.new clock) inputs :=
    always_of_everyStep (fun _ _ h hstep => h.step hstep) lawful_new hfresh
  constructor
  · exact everyStep_of_always (fun _ input h _ => h.acceptsOnly) hlawful
  · exact hlawful.mono fun _ h => h.steadfast

/-- Two clients of one actor, the first signed out while the second is streaming. -/
def twoClients : List (Nat × MediaOp) :=
  let record : MediaTicketRecord := ⟨.video, .playback, "a.mp4", "video/mp4", "a.mp4"⟩
  [(0, .issueBound 0 "user" "phone" none record none ["t1"] ["s1"] ""),
    (seconds 1, .issueBound 0 "user" "laptop" none record none ["t2"] ["s2"] ""),
    (seconds 1, .revokeClient "user" "phone"),
    (seconds 1, .authorizeBound "t1" .video "s1"),
    (0, .authorizeBound "t2" .video "s2")]

instance (w : World) (input : Nat × MediaOp) : Decidable (w.Fresh id input) := by
  delta World.Fresh; infer_instance

theorem World.media_authority_twoClients :
    EveryStep (World.step id) (World.AcceptsOnly id) (.new ⟨0, 0⟩) twoClients ∧
      Always (World.step id) (World.Steadfast id) (.new ⟨0, 0⟩) twoClients ∧
      ((run (World.step id) (.new ⟨0, 0⟩) twoClients).log.map fun e => match e.result with
        | .authorization granted => granted.isSome
        | _ => false) = [true, false, false, false, false] := by
  obtain ⟨haccepts, hsteadfast⟩ := World.media_authority id ⟨0, 0⟩ twoClients (by decide +kernel)
  exact ⟨haccepts, hsteadfast, by decide +kernel⟩

end

end DamHopper.Fs
