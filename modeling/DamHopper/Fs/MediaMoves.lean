import DamHopper.Fs.MediaTicket

/-!
# MediaMoves — what a call of the ticket store shows in a log and does to the store

An `Event` is a call with its time and its result. It may issue a ticket, hand out a
session, touch both, or revoke. `Move` lists the five ways a call can change the store,
and `perform_move` says that every call makes one of them: nothing is written that the
event does not show, and everything the event revokes is gone.
-/

namespace DamHopper.Fs

open AssocMap MediaTicketInner StoredMediaSession List Option

/-! ## The log -/

structure Event where
  at_ : Reading
  op : MediaOp
  result : MediaResult

structure Issue where
  ticket : String
  binding : Option MediaSessionBinding
  record : MediaTicketRecord
  deadline : Option Nat

structure Grant where
  binding : MediaSessionBinding
  login : Option String
  deadline : Option Nat

namespace Event

def issue? (e : Event) : Option Issue :=
  match e.op, e.result with
  | .issueBound _ _ _ _ record context _ _ _, .bound (.issued lease) =>
    some ⟨lease.ticket.ticket, some lease.session.binding, record,
      context.bind (·.authDeadline)⟩
  | .issue _ record _, .ticket (.issued lease) => some ⟨lease.ticket, none, record, none⟩
  | .issueForSession _ _ session record _, .ticket (.issued lease) =>
    some ⟨lease.ticket, some session.binding, record, none⟩
  | _, _ => none

def grant? (e : Event) : Option Grant :=
  match e.op, e.result with
  | .establishSession _ _ _ context _, .session (.issued lease) =>
    some ⟨lease.binding, context.bind (·.sessionId), context.bind (·.authDeadline)⟩
  | .issueBound _ _ _ _ _ context _ _ _, .bound (.issued lease) =>
    some ⟨lease.session.binding, context.bind (·.sessionId), context.bind (·.authDeadline)⟩
  | _, _ => none

def used? (digest : MediaSessionToken → MediaSessionDigest) (e : Event) :
    Option (String × Option MediaSessionDigest) :=
  match e.op, e.result with
  | .finalizeStream ticket _ _ authorization _, .finalized true =>
    some (ticket, some authorization.binding.sessionDigest)
  | .finalizeBound ticket _ _ authorization, .finalized true =>
    some (ticket, some authorization.binding.sessionDigest)
  | .finalizeTicket ticket _ authorization, .finalized true =>
    some (ticket, some authorization.binding.sessionDigest)
  | .lookup ticket _ token, .record (some _) => some (ticket, token.map digest)
  | _, _ => none

end Event

/-- The call revokes the ticket itself. -/
def MediaOp.revokesTicket (ticket : String) (kind : MediaTicketKind)
    (binding : Option MediaSessionBinding) : MediaOp → Prop
  | .revoke ticket' kind' => ticket' = ticket ∧ kind' = kind
  | .revokeBound ticket' kind' actor client =>
    ticket' = ticket ∧ kind' = kind ∧
      ∃ b, binding = some b ∧ b.actorSubject = actor ∧ b.clientId = client
  | _ => False

/-- The call revokes the session: by itself, by its actor and client, by its actor or by its
login. -/
def MediaOp.revokesSession (digest : MediaSessionToken → MediaSessionDigest)
    (binding : MediaSessionBinding) (login : Option String) : MediaOp → Prop
  | .revokeClient actor client => binding.actorSubject = actor ∧ binding.clientId = client
  | .revokeSessionForActor actor token =>
    digest token = binding.sessionDigest ∧ binding.actorSubject = actor
  | .revokeSession token => digest token = binding.sessionDigest
  | .revokeAll => True
  | .revokeByActorOrSession _ (some sid) => login = some sid
  | .revokeByActorOrSession actor none => binding.actorSubject = actor
  | _ => False

def MediaOp.ticketDraws : MediaOp → List String
  | .issueBound _ _ _ _ _ _ ticketDraws _ _ => ticketDraws
  | .issue _ _ ticketDraws => ticketDraws
  | .issueForSession _ _ _ _ ticketDraws => ticketDraws
  | _ => []

def MediaOp.sessionDraws : MediaOp → List MediaSessionToken
  | .establishSession _ _ _ _ sessionDraws => sessionDraws
  | .issueBound _ _ _ _ _ _ _ sessionDraws _ => sessionDraws
  | _ => []

section

variable (digest : MediaSessionToken → MediaSessionDigest)

/-! ## What a call does to the store -/

/-- The store has lost some entries, among them all that the call revokes. -/
structure Filtered (s : MediaTicketInner) (e : Event) (p : MediaTicketInner) : Prop where
  tickets : ∀ ticket stored, p.tickets.get? ticket = some stored →
    s.tickets.get? ticket = some stored ∧
      ¬ e.op.revokesTicket ticket stored.record.kind stored.binding
  sessions : ∀ d session, p.sessions.get? d = some session →
    s.sessions.get? d = some session ∧
      ¬ e.op.revokesSession digest ⟨session.actorSubject, session.clientId, d⟩
        session.authSessionId
  nextIncarnation : p.nextTicketIncarnation = s.nextTicketIncarnation

/-- The session written by a call that hands one out. -/
inductive SessionPut (p : MediaTicketInner) (e : Event) (d : MediaSessionDigest)
    (session : StoredMediaSession) : Prop
  | reused (old : StoredMediaSession) (hget : p.sessions.get? d = some old)
      (hlive : old.expired e.at_.instant = false) (heq : session = old.touched e.at_.instant)
      (hgrant : ∃ g, e.grant? = some g ∧ g.binding.sessionDigest = d)
  | fresh (g : Grant) (hgrant : e.grant? = some g)
      (hbinding : g.binding = ⟨session.actorSubject, session.clientId, d⟩)
      (hlogin : g.login = session.authSessionId) (hdraw : d ∈ e.op.sessionDraws.map digest)
      (hidle : session.idleExpiresAt = e.at_.instant + MEDIA_SESSION_IDLE_TTL)
      (habsolute : session.absoluteExpiresAt = e.at_.instant +
        ttlUntil MEDIA_SESSION_ABSOLUTE_TTL g.deadline e.at_.system)

/-- The session is the one the ticket is bound to: of the same actor and client, and of the
login of the ticket if that has one. -/
structure StoredMediaSession.Backs (session : StoredMediaSession) (b : MediaSessionBinding)
    (ticketLogin : Option String) : Prop where
  actorSubject : session.actorSubject = b.actorSubject
  clientId : session.clientId = b.clientId
  login : ∀ sid, ticketLogin = some sid → session.authSessionId = some sid

/-- The ticket written by a call that issues one; its session is in the store. -/
structure TicketPut (p : MediaTicketInner) (e : Event) (ticket : String)
    (stored : StoredMediaTicket) (i : Issue) : Prop where
  issue : e.issue? = some i
  named : i.ticket = ticket
  draw : ticket ∈ e.op.ticketDraws
  record : i.record = stored.record
  binding : i.binding = stored.binding
  idle : stored.idleExpiresAt = e.at_.instant + MEDIA_TICKET_IDLE_TTL
  absolute : stored.absoluteExpiresAt = e.at_.instant +
    ttlUntil MEDIA_TICKET_ABSOLUTE_TTL i.deadline e.at_.system
  bound : ∀ b, stored.binding = some b →
    ∃ session, p.sessions.get? b.sessionDigest = some session ∧ session.Backs b stored.authSessionId

/-- What a call does to the store. -/
inductive Move (s : MediaTicketInner) (e : Event) : MediaTicketInner → Prop
  | filtered {p : MediaTicketInner} (h : Filtered digest s e p) (hissue : e.issue? = none) :
      Move s e p
  | session {p : MediaTicketInner} {d : MediaSessionDigest} {session : StoredMediaSession}
      (h : Filtered digest s e p) (hput : SessionPut digest p e d session)
      (hissue : e.issue? = none) : Move s e (p.putSession d session)
  | bound {p : MediaTicketInner} {d : MediaSessionDigest} {session : StoredMediaSession}
      {ticket : String} {stored : StoredMediaTicket} {i : Issue} (h : Filtered digest s e p)
      (hput : SessionPut digest p e d session)
      (hticket : TicketPut (p.putSession d session) e ticket stored i) :
      Move s e ((p.putSession d session).putTicket ticket stored)
  | ticket {p : MediaTicketInner} {ticket : String} {stored : StoredMediaTicket} {i : Issue}
      (h : Filtered digest s e p) (hticket : TicketPut p e ticket stored i) :
      Move s e (p.putTicket ticket stored)
  | touch {p : MediaTicketInner} {d : Option MediaSessionDigest} {ticket : String}
      {stored : StoredMediaTicket} (h : Filtered digest s e p)
      (hget : p.tickets.get? ticket = some stored)
      (hlive : stored.expired e.at_.instant = false)
      (hsession : ∀ d' session, p.sessions.get? d' = some session →
        session.expired e.at_.instant = false)
      (hused : e.used? digest = some (ticket, d)) (hissue : e.issue? = none) :
      Move s e (p.touch e.at_.instant d ticket stored)

/-! ### Pruning -/

variable {s : MediaTicketInner} {now : Nat} {d choice : MediaSessionDigest}
  {session : StoredMediaSession} {op : MediaOp} {e : Event} {at_ : Reading}
  {actor ticket : String} {client : MediaClientId} {context : Option MediaAuthContext}
  {kind : MediaTicketKind} {token : MediaSessionToken} {draws : List MediaSessionToken}
  {found : MediaSessionDigest × StoredMediaSession} {existing : Option MediaSessionToken}

theorem pruneExpired_sessions : (s.pruneExpired now).sessions.get? d = some session ↔
      s.sessions.get? d = some session ∧ session.expired now = false := by
  simp only [pruneExpired, get?_retain_eq_some_iff, Bool.not_eq_true']

theorem pruneExpired_tickets {stored : StoredMediaTicket} :
    (s.pruneExpired now).tickets.get? ticket = some stored ↔
      s.tickets.get? ticket = some stored ∧ stored.expired now = false ∧ stored.binding.all
          (fun b => (s.pruneExpired now).sessions.contains b.sessionDigest) = true := by
  simp only [pruneExpired, get?_retain_eq_some_iff, Bool.and_eq_true, Bool.not_eq_true']

def MediaOp.quiet : MediaOp → Bool
  | .revoke .. | .revokeBound .. | .revokeClient .. | .revokeSessionForActor .. => false
  | .revokeSession .. | .revokeAll | .revokeByActorOrSession .. => false
  | _ => true

variable {binding : Option MediaSessionBinding} {generation : UInt64} {record : MediaTicketRecord}
  {check : MediaSessionBinding → Sessions → Bool} {c : Prop}

theorem filtered_prune (h : op.quiet = true) {result : MediaResult} :
    Filtered digest s ⟨at_, op, result⟩ (s.pruneExpired at_.instant) where
  tickets _ _ hget := ⟨(pruneExpired_tickets.mp hget).1, by
    cases op <;> first | exact fun hr => hr | cases h⟩
  sessions _ _ hget := ⟨(pruneExpired_sessions.mp hget).1, by
    cases op <;> first | exact fun hr => hr | cases h⟩
  nextIncarnation := rfl

theorem live_sessions (h : (s.pruneExpired now).sessions.get? d = some session) :
    session.expired now = false :=
  (pruneExpired_sessions.mp h).2

theorem bindingMatches_iff {b : MediaSessionBinding} {sessions : Sessions} :
    bindingMatchesLiveSession b sessions = true ↔ ∃ session,
      sessions.get? b.sessionDigest = some session ∧ session.actorSubject = b.actorSubject ∧
        session.clientId = b.clientId := by
  unfold bindingMatchesLiveSession
  cases sessions.get? b.sessionDigest with
  | none | some session => simp

/-! ### Issuing -/

theorem presented_some (h : s.presented digest actor client context token = some found) :
    s.sessions.get? found.1 = some found.2 ∧ found.2.suits actor client context = true := by
  obtain ⟨session, hfilter, rfl⟩ := map_eq_some_iff.mp h
  exact filter_eq_some_iff.mp hfilter

theorem anySuiting_some (h : s.anySuiting actor client context choice = some found) :
    s.sessions.get? found.1 = some found.2 ∧ found.2.suits actor client context = true := by
  unfold anySuiting at h
  split at h
  next session hfilter =>
    cases h
    exact filter_eq_some_iff.mp hfilter
  · refine ⟨get?_eq_some_iff.mpr (mem_of_find?_eq_some h), ?_⟩
    simpa using find?_some h

theorem reusable_some (h : s.reusable digest actor client existing context choice = some found) :
    s.sessions.get? found.1 = some found.2 ∧ found.2.suits actor client context = true := by
  cases existing with
  | none => exact anySuiting_some h
  | some token => exact presented_some digest h

/-- The session a bound ticket gets: one of the store that suits, or a new one. -/
theorem sessionForIssue_some {s' : MediaTicketInner} {lease : MediaSessionLease}
    (hlive : ∀ d session, s.sessions.get? d = some session → session.expired e.at_.instant = false)
    (h : s.sessionForIssue digest e.at_ actor client existing context draws choice =
      some (s', lease))
    (hdraws : e.op.sessionDraws = draws)
    (hgrant : e.grant? = some ⟨lease.binding, context.bind (·.sessionId),
      context.bind (·.authDeadline)⟩) :
    ∃ session, s' = s.putSession lease.binding.sessionDigest session ∧
      SessionPut digest s e lease.binding.sessionDigest session ∧
      session.actorSubject = lease.binding.actorSubject ∧
      session.clientId = lease.binding.clientId ∧
      session.authSessionId = context.bind (·.sessionId) := by
  unfold sessionForIssue at h
  split at h
  next d session hreusable =>
    obtain ⟨hget, hsuits⟩ := reusable_some digest hreusable
    obtain ⟨rfl, rfl⟩ := Prod.mk.inj (Option.some.inj h)
    refine ⟨_, rfl, .reused session hget (hlive _ _ hget) rfl ⟨_, hgrant, rfl⟩, ?_⟩
    simp only [suits, Bool.and_eq_true, beq_iff_eq, and_assoc] at hsuits
    unfold touched
    exact ⟨hsuits.1, hsuits.2.1, hsuits.2.2.1⟩
  obtain ⟨token, hdraw, heq⟩ := map_eq_some_iff.mp h
  obtain ⟨rfl, rfl⟩ := Prod.mk.inj heq
  refine ⟨_, rfl, ?_, rfl, rfl, rfl⟩
  refine .fresh _ hgrant rfl rfl ?_ (by simp only [fresh]) (by simp only [fresh])
  rw [hdraws]
  exact mem_map_of_mem (mem_of_find?_eq_some hdraw)

theorem move_establish :
    let op := MediaOp.establishSession actor client existing context draws
    Move digest s ⟨at_, op, (s.perform digest at_ op).2⟩ (s.perform digest at_ op).1 := by
  intro op
  simp only [op, perform, establishSessionWithContext]
  split
  next token d session hreused =>
    obtain ⟨token', _, hfound⟩ := bind_eq_some_iff.mp hreused
    obtain ⟨found, hpresented, heq⟩ := map_eq_some_iff.mp hfound
    obtain ⟨rfl, rfl⟩ := Prod.mk.inj heq
    have hget := presented_some digest hpresented
    exact .session (filtered_prune digest rfl)
      (.reused session hget.1 (live_sessions hget.1) rfl ⟨_, rfl, rfl⟩) rfl
  split
  · exact .filtered (filtered_prune digest rfl) rfl
  next token hdraw =>
    refine .session (filtered_prune digest rfl) (.fresh _ rfl rfl rfl ?_ rfl rfl) rfl
    exact mem_map_of_mem (mem_of_find?_eq_some hdraw)

theorem move_issueBound {ticketDraws : List String} :
    let op := MediaOp.issueBound generation actor client existing record context ticketDraws draws
      choice
    Move digest s ⟨at_, op, (s.perform digest at_ op).2⟩ (s.perform digest at_ op).1 := by
  intro op
  simp only [op, perform, issueBoundWithContext]
  split
  · exact .filtered (filtered_prune digest rfl) rfl
  split
  · exact .filtered (filtered_prune digest rfl) rfl
  rename_i ticket hdraw
  split
  · exact .filtered (filtered_prune digest rfl) rfl
  rename_i s' lease hsession
  obtain ⟨session, rfl, hput, hactor, hclient, hlogin⟩ := sessionForIssue_some digest
    (e := ⟨at_, op, .bound (.issued ⟨⟨ticket, at_.leaseEpochMs⟩, lease⟩)⟩)
    (fun _ _ => live_sessions) hsession rfl rfl
  refine .bound (filtered_prune digest rfl) hput ⟨rfl, rfl, mem_of_find?_eq_some hdraw, rfl, rfl,
    rfl, rfl, ?_⟩
  rintro _ ⟨rfl⟩
  refine ⟨session, get?_insert_self _ _ _, hactor, hclient, fun sid hsid => ?_⟩
  rw [hlogin]
  exact hsid

theorem move_issueInner {draws : List String} (hquiet : op.quiet = true)
    (hdraws : op.ticketDraws = draws)
    (hissue : ∀ issue, (⟨at_, op, .ticket issue⟩ : Event).issue? = match issue with
      | .issued lease => some ⟨lease.ticket, binding, record, none⟩
      | _ => none) :
    let out := s.issueInner at_ generation record binding draws
    Move digest s ⟨at_, op, .ticket out.2⟩ out.1 := by
  intro out
  simp only [out, issueInner]
  split
  · exact .filtered (filtered_prune digest hquiet) (hissue _)
  split_ifs with hbinding
  · exact .filtered (filtered_prune digest hquiet) (hissue _)
  split
  · exact .filtered (filtered_prune digest hquiet) (hissue _)
  rename_i ticket hdraw
  refine .ticket (filtered_prune digest hquiet) ⟨hissue _, rfl, ?_, rfl, rfl, rfl, rfl, ?_⟩
  · rw [hdraws]
    exact mem_of_find?_eq_some hdraw
  · intro b hb
    have hall : binding.all
        (bindingMatchesLiveSession · (s.pruneExpired at_.instant).sessions) = true := by
      simpa using hbinding
    rw [show binding = some b from hb] at hall
    obtain ⟨session, hget, hactor, hclient⟩ := bindingMatches_iff.mp hall
    exact ⟨session, hget, hactor, hclient, fun sid hsid => nomatch hsid⟩

/-! ### Authorizing and finalizing -/

section

variable (s at_ ticket kind)

theorem authorizeIf_cases (check : MediaSessionBinding → Sessions → Bool) :
    let p := s.pruneExpired at_.instant
    s.authorizeIf at_ ticket kind check = (p, none) ∨
      ∃ stored b, p.tickets.get? ticket = some stored ∧ stored.binding = some b ∧
        stored.record.kind = kind ∧ check b p.sessions = true ∧
        s.authorizeIf at_ ticket kind check = (p, some (stored.authorization b)) := by
  simp only [authorizeIf]
  cases hget : (s.pruneExpired at_.instant).tickets.get? ticket with
  | none => exact .inl rfl
  | some stored =>
    cases hbinding : stored.binding with
    | none => exact .inl (by simp only [hbinding])
    | some b =>
      simp only [hbinding]
      split_ifs with hadmit
      · exact .inl rfl
      · simp only [Bool.or_eq_true, decide_eq_true_eq, Bool.not_eq_true', not_or, not_not,
          Bool.not_eq_false] at hadmit
        exact .inr ⟨stored, b, rfl, hbinding, hadmit.1, hadmit.2, rfl⟩

theorem finalizeIf_cases (a : MediaTicketAuthorization)
    (check : MediaSessionBinding → Sessions → Bool) :
    let p := s.pruneExpired at_.instant
    s.finalizeIf at_ ticket kind a check = (p, false) ∨
      ∃ stored, p.tickets.get? ticket = some stored ∧ stored.record.kind = kind ∧
        stored.incarnation = a.ticketIncarnation ∧ stored.binding = some a.binding ∧
        check a.binding p.sessions = true ∧
        s.finalizeIf at_ ticket kind a check =
          (p.touch at_.instant (some a.binding.sessionDigest) ticket stored, true) := by
  simp only [finalizeIf]
  cases hget : (s.pruneExpired at_.instant).tickets.get? ticket with
  | none => exact .inl rfl
  | some stored =>
    dsimp only
    split_ifs with hadmit
    · exact .inl rfl
    simp only [Bool.or_eq_true, decide_eq_true_eq, Bool.not_eq_true', not_or, not_not,
      Bool.not_eq_false] at hadmit
    obtain ⟨⟨⟨hkind, hincarnation⟩, hbinding⟩, hcheck⟩ := hadmit
    exact .inr ⟨stored, rfl, hkind, hincarnation, hbinding, hcheck, rfl⟩

theorem lookupInner_cases (token : Option MediaSessionToken) :
    let p := s.pruneExpired at_.instant
    s.lookupInner digest at_ ticket kind token = (p, none) ∨
      ∃ stored, p.tickets.get? ticket = some stored ∧
        stored.binding.map (·.sessionDigest) = token.map digest ∧
        s.lookupInner digest at_ ticket kind token =
          (p.touch at_.instant (stored.binding.map (·.sessionDigest)) ticket stored,
            some stored.record) := by
  simp only [lookupInner]
  cases hget : (s.pruneExpired at_.instant).tickets.get? ticket with
  | none => exact .inl rfl
  | some stored =>
    dsimp only
    split_ifs with hadmit
    · exact .inl rfl
    simp only [Bool.or_eq_true, not_or] at hadmit
    have hmatch := hadmit.2
    unfold sessionMatches at hmatch
    split at hmatch <;> simp_all

end

theorem move_authorize (hquiet : op.quiet = true)
    (hnone : ∀ result, (⟨at_, op, result⟩ : Event).issue? = none) :
    let out := s.authorizeIf at_ ticket kind check
    Move digest s ⟨at_, op, .authorization out.2⟩ out.1 := by
  intro out
  have hpruned : out.1 = s.pruneExpired at_.instant := by
    rcases authorizeIf_cases s at_ ticket kind check with h | ⟨_, _, _, _, _, _, h⟩ <;>
      exact congrArg Prod.fst h
  rw [hpruned]
  exact .filtered (filtered_prune digest hquiet) (hnone _)

theorem move_finalize (hquiet : op.quiet = true) {a : MediaTicketAuthorization}
    (hnone : ∀ result, (⟨at_, op, result⟩ : Event).issue? = none)
    (hused : (⟨at_, op, .finalized true⟩ : Event).used? digest =
      some (ticket, some a.binding.sessionDigest)) :
    let out := s.finalizeIf at_ ticket kind a check
    Move digest s ⟨at_, op, .finalized out.2⟩ out.1 := by
  intro out
  rcases finalizeIf_cases s at_ ticket kind a check with h | ⟨stored, hget, _, _, _, _, h⟩
  · rw [show out = _ from h]
    exact .filtered (filtered_prune digest hquiet) (hnone _)
  · rw [show out = _ from h]
    exact .touch (filtered_prune digest hquiet) hget (pruneExpired_tickets.mp hget).2.1
      (fun _ _ => live_sessions) hused (hnone _)

theorem move_lookup {token : Option MediaSessionToken} :
    let op := MediaOp.lookup ticket kind token
    Move digest s ⟨at_, op, (s.perform digest at_ op).2⟩ (s.perform digest at_ op).1 := by
  intro op
  simp only [op, perform]
  rcases lookupInner_cases digest s at_ ticket kind token with h | ⟨stored, hget, hmap, h⟩
  · rw [h]
    exact .filtered (filtered_prune digest rfl) rfl
  · rw [h, hmap]
    exact .touch (filtered_prune digest rfl) hget (pruneExpired_tickets.mp hget).2.1
      (fun _ _ => live_sessions) rfl rfl

/-! ### Revoking -/

/-- A ticket is taken out of a store that has lost entries, if it is one to revoke. -/
theorem filtered_eraseTicket [Decidable c] {p : MediaTicketInner}
    (htickets : ∀ ticket stored, p.tickets.get? ticket = some stored →
      s.tickets.get? ticket = some stored)
    (hsessions : ∀ d session, p.sessions.get? d = some session → s.sessions.get? d = some session)
    (hnext : p.nextTicketIncarnation = s.nextTicketIncarnation)
    (hrevokes : ∀ ticket' stored, p.tickets.get? ticket' = some stored →
      e.op.revokesTicket ticket' stored.record.kind stored.binding → ticket' = ticket ∧ c)
    (hspares : ∀ binding login, ¬ e.op.revokesSession digest binding login) :
    Filtered digest s e (if c then { p with tickets := p.tickets.erase ticket } else p) := by
  split_ifs with hc
  · refine ⟨fun ticket' stored hget => ?_, fun d session hget => ?_, hnext⟩
    · have hold := get?_of_erase hget
      refine ⟨htickets _ _ hold, fun hrevoked => ?_⟩
      rw [(hrevokes _ _ hold hrevoked).1, get?_erase_self] at hget
      cases hget
    · exact ⟨hsessions _ _ hget, hspares _ _⟩
  · exact ⟨fun _ _ hget => ⟨htickets _ _ hget, fun hrevoked => hc (hrevokes _ _ hget hrevoked).2⟩,
      fun _ _ hget => ⟨hsessions _ _ hget, hspares _ _⟩, hnext⟩

theorem filtered_revoke :
    Filtered digest s ⟨at_, .revoke ticket kind, .done⟩ (s.revoke ticket kind) := by
  refine filtered_eraseTicket digest (fun _ _ h => h) (fun _ _ h => h) rfl ?_ fun _ _ h => h
  rintro _ stored hget ⟨rfl, rfl⟩
  simp [hget]

theorem filtered_revokeBound : Filtered digest s ⟨at_, .revokeBound ticket kind actor client, .done⟩
      (s.revokeBound at_ ticket kind actor client) := by
  refine filtered_eraseTicket digest (fun _ _ h => (pruneExpired_tickets.mp h).1)
    (fun _ _ h => (pruneExpired_sessions.mp h).1) rfl ?_ fun _ _ h => h
  rintro _ stored hget ⟨rfl, rfl, b, hb, rfl, rfl⟩
  simp [hget, hb]

theorem filtered_revokeClient : Filtered digest s ⟨at_, .revokeClient actor client, .done⟩
      (s.revokeSessionsAndTicketsForClient actor client) where
  tickets _ _ hget := ⟨(get?_retain_eq_some_iff.mp hget).1, fun hrevoked => hrevoked⟩
  sessions d session hget := by
    obtain ⟨hget, hkeep⟩ := get?_retain_eq_some_iff.mp hget
    refine ⟨hget, fun hrevoked => ?_⟩
    obtain ⟨rfl, rfl⟩ := hrevoked
    simp at hkeep
  nextIncarnation := rfl

theorem filtered_revokeByActorOrSession {sessionId : Option String} :
    Filtered digest s ⟨at_, .revokeByActorOrSession actor sessionId, .done⟩
      (s.revokeByActorOrSession actor sessionId) where
  tickets _ _ hget := ⟨(get?_retain_eq_some_iff.mp hget).1, by cases sessionId <;> exact id⟩
  sessions d session hget := by
    obtain ⟨hget, hkeep⟩ := get?_retain_eq_some_iff.mp hget
    refine ⟨hget, fun hrevoked => ?_⟩
    cases sessionId with
    | none =>
      have hactor : session.actorSubject = actor := hrevoked
      simp [hactor] at hkeep
    | some sid =>
      have hlogin : session.authSessionId = some sid := hrevoked
      simp [hlogin] at hkeep
  nextIncarnation := rfl

/-- A session is dropped with its tickets, if it is one to revoke. -/
theorem filtered_dropSession [Decidable c]
    (hticket : ∀ ticket kind binding, ¬ e.op.revokesTicket ticket kind binding)
    (hsession : ∀ d' session, s.sessions.get? d' = some session →
      e.op.revokesSession digest ⟨session.actorSubject, session.clientId, d'⟩
        session.authSessionId → d' = d ∧ c) :
    Filtered digest s e (if c then s.dropSession d else s) := by
  split_ifs with hc
  · refine ⟨fun _ _ hget => ⟨(get?_retain_eq_some_iff.mp hget).1, hticket _ _ _⟩, ?_, rfl⟩
    intro d' session hget
    rw [dropSession] at hget
    have hold := get?_of_erase hget
    refine ⟨hold, fun hrevoked => ?_⟩
    rw [(hsession _ _ hold hrevoked).1, get?_erase_self] at hget
    cases hget
  · exact ⟨fun _ _ hget => ⟨hget, hticket _ _ _⟩,
      fun _ _ hget => ⟨hget, fun hrevoked => hc (hsession _ _ hget hrevoked).2⟩, rfl⟩

theorem filtered_revokeSession :
    Filtered digest s ⟨at_, .revokeSession token, .done⟩ (s.revokeSession digest token) := by
  refine filtered_dropSession digest (fun _ _ _ hrevoked => hrevoked) ?_
  rintro _ session hget rfl
  exact ⟨rfl, contains_iff.mpr ⟨session, hget⟩⟩

theorem filtered_revokeSessionForActor :
    Filtered digest s ⟨at_, .revokeSessionForActor actor token, .done⟩
      (s.revokeSessionForActor digest actor token) := by
  refine filtered_dropSession digest (fun _ _ _ hrevoked => hrevoked) ?_
  rintro _ session hget ⟨rfl, rfl⟩
  rw [hget]
  simp

theorem filtered_revokeAll : Filtered digest s ⟨at_, .revokeAll, .done⟩ s.revokeAll where
  tickets _ _ hget := nomatch hget
  sessions _ _ hget := nomatch hget
  nextIncarnation := rfl

theorem perform_move (s : MediaTicketInner) (at_ : Reading) (op : MediaOp) :
    Move digest s ⟨at_, op, (s.perform digest at_ op).2⟩ (s.perform digest at_ op).1 := by
  cases op with
  | establishSession actor client existing context draws => exact move_establish digest
  | issueBound generation actor client existing record context ticketDraws sessionDraws choice =>
    exact move_issueBound digest
  | issue generation record draws =>
    exact move_issueInner digest rfl rfl fun issue => by cases issue <;> rfl
  | issueForSession generation actor session record draws =>
    simp only [perform, issueForSession]
    split
    · exact .filtered ⟨fun _ _ hget => ⟨hget, fun hrevoked => hrevoked⟩,
        fun _ _ hget => ⟨hget, fun hrevoked => hrevoked⟩, rfl⟩ rfl
    exact move_issueInner digest rfl rfl fun issue => by cases issue <;> rfl
  | authorizeStream ticket kind cookies allow | authorizeBound ticket kind token
  | authorizeTicket ticket kind => exact move_authorize digest rfl fun _ => rfl
  | finalizeStream ticket kind cookies a allow | finalizeBound ticket kind token a
  | finalizeTicket ticket kind a => exact move_finalize digest rfl (fun _ => rfl) rfl
  | lookup ticket kind token => exact move_lookup digest
  | revoke ticket kind => exact .filtered (filtered_revoke digest) rfl
  | revokeBound ticket kind actor client => exact .filtered (filtered_revokeBound digest) rfl
  | revokeClient actor client => exact .filtered (filtered_revokeClient digest) rfl
  | revokeSessionForActor actor token => exact .filtered (filtered_revokeSessionForActor digest) rfl
  | revokeSession token => exact .filtered (filtered_revokeSession digest) rfl
  | revokeAll => exact .filtered (filtered_revokeAll digest) rfl
  | revokeByActorOrSession actor sessionId =>
    exact .filtered (filtered_revokeByActorOrSession digest) rfl

end

end DamHopper.Fs
