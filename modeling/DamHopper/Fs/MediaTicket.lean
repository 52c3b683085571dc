import DamHopper.Lib.AssocMap
import DamHopper.Lib.Runs

/-!
# MediaTicket — tickets for streaming private media

`fs/media_ticket.rs`: a store of tickets, each bound to a media session, under one
lock. Every method takes the lock for its whole body, so calls from many threads are a
list of operations. An operation gets the readings of the two clocks (`Reading`, in
nanoseconds) and the random tokens it may draw; a method tries up to four draws and
takes the first that is not in use.

The digest of a session token is a function of the token, and digests are compared for
equality. The cookies of a request are what the header parser finds for a client. Where the
source takes any session that fits (`iter().find`), `choice` is the one its iteration
meets first. A record keeps the fields that identify the medium; the resolved target and the
file version, which the store never reads, are left out. `generation` and the ticket
incarnations are 64 bits wide and wrap.
-/

namespace DamHopper.Fs

def seconds (n : Nat) : Nat := n * 1000000000

def MEDIA_TICKET_IDLE_TTL : Nat := seconds (15 * 60)

def MEDIA_TICKET_ABSOLUTE_TTL : Nat := seconds (8 * 60 * 60)

def MEDIA_SESSION_IDLE_TTL : Nat := seconds (30 * 60)

def MEDIA_SESSION_ABSOLUTE_TTL : Nat := seconds (8 * 60 * 60)

inductive MediaTicketKind where
  | video
  | image
  deriving Repr, DecidableEq

inductive MediaTicketPurpose where
  | playback
  | download
  | preview
  deriving Repr, DecidableEq

structure MediaTicketRecord where
  kind : MediaTicketKind
  purpose : MediaTicketPurpose
  projectRelativePath : String
  mime : String
  filename : String
  deriving Repr, DecidableEq

abbrev MediaClientId := String

abbrev MediaSessionToken := String

abbrev MediaSessionDigest := String

structure MediaSessionBinding where
  actorSubject : String
  clientId : MediaClientId
  sessionDigest : MediaSessionDigest
  deriving Repr, DecidableEq

structure MediaSessionLease where
  token : MediaSessionToken
  binding : MediaSessionBinding
  deriving Repr, DecidableEq

structure MediaTicketLease where
  ticket : String
  expiresAtEpochMs : Nat
  deriving Repr, DecidableEq

structure MediaTicketBoundLease where
  ticket : MediaTicketLease
  session : MediaSessionLease
  deriving Repr, DecidableEq

structure MediaAuthContext where
  sessionId : Option String
  authVersion : Option Int
  credentialVersion : Option Int
  /-- On the system clock. -/
  authDeadline : Option Nat
  deriving Repr, DecidableEq

structure MediaTicketAuthorization where
  record : MediaTicketRecord
  ticketIncarnation : UInt64
  binding : MediaSessionBinding
  authSessionId : Option String
  authVersion : Option Int
  credentialVersion : Option Int
  authDeadline : Option Nat
  deriving Repr, DecidableEq

inductive MediaTicketIssue where
  | issued (lease : MediaTicketLease)
  | capacity
  | contextChanged
  deriving Repr, DecidableEq

inductive MediaTicketBoundIssue where
  | issued (lease : MediaTicketBoundLease)
  | capacity
  | contextChanged
  deriving Repr, DecidableEq

inductive MediaSessionIssue where
  | issued (lease : MediaSessionLease)
  | capacity
  deriving Repr, DecidableEq

/-- What the request's headers hold for a client. -/
inductive HeaderCookieParseResult where
  | found (token : MediaSessionToken)
  | none
  | duplicate
  deriving Repr, DecidableEq

structure StoredMediaTicket where
  record : MediaTicketRecord
  binding : Option MediaSessionBinding
  incarnation : UInt64
  idleExpiresAt : Nat
  absoluteExpiresAt : Nat
  authSessionId : Option String
  authVersion : Option Int
  credentialVersion : Option Int
  authDeadline : Option Nat
  deriving Repr, DecidableEq

structure StoredMediaSession where
  actorSubject : String
  clientId : MediaClientId
  token : MediaSessionToken
  idleExpiresAt : Nat
  absoluteExpiresAt : Nat
  authSessionId : Option String
  authVersion : Option Int
  credentialVersion : Option Int
  authDeadline : Option Nat
  deriving Repr, DecidableEq

structure Reading where
  instant : Nat
  system : Nat
  deriving Repr, DecidableEq

def Reading.leaseEpochMs (at_ : Reading) : Nat :=
  (at_.system + MEDIA_TICKET_IDLE_TTL) / 1000000

/-- A lifetime of at most `cap` that ends with the deadline, if there is one. -/
def ttlUntil (cap : Nat) (deadline : Option Nat) (system : Nat) : Nat :=
  match deadline with
  | some deadline => min cap (deadline - system)
  | none => cap

namespace StoredMediaTicket

def expired (ticket : StoredMediaTicket) (now : Nat) : Bool :=
  ticket.idleExpiresAt ≤ now || ticket.absoluteExpiresAt ≤ now

def touched (ticket : StoredMediaTicket) (now : Nat) : StoredMediaTicket :=
  { ticket with idleExpiresAt := min (now + MEDIA_TICKET_IDLE_TTL) ticket.absoluteExpiresAt }

def authorization (ticket : StoredMediaTicket) (binding : MediaSessionBinding) :
    MediaTicketAuthorization where
  record := ticket.record
  ticketIncarnation := ticket.incarnation
  binding := binding
  authSessionId := ticket.authSessionId
  authVersion := ticket.authVersion
  credentialVersion := ticket.credentialVersion
  authDeadline := ticket.authDeadline

end StoredMediaTicket

namespace StoredMediaSession

def expired (session : StoredMediaSession) (now : Nat) : Bool :=
  session.idleExpiresAt ≤ now || session.absoluteExpiresAt ≤ now

def touched (session : StoredMediaSession) (now : Nat) : StoredMediaSession :=
  { session with idleExpiresAt := min (now + MEDIA_SESSION_IDLE_TTL) session.absoluteExpiresAt }

/-- The session may serve this actor, client and login. -/
def suits (session : StoredMediaSession) (actorSubject : String) (clientId : MediaClientId)
    (context : Option MediaAuthContext) : Bool :=
  session.actorSubject == actorSubject && session.clientId == clientId &&
    session.authSessionId == context.bind (·.sessionId) &&
    session.authVersion == context.bind (·.authVersion) &&
    session.credentialVersion == context.bind (·.credentialVersion)

def fresh (at_ : Reading) (actorSubject : String) (clientId : MediaClientId)
    (token : MediaSessionToken) (context : Option MediaAuthContext) : StoredMediaSession where
  actorSubject := actorSubject
  clientId := clientId
  token := token
  idleExpiresAt := at_.instant + MEDIA_SESSION_IDLE_TTL
  absoluteExpiresAt := at_.instant +
    ttlUntil MEDIA_SESSION_ABSOLUTE_TTL (context.bind (·.authDeadline)) at_.system
  authSessionId := context.bind (·.sessionId)
  authVersion := context.bind (·.authVersion)
  credentialVersion := context.bind (·.credentialVersion)
  authDeadline := context.bind (·.authDeadline)

end StoredMediaSession

abbrev Tickets := AssocMap String StoredMediaTicket

abbrev Sessions := AssocMap MediaSessionDigest StoredMediaSession

structure MediaTicketInner where
  tickets : Tickets
  sessions : Sessions
  generation : UInt64
  nextTicketIncarnation : UInt64
  deriving Repr, DecidableEq

def bindingMatchesLiveSession (binding : MediaSessionBinding) (sessions : Sessions) : Bool :=
  (sessions.get? binding.sessionDigest).any fun session =>
    session.actorSubject == binding.actorSubject && session.clientId == binding.clientId

section

variable (digest : MediaSessionToken → MediaSessionDigest)

def sessionMatches (binding : Option MediaSessionBinding) (token : Option MediaSessionToken)
    (sessions : Sessions) : Bool :=
  match binding, token with
  | some binding, some token =>
    digest token == binding.sessionDigest && bindingMatchesLiveSession binding sessions
  | binding, token => binding.isNone && token.isNone

namespace MediaTicketInner

variable (s : MediaTicketInner) (at_ : Reading) (ticket : String) (expectedKind : MediaTicketKind)
    (expectedGeneration : UInt64) (actorSubject : String) (clientId : MediaClientId)

def new : MediaTicketInner := ⟨.empty, .empty, 0, 0⟩

def pruneExpired (now : Nat) : MediaTicketInner :=
  let sessions := s.sessions.retain fun _ session => !session.expired now
  let tickets := s.tickets.retain fun _ ticket =>
    !ticket.expired now &&
      ticket.binding.all fun binding => sessions.contains binding.sessionDigest
  { s with sessions, tickets }

/-! ## Issuing -/

def drawSession (draws : List MediaSessionToken) : Option MediaSessionToken :=
  draws.find? fun token => !s.sessions.contains (digest token)

def drawTicket (draws : List String) : Option String :=
  draws.find? fun ticket => !s.tickets.contains ticket

def putSession (sessionDigest : MediaSessionDigest) (session : StoredMediaSession) :
    MediaTicketInner :=
  { s with sessions := s.sessions.insert sessionDigest session }

def putTicket (stored : StoredMediaTicket) : MediaTicketInner :=
  { s with
    tickets := s.tickets.insert ticket { stored with incarnation := s.nextTicketIncarnation }
    nextTicketIncarnation := s.nextTicketIncarnation + 1 }

def presented (context : Option MediaAuthContext) (token : MediaSessionToken) :
    Option (MediaSessionDigest × StoredMediaSession) :=
  ((s.sessions.get? (digest token)).filter (·.suits actorSubject clientId context)).map
    fun session => (digest token, session)

/-- Any session that suits: the one the iteration meets first. -/
def anySuiting (context : Option MediaAuthContext) (choice : MediaSessionDigest) :
    Option (MediaSessionDigest × StoredMediaSession) :=
  match (s.sessions.get? choice).filter (·.suits actorSubject clientId context) with
  | some session => some (choice, session)
  | none => s.sessions.entries.find? fun entry => entry.2.suits actorSubject clientId context

def establishSessionWithContext (existing : Option MediaSessionToken)
    (context : Option MediaAuthContext) (sessionDraws : List MediaSessionToken) :
    MediaTicketInner × MediaSessionIssue :=
  let s := s.pruneExpired at_.instant
  let reused := existing.bind fun token =>
    (s.presented digest actorSubject clientId context token).map fun found => (token, found)
  match reused with
  | some (token, sessionDigest, session) =>
    (s.putSession sessionDigest (session.touched at_.instant),
      .issued ⟨token, actorSubject, clientId, sessionDigest⟩)
  | none =>
    match s.drawSession digest sessionDraws with
    | none => (s, .capacity)
    | some token =>
      (s.putSession (digest token) (.fresh at_ actorSubject clientId token context),
        .issued ⟨token, actorSubject, clientId, digest token⟩)

/-- The session a bound ticket may reuse. -/
def reusable (existing : Option MediaSessionToken) (context : Option MediaAuthContext)
    (choice : MediaSessionDigest) : Option (MediaSessionDigest × StoredMediaSession) :=
  match existing with
  | some token => s.presented digest actorSubject clientId context token
  | none => s.anySuiting actorSubject clientId context choice

/-- The session of a bound ticket: one that can be reused, or a new one. -/
def sessionForIssue (existing : Option MediaSessionToken) (context : Option MediaAuthContext)
    (sessionDraws : List MediaSessionToken) (choice : MediaSessionDigest) :
    Option (MediaTicketInner × MediaSessionLease) :=
  match s.reusable digest actorSubject clientId existing context choice with
  | some (sessionDigest, session) =>
    some (s.putSession sessionDigest (session.touched at_.instant),
      ⟨session.token, actorSubject, clientId, sessionDigest⟩)
  | none =>
    (s.drawSession digest sessionDraws).map fun token =>
      (s.putSession (digest token) (.fresh at_ actorSubject clientId token context),
        ⟨token, actorSubject, clientId, digest token⟩)

def issueBoundWithContext (existing : Option MediaSessionToken) (record : MediaTicketRecord)
    (context : Option MediaAuthContext) (ticketDraws : List String)
    (sessionDraws : List MediaSessionToken) (choice : MediaSessionDigest) :
    MediaTicketInner × MediaTicketBoundIssue :=
  let s := s.pruneExpired at_.instant
  if s.generation ≠ expectedGeneration then (s, .contextChanged)
  else
    match s.drawTicket ticketDraws with
    | none => (s, .capacity)
    | some ticket =>
      match s.sessionForIssue digest at_ actorSubject clientId existing context sessionDraws
          choice with
      | none => (s, .capacity)
      | some (s, session) =>
        let stored : StoredMediaTicket :=
          { record := record
            binding := some session.binding
            incarnation := 0
            idleExpiresAt := at_.instant + MEDIA_TICKET_IDLE_TTL
            absoluteExpiresAt := at_.instant +
              ttlUntil MEDIA_TICKET_ABSOLUTE_TTL (context.bind (·.authDeadline)) at_.system
            authSessionId := context.bind (·.sessionId)
            authVersion := context.bind (·.authVersion)
            credentialVersion := context.bind (·.credentialVersion)
            authDeadline := context.bind (·.authDeadline) }
        (s.putTicket ticket stored, .issued ⟨⟨ticket, at_.leaseEpochMs⟩, session⟩)

def issueInner (record : MediaTicketRecord) (binding : Option MediaSessionBinding)
    (ticketDraws : List String) : MediaTicketInner × MediaTicketIssue :=
  let s := s.pruneExpired at_.instant
  if s.generation ≠ expectedGeneration then (s, .contextChanged)
  else if !binding.all (bindingMatchesLiveSession · s.sessions) then (s, .capacity)
  else
    match s.drawTicket ticketDraws with
    | none => (s, .capacity)
    | some ticket =>
      let stored : StoredMediaTicket :=
        { record := record
          binding := binding
          incarnation := 0
          idleExpiresAt := at_.instant + MEDIA_TICKET_IDLE_TTL
          absoluteExpiresAt := at_.instant + MEDIA_TICKET_ABSOLUTE_TTL
          authSessionId := none
          authVersion := none
          credentialVersion := none
          authDeadline := none }
      (s.putTicket ticket stored, .issued ⟨ticket, at_.leaseEpochMs⟩)

def issue (record : MediaTicketRecord) (ticketDraws : List String) :
    MediaTicketInner × MediaTicketIssue :=
  s.issueInner at_ expectedGeneration record none ticketDraws

def issueForSession (session : MediaSessionLease) (record : MediaTicketRecord)
    (ticketDraws : List String) : MediaTicketInner × MediaTicketIssue :=
  if session.binding.actorSubject ≠ actorSubject then (s, .contextChanged)
  else s.issueInner at_ expectedGeneration record (some session.binding) ticketDraws

/-! ## Authorizing and finalizing

The three ways of authorizing differ in the check of the bound session, and so do the
three ways of finalizing. -/

/-- The cookie that a stream request carries for the bound client, if it carries one, must
name the bound session. -/
def cookieAdmits (cookies : MediaClientId → HeaderCookieParseResult) (allowTicketOnly : Bool)
    (binding : MediaSessionBinding) (sessions : Sessions) : Bool :=
  match cookies binding.clientId with
  | .duplicate => false
  | .found token => sessionMatches digest (some binding) (some token) sessions
  | .none => allowTicketOnly

/-- The check of a stream request. -/
def streamCheck (cookies : MediaClientId → HeaderCookieParseResult) (allowTicketOnly : Bool)
    (binding : MediaSessionBinding) (sessions : Sessions) : Bool :=
  bindingMatchesLiveSession binding sessions &&
    cookieAdmits digest cookies allowTicketOnly binding sessions

def tokenCheck (token : MediaSessionToken) (binding : MediaSessionBinding)
    (sessions : Sessions) : Bool :=
  sessionMatches digest (some binding) (some token) sessions

def finalTokenCheck (token : MediaSessionToken) (binding : MediaSessionBinding)
    (sessions : Sessions) : Bool :=
  sessionMatches digest (some binding) (some token) sessions &&
    sessions.contains binding.sessionDigest

def authorizeIf (check : MediaSessionBinding → Sessions → Bool) :
    MediaTicketInner × Option MediaTicketAuthorization :=
  let s := s.pruneExpired at_.instant
  match s.tickets.get? ticket with
  | none => (s, none)
  | some stored =>
    match stored.binding with
    | none => (s, none)
    | some binding =>
      if stored.record.kind ≠ expectedKind || !check binding s.sessions then (s, none)
      else (s, some (stored.authorization binding))

def authorizeStream (cookies : MediaClientId → HeaderCookieParseResult) (allowTicketOnly : Bool) :
    MediaTicketInner × Option MediaTicketAuthorization :=
  s.authorizeIf at_ ticket expectedKind (streamCheck digest cookies allowTicketOnly)

def authorizeBound (token : MediaSessionToken) :
    MediaTicketInner × Option MediaTicketAuthorization :=
  s.authorizeIf at_ ticket expectedKind (tokenCheck digest token)

def authorizeTicket : MediaTicketInner × Option MediaTicketAuthorization :=
  s.authorizeIf at_ ticket expectedKind bindingMatchesLiveSession

def touch (now : Nat) (sessionDigest : Option MediaSessionDigest) (ticket : String)
    (stored : StoredMediaTicket) : MediaTicketInner :=
  let s :=
    match sessionDigest.bind fun d => (s.sessions.get? d).map fun session => (d, session) with
    | some (d, session) => s.putSession d (session.touched now)
    | none => s
  { s with tickets := s.tickets.insert ticket (stored.touched now) }

def finalizeIf (authorization : MediaTicketAuthorization)
    (check : MediaSessionBinding → Sessions → Bool) : MediaTicketInner × Bool :=
  let s := s.pruneExpired at_.instant
  match s.tickets.get? ticket with
  | none => (s, false)
  | some stored =>
    if stored.record.kind ≠ expectedKind ||
        stored.incarnation ≠ authorization.ticketIncarnation ||
        stored.binding ≠ some authorization.binding ||
        !check authorization.binding s.sessions then
      (s, false)
    else
      (s.touch at_.instant (some authorization.binding.sessionDigest) ticket stored, true)

def finalizeStreamAndTouch (cookies : MediaClientId → HeaderCookieParseResult)
    (authorization : MediaTicketAuthorization) (allowTicketOnly : Bool) : MediaTicketInner × Bool :=
  s.finalizeIf at_ ticket expectedKind authorization
    (streamCheck digest cookies allowTicketOnly)

def finalizeBoundAndTouch (token : MediaSessionToken) (authorization : MediaTicketAuthorization) :
    MediaTicketInner × Bool :=
  s.finalizeIf at_ ticket expectedKind authorization (finalTokenCheck digest token)

def finalizeTicketAndTouch (authorization : MediaTicketAuthorization) : MediaTicketInner × Bool :=
  s.finalizeIf at_ ticket expectedKind authorization bindingMatchesLiveSession

def lookupInner (token : Option MediaSessionToken) : MediaTicketInner × Option MediaTicketRecord :=
  let s := s.pruneExpired at_.instant
  match s.tickets.get? ticket with
  | none => (s, none)
  | some stored =>
    if stored.record.kind ≠ expectedKind ||
        !sessionMatches digest stored.binding token s.sessions then
      (s, none)
    else
      (s.touch at_.instant (stored.binding.map (·.sessionDigest)) ticket stored,
        some stored.record)

/-! ## Revoking -/

def revoke : MediaTicketInner :=
  if (s.tickets.get? ticket).any fun stored => stored.record.kind == expectedKind then
    { s with tickets := s.tickets.erase ticket }
  else s

def revokeBound : MediaTicketInner :=
  let s := s.pruneExpired at_.instant
  if (s.tickets.get? ticket).any fun stored =>
      stored.record.kind == expectedKind && stored.binding.any fun binding =>
        binding.actorSubject == actorSubject && binding.clientId == clientId then
    { s with tickets := s.tickets.erase ticket }
  else s

def revokeSessionsAndTicketsForClient : MediaTicketInner :=
  { s with
    sessions := s.sessions.retain fun _ session =>
      !(session.actorSubject == actorSubject && session.clientId == clientId)
    tickets := s.tickets.retain fun _ ticket =>
      ticket.binding.all fun binding =>
        !(binding.actorSubject == actorSubject && binding.clientId == clientId) }

def dropSession (sessionDigest : MediaSessionDigest) : MediaTicketInner :=
  { s with
    sessions := s.sessions.erase sessionDigest
    tickets := s.tickets.retain fun _ ticket =>
      ticket.binding.all fun binding => binding.sessionDigest != sessionDigest }

def revokeSessionForActor (token : MediaSessionToken) : MediaTicketInner :=
  if (s.sessions.get? (digest token)).any fun session => session.actorSubject == actorSubject then
    s.dropSession (digest token)
  else s

def revokeSession (token : MediaSessionToken) : MediaTicketInner :=
  if s.sessions.contains (digest token) then s.dropSession (digest token) else s

def revokeAll : MediaTicketInner :=
  { s with tickets := .empty, sessions := .empty, generation := s.generation + 1 }

def revokeByActorOrSession (actor : String) (sessionId : Option String) : MediaTicketInner :=
  { s with
    tickets := s.tickets.retain fun _ ticket =>
      match sessionId with
      | some sid => ticket.authSessionId != some sid
      | none => !ticket.binding.any fun binding => binding.actorSubject == actor
    sessions := s.sessions.retain fun _ session =>
      match sessionId with
      | some sid => session.authSessionId != some sid
      | none => session.actorSubject != actor }

end MediaTicketInner

/-! ## Operations -/

/-- A call of the store, with the random tokens it draws. -/
inductive MediaOp where
  | establishSession (actorSubject : String) (clientId : MediaClientId)
      (existing : Option MediaSessionToken) (context : Option MediaAuthContext)
      (sessionDraws : List MediaSessionToken)
  | issueBound (expectedGeneration : UInt64) (actorSubject : String) (clientId : MediaClientId)
      (existing : Option MediaSessionToken) (record : MediaTicketRecord)
      (context : Option MediaAuthContext) (ticketDraws : List String)
      (sessionDraws : List MediaSessionToken) (choice : MediaSessionDigest)
  | issue (expectedGeneration : UInt64) (record : MediaTicketRecord) (ticketDraws : List String)
  | issueForSession (expectedGeneration : UInt64) (actorSubject : String)
      (session : MediaSessionLease) (record : MediaTicketRecord) (ticketDraws : List String)
  | authorizeStream (ticket : String) (expectedKind : MediaTicketKind)
      (cookies : MediaClientId → HeaderCookieParseResult) (allowTicketOnly : Bool)
  | authorizeBound (ticket : String) (expectedKind : MediaTicketKind)
      (token : MediaSessionToken)
  | authorizeTicket (ticket : String) (expectedKind : MediaTicketKind)
  | finalizeStream (ticket : String) (expectedKind : MediaTicketKind)
      (cookies : MediaClientId → HeaderCookieParseResult)
      (authorization : MediaTicketAuthorization) (allowTicketOnly : Bool)
  | finalizeBound (ticket : String) (expectedKind : MediaTicketKind)
      (token : MediaSessionToken) (authorization : MediaTicketAuthorization)
  | finalizeTicket (ticket : String) (expectedKind : MediaTicketKind)
      (authorization : MediaTicketAuthorization)
  | lookup (ticket : String) (expectedKind : MediaTicketKind) (token : Option MediaSessionToken)
  | revoke (ticket : String) (expectedKind : MediaTicketKind)
  | revokeBound (ticket : String) (expectedKind : MediaTicketKind) (actorSubject : String)
      (clientId : MediaClientId)
  | revokeClient (actorSubject : String) (clientId : MediaClientId)
  | revokeSessionForActor (actorSubject : String) (token : MediaSessionToken)
  | revokeSession (token : MediaSessionToken)
  | revokeAll
  | revokeByActorOrSession (actor : String) (sessionId : Option String)

inductive MediaResult where
  | session (issue : MediaSessionIssue)
  | bound (issue : MediaTicketBoundIssue)
  | ticket (issue : MediaTicketIssue)
  | authorization (granted : Option MediaTicketAuthorization)
  | finalized (ok : Bool)
  | record (found : Option MediaTicketRecord)
  | done
  deriving Repr, DecidableEq

def MediaTicketInner.perform (s : MediaTicketInner) (at_ : Reading) :
    MediaOp → MediaTicketInner × MediaResult
  | .establishSession actor client existing context draws =>
    (s.establishSessionWithContext digest at_ actor client existing context draws).map id
      .session
  | .issueBound generation actor client existing record context ticketDraws sessionDraws choice =>
    (s.issueBoundWithContext digest at_ generation actor client existing record context
      ticketDraws sessionDraws choice).map id .bound
  | .issue generation record draws => (s.issue at_ generation record draws).map id .ticket
  | .issueForSession generation actor session record draws =>
    (s.issueForSession at_ generation actor session record draws).map id .ticket
  | .authorizeStream ticket kind cookies allowTicketOnly =>
    (s.authorizeStream digest at_ ticket kind cookies allowTicketOnly).map id .authorization
  | .authorizeBound ticket kind token =>
    (s.authorizeBound digest at_ ticket kind token).map id .authorization
  | .authorizeTicket ticket kind => (s.authorizeTicket at_ ticket kind).map id .authorization
  | .finalizeStream ticket kind cookies authorization allowTicketOnly =>
    (s.finalizeStreamAndTouch digest at_ ticket kind cookies authorization
      allowTicketOnly).map id .finalized
  | .finalizeBound ticket kind token authorization =>
    (s.finalizeBoundAndTouch digest at_ ticket kind token authorization).map id .finalized
  | .finalizeTicket ticket kind authorization =>
    (s.finalizeTicketAndTouch at_ ticket kind authorization).map id .finalized
  | .lookup ticket kind token => (s.lookupInner digest at_ ticket kind token).map id .record
  | .revoke ticket kind => (s.revoke ticket kind, .done)
  | .revokeBound ticket kind actor client => (s.revokeBound at_ ticket kind actor client, .done)
  | .revokeClient actor client => (s.revokeSessionsAndTicketsForClient actor client, .done)
  | .revokeSessionForActor actor token => (s.revokeSessionForActor digest actor token, .done)
  | .revokeSession token => (s.revokeSession digest token, .done)
  | .revokeAll => (s.revokeAll, .done)
  | .revokeByActorOrSession actor sessionId => (s.revokeByActorOrSession actor sessionId, .done)

end

end DamHopper.Fs
