import Mathlib
import NanFung.Http.Targets
import NanFung.Runtime.Registry
import NanFung.Runtime.Server
import NanFung.Sse.Hub

/-!
# Handling requests

`handleRequest` of `http.ts`: the path of the target, the routes, the checks of the session and of its
bearer, and what each route does. What the maps of the other components keep under the id of a session
is the session's data. A route that waits for the body of the request or for a promise returns before
its response is sent.
-/

namespace NanFung.Http

open NanFung.Runtime NanFung.Sse Base64

/-! ## State -/

inductive LegacyTurn where
  | unknown | terminal
  deriving DecidableEq, Repr

/-- What the components keep for one session: the active turn and the terminal turns of
`CancelCoordinator`, the turns of a server without options, the records of `RecoveryStore`, and the
ring and the streams of `SseHub`. -/
structure SessionData where
  activeTurn : Option TurnId := none
  terminalTurns : List TurnId := []
  legacyTurns : Dict TurnId LegacyTurn := []
  records : Dict TurnId RecoveredTurn := []
  events : SessionEventRing := {}
  streams : List (List AgentEventV1) := []

structure ServerState where
  registry : Registry
  data : SessionId → SessionData := fun _ => {}

def ServerState.setData (s : ServerState) (id : SessionId) (d : SessionData) : ServerState :=
  { s with data := Function.update s.data id d }

structure StaticAsset where
  content : String
  contentType : String
  deriving DecidableEq, Repr

/-- Which components the server was given. -/
structure ServerOptions where
  sse : Bool := false
  recovery : Bool := false
  cancel : Bool := false
  approval : Bool := false
  runTurn : Bool := false
  dashboard : Bool := false
  staticAssets : Dict (List Char) StaticAsset := []

/-- What the server rests on: `new URL(target, base).pathname`, where `none` is the `TypeError`; and
the `turn.completed` of a cancelled turn, where `none` is an `SseProtocolError` or no hub. -/
structure Platform where
  crypto : Crypto
  pathname : String → Option (List Char)
  emitCancelled : SessionData → TurnId → Option SessionData

structure Request where
  method : String
  target : String
  authorization : Option String := none
  lastEventId : Option String := none
  deriving DecidableEq, Repr

/-- The clock during the request, and the bytes drawn for it. -/
structure Moment where
  now : Nat
  random : RandomBytes
  turnBytes : Bytes

/-! ## Responses -/

structure Response where
  status : Nat
  headers : List (String × String) := []
  body : Option Json := none
  deriving DecidableEq, Repr

/-- How the handler returns: with a response, or with one that is sent later. -/
inductive Reply where
  | response (response : Response)
  | asset (asset : StaticAsset)
  | stream (sessionId : SessionId) (events : List AgentEventV1)
  | readsMessage (sessionId : SessionId) (turnId : TurnId)
  | readsDecision (sessionId : SessionId) (approvalId : String) (principal scopeId : String)
  | awaitsOverview (principal scopeId : String)
  deriving DecidableEq, Repr

def respond (status : Nat) (headers : List (String × String) := []) : Reply :=
  .response { status, headers }

def respondJson (status : Nat) (body : List (String × Json)) (headers : List (String × String) := []) :
    Reply :=
  .response { status, headers := ("content-type", "application/json") :: headers, body := some (.obj body) }

def respondError (status : Nat) (error : String) : Reply := respondJson status [("error", .str error)]

def turnStateText : TurnState → String
  | .running => "running"
  | .awaitingApproval => "awaiting_approval"
  | .completed => "completed"
  | .cancelled => "cancelled"
  | .failed => "failed"

def turnJson (turn : RecoveredTurn) : List (String × Json) :=
  [("turn_id", .str turn.turnId), ("state", .str (turnStateText turn.state)),
    ("events", .arr (turn.events.map AgentEventV1.toJson))] ++
    (turn.artifact.map fun artifact => ("artifact", Json.obj artifact)).toList

/-! ## The checks -/

/-- The status for a session that is not there. -/
def goneStatus (crypto : Crypto) (key : Bytes) (id : SessionId) : Nat :=
  if isPreRestartId crypto key id then 410 else 404

/-- `parseBearer`: `/^Bearer ([A-Za-z0-9_-]+)$/`. -/
def parseBearer (value : Option String) : Option String :=
  match (value.getD "").toList with
  | 'B' :: 'e' :: 'a' :: 'r' :: 'e' :: 'r' :: ' ' :: token =>
    if token ≠ [] ∧ (token.all fun c => c ∈ alphabet) = true then some (String.ofList token) else none
  | _ => none

section

variable (platform : Platform) (options : Option ServerOptions) (s : ServerState) (moment : Moment)

/-- `authenticate`: the refusal, if there is one. -/
def authenticate (r : Registry) (id : SessionId) (authorization : Option String) :
    Option Reply × Registry :=
  let first := r.status platform.crypto moment.now id
  if first.1 = .gone then
    (some (respond (goneStatus platform.crypto r.generationKey id)), first.2)
  else match parseBearer authorization with
  | none => (some (respond 401), first.2)
  | some bearer =>
    let second := first.2.authenticate platform.crypto moment.now id bearer
    match second.1 with
    | .expired => (some (respond 401 [("x-session-status", "expired")]), second.2)
    | .gone =>
      (some (respond (if isPreRestartId platform.crypto r.generationKey id then 410 else 401)), second.2)
    | .unauthenticated => (some (respond 401), second.2)
    | .ok => (none, (second.2.touch platform.crypto moment.now moment.now id).2)

/-! ## The routes -/

def createSession : Except Thrown (Reply × ServerState) :=
  let p := s.registry.createSession platform.crypto moment.now moment.now ⟨"anonymous", none⟩
    moment.random
  match p.1 with
  | .scopeReused _ => .error .scopeReusedError
  | .sessionLimit => .ok (respondError 429 "SESSION_LIMIT", { s with registry := p.2 })
  | .created c =>
    .ok (respondJson 201 [("id", .str c.id), ("bearer", .str c.bearer), ("scope_id", .str c.scopeId)],
      { s with registry := p.2 })

def turnId : TurnId := String.ofList (encode moment.turnBytes)

def createTurn (id : SessionId) : Reply × ServerState :=
  let p := s.registry.reserveTurn platform.crypto moment.now id
  let s := { s with registry := p.2 }
  match p.1 with
  | .error .noActiveTurn => (respondError 409 "active_turn", s)
  | .error .turnLimit => (respondError 429 "TURN_LIMIT", s)
  | .error .notActive => (respond (goneStatus platform.crypto s.registry.generationKey id), s)
  | .ok () =>
    match options with
    | none =>
      let d := s.data id
      (respondJson 202 [("turn_id", .str (turnId moment))],
        s.setData id { d with legacyTurns := d.legacyTurns.set (turnId moment) .unknown })
    | some options =>
      if options.runTurn then (.readsMessage id (turnId moment), s)
      else (respondJson 202 [("turn_id", .str (turnId moment))], s)

/-- `CancelCoordinator.cancel` -/
def cancel (id : SessionId) (turnId : TurnId) : CancelResult × ServerState :=
  let p := s.registry.status platform.crypto moment.now id
  let s := { s with registry := p.2 }
  if p.1 ≠ .active then (.sessionGone, s)
  else
    let d := s.data id
    match d.activeTurn with
    | none => (if turnId ∈ d.terminalTurns then .notActive else .unknownTurn, s)
    | some active =>
      if active ≠ turnId then (.unknownTurn, s)
      else
        let emitted := platform.emitCancelled d turnId
        let d := emitted.getD d
        let s := s.setData id
          { d with activeTurn := none, terminalTurns := d.terminalTurns ++ [turnId] }
        (if emitted.isSome then .cancelled else .notActive,
          { s with registry := s.registry.releaseTurn platform.crypto moment.now id })

def cancelLegacyTurn (id : SessionId) (turnId : TurnId) : Reply × ServerState :=
  let d := s.data id
  match d.legacyTurns.get? turnId with
  | none => (respond 404, s)
  | some .terminal => (respondError 409 "already_terminal", s)
  | some .unknown =>
    (respond 202, s.setData id { d with legacyTurns := d.legacyTurns.set turnId .terminal })

def cancelTurn (id : SessionId) (turnId : TurnId) : Reply × ServerState :=
  match options with
  | none => cancelLegacyTurn s id turnId
  | some options =>
    if options.cancel then
      let p := cancel platform s moment id turnId
      (match p.1 with
        | .cancelled => respondJson 202 [("turn_id", .str turnId), ("state", .str "cancelled")]
        | .unknownTurn => respond 404
        | .notActive => respondError 409 "already_terminal"
        | .sessionGone => respond 410, p.2)
    else (respond 501, s)

/-- Whether the server was given a component. -/
def has (component : ServerOptions → Bool) : Bool := (options.map component).getD false

/-- `getTurn`, with `RecoveryStore.recover`. -/
def getTurn (id : SessionId) (turnId : TurnId) : Reply × ServerState :=
  if has options (·.recovery) then
    let p := s.registry.status platform.crypto moment.now id
    let s := { s with registry := p.2 }
    if p.1 ≠ .active then (respond 410, s)
    else match (s.data id).records.get? turnId with
    | none => (respond 404, s)
    | some turn => (respondJson 200 (turnJson turn), s)
  else (respond 501, s)

/-- The stream of events, with `SseHub.attach`. -/
def attach (id : SessionId) (lastEventId : Option String) : Reply × ServerState :=
  if has options (·.sse) then
    let p := s.registry.status platform.crypto moment.now id
    let s := { s with registry := p.2 }
    let d := s.data id
    if p.1 ≠ .active then (respond 410, s)
    else if ∀ eventId ∈ lastEventId, d.events.has eventId = true then
      let events := d.events.replay lastEventId
      (.stream id events, s.setData id { d with streams := d.streams ++ [events] })
    else (respondJson 410 [("error", .str "replay_evicted")] [("x-replay-evicted", "true")], s)
  else
    (respond 200 [("content-type", "text/event-stream"), ("cache-control", "no-cache"),
      ("connection", "keep-alive")], s)

def decideApproval (id : SessionId) (approvalId : String) : Reply × ServerState :=
  if has options (·.approval) then
    let p := s.registry.getSession platform.crypto moment.now id
    let s := { s with registry := p.2 }
    match p.1 with
    | none => (respond 410, s)
    | some (principal, scopeId) => (.readsDecision id approvalId principal scopeId, s)
  else (respondError 501 "NOT_IMPLEMENTED", s)

def dashboardOverview (id : SessionId) : Reply × ServerState :=
  if has options (·.dashboard) then
    let p := s.registry.getSession platform.crypto moment.now id
    let s := { s with registry := p.2 }
    match p.1 with
    | none => (respond 410, s)
    | some (principal, scopeId) => (.awaitsOverview principal scopeId, s)
  else (respond 501, s)

/-- What a request does that has the bearer of its session. -/
def dispatch (route : Route) (path : List Char) (id : SessionId) (request : Request) :
    Except Thrown (Reply × ServerState) :=
  match route with
  | .createSession => createSession platform s moment
  | .messages => .ok (createTurn platform options s moment id)
  | .cancelTurn => (decodeSegment path).map (cancelTurn platform options s moment id)
  | .turn => (decodeSegment path).map (getTurn platform options s moment id)
  | .events => .ok (attach platform options s moment id request.lastEventId)
  | .approval => (decodeSegment path).map (decideApproval platform options s moment id)
  | .dashboard => .ok (dashboardOverview platform options s moment id)
  | .session => .ok (respond 204, { s with registry := s.registry.close id })

/-- The first look at the session that the target names. -/
def lookUp (sessionId : Option SessionId) : SessionStatus × Registry :=
  match sessionId with
  | none => (.active, s.registry)
  | some id => s.registry.status platform.crypto moment.now id

/-- What a request does that has a route. -/
def handleRouted (route : Route) (path : List Char) (sessionId : Option SessionId)
    (request : Request) : Except Thrown (Reply × ServerState) :=
  let looked := lookUp platform s moment sessionId
  let s := { s with registry := looked.2 }
  if looked.1 = .gone then
    .ok (respond (goneStatus platform.crypto s.registry.generationKey (sessionId.getD "")), s)
  else if request.method ≠ route.method then .ok (respond 405 [("allow", route.method)], s)
  else if route = .createSession then createSession platform s moment
  else match sessionId with
  | none => .ok (respond 404, s)
  | some id =>
    let p := authenticate platform moment s.registry id request.authorization
    let s := { s with registry := p.2 }
    match p.1 with
    | some refusal => .ok (refusal, s)
    | none => dispatch platform options s moment route path id request

/-- The asset that a `GET` asks for. -/
def asset? (path : List Char) (request : Request) : Option StaticAsset :=
  if request.method = "GET" then options.bind fun options => options.staticAssets.get? path else none

def handleRequest (request : Request) : Except Thrown (Reply × ServerState) :=
  match platform.pathname request.target with
  | none => .error .typeError
  | some path =>
    match asset? options path request with
    | some asset => .ok (.asset asset, s)
    | none =>
      match findRoute path with
      | none => .ok (respond 404, s)
      | some route =>
        match parseSessionId path with
        | .error e => .error e
        | .ok sessionId => handleRouted platform options s moment route path sessionId request

end

/-! ## Decisions -/

inductive ApprovalDecision where
  | approved | denied
  | unknown | expired | replayOpposite | refused
  deriving DecidableEq, Repr

/-- `ApprovalCoordinator.decide`, which looks the approval up first; `rest` is what it answers to an
approval of the session. -/
def ApprovalCoordinator.decide (pending : Dict String SessionId) (rest : ApprovalDecision) (id : SessionId)
    (approvalId : String) : ApprovalDecision :=
  match pending.get? approvalId with
  | none => .unknown
  | some owner => if owner ≠ id then .unknown else rest

/-- `respondApproval` -/
def respondApproval (result : ApprovalDecision) (decision : String) : Reply :=
  match result with
  | .approved => respondJson 200 [("outcome", .str "approved")]
  | .denied => respondJson 200 [("outcome", .str "denied")]
  | .unknown => respond 404
  | .expired => respondError 410 "approval_expired"
  | .replayOpposite =>
    respondJson 409 [("error", .str "approval_already_resolved"), ("decision", .str decision)]
  | .refused => respond 403

end NanFung.Http
