import NanFung.Lib.Json
import NanFung.Lib.Ring
import NanFung.Lib.Runs
import NanFung.Runtime.Events
import Mathlib.Logic.Function.Basic

/-!
# The event transport

`sse.ts` and `recovery.ts`: every session has a ring of its last events, a sequence number, and the
responses that are attached to it. `emit` appends to the ring, records a turn that ends in the
`RecoveryStore` and writes to the attached responses. A response that asks for back-pressure gets the
rest once it has drained. A `Map` that is read with a default is a function.
-/

namespace NanFung.Sse

open NanFung.Runtime Table

def maxEvents : Nat := 256
def maxBytes : Nat := 2 * 1024 * 1024

/-! ## Events -/

inductive SseEventType where
  | sessionStarted | turnStarted | messageDelta | toolStarted | toolCompleted | approvalRequired
  | approvalResolved | artifactFinal | turnCompleted | turnFailed
  deriving DecidableEq, Repr

namespace SseEventType

def text : SseEventType → String
  | sessionStarted => "session.started"
  | turnStarted => "turn.started"
  | messageDelta => "message.delta"
  | toolStarted => "tool.started"
  | toolCompleted => "tool.completed"
  | approvalRequired => "approval.required"
  | approvalResolved => "approval.resolved"
  | artifactFinal => "artifact.final"
  | turnCompleted => "turn.completed"
  | turnFailed => "turn.failed"

def isTerminal : SseEventType → Bool
  | turnCompleted | turnFailed => true
  | _ => false

end SseEventType

abbrev SafePayload := List (String × Json)

structure AgentEventV1 where
  sequence : Nat
  eventId : String
  sessionId : SessionId
  turnId : TurnId
  timestamp : String
  type : SseEventType
  payload : SafePayload
  deriving DecidableEq, Repr

def eventId (sequence : Nat) (sessionId : SessionId) : String := sequence.repr ++ "-" ++ sessionId

namespace AgentEventV1

variable (e : AgentEventV1)

def toJson : Json :=
  .obj [("schema_version", .str "agent_event.v1"), ("sequence", .int e.sequence),
    ("event_id", .str e.eventId), ("session_id", .str e.sessionId), ("turn_id", .str e.turnId),
    ("timestamp", .str e.timestamp), ("type", .str e.type.text), ("payload", .obj e.payload)]

/-- `JSON.stringify(event)` -/
def json : String := String.ofList (Json.stringify e.toJson)

/-- `Buffer.byteLength(JSON.stringify(event))` -/
def byteLength : Nat := e.json.utf8ByteSize

def frame : String :=
  "id: " ++ e.eventId ++ "\nevent: " ++ e.type.text ++ "\ndata: " ++ e.json ++ "\n\n"

/-- How the turn ended, if the event is terminal. -/
def terminalState : TurnState :=
  match e.type with
  | .turnCompleted =>
    if Json.lookup "terminal_state" e.payload = some (.str "cancelled") then .cancelled else .completed
  | _ => .failed

/-- An event of the turn. -/
def isOf (sessionId : SessionId) (turnId : TurnId) : Bool :=
  e.sessionId = sessionId && e.turnId = turnId

end AgentEventV1

/-! ## The ring of a session -/

structure StoredEvent where
  event : AgentEventV1
  bytes : Nat
  deriving DecidableEq, Repr

/-- The loop that evicts: shift the oldest event while there are too many events or bytes. -/
def evictOldest : List StoredEvent → Nat → List StoredEvent × Nat
  | [], bytes => ([], bytes)
  | oldest :: events, bytes =>
    if (oldest :: events).length > maxEvents ∨ bytes > maxBytes then
      evictOldest events (bytes - oldest.bytes)
    else (oldest :: events, bytes)

/-- The sum of the stored sizes. -/
def storedBytes (events : List StoredEvent) : Nat := Ring.total StoredEvent.bytes events

theorem evictOldest_eq (events : List StoredEvent) :
    evictOldest events (storedBytes events) =
      (Ring.evict StoredEvent.bytes maxEvents maxBytes events,
        storedBytes (Ring.evict StoredEvent.bytes maxEvents maxBytes events)) := by
  induction events with
  | nil => rfl
  | cons oldest events ih =>
    unfold evictOldest Ring.evict
    by_cases h : Ring.Fits StoredEvent.bytes maxEvents maxBytes (oldest :: events)
    · have hle : ¬((oldest :: events).length > maxEvents ∨ storedBytes (oldest :: events) > maxBytes) := by
        simpa [Ring.Fits, storedBytes] using h
      rw [if_neg hle, if_pos h]
    · have hgt : (oldest :: events).length > maxEvents ∨ storedBytes (oldest :: events) > maxBytes := by
        rw [Ring.Fits, not_and_or, not_le, not_le] at h
        exact h
      have hrest : storedBytes (oldest :: events) - oldest.bytes = storedBytes events := by
        simp [storedBytes]
      rw [if_pos hgt, if_neg h, hrest, ih]

theorem storedBytes_nil : 0 = storedBytes [] := rfl

/-- The byte counter counts what is stored, and neither limit is exceeded. -/
structure SessionEventRing where
  events : List StoredEvent := []
  bytes : Nat := 0
  counted : bytes = storedBytes events := by exact storedBytes_nil
  fits : Ring.Fits StoredEvent.bytes maxEvents maxBytes events := by exact Ring.Fits.nil

namespace SessionEventRing

def append (ring : SessionEventRing) (event : AgentEventV1) : SessionEventRing :=
  let stored : StoredEvent := { event, bytes := event.byteLength }
  let kept := evictOldest (ring.events ++ [stored]) (ring.bytes + stored.bytes)
  have hkept : kept = (Ring.evict StoredEvent.bytes maxEvents maxBytes (ring.events ++ [stored]),
      storedBytes (Ring.evict StoredEvent.bytes maxEvents maxBytes (ring.events ++ [stored]))) := by
    have hsum : ring.bytes + stored.bytes = storedBytes (ring.events ++ [stored]) := by
      simp [ring.counted, storedBytes]
    rw [← evictOldest_eq, ← hsum]
  { events := kept.1
    bytes := kept.2
    counted := by rw [hkept]
    fits := by
      rw [hkept]
      exact Ring.evict_fits _ }

def has (ring : SessionEventRing) (eventId : String) : Bool :=
  ring.events.any (·.event.eventId = eventId)

/-- The events after one, or all. -/
def replay (ring : SessionEventRing) (afterEventId : Option String) : List AgentEventV1 :=
  match afterEventId with
  | none => ring.events.map (·.event)
  | some id => ((ring.events.dropWhile (·.event.eventId ≠ id)).drop 1).map (·.event)

end SessionEventRing

/-! ## Attached responses -/

/-- `response` is the identity of the `ServerResponse`, `accepts n` what its write returns when `n`
texts were written before, and `written` what was. -/
structure Attachment where
  response : Nat
  accepts : Nat → Bool
  written : List String := []
  queue : List String := []
  draining : Bool := false

namespace Attachment

variable (a : Attachment)

/-- `#write` -/
def write (text : String) : Attachment :=
  if a.draining then { a with queue := a.queue ++ [text] }
  else { a with written := a.written ++ [text], draining := !a.accepts a.written.length }

/-- `#write` one text after the other. -/
def writeAll (texts : List String) : Attachment := texts.foldl write a

/-- The handler of `drain`. -/
def drain : Attachment := { a with draining := false, queue := [] }.writeAll a.queue

end Attachment

/-! ## Recovery -/

structure RecoveredTurn where
  turnId : TurnId
  state : TurnState
  events : List AgentEventV1
  artifact : Option SafePayload
  deriving DecidableEq, Repr

structure RecoveryStore where
  maxRecoveryRecords : Nat := 32
  records : SessionId → List RecoveredTurn := fun _ => []

/-- The registry's own limit. -/
def registryRecoveryRecords : Nat := 32

inductive RecoveryFailure where
  | notFound | sessionGone
  deriving DecidableEq, Repr

/-! ## The hub -/

structure SseHub where
  rings : SessionId → SessionEventRing := fun _ => {}
  sequences : SessionId → Nat := fun _ => 0
  attachments : SessionId → List Attachment := fun _ => []
  terminals : List String := []

namespace SseHub

variable (hub : SseHub) (sessionId : SessionId)

/-- `none` is `EVICTED`. -/
def replay (lastEventId : Option String) : Option (List AgentEventV1) :=
  if ∀ id ∈ lastEventId, (hub.rings sessionId).has id = true then
    some ((hub.rings sessionId).replay lastEventId)
  else none

def events : List AgentEventV1 := (hub.rings sessionId).replay none

/-- Write a text to every attached response. -/
def broadcast (text : String) : SseHub :=
  { hub with
    attachments := Function.update hub.attachments sessionId
      ((hub.attachments sessionId).map (·.write text)) }

end SseHub

inductive AttachResult where
  | ok | gone | evicted
  deriving DecidableEq, Repr

/-- The hub with the registry and the store it was made with. `recoveryCount` is the registry's
`recovery_count` of each session, `nextResponse` the identity of the next response, and `published`
every event that was ever accepted. -/
structure Transport extends SseHub where
  now : Nat := 0
  registry : SessionRegistry := {}
  recoveryCount : SessionId → Nat := fun _ => 0
  recovery : RecoveryStore := {}
  nextResponse : Nat := 0
  published : List AgentEventV1 := []

namespace Transport

variable (s : Transport)

/-- `registry.recordRecovery` -/
def recordRecovery (sessionId : SessionId) : Bool × Transport :=
  let (status, registry) := s.registry.status s.now sessionId
  let s := { s with registry }
  if status ≠ .active ∨ registryRecoveryRecords ≤ s.recoveryCount sessionId then (false, s)
  else (true, { s with
    recoveryCount := Function.update s.recoveryCount sessionId (s.recoveryCount sessionId + 1) })

/-- `turns.set` -/
def setRecord (sessionId : SessionId) (turn : RecoveredTurn) : Transport :=
  { s with
    recovery.records := Function.update s.recovery.records sessionId
      (upsert RecoveredTurn.turnId turn (s.recovery.records sessionId)) }

/-- `RecoveryStore.record` -/
def record (sessionId : SessionId) (turn : RecoveredTurn) : Transport :=
  let turns := s.recovery.records sessionId
  if turns.any (·.turnId = turn.turnId) then s.setRecord sessionId turn
  else if s.recovery.maxRecoveryRecords ≤ turns.length then s
  else
    let (reserved, s) := s.recordRecovery sessionId
    if reserved then s.setRecord sessionId turn else s

/-- `RecoveryStore.recover` -/
def recover (sessionId : SessionId) (turnId : TurnId) : Except RecoveryFailure RecoveredTurn :=
  if (s.registry.status s.now sessionId).1 ≠ .active then .error .sessionGone
  else match (s.recovery.records sessionId).find? (·.turnId = turnId) with
  | none => .error .notFound
  | some turn => .ok turn

def terminalKey (sessionId : SessionId) (turnId : TurnId) : String := sessionId ++ ":" ++ turnId

/-- What is recorded of a turn at its terminal event. -/
def recoveredTurn (event : AgentEventV1) : RecoveredTurn :=
  let events := (s.events event.sessionId).filter (·.turnId = event.turnId)
  { turnId := event.turnId
    state := event.terminalState
    events
    artifact := (events.findRev? (·.type = .artifactFinal)).map (·.payload) }

/-- The event of a call of `emit`. -/
def nextEvent (timestamp : String) (sessionId : SessionId) (turnId : TurnId) (type : SseEventType)
    (payload : SafePayload) : AgentEventV1 :=
  let sequence := s.sequences sessionId + 1
  { sequence, eventId := eventId sequence sessionId, sessionId, turnId, timestamp, type, payload }

/-- The ring takes the event, and the store the turn that it ends. -/
def accept (event : AgentEventV1) : Transport :=
  let s := { s with
    sequences := Function.update s.sequences event.sessionId event.sequence
    rings := Function.update s.rings event.sessionId ((s.rings event.sessionId).append event)
    published := s.published ++ [event] }
  if event.type.isTerminal then
    let s := { s with terminals := s.terminals ++ [terminalKey event.sessionId event.turnId] }
    s.record event.sessionId (s.recoveredTurn event)
  else s

/-- `emit`; `none` is the `SseProtocolError` of a turn that is already terminal. -/
def emit (timestamp : String) (sessionId : SessionId) (turnId : TurnId) (type : SseEventType)
    (payload : SafePayload) : Option Transport :=
  if terminalKey sessionId turnId ∈ s.terminals then none
  else
    let event := s.nextEvent timestamp sessionId turnId type payload
    let s := s.accept event
    some { s with toSseHub := s.broadcast sessionId event.frame }

def preamble : String := "retry: 3000\n\n"

def attach (sessionId : SessionId) (lastEventId : Option String) (accepts : Nat → Bool) :
    AttachResult × Transport :=
  let (status, registry) := s.registry.status s.now sessionId
  let s := { s with registry }
  if status ≠ .active then (.gone, s)
  else match s.replay sessionId lastEventId with
  | none => (.evicted, s)
  | some events =>
    let attachment : Attachment := { response := s.nextResponse, accepts }
    let attachment := (attachment.write preamble).writeAll (events.map (·.frame))
    (.ok, { s with
      nextResponse := s.nextResponse + 1
      attachments := Function.update s.attachments sessionId (s.attachments sessionId ++ [attachment]) })

/-- The attached response emits `drain`. -/
def drain (sessionId : SessionId) (response : Nat) : Transport :=
  { s with
    attachments := Function.update s.attachments sessionId
      (updateWhere (fun a => a.response = response && a.draining) .drain (s.attachments sessionId)) }

/-- Responses that are gone. -/
def detach (sessionId : SessionId) (response : Nat) : Transport :=
  { s with
    attachments := Function.update s.attachments sessionId
      ((s.attachments sessionId).filter (·.response ≠ response)) }

/-- `SseHub.close` -/
def close (sessionId : SessionId) : Transport :=
  { s with attachments := Function.update s.attachments sessionId [] }

end Transport

/-! ## Steps -/

inductive Action where
  | tick (ms : Nat)
  | createSession (sessionId : SessionId) (principal scopeId : String)
  | touch (sessionId : SessionId)
  | status (sessionId : SessionId)
  | reserveTurn (sessionId : SessionId)
  | releaseTurn (sessionId : SessionId)
  | closeSession (sessionId : SessionId)
  | emit (timestamp : String) (sessionId : SessionId) (turnId : TurnId) (type : SseEventType)
      (payload : SafePayload)
  | attach (sessionId : SessionId) (lastEventId : Option String) (accepts : Nat → Bool)
  | drain (sessionId : SessionId) (response : Nat)
  | detach (sessionId : SessionId) (response : Nat)
  | close (sessionId : SessionId)

namespace Transport

/-- Session ids are drawn at random: no event and no record has the new one yet. -/
def newSessionId (s : Transport) (sessionId : SessionId) : Prop :=
  (∀ x ∈ s.registry.sessions, x.id ≠ sessionId) ∧ ∀ e ∈ s.published, e.sessionId ≠ sessionId

instance (s : Transport) (sessionId : SessionId) : Decidable (s.newSessionId sessionId) := by
  unfold newSessionId
  infer_instance

def step (s : Transport) : Action → Option Transport
  | .tick ms => some { s with now := s.now + ms }
  | .createSession sessionId principal scopeId =>
    if h : s.newSessionId sessionId then do
      let registry ← s.registry.createSession s.now sessionId principal scopeId h.1
      return { s with registry, recoveryCount := Function.update s.recoveryCount sessionId 0 }
    else none
  | .touch sessionId => some { s with registry := s.registry.touch s.now sessionId }
  | .status sessionId => some { s with registry := (s.registry.status s.now sessionId).2 }
  | .reserveTurn sessionId => some { s with registry := (s.registry.reserveTurn s.now sessionId).2 }
  | .releaseTurn sessionId => some { s with registry := s.registry.releaseTurn s.now sessionId }
  | .closeSession sessionId => some { s with registry := s.registry.close sessionId }
  | .emit timestamp sessionId turnId type payload =>
    some ((s.emit timestamp sessionId turnId type payload).getD s)
  | .attach sessionId lastEventId accepts => some (s.attach sessionId lastEventId accepts).2
  | .drain sessionId response => some (s.drain sessionId response)
  | .detach sessionId response => some (s.detach sessionId response)
  | .close sessionId => some (s.close sessionId)

end Transport

/-- The states that runs of a fresh server reach. -/
abbrev Run (s : Transport) : Prop := Reached Transport.step Anything {} s

end NanFung.Sse
