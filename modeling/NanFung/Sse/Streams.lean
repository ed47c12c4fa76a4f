import NanFung.Sse.Hub

/-!
# Event streams are gap-free

What the transport keeps and sends is a function of the events it has accepted: the ring of a session
is what its limits leave of the session's history (`Ordered.rings`), and what a response was given, or
still waits for, is the frames of the history from the point it was attached at (`Attachment.Receives`),
however often it asks for back-pressure.
-/

namespace NanFung.Sse

open NanFung.Runtime Table

/-! ## One response -/

namespace Attachment

variable {a : Attachment}

/-- What was written and what is queued. -/
def received (a : Attachment) : List String := a.written ++ a.queue

/-- Only a draining response has a queue. -/
def Flushed (a : Attachment) : Prop := a.draining = false → a.queue = []

theorem Flushed.write (h : a.Flushed) (text : String) : (a.write text).Flushed := by
  unfold Attachment.write
  split
  · next hdraining =>
    intro hnot
    exact absurd hdraining (by simp [show a.draining = false from hnot])
  · next hdraining =>
    intro _
    exact h (by simpa using hdraining)

theorem received_write (h : a.Flushed) (text : String) :
    (a.write text).received = a.received ++ [text] := by
  unfold Attachment.write received
  split
  · simp
  · next hdraining =>
    have hqueue : a.queue = [] := h (by simpa using hdraining)
    simp [hqueue]

theorem received_writeAll (h : a.Flushed) (texts : List String) :
    (a.writeAll texts).Flushed ∧ (a.writeAll texts).received = a.received ++ texts := by
  induction texts generalizing a with
  | nil => exact ⟨h, by simp [writeAll]⟩
  | cons text texts ih =>
    obtain ⟨hflushed, hreceived⟩ := ih (h.write text)
    refine ⟨hflushed, ?_⟩
    show ((a.write text).writeAll texts).received = _
    rw [hreceived, received_write h]
    simp

@[simp] theorem response_write (text : String) : (a.write text).response = a.response := by
  unfold Attachment.write
  split <;> rfl

@[simp] theorem response_writeAll (texts : List String) :
    (a.writeAll texts).response = a.response := by
  induction texts generalizing a with
  | nil => rfl
  | cons text texts ih =>
    show ((a.write text).writeAll texts).response = _
    rw [ih, response_write]

@[simp] theorem response_drain : a.drain.response = a.response := by simp [drain]

/-- Draining loses nothing, repeats nothing and keeps the order. -/
theorem received_drain : a.drain.Flushed ∧ a.drain.received = a.received := by
  have h : ({ a with draining := false, queue := [] } : Attachment).Flushed := fun _ => rfl
  obtain ⟨hflushed, hreceived⟩ := received_writeAll h a.queue
  refine ⟨hflushed, hreceived.trans ?_⟩
  simp [received]

/-- The response is given the frames of the events after the first `n`. -/
structure Receives (a : Attachment) (history : List AgentEventV1) (n : Nat) : Prop where
  received : a.received = Transport.preamble :: (history.drop n).map (·.frame)
  flushed : a.Flushed
  bound : n ≤ history.length

theorem Receives.write {history : List AgentEventV1} {n : Nat} (h : a.Receives history n)
    (event : AgentEventV1) : (a.write event.frame).Receives (history ++ [event]) n where
  received := by
    rw [received_write h.flushed, h.received, List.drop_append_of_le_length h.bound]
    simp
  flushed := h.flushed.write _
  bound := by
    rw [List.length_append]
    exact Nat.le_add_right_of_le h.bound

theorem Receives.drain {history : List AgentEventV1} {n : Nat} (h : a.Receives history n) :
    a.drain.Receives history n where
  received := received_drain.2.trans h.received
  flushed := received_drain.1
  bound := h.bound

end Attachment

namespace Transport

variable {s s' : Transport} {sessionId : SessionId} {turnId : TurnId}

/-- The events of a session, from the first on. -/
def history (s : Transport) (sessionId : SessionId) : List AgentEventV1 :=
  s.published.filter (·.sessionId = sessionId)

/-! ## What a step does to the streams -/

/-- The registry and the store do not matter. -/
structure SameStreams (s s' : Transport) : Prop where
  hub : s'.toSseHub = s.toSseHub
  published : s'.published = s.published
  nextResponse : s'.nextResponse = s.nextResponse

theorem SameStreams.refl (s : Transport) : SameStreams s s := ⟨rfl, rfl, rfl⟩

theorem SameStreams.trans {s'' : Transport} (h : SameStreams s s') (h' : SameStreams s' s'') :
    SameStreams s s'' :=
  ⟨h'.hub.trans h.hub, h'.published.trans h.published, h'.nextResponse.trans h.nextResponse⟩

theorem record_same (s : Transport) (sessionId : SessionId) (turn : RecoveredTurn) :
    SameStreams s (s.record sessionId turn) := by
  have hreserve : SameStreams s (s.recordRecovery sessionId).2 := by
    unfold recordRecovery
    dsimp only
    split <;> exact ⟨rfl, rfl, rfl⟩
  unfold record
  dsimp only
  split
  · exact ⟨rfl, rfl, rfl⟩
  · split
    · exact .refl s
    · split
      · exact hreserve.trans ⟨rfl, rfl, rfl⟩
      · exact hreserve

/-- An event is accepted. -/
structure Publishes (s s' : Transport) (event : AgentEventV1) : Prop where
  fresh : terminalKey event.sessionId event.turnId ∉ s.terminals
  sequence : event.sequence = s.sequences event.sessionId + 1
  eventId : event.eventId = eventId event.sequence event.sessionId
  published : s'.published = s.published ++ [event]
  sequences : s'.sequences = Function.update s.sequences event.sessionId event.sequence
  rings : s'.rings =
    Function.update s.rings event.sessionId ((s.rings event.sessionId).append event)
  attachments : s'.attachments = Function.update s.attachments event.sessionId
    ((s.attachments event.sessionId).map (·.write event.frame))
  terminals : s'.terminals = if event.type.isTerminal then
    s.terminals ++ [terminalKey event.sessionId event.turnId] else s.terminals
  nextResponse : s'.nextResponse = s.nextResponse

theorem emit_publishes {timestamp : String} {type : SseEventType} {payload : SafePayload}
    (h : s.emit timestamp sessionId turnId type payload = some s') :
    Publishes s s' (s.nextEvent timestamp sessionId turnId type payload) := by
  unfold emit at h
  split at h
  · exact nomatch h
  next hfresh =>
  obtain rfl := Option.some.inj h
  -- recording the turn leaves the streams alone
  generalize hevent : s.nextEvent timestamp sessionId turnId type payload = event
  have hsession : event.sessionId = sessionId := by rw [← hevent]; rfl
  have hsame : SameStreams
      { s with
        sequences := Function.update s.sequences event.sessionId event.sequence
        rings := Function.update s.rings event.sessionId ((s.rings event.sessionId).append event)
        published := s.published ++ [event]
        terminals := if event.type.isTerminal then
          s.terminals ++ [terminalKey event.sessionId event.turnId] else s.terminals }
      (s.accept event) := by
    unfold accept
    dsimp only
    split
    · exact record_same _ _ _
    · exact ⟨rfl, rfl, rfl⟩
  obtain ⟨hhub, hpublished, hnext⟩ := hsame
  constructor
  · rw [← hevent]
    exact hfresh
  · rw [← hevent]
    rfl
  · rw [← hevent]
    rfl
  · exact hpublished
  · exact congrArg SseHub.sequences hhub
  · exact congrArg SseHub.rings hhub
  · rw [hsession]
    show Function.update (s.accept event).attachments sessionId _ = _
    rw [congrArg SseHub.attachments hhub]
  · exact congrArg SseHub.terminals hhub
  · exact hnext

/-- A response is attached, and given what the ring has for it. -/
structure Attaches (s s' : Transport) (sessionId : SessionId) (lastEventId : Option String)
    (accepts : Nat → Bool) (events : List AgentEventV1) : Prop where
  replay : s.replay sessionId lastEventId = some events
  published : s'.published = s.published
  sequences : s'.sequences = s.sequences
  rings : s'.rings = s.rings
  terminals : s'.terminals = s.terminals
  nextResponse : s'.nextResponse = s.nextResponse + 1
  attachments : s'.attachments = Function.update s.attachments sessionId (s.attachments sessionId ++
    [(Attachment.write { response := s.nextResponse, accepts } preamble).writeAll
      (events.map (·.frame))])

/-- Responses have drained, or are gone. -/
structure Adjusts (s s' : Transport) : Prop where
  published : s'.published = s.published
  sequences : s'.sequences = s.sequences
  rings : s'.rings = s.rings
  terminals : s'.terminals = s.terminals
  nextResponse : s'.nextResponse = s.nextResponse
  attachments : ∀ sessionId, ∀ a ∈ s'.attachments sessionId,
    ∃ b ∈ s.attachments sessionId, a = b ∨ a = b.drain

inductive Moves (s : Transport) (s' : Transport) : Prop
  | publishes (event : AgentEventV1) (h : Publishes s s' event)
  | attaches (sessionId : SessionId) (lastEventId : Option String) (accepts : Nat → Bool)
      (events : List AgentEventV1) (h : Attaches s s' sessionId lastEventId accepts events)
  | adjusts (h : Adjusts s s')

theorem SameStreams.moves (h : SameStreams s s') : Moves s s' := by
  obtain ⟨hhub, hpublished, hnext⟩ := h
  refine .adjusts ⟨hpublished, congrArg SseHub.sequences hhub, congrArg SseHub.rings hhub,
    congrArg SseHub.terminals hhub, hnext, fun sid a ha => ⟨a, ?_, Or.inl rfl⟩⟩
  rw [← congrArg SseHub.attachments hhub]
  exact ha

/-- The three outcomes of `attach`. -/
theorem attach_cases (s : Transport) (sessionId : SessionId) (lastEventId : Option String)
    (accepts : Nat → Bool) :
    (s.attach sessionId lastEventId accepts).1 = .gone ∧
        (s.registry.status s.now sessionId).1 ≠ .active ∧
        SameStreams s (s.attach sessionId lastEventId accepts).2 ∨
      (s.attach sessionId lastEventId accepts).1 = .evicted ∧ s.replay sessionId lastEventId = none ∧
        SameStreams s (s.attach sessionId lastEventId accepts).2 ∨
      (s.attach sessionId lastEventId accepts).1 = .ok ∧ ∃ events,
        Attaches s (s.attach sessionId lastEventId accepts).2 sessionId lastEventId accepts events := by
  unfold attach
  dsimp only
  split
  · next hgone => exact Or.inl ⟨rfl, hgone, rfl, rfl, rfl⟩
  · cases hreplay : s.replay sessionId lastEventId with
    | none => exact Or.inr (Or.inl ⟨rfl, rfl, rfl, rfl, rfl⟩)
    | some events => exact Or.inr (Or.inr ⟨rfl, events, hreplay, rfl, rfl, rfl, rfl, rfl, rfl⟩)

theorem drain_adjusts (s : Transport) (sessionId : SessionId) (response : Nat) :
    Adjusts s (s.drain sessionId response) := by
  refine ⟨rfl, rfl, rfl, rfl, rfl, fun sid a ha => ?_⟩
  unfold drain at ha
  dsimp only at ha
  rw [Function.update_apply] at ha
  split at ha
  · next hsession =>
    subst hsession
    rcases mem_updateWhere.mp ha with ⟨b, hb, _, rfl⟩ | ⟨ha, _⟩
    · exact ⟨b, hb, Or.inr rfl⟩
    · exact ⟨a, ha, Or.inl rfl⟩
  · exact ⟨a, ha, Or.inl rfl⟩

theorem detach_adjusts (s : Transport) (sessionId : SessionId) (response : Nat) :
    Adjusts s (s.detach sessionId response) := by
  refine ⟨rfl, rfl, rfl, rfl, rfl, fun sid a ha => ⟨a, ?_, Or.inl rfl⟩⟩
  unfold detach at ha
  dsimp only at ha
  rw [Function.update_apply] at ha
  split at ha
  · next hsession =>
    subst hsession
    exact (List.mem_filter.mp ha).1
  · exact ha

theorem close_adjusts (s : Transport) (sessionId : SessionId) : Adjusts s (s.close sessionId) := by
  refine ⟨rfl, rfl, rfl, rfl, rfl, fun sid a ha => ⟨a, ?_, Or.inl rfl⟩⟩
  unfold close at ha
  dsimp only at ha
  rw [Function.update_apply] at ha
  split at ha
  · exact nomatch ha
  · exact ha

theorem step_moves {a : Action} (h : s.step a = some s') : Moves s s' := by
  cases a with
  | tick | touch | status | reserveTurn | releaseTurn | closeSession =>
    cases h
    exact SameStreams.moves ⟨rfl, rfl, rfl⟩
  | createSession sessionId principal scopeId =>
    simp only [step] at h
    split at h
    · obtain ⟨registry, _, heq⟩ := Option.bind_eq_some_iff.mp h
      cases heq
      exact SameStreams.moves ⟨rfl, rfl, rfl⟩
    · exact nomatch h
  | emit timestamp sessionId turnId type payload =>
    cases h
    cases hemit : s.emit timestamp sessionId turnId type payload with
    | none => exact (SameStreams.refl s).moves
    | some s₁ => exact .publishes _ (emit_publishes hemit)
  | attach sessionId lastEventId accepts =>
    cases h
    rcases attach_cases s sessionId lastEventId accepts with ⟨_, _, hsame⟩ | ⟨_, _, hsame⟩ |
      ⟨_, events, hattaches⟩
    · exact hsame.moves
    · exact hsame.moves
    · exact .attaches sessionId lastEventId accepts events hattaches
  | drain sessionId response =>
    cases h
    exact .adjusts (drain_adjusts s sessionId response)
  | detach sessionId response =>
    cases h
    exact .adjusts (detach_adjusts s sessionId response)
  | close sessionId =>
    cases h
    exact .adjusts (close_adjusts s sessionId)

/-! ## What the transport keeps -/

def stored (e : AgentEventV1) : StoredEvent := ⟨e, e.byteLength⟩

theorem bytes_stored (e : AgentEventV1) : (stored e).bytes = e.byteLength := by
  rw [stored]

/-- The rings and the numbers are functions of the events accepted. -/
structure Ordered (s : Transport) : Prop where
  rings : ∀ sessionId, (s.rings sessionId).events =
    Ring.evict StoredEvent.bytes maxEvents maxBytes ((s.history sessionId).map stored)
  sequences : ∀ sessionId, s.sequences sessionId = (s.history sessionId).length
  numbered : ∀ sessionId, (s.history sessionId).map (·.sequence) =
    List.range' 1 (s.history sessionId).length
  ids : ∀ e ∈ s.published, e.eventId = eventId e.sequence e.sessionId
  terminals : ∀ e ∈ s.published, e.type.isTerminal = true →
    terminalKey e.sessionId e.turnId ∈ s.terminals
  silent : s.published.Pairwise fun e f =>
    e.type.isTerminal = true → f.isOf e.sessionId e.turnId = false
  responses : ∀ sessionId, ∀ a ∈ s.attachments sessionId, a.response < s.nextResponse

theorem Ordered.init : Ordered {} where
  rings _ := rfl
  sequences _ := rfl
  numbered _ := rfl
  ids _ he := nomatch he
  terminals _ he := nomatch he
  silent := .nil
  responses _ _ ha := nomatch ha

theorem history_congr (h : s'.published = s.published) : s'.history sessionId = s.history sessionId := by
  rw [history, history, h]

theorem Publishes.history {event : AgentEventV1} (h : Publishes s s' event) :
    s'.history sessionId =
      if event.sessionId = sessionId then s.history sessionId ++ [event] else s.history sessionId := by
  unfold Transport.history
  rw [h.published, List.filter_append]
  split
  · next heq => simp [heq]
  · next hne => simp [hne]

theorem rings_append (ring : SessionEventRing) (event : AgentEventV1) :
    (ring.append event).events =
      Ring.evict StoredEvent.bytes maxEvents maxBytes (ring.events ++ [stored event]) := by
  have hsum : ring.bytes + event.byteLength = storedBytes (ring.events ++ [stored event]) := by
    simp [ring.counted, storedBytes, stored]
  rw [SessionEventRing.append]
  dsimp only
  rw [← stored, hsum, evictOldest_eq]

theorem Ordered.publishes {event : AgentEventV1} (h : s.Ordered) (hp : Publishes s s' event) :
    s'.Ordered where
  rings sid := by
    rw [hp.rings, hp.history, Function.update_apply]
    by_cases hsession : event.sessionId = sid
    · subst hsession
      rw [if_pos rfl, if_pos rfl, rings_append, h.rings, List.map_append]
      exact Ring.evict_evict_append _ _
    · rw [if_neg fun heq => hsession heq.symm, if_neg hsession]
      exact h.rings sid
  sequences sid := by
    rw [hp.sequences, hp.history, Function.update_apply]
    by_cases hsession : event.sessionId = sid
    · subst hsession
      rw [if_pos rfl, if_pos rfl, hp.sequence, h.sequences, List.length_append]
      rfl
    · rw [if_neg fun heq => hsession heq.symm, if_neg hsession]
      exact h.sequences sid
  numbered sid := by
    rw [hp.history]
    split
    · next hsession =>
      subst hsession
      rw [List.map_append, h.numbered, List.length_append, List.length_singleton, List.range'_concat,
        List.map_singleton, hp.sequence, h.sequences]
      simp [Nat.add_comm]
    · exact h.numbered sid
  ids e he := by
    rw [hp.published] at he
    rcases List.mem_append.mp he with he | he
    · exact h.ids e he
    · obtain rfl := List.mem_singleton.mp he
      exact hp.eventId
  terminals e he hterminal := by
    rw [hp.published] at he
    rw [hp.terminals]
    rcases List.mem_append.mp he with he | he
    · have hmem := h.terminals e he hterminal
      split
      · exact List.mem_append_left _ hmem
      · exact hmem
    · obtain rfl := List.mem_singleton.mp he
      rw [if_pos hterminal]
      exact List.mem_append_right _ List.mem_cons_self
  silent := by
    rw [hp.published, List.pairwise_append]
    refine ⟨h.silent, List.pairwise_singleton _ _, fun e he f hf hterminal => ?_⟩
    obtain rfl := List.mem_singleton.mp hf
    -- an event of the same turn would have been refused
    by_contra hof
    have hsame : f.sessionId = e.sessionId ∧ f.turnId = e.turnId := by
      simpa [AgentEventV1.isOf] using hof
    apply hp.fresh
    rw [hsame.1, hsame.2]
    exact h.terminals e he hterminal
  responses sid a ha := by
    rw [hp.attachments, Function.update_apply] at ha
    rw [hp.nextResponse]
    split at ha
    · next hsession =>
      obtain ⟨b, hb, rfl⟩ := List.mem_map.mp ha
      rw [Attachment.response_write]
      exact h.responses sid b (hsession ▸ hb)
    · exact h.responses sid a ha

theorem Ordered.congr (h : s.Ordered) (hpublished : s'.published = s.published)
    (hsequences : s'.sequences = s.sequences) (hrings : s'.rings = s.rings)
    (hterminals : s'.terminals = s.terminals)
    (hresponses : ∀ sessionId, ∀ a ∈ s'.attachments sessionId, a.response < s'.nextResponse) :
    s'.Ordered where
  rings sid := by
    rw [hrings, history_congr hpublished]
    exact h.rings sid
  sequences sid := by
    rw [hsequences, history_congr hpublished]
    exact h.sequences sid
  numbered sid := by
    rw [history_congr hpublished]
    exact h.numbered sid
  ids := hpublished ▸ h.ids
  terminals := by
    rw [hpublished, hterminals]
    exact h.terminals
  silent := hpublished ▸ h.silent
  responses := hresponses

theorem Ordered.moves (h : s.Ordered) (hm : Moves s s') : s'.Ordered := by
  cases hm with
  | publishes event hp => exact h.publishes hp
  | attaches sid lastEventId accepts events ha =>
    refine h.congr ha.published ha.sequences ha.rings ha.terminals fun sid' a hmem => ?_
    rw [ha.attachments, Function.update_apply] at hmem
    rw [ha.nextResponse]
    split at hmem
    · next hsession =>
      rcases List.mem_append.mp hmem with hmem | hmem
      · have := h.responses sid a hmem
        omega
      · obtain rfl := List.mem_singleton.mp hmem
        simp
    · have := h.responses sid' a hmem
      omega
  | adjusts ha =>
    refine h.congr ha.published ha.sequences ha.rings ha.terminals fun sid a hmem => ?_
    obtain ⟨b, hb, rfl | rfl⟩ := ha.attachments sid a hmem <;> rw [ha.nextResponse]
    · exact h.responses sid a hb
    · rw [Attachment.response_drain]
      exact h.responses sid b hb

/-! ## What a response receives -/

theorem eventId_inj {m n : Nat} (h : eventId m sessionId = eventId n sessionId) : m = n := by
  have hdigits : Nat.toDigits 10 m = Nat.toDigits 10 n := by
    have hlists := congrArg String.toList h
    simpa [eventId, Nat.repr] using hlists
  rw [← @Nat.ofDigitChars_ten_toDigits m, hdigits, Nat.ofDigitChars_ten_toDigits]

theorem Ordered.sequence_eq (h : s.Ordered) {before after : List AgentEventV1} {e : AgentEventV1}
    (heq : s.history sessionId = before ++ e :: after) : e.sequence = before.length + 1 := by
  have hnumbered := congrArg (·[before.length]?) (h.numbered sessionId)
  rw [heq] at hnumbered
  simp only [List.map_append, List.map_cons, List.length_append, List.length_cons] at hnumbered
  rw [List.getElem?_append_right (by simp), List.getElem?_range' (by omega)] at hnumbered
  simpa [Nat.add_comm] using hnumbered

theorem Ordered.mem_history (h : s.Ordered) {e : AgentEventV1} (he : e ∈ s.history sessionId) :
    e.eventId = eventId e.sequence sessionId := by
  obtain ⟨hmem, hsession⟩ := List.mem_filter.mp he
  rw [h.ids e hmem, of_decide_eq_true hsession]

/-- What the ring has is the end of the history. -/
theorem Ordered.kept (h : s.Ordered) (sessionId : SessionId) :
    (s.rings sessionId).events.map (·.event) <:+ s.history sessionId := by
  have hs := @Ring.evict_suffix _ StoredEvent.bytes maxEvents maxBytes ((s.history sessionId).map stored)
  rw [← h.rings] at hs
  have := hs.map (·.event)
  rwa [List.map_map, show StoredEvent.event ∘ stored = id from rfl, List.map_id] at this

/-- Where a response starts: after the event it names, or with the oldest event kept. -/
def StartsAt (s : Transport) (sessionId : SessionId) (n : Nat) : Option String → Prop
  | some id => ∃ e ∈ s.history sessionId, e.eventId = id ∧ e.sequence = n
  | none => n = (s.history sessionId).length - (s.rings sessionId).events.length

theorem Ordered.replay (h : s.Ordered) {lastEventId : Option String} {events : List AgentEventV1}
    (hreplay : s.replay sessionId lastEventId = some events) :
    ∃ n, n ≤ (s.history sessionId).length ∧ s.StartsAt sessionId n lastEventId ∧
      events = (s.history sessionId).drop n := by
  obtain ⟨before, hbefore⟩ := h.kept sessionId
  unfold SseHub.replay at hreplay
  split at hreplay
  · next hhas =>
    obtain rfl := Option.some.inj hreplay
    cases lastEventId with
    | none =>
      refine ⟨before.length, ?_, ?_, ?_⟩
      · simp [← hbefore]
      · simp [StartsAt, ← hbefore]
      · rw [← hbefore, List.drop_left]
        rfl
    | some id =>
      have hhas := hhas id rfl
      obtain ⟨x, hx, hid⟩ := List.any_eq_true.mp hhas
      -- the first event with the id, and what stands before it
      have hfirst : ∃ y rest, (s.rings sessionId).events.dropWhile (·.event.eventId ≠ id) = y :: rest ∧
          y.event.eventId = id := by
        cases hdrop : (s.rings sessionId).events.dropWhile (·.event.eventId ≠ id) with
        | nil =>
          have hall := List.dropWhile_eq_nil_iff.mp hdrop x hx
          simp only [decide_eq_true_eq] at hid hall
          exact absurd hid hall
        | cons y rest =>
          refine ⟨y, rest, rfl, ?_⟩
          have hhead := @List.head_dropWhile_not _ (·.event.eventId ≠ id) (s.rings sessionId).events
            (by rw [hdrop]; simp)
          simpa only [hdrop, List.head_cons, decide_eq_false_iff_not, not_not] using hhead
      obtain ⟨y, rest, hdrop, hy⟩ := hfirst
      have hsplit := @List.takeWhile_append_dropWhile _ (·.event.eventId ≠ id) (s.rings sessionId).events
      rw [hdrop] at hsplit
      have hhistory : s.history sessionId = (before ++ ((s.rings sessionId).events.takeWhile
          (·.event.eventId ≠ id)).map (·.event)) ++ y.event :: rest.map (·.event) := by
        rw [← hbefore, List.append_assoc, ← List.map_cons, ← List.map_append, hsplit]
      have hsequence := h.sequence_eq hhistory
      refine ⟨y.event.sequence, ?_, ⟨y.event, ?_, hy, rfl⟩, ?_⟩
      · rw [hhistory, hsequence]
        simp
      · rw [hhistory]
        simp
      · show (((s.rings sessionId).events.dropWhile (·.event.eventId ≠ id)).drop 1).map (·.event) = _
        rw [hdrop, hhistory, hsequence, List.drop_length_add_append]
        rfl
  · exact nomatch hreplay

/-- The response with this identity, while it is attached, receives what comes after the first `n`
events. -/
structure Follows (s : Transport) (sessionId : SessionId) (response n : Nat) : Prop where
  receives : ∀ a ∈ s.attachments sessionId, a.response = response →
    a.Receives (s.history sessionId) n
  known : response < s.nextResponse

theorem Follows.moves {response n : Nat} (h : s.Follows sessionId response n) (hm : Moves s s') :
    s'.Follows sessionId response n := by
  cases hm with
  | publishes event hp =>
    refine ⟨fun a ha hresponse => ?_, hp.nextResponse ▸ h.known⟩
    rw [hp.attachments, Function.update_apply] at ha
    rw [hp.history]
    split at ha
    · next hsession =>
      obtain ⟨b, hb, rfl⟩ := List.mem_map.mp ha
      rw [Attachment.response_write] at hresponse
      rw [if_pos hsession.symm]
      exact (h.receives b (hsession ▸ hb) hresponse).write event
    · next hsession =>
      rw [if_neg fun heq => hsession heq.symm]
      exact h.receives a ha hresponse
  | attaches sid lastEventId accepts events hattaches =>
    refine ⟨fun a ha hresponse => ?_, by have := h.known; rw [hattaches.nextResponse]; omega⟩
    rw [hattaches.attachments, Function.update_apply] at ha
    rw [history_congr hattaches.published]
    split at ha
    · next hsession =>
      rcases List.mem_append.mp ha with ha | ha
      · exact h.receives a (hsession ▸ ha) hresponse
      · obtain rfl := List.mem_singleton.mp ha
        -- the new response has an identity of its own
        have := h.known
        simp at hresponse
        omega
    · exact h.receives a ha hresponse
  | adjusts hadjusts =>
    refine ⟨fun a ha hresponse => ?_, hadjusts.nextResponse ▸ h.known⟩
    rw [history_congr hadjusts.published]
    obtain ⟨b, hb, rfl | rfl⟩ := hadjusts.attachments sessionId a ha
    · exact h.receives a hb hresponse
    · rw [Attachment.response_drain] at hresponse
      exact (h.receives b hb hresponse).drain

theorem Ordered.follows {lastEventId : Option String} {accepts : Nat → Bool}
    {events : List AgentEventV1} (h : s.Ordered)
    (hattaches : Attaches s s' sessionId lastEventId accepts events) :
    ∃ n, s.StartsAt sessionId n lastEventId ∧ s'.Follows sessionId s.nextResponse n ∧
      ∃ a ∈ s'.attachments sessionId, a.response = s.nextResponse := by
  obtain ⟨n, hn, hstarts, rfl⟩ := h.replay hattaches.replay
  refine ⟨n, hstarts, ⟨fun a ha hresponse => ?_, by rw [hattaches.nextResponse]; omega⟩, ?_⟩
  · rw [hattaches.attachments, Function.update_self] at ha
    rw [history_congr hattaches.published]
    rcases List.mem_append.mp ha with ha | ha
    · have := h.responses sessionId a ha
      omega
    · obtain rfl := List.mem_singleton.mp ha
      have hempty : ({ response := s.nextResponse, accepts } : Attachment).Flushed := fun _ => rfl
      obtain ⟨hflushed, hreceived⟩ := Attachment.received_writeAll (hempty.write preamble)
        (((s.history sessionId).drop n).map (·.frame))
      refine ⟨hreceived.trans ?_, hflushed, hn⟩
      rw [Attachment.received_write hempty]
      rfl
  · rw [hattaches.attachments, Function.update_self]
    exact ⟨_, List.mem_append_right _ List.mem_cons_self, by simp⟩

/-- Every attached response is given frames of the history only. -/
def Sends (s : Transport) : Prop :=
  ∀ sessionId, ∀ a ∈ s.attachments sessionId, ∃ n, a.Receives (s.history sessionId) n

theorem Sends.moves (h : s.Sends) (hordered : s.Ordered) (hm : Moves s s') : s'.Sends := by
  intro sid a ha
  cases hm with
  | publishes event hp =>
    rw [hp.attachments, Function.update_apply] at ha
    rw [hp.history]
    split at ha
    · next hsession =>
      obtain ⟨b, hb, rfl⟩ := List.mem_map.mp ha
      obtain ⟨n, hn⟩ := h sid b (hsession ▸ hb)
      rw [if_pos hsession.symm]
      exact ⟨n, hn.write event⟩
    · next hsession =>
      rw [if_neg fun heq => hsession heq.symm]
      exact h sid a ha
  | attaches sid' lastEventId accepts events hattaches =>
    have hold : ∀ b ∈ s.attachments sid, ∃ n, b.Receives (s'.history sid) n := fun b hb => by
      rw [history_congr hattaches.published]
      exact h sid b hb
    rw [hattaches.attachments, Function.update_apply] at ha
    split at ha
    · next hsession =>
      subst hsession
      rcases List.mem_append.mp ha with ha | ha
      · exact hold a ha
      · obtain ⟨n, _, hfollows, _⟩ := hordered.follows hattaches
        refine ⟨n, hfollows.receives a ?_ ?_⟩
        · rw [hattaches.attachments, Function.update_self]
          exact List.mem_append_right _ ha
        · obtain rfl := List.mem_singleton.mp ha
          simp
    · exact hold a ha
  | adjusts hadjusts =>
    rw [history_congr hadjusts.published]
    obtain ⟨b, hb, rfl | rfl⟩ := hadjusts.attachments sid a ha
    · exact h sid a hb
    · obtain ⟨n, hn⟩ := h sid b hb
      exact ⟨n, hn.drain⟩

/-! ## The streams of a run -/

/-- What a call of `attach` promises: no session, no such event in the ring, or everything after the
event for as long as the response stays attached. -/
def Attachable (s : Transport) (sessionId : SessionId) (lastEventId : Option String)
    (accepts : Nat → Bool) : Prop :=
  match s.attach sessionId lastEventId accepts with
  | (.gone, s') => (s.registry.live? s.now sessionId) = none ∧ SameStreams s s'
  | (.evicted, s') => (∃ id ∈ lastEventId, (s.rings sessionId).has id = false) ∧ SameStreams s s'
  | (.ok, s') => (∃ a ∈ s'.attachments sessionId, a.response = s.nextResponse) ∧
      ∃ n, s.StartsAt sessionId n lastEventId ∧ ∀ later, Reached step Anything s' later →
        ∀ a ∈ later.attachments sessionId, a.response = s.nextResponse →
          a.Receives (later.history sessionId) n

structure GapFree (s : Transport) : Prop where
  numbered : ∀ sessionId i e, (s.history sessionId)[i]? = some e →
    e.sequence = i + 1 ∧ e.eventId = eventId (i + 1) sessionId
  distinct : ∀ sessionId, ∀ e ∈ s.history sessionId, ∀ f ∈ s.history sessionId,
    e.eventId = f.eventId → e = f
  suffix : ∀ sessionId, (s.rings sessionId).events.map (·.event) <:+ s.history sessionId
  limits : ∀ sessionId, (s.rings sessionId).events.length ≤ maxEvents ∧
    (s.rings sessionId).bytes ≤ maxBytes
  bytes : ∀ sessionId, (s.rings sessionId).bytes = ((s.rings sessionId).events.map (·.bytes)).sum ∧
    ∀ x ∈ (s.rings sessionId).events, x.bytes = x.event.byteLength
  attach : ∀ sessionId lastEventId accepts, s.Attachable sessionId lastEventId accepts
  silent : s.published.Pairwise fun e f =>
    e.type.isTerminal = true → f.isOf e.sessionId e.turnId = false
  sent : s.Sends

theorem Ordered.attachable (h : s.Ordered) (sessionId : SessionId) (lastEventId : Option String)
    (accepts : Nat → Bool) : s.Attachable sessionId lastEventId accepts := by
  unfold Attachable
  rcases hattach : s.attach sessionId lastEventId accepts with ⟨result, s'⟩
  have hcases := attach_cases s sessionId lastEventId accepts
  rw [hattach] at hcases
  rcases hcases with ⟨rfl, hstatus, hsame⟩ | ⟨rfl, hreplay, hsame⟩ | ⟨rfl, events, hattaches⟩
  · refine ⟨?_, hsame⟩
    rw [Ne, SessionRegistry.status_active] at hstatus
    simpa using hstatus
  · refine ⟨?_, hsame⟩
    unfold SseHub.replay at hreplay
    split at hreplay
    · exact nomatch hreplay
    · next hnot =>
      push Not at hnot
      obtain ⟨id, hid, hne⟩ := hnot
      exact ⟨id, hid, by simpa using hne⟩
  · obtain ⟨n, hstarts, hfollows, hattached⟩ := h.follows hattaches
    refine ⟨hattached, n, hstarts, fun later hlater => ?_⟩
    have hfollows : s'.Follows sessionId s.nextResponse n := hfollows
    have hlater : later.Follows sessionId s.nextResponse n := by
      refine Reached.invariant (I := fun t => t.Follows sessionId s.nextResponse n) hfollows ?_ hlater
      exact fun _ _ _ hf _ hstep => hf.moves (step_moves hstep)
    exact hlater.receives

theorem Ordered.gapFree (h : s.Ordered) (hsends : s.Sends) : s.GapFree where
  numbered sid i e he := by
    obtain ⟨hi, rfl⟩ := List.getElem?_eq_some_iff.mp he
    have hsplit : s.history sid = (s.history sid).take i ++ (s.history sid)[i] :: (s.history sid).drop (i + 1) := by
      rw [← List.drop_eq_getElem_cons hi, List.take_append_drop]
    have hsequence := h.sequence_eq hsplit
    rw [List.length_take, Nat.min_eq_left hi.le] at hsequence
    refine ⟨hsequence, ?_⟩
    rw [← hsequence]
    exact h.mem_history (List.getElem_mem hi)
  distinct sid e he f hf heq := by
    rw [h.mem_history he, h.mem_history hf] at heq
    have hsequence := eventId_inj heq
    have hnodup : ((s.history sid).map (·.sequence)).Nodup := by
      rw [h.numbered]
      exact List.nodup_range'
    exact List.inj_on_of_nodup_map hnodup he hf hsequence
  suffix := h.kept
  limits sid := by
    obtain ⟨hcount, hsize⟩ := (s.rings sid).fits
    exact ⟨hcount, (s.rings sid).counted ▸ hsize⟩
  bytes sid := by
    refine ⟨(s.rings sid).counted, fun x hx => ?_⟩
    rw [h.rings] at hx
    obtain ⟨e, _, rfl⟩ := List.mem_map.mp ((Ring.evict_suffix _).subset hx)
    exact bytes_stored e
  attach := h.attachable
  silent := h.silent
  sent := hsends

end Transport

theorem Run.ordered {s : Transport} (h : Run s) : s.Ordered :=
  h.invariant .init fun _ _ _ hordered _ hstep => hordered.moves (Transport.step_moves hstep)

theorem streams_gapFree {s : Transport} (h : Run s) : s.GapFree := by
  refine (Run.ordered h).gapFree ?_
  refine Reached.invariant_of (I := Transport.Ordered) (J := Transport.Sends) (fun _ => Run.ordered)
    (fun _ _ ha => by cases ha) ?_ h
  exact fun s a t hordered hsends _ hstep => hsends.moves hordered (Transport.step_moves hstep)

/-- A response that refuses its second write, and drains after the turn has ended. -/
def streamRun : List Action :=
  [.createSession "s" "anonymous" "scope", .emit "t0" "s" "session" .sessionStarted [],
    .attach "s" none fun n => n ≠ 1, .emit "t1" "s" "a" .turnStarted [],
    .emit "t2" "s" "a" .turnFailed [("reason_code", .str "NO_FINAL_ARTIFACT")],
    .attach "s" (some "1-s") fun _ => true, .drain "s" 0, .emit "t3" "s" "a" .messageDelta []]

theorem streams_gapFree_streamRun :
    ∃ s, replay Transport.step {} streamRun = some s ∧ s.GapFree := by
  have hrun : (replay Transport.step {} streamRun).isSome = true := by decide
  obtain ⟨s, hs⟩ := Option.isSome_iff_exists.mp hrun
  have hreached : Run s := Reached.start.replay (permitted_anything _ _) hs
  exact ⟨s, hs, streams_gapFree hreached⟩

end NanFung.Sse
