import NanFung.Http.Isolation

/-!
# When a request is handled

A request should be answered whatever its target is. Two things are thrown out of the handler: the
`TypeError` of a target that is no URL, and the `URIError` of a segment whose escapes are complete but
spell no UTF-8, which the check of the syntax lets through.
-/

namespace NanFung.Http

open NanFung.Runtime NanFung.Sse Base64

section

variable {platform : Platform} {options : Option ServerOptions} {moment : Moment}
  {s t : ServerState} {request : Request} {route : Route} {path : List Char} {id : SessionId}
  {pending : Dict String SessionId} {reply : Reply}

/-! ## Routes -/

theorem fits_nil {segments : List (List Char)} (h : fits [] segments = true) : segments = [] := by
  cases segments with
  | nil => rfl
  | cons segment rest => exact nomatch h

theorem fits_text {text : String} {pattern : List (Option String)} {segments : List (List Char)}
    (h : fits (some text :: pattern) segments = true) :
    ∃ rest, segments = text.toList :: rest ∧ fits pattern rest = true := by
  cases segments with
  | nil => exact nomatch h
  | cons segment rest =>
    obtain ⟨hsegment, hrest⟩ := Bool.and_eq_true_iff.mp h
    exact ⟨rest, by rw [of_decide_eq_true hsegment], hrest⟩

theorem test_of_findRoute (h : findRoute path = some route) : Route.test path route = true :=
  List.find?_some h

/-- The route that creates a session names none. -/
theorem sessionSegment_createSession (h : findRoute path = some .createSession) :
    sessionSegment path = none := by
  obtain ⟨rest, hpath, htest⟩ := fits_text (test_of_findRoute h)
  obtain ⟨rest', hrest, htest⟩ := fits_text htest
  obtain ⟨rest'', hrest', htest⟩ := fits_text htest
  rw [sessionSegment, hpath, hrest, hrest', fits_nil htest]

theorem parseSessionId_createSession (h : findRoute path = some .createSession) :
    parseSessionId path = .ok none := by
  rw [parseSessionId, sessionSegment_createSession h]

theorem route_ne_createSession {sessionId : Option SessionId} (hroute : findRoute path = some route)
    (hsession : parseSessionId path = .ok sessionId) (hsome : sessionId ≠ none) :
    route ≠ .createSession := by
  rintro rfl
  rw [parseSessionId_createSession hroute] at hsession
  exact hsome (Except.ok.inj hsession).symm

/-! ## The claim on one request -/

/-- The request gets past the assets to a route. -/
structure Routed (platform : Platform) (options : Option ServerOptions) (request : Request)
    (path : List Char) (route : Route) : Prop where
  pathname : platform.pathname request.target = some path
  asset : asset? options path request = none
  route : findRoute path = some route

theorem Routed.handleRequest (h : Routed platform options request path route) :
    handleRequest platform options s moment request =
      match parseSessionId path with
      | .error e => .error e
      | .ok sessionId => handleRouted platform options s moment route path sessionId request := by
  unfold Http.handleRequest
  rw [h.pathname]
  dsimp only
  rw [h.asset]
  dsimp only
  cases hfind : findRoute path with
  | none => exact nomatch hfind.symm.trans h.route
  | some found =>
    obtain rfl := Option.some.inj (hfind.symm.trans h.route)
    rfl

/-- The server was not given the component of the route. -/
def Missing (options : Option ServerOptions) : Route → Prop
  | .cancelTurn => ∃ given, options = some given ∧ given.cancel = false
  | .turn => has options (·.recovery) = false
  | .approval => has options (·.approval) = false
  | _ => False

/-- No turn or approval is known, or one of the earlier checks refuses. -/
inductive AnsweredUnknown (platform : Platform) (options : Option ServerOptions)
    (pending : Dict String SessionId) (s : ServerState) (route : Route) (id : Option SessionId) :
    Reply → Prop
  | notFound {r : Response} (status : r.status = 404 ∨ r.status = 401 ∨ r.status = 405) :
      AnsweredUnknown platform options pending s route id (.response r)
  | preRestart {r : Response} {sessionId : SessionId} (status : r.status = 410)
      (session : id = some sessionId)
      (earlier : isPreRestartId platform.crypto s.registry.generationKey sessionId = true) :
      AnsweredUnknown platform options pending s route id (.response r)
  | missing {r : Response} (status : r.status = 501) (missing : Missing options route) :
      AnsweredUnknown platform options pending s route id (.response r)
  | decision {sessionId : SessionId} {principal scopeId : String}
      (unknown : ∀ rest decision, respondApproval
        (ApprovalCoordinator.decide pending rest sessionId "") decision = respond 404) :
      AnsweredUnknown platform options pending s route id
        (.readsDecision sessionId "" principal scopeId)

/-- The request is answered, as unknown where a segment cannot be decoded; and a session whose bearer
it lacks is left as it is and not disclosed. -/
structure Handled (platform : Platform) (options : Option ServerOptions)
    (pending : Dict String SessionId) (s : ServerState) (moment : Moment) (request : Request) :
    Prop where
  returns : ∃ reply t, handleRequest platform options s moment request = .ok (reply, t)
  session : ∀ path route segment, Routed platform options request path route →
    sessionSegment path = some segment → decodeURIComponent segment = none →
    ∃ r t, handleRequest platform options s moment request = .ok (.response r, t) ∧
      (r.status = 404 ∨ r.status = 405)
  name : ∀ path route, Routed platform options request path route → route.named = true →
    decodeURIComponent (nameSegment path) = none →
    ∃ reply t id, parseSessionId path = .ok id ∧
      handleRequest platform options s moment request = .ok (reply, t) ∧
      AnsweredUnknown platform options pending s route id reply
  kept : ∀ sid reply t, Lacks platform.crypto s.registry sid request →
    handleRequest platform options s moment request = .ok (reply, t) →
    SameSession moment.now sid s.registry t.registry ∧ t.data sid = s.data sid
  undisclosed : ∀ sid s', Lacks platform.crypto s.registry sid request → Alike sid s s' →
    (handleRequest platform options s' moment request).map Prod.fst =
      (handleRequest platform options s moment request).map Prod.fst

/-- The target is a URL, and no segment that is decoded throws. -/
structure Decodable (platform : Platform) (options : Option ServerOptions) (s : ServerState)
    (moment : Moment) (request : Request) : Prop where
  parses : platform.pathname request.target ≠ none
  session : ∀ path route segment, Routed platform options request path route →
    sessionSegment path = some segment → ¬ Throws segment
  name : ∀ path route id, Routed platform options request path route → route.named = true →
    parseSessionId path = .ok (some id) → request.method = route.method →
    Admits platform.crypto s.registry moment.now id request.authorization →
    ¬ Throws (nameSegment path)

/-- The maps hold no entry under an empty name: turns and approvals have names that were drawn. -/
structure NamesGiven (s : ServerState) (pending : Dict String SessionId) : Prop where
  activeTurn : ∀ id, (s.data id).activeTurn ≠ some ""
  terminalTurns : ∀ id, "" ∉ (s.data id).terminalTurns
  legacyTurns : ∀ id, (s.data id).legacyTurns.get? "" = none
  records : ∀ id, (s.data id).records.get? "" = none
  approvals : pending.get? "" = none

/-! ## The segments -/

theorem decodeSegment_eq (path : List Char) :
    decodeSegment path = (decodeChecked (nameSegment path)).map (·.getD "") := by
  unfold decodeSegment nameSegment
  rw [List.getD_eq_getElem?_getD]
  cases (segments path)[5]? with
  | none =>
    have hempty : decodeChecked [] = .ok (some "") := by decide +kernel
    rw [Option.getD_none, hempty]
    rfl
  | some segment => rfl

theorem decodeSegment_error_iff {e : Thrown} :
    decodeSegment path = .error e ↔ Throws (nameSegment path) ∧ e = .uriError := by
  rw [decodeSegment_eq, ← decodeChecked_error_iff]
  cases decodeChecked (nameSegment path) with
  | ok name => exact ⟨nofun, nofun⟩
  | error thrown =>
    exact ⟨fun h => congrArg _ (Except.error.inj h), fun h => congrArg _ (Except.error.inj h)⟩

/-- A segment with a bad escape reads as the empty name. -/
theorem decodeSegment_badEscape (h : badEscape (nameSegment path) = true) :
    decodeSegment path = .ok "" := by
  rw [decodeSegment_eq, decodeChecked, if_pos h]
  rfl

theorem parseSessionId_error_iff {e : Thrown} :
    parseSessionId path = .error e ↔
      ∃ segment, sessionSegment path = some segment ∧ Throws segment ∧ e = .uriError := by
  unfold parseSessionId
  cases sessionSegment path with
  | none => exact ⟨nofun, nofun⟩
  | some segment =>
    dsimp only
    rw [decodeChecked_error_iff]
    exact ⟨fun h => ⟨segment, rfl, h⟩, fun ⟨_, hsegment, h⟩ => Option.some.inj hsegment ▸ h⟩

/-! ## Answers -/

theorem handleRequest_returns (hfresh : Fresh platform.crypto s.registry moment.random)
    (h : Decodable platform options s moment request) :
    ∃ reply t, handleRequest platform options s moment request = .ok (reply, t) := by
  unfold handleRequest
  cases hpathname : platform.pathname request.target with
  | none => exact absurd hpathname h.parses
  | some path =>
    dsimp only
    cases hasset : asset? options path request with
    | some asset => exact ⟨_, _, rfl⟩
    | none =>
      dsimp only
      cases hroute : findRoute path with
      | none => exact ⟨_, _, rfl⟩
      | some route =>
        have hrouted : Routed platform options request path route := ⟨hpathname, hasset, hroute⟩
        dsimp only
        cases hsession : parseSessionId path with
        | error e =>
          obtain ⟨segment, hsegment, hthrows, -⟩ := parseSessionId_error_iff.mp hsession
          exact absurd hthrows (h.session path route segment hrouted hsegment)
        | ok sessionId =>
          dsimp only
          cases sessionId with
          | none =>
            rw [handleRouted_none]
            split
            · exact ⟨_, _, rfl⟩
            split
            · exact createSession_returns hfresh
            · exact ⟨_, _, rfl⟩
          | some id =>
            have hroute' : route ≠ .createSession := route_ne_createSession hroute hsession nofun
            by_cases hgone : (s.registry.status platform.crypto moment.now id).1 = .gone
            · exact ⟨_, _, handleRouted_gone hgone⟩
            by_cases hmethod : request.method = route.method
            · by_cases hadmits :
                Admits platform.crypto s.registry moment.now id request.authorization
              · have hname := h.name path route id hrouted
                obtain ⟨e, bearer, hlooks, hparse, hhash⟩ := hadmits
                rw [handleRouted_admitted hmethod hroute' hlooks hparse hhash]
                rcases dispatch_cases platform options moment id hroute' path request with
                  ⟨handler, -, heq⟩ | ⟨hnamed, thrown, hdecode, -⟩
                · exact ⟨_, _, heq _⟩
                · exact absurd (decodeSegment_error_iff.mp hdecode).1
                    (hname hnamed hsession hmethod ⟨e, bearer, hlooks, hparse, hhash⟩)
              · exact ⟨_, _, handleRouted_refused hgone hmethod hroute' hadmits⟩
            · exact ⟨_, _, handleRouted_method hgone hmethod⟩

theorem decodable_of_returns {reply : Reply} {t : ServerState}
    (h : handleRequest platform options s moment request = .ok (reply, t)) :
    Decodable platform options s moment request := by
  refine ⟨fun hnone => ?_, fun path route segment hrouted hsegment hthrows => ?_,
    fun path route id hrouted hnamed hsession hmethod hadmits hthrows => ?_⟩
  · unfold handleRequest at h
    rw [hnone] at h
    exact nomatch h
  · have herror : parseSessionId path = .error .uriError :=
      parseSessionId_error_iff.mpr ⟨segment, hsegment, hthrows, rfl⟩
    rw [hrouted.handleRequest, herror] at h
    exact nomatch h
  · have hroute := route_ne_createSession hrouted.route hsession nofun
    obtain ⟨e, bearer, hlooks, hparse, hhash⟩ := hadmits
    have hdecode : decodeSegment path = .error .uriError :=
      decodeSegment_error_iff.mpr ⟨hthrows, rfl⟩
    rw [hrouted.handleRequest, hsession] at h
    dsimp only at h
    rw [handleRouted_admitted hmethod hroute hlooks hparse hhash] at h
    cases route with
    | cancelTurn =>
      rw [dispatch, hdecode] at h
      exact nomatch h
    | turn =>
      rw [dispatch, hdecode] at h
      exact nomatch h
    | approval =>
      rw [dispatch, hdecode] at h
      exact nomatch h
    | _ => exact nomatch hnamed

/-- A session segment with a bad escape names no session. -/
theorem session_badEscape {segment : List Char}
    (hrouted : Routed platform options request path route)
    (hsegment : sessionSegment path = some segment) (hbad : badEscape segment = true) :
    ∃ r t, handleRequest platform options s moment request = .ok (.response r, t) ∧
      (r.status = 404 ∨ r.status = 405) := by
  have hsession : parseSessionId path = .ok none := by
    rw [parseSessionId, hsegment]
    exact if_pos hbad
  have hroute : route ≠ .createSession := by
    rintro rfl
    exact nomatch (sessionSegment_createSession hrouted.route).symm.trans hsegment
  rw [hrouted.handleRequest, hsession]
  dsimp only
  rw [handleRouted_none]
  split
  · exact ⟨_, _, rfl, Or.inr rfl⟩
  · exact ⟨_, _, rfl, Or.inl rfl⟩

/-- The handlers of a name that nothing has. -/
theorem dispatch_unknown {e : Session} {sessionId : Option SessionId} (hnames : NamesGiven s pending)
    (hlooks : Looks platform.crypto t.registry moment.now id e) (hdata : t.data = s.data)
    (hnamed : route.named = true) (hdecode : decodeSegment path = .ok "") :
    ∃ reply t', dispatch platform options t moment route path id request = .ok (reply, t') ∧
      AnsweredUnknown platform options pending s route sessionId reply := by
  cases route with
  | cancelTurn =>
    refine ⟨(cancelTurn platform options t moment id "").1, (cancelTurn platform options t moment id "").2,
      by rw [dispatch, hdecode]; rfl, ?_⟩
    unfold cancelTurn
    cases options with
    | none =>
      have hnone : (t.data id).legacyTurns.get? "" = none := hdata ▸ hnames.legacyTurns id
      dsimp only
      unfold cancelLegacyTurn
      dsimp only
      rw [hnone]
      exact .notFound (Or.inl rfl)
    | some given =>
      dsimp only
      by_cases hcancel : given.cancel = true
      · rw [if_pos hcancel]
        have hunknown : (cancel platform t moment id "").1 = .unknownTurn := by
          unfold cancel
          rw [hlooks.status]
          dsimp only
          rw [if_neg (not_not_intro rfl), hdata]
          cases hactive : (s.data id).activeTurn with
          | none => exact if_neg (hnames.terminalTurns id)
          | some active =>
            have hne : active ≠ "" := fun h => hnames.activeTurn id (h ▸ hactive)
            dsimp only
            rw [if_pos hne]
        rw [hunknown]
        exact .notFound (Or.inl rfl)
      · rw [if_neg hcancel]
        exact .missing rfl ⟨given, rfl, Bool.eq_false_of_not_eq_true hcancel⟩
  | turn =>
    refine ⟨(getTurn platform options t moment id "").1, (getTurn platform options t moment id "").2,
      by rw [dispatch, hdecode]; rfl, ?_⟩
    unfold getTurn
    by_cases hrecovery : has options (·.recovery) = true
    · have hnone : (t.data id).records.get? "" = none := hdata ▸ hnames.records id
      rw [if_pos hrecovery, hlooks.status]
      dsimp only
      rw [if_neg (not_not_intro rfl), hnone]
      exact .notFound (Or.inl rfl)
    · rw [if_neg hrecovery]
      exact .missing rfl (Bool.eq_false_of_not_eq_true hrecovery)
  | approval =>
    refine ⟨(decideApproval platform options t moment id "").1, (decideApproval platform options t moment id "").2,
      by rw [dispatch, hdecode]; rfl, ?_⟩
    unfold decideApproval
    by_cases happroval : has options (·.approval) = true
    · rw [if_pos happroval, hlooks.getSession]
      refine .decision fun rest decision => ?_
      rw [ApprovalCoordinator.decide, hnames.approvals]
      rfl
    · rw [if_neg happroval]
      exact .missing rfl (Bool.eq_false_of_not_eq_true happroval)
  | _ => exact nomatch hnamed

/-- A turn or approval segment with a bad escape is unknown, if no earlier check refuses. -/
theorem name_undecodable (hnames : NamesGiven s pending)
    (hrouted : Routed platform options request path route) (hnamed : route.named = true)
    {sessionId : Option SessionId} (hsession : parseSessionId path = .ok sessionId)
    (hbad : ∀ id, sessionId = some id → request.method = route.method →
      Admits platform.crypto s.registry moment.now id request.authorization →
      badEscape (nameSegment path) = true) :
    ∃ reply t, handleRequest platform options s moment request = .ok (reply, t) ∧
      AnsweredUnknown platform options pending s route sessionId reply := by
  have hcreate : route ≠ .createSession := by
    rintro rfl
    exact nomatch hnamed
  rw [hrouted.handleRequest, hsession]
  dsimp only
  cases sessionId with
  | none =>
    rw [handleRouted_none]
    split
    · exact ⟨_, _, rfl, .notFound (Or.inr (Or.inr rfl))⟩
    · exact ⟨_, _, rfl, .notFound (Or.inl rfl)⟩
  | some id =>
    by_cases hgone : (s.registry.status platform.crypto moment.now id).1 = .gone
    · refine ⟨_, _, handleRouted_gone hgone, ?_⟩
      unfold goneStatus
      split
      · next hearlier => exact .preRestart rfl rfl hearlier
      · exact .notFound (Or.inl rfl)
    by_cases hmethod : request.method = route.method
    · by_cases hadmits : Admits platform.crypto s.registry moment.now id request.authorization
      · have hbad := hbad id rfl hmethod hadmits
        obtain ⟨e, bearer, hlooks, hparse, hhash⟩ := hadmits
        rw [handleRouted_admitted hmethod hcreate hlooks hparse hhash]
        exact dispatch_unknown hnames hlooks.touched rfl hnamed (decodeSegment_badEscape hbad)
      · refine ⟨_, _, handleRouted_refused hgone hmethod hcreate hadmits, ?_⟩
        cases hstatus : (s.registry.status platform.crypto moment.now id).1 with
        | gone => exact absurd hstatus hgone
        | active => exact .notFound (Or.inr (Or.inl rfl))
        | expired =>
          rw [refusal]
          split <;> exact .notFound (Or.inr (Or.inl rfl))
    · exact ⟨_, _, handleRouted_method hgone hmethod, .notFound (Or.inr (Or.inr rfl))⟩

/-- Where the handler returns, it left alone the sessions whose bearer it lacks. -/
theorem handleRequest_kept {sid : SessionId} {reply : Reply}
    (hfresh : Fresh platform.crypto s.registry moment.random)
    (hlacks : Lacks platform.crypto s.registry sid request)
    (h : handleRequest platform options s moment request = .ok (reply, t)) :
    SameSession moment.now sid s.registry t.registry ∧ t.data sid = s.data sid := by
  unfold handleRequest at h
  cases hpathname : platform.pathname request.target with
  | none =>
    rw [hpathname] at h
    exact nomatch h
  | some path =>
    rw [hpathname] at h
    dsimp only at h
    split at h
    · obtain ⟨-, rfl⟩ := Prod.mk.inj (Except.ok.inj h)
      exact ⟨.refl _, rfl⟩
    · split at h
      · obtain ⟨-, rfl⟩ := Prod.mk.inj (Except.ok.inj h)
        exact ⟨.refl _, rfl⟩
      · next route hroute =>
        split at h
        · exact nomatch h
        · next sessionId hsession =>
          exact handleRouted_kept hfresh (route_ne_createSession hroute hsession) hlacks h

theorem handleRequest_alike {sid : SessionId} {s' : ServerState}
    (hlacks : Lacks platform.crypto s.registry sid request) (halike : Alike sid s s') :
    (handleRequest platform options s' moment request).map Prod.fst =
      (handleRequest platform options s moment request).map Prod.fst := by
  unfold handleRequest
  split
  · rfl
  · split
    · rfl
    · split
      · rfl
      · next route hroute =>
        split
        · rfl
        · next sessionId hsession =>
          exact handleRouted_alike (route_ne_createSession hroute hsession) hlacks halike

/-- A request is handled exactly when its target parses and no segment that is decoded throws. -/
theorem handled_iff_decodable (platform : Platform) (options : Option ServerOptions)
    (pending : Dict String SessionId) (s : ServerState) (moment : Moment) (request : Request)
    (hfresh : Fresh platform.crypto s.registry moment.random) (hnames : NamesGiven s pending) :
    Handled platform options pending s moment request ↔
      Decodable platform options s moment request := by
  constructor
  · intro h
    obtain ⟨reply, t, hreturns⟩ := h.returns
    exact decodable_of_returns hreturns
  · intro h
    have hsession : ∀ {path route segment}, Routed platform options request path route →
        sessionSegment path = some segment → decodeURIComponent segment = none →
        badEscape segment = true := fun hrouted hsegment hnone =>
      (undecodable_iff.mp hnone).resolve_right (h.session _ _ _ hrouted hsegment)
    refine ⟨handleRequest_returns hfresh h, fun path route segment hrouted hsegment hnone =>
      session_badEscape hrouted hsegment (hsession hrouted hsegment hnone), ?_,
      fun _ _ _ hlacks heq => handleRequest_kept hfresh hlacks heq,
      fun _ _ hlacks halike => handleRequest_alike hlacks halike⟩
    intro path route hrouted hnamed hnone
    cases hparse : parseSessionId path with
    | error e =>
      obtain ⟨segment, hsegment, hthrows, -⟩ := parseSessionId_error_iff.mp hparse
      exact absurd hthrows (h.session path route segment hrouted hsegment)
    | ok sessionId =>
      have hbad : ∀ id, sessionId = some id → request.method = route.method →
          Admits platform.crypto s.registry moment.now id request.authorization →
          badEscape (nameSegment path) = true := by
        intro id hid hmethod hadmits
        exact (undecodable_iff.mp hnone).resolve_right
          (h.name path route id hrouted hnamed (hid ▸ hparse) hmethod hadmits)
      obtain ⟨reply, t, heq, hanswered⟩ := name_undecodable hnames hrouted hnamed hparse hbad
      exact ⟨reply, t, sessionId, rfl, heq, hanswered⟩

end

/-! ## Two requests -/

namespace Probe

/-- The targets of the probes are their own paths. -/
def platform : Platform := ⟨Trial.crypto, fun target => some target.toList, fun _ _ => none⟩

def state : ServerState := { registry := { generationKey := Trial.key } }

def moment : Moment := ⟨0, Trial.random, List.replicate 16 3⟩

/-- The byte `FF` is in no UTF-8 text. -/
def undecodable : Request := ⟨"GET", "/v1/sessions/%FF/events", none, none⟩

/-- A bad escape. -/
def malformed : Request := ⟨"GET", "/v1/sessions/%ZZ/events", none, none⟩

end Probe

/-- Without a session, and whoever asks. -/
theorem handled_iff_decodable_throws :
    handleRequest Probe.platform none Probe.state Probe.moment Probe.undecodable = .error .uriError ∧
      ¬ Handled Probe.platform none [] Probe.state Probe.moment Probe.undecodable := by
  have hrouted : Routed Probe.platform none Probe.undecodable Probe.undecodable.target.toList .events :=
    ⟨rfl, rfl, by decide +kernel⟩
  have hsegment : sessionSegment Probe.undecodable.target.toList = some "%FF".toList := by
    decide +kernel
  have hthrows : Throws "%FF".toList := by decide +kernel
  have hparse : parseSessionId Probe.undecodable.target.toList = .error .uriError :=
    parseSessionId_error_iff.mpr ⟨_, hsegment, hthrows, rfl⟩
  have herror : handleRequest Probe.platform none Probe.state Probe.moment Probe.undecodable =
      .error .uriError := by
    rw [hrouted.handleRequest, hparse]
  refine ⟨herror, fun h => ?_⟩
  obtain ⟨reply, t, hreturns⟩ := h.returns
  exact nomatch herror.symm.trans hreturns

theorem handled_iff_decodable_malformed :
    Handled Probe.platform none [] Probe.state Probe.moment Probe.malformed := by
  have hfresh : Fresh Probe.platform.crypto Probe.state.registry Probe.moment.random :=
    ⟨nofun, rfl⟩
  have hnames : NamesGiven Probe.state [] :=
    ⟨fun _ => nofun, fun _ => nofun, fun _ => rfl, fun _ => rfl, rfl⟩
  refine (handled_iff_decodable _ none [] _ _ _ hfresh hnames).mpr ⟨nofun, ?_, ?_⟩
  · intro path route segment hrouted hsegment
    obtain rfl := Option.some.inj hrouted.pathname
    have hall : sessionSegment Probe.malformed.target.toList = some "%ZZ".toList := by decide +kernel
    obtain rfl := Option.some.inj (hall.symm.trans hsegment)
    decide +kernel
  · intro path route id hrouted hnamed
    obtain rfl := Option.some.inj hrouted.pathname
    have hevents : findRoute Probe.malformed.target.toList = some .events := by decide +kernel
    obtain rfl := Option.some.inj (hevents.symm.trans hrouted.route)
    exact nomatch hnamed

end NanFung.Http
