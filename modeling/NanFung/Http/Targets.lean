import Mathlib.Tactic

/-!
# Request targets

How `http.ts` reads the path of a request: the routes, and the segments that stand for a session, a
turn or an approval. A segment is checked for the syntax of its percent escapes before it is decoded;
decoding throws where the bytes that it spells are no UTF-8.
-/

namespace NanFung.Http

/-! ## Percent escapes -/

def hexDigit? (c : Char) : Option Nat :=
  if '0' ≤ c ∧ c ≤ '9' then some (c.toNat - '0'.toNat)
  else if 'a' ≤ c ∧ c ≤ 'f' then some (c.toNat - 'a'.toNat + 10)
  else if 'A' ≤ c ∧ c ≤ 'F' then some (c.toNat - 'A'.toNat + 10)
  else none

/-- Two digits follow. -/
def completes : List Char → Bool
  | a :: b :: _ => (hexDigit? a).isSome && (hexDigit? b).isSome
  | _ => false

/-- `/%(?![0-9A-Fa-f]{2})/.test(segment)` -/
def badEscape : List Char → Bool
  | [] => false
  | c :: rest => (c = '%' && !completes rest) || badEscape rest

/-- The bytes that a segment spells, unless an escape is incomplete. -/
def percentBytes : List Char → Option (List UInt8)
  | [] => some []
  | c :: rest =>
    if c = '%' then
      match rest with
      | a :: b :: rest =>
        match hexDigit? a, hexDigit? b with
        | some high, some low =>
          (percentBytes rest).map fun bytes => UInt8.ofNat (16 * high + low) :: bytes
        | _, _ => none
      | _ => none
    else (percentBytes rest).map fun bytes => String.utf8EncodeChar c ++ bytes

/-- `decodeURIComponent`; `none` is the `URIError`. -/
def decodeURIComponent (segment : List Char) : Option String :=
  (percentBytes segment).bind fun bytes => String.fromUTF8? ⟨bytes.toArray⟩

inductive Thrown where
  | typeError | uriError | scopeReusedError
  deriving DecidableEq, Repr

/-- The check of the syntax and the decoding, as both helpers do them; `none` is a bad escape. -/
def decodeChecked (segment : List Char) : Except Thrown (Option String) :=
  if badEscape segment then .ok none
  else match decodeURIComponent segment with
  | none => .error .uriError
  | some text => .ok (some text)

/-- The escapes of the segment are complete, but spell no UTF-8. -/
def Throws (segment : List Char) : Prop :=
  badEscape segment = false ∧ decodeURIComponent segment = none

instance (segment : List Char) : Decidable (Throws segment) :=
  inferInstanceAs (Decidable (_ ∧ _))

/-! ## Paths -/

/-- `path.split("/")` -/
def segments (path : List Char) : List (List Char) := path.splitOn '/'

inductive Route where
  | createSession | messages | cancelTurn | turn | events | approval | dashboard | session
  deriving DecidableEq, Repr

namespace Route

def all : List Route :=
  [createSession, messages, cancelTurn, turn, events, approval, dashboard, session]

def method : Route → String
  | createSession | messages | cancelTurn | approval => "POST"
  | turn | events | dashboard => "GET"
  | session => "DELETE"

/-- The segments after `/v1/sessions`; `none` stands for `([^/]+)`. -/
def pattern : Route → List (Option String)
  | createSession => []
  | messages => [none, some "messages"]
  | cancelTurn => [none, some "turns", none, some "cancel"]
  | turn => [none, some "turns", none]
  | events => [none, some "events"]
  | approval => [none, some "approvals", none]
  | dashboard => [none, some "dashboard", some "overview"]
  | session => [none]

/-- The route names a turn or an approval. -/
def named : Route → Bool
  | cancelTurn | turn | approval => true
  | _ => false

end Route

def fits : List (Option String) → List (List Char) → Bool
  | [], [] => true
  | none :: pattern, s :: rest => s ≠ [] && fits pattern rest
  | some text :: pattern, s :: rest => s = text.toList && fits pattern rest
  | _, _ => false

/-- `candidate.pattern.test(path)` -/
def Route.test (path : List Char) (route : Route) : Bool :=
  fits ([some "", some "v1", some "sessions"] ++ route.pattern) (segments path)

/-- `ROUTES.find(…)` -/
def findRoute (path : List Char) : Option Route := Route.all.find? (Route.test path)

/-- What `/^\/v1\/sessions\/([^/]+)/` captures. -/
def sessionSegment (path : List Char) : Option (List Char) :=
  match segments path with
  | first :: second :: third :: segment :: _ =>
    if first = [] ∧ second = "v1".toList ∧ third = "sessions".toList ∧ segment ≠ [] then
      some segment
    else none
  | _ => none

/-- `parseSessionId`, for the path of the target. -/
def parseSessionId (path : List Char) : Except Thrown (Option String) :=
  match sessionSegment path with
  | none => .ok none
  | some segment => decodeChecked segment

/-- `decodeSegment(path, 5)` -/
def decodeSegment (path : List Char) : Except Thrown String :=
  match (segments path)[5]? with
  | none => .ok ""
  | some segment => (decodeChecked segment).map (·.getD "")

/-- The segment of the turn or of the approval. -/
def nameSegment (path : List Char) : List Char := (segments path).getD 5 []

example : findRoute "/v1/sessions/%FF/events".toList = some .events ∧
    Throws ((sessionSegment "/v1/sessions/%FF/events".toList).getD []) := by decide +kernel

/-! ## What is thrown -/

theorem decodeChecked_error_iff {segment : List Char} {e : Thrown} :
    decodeChecked segment = .error e ↔ Throws segment ∧ e = .uriError := by
  unfold decodeChecked Throws
  cases badEscape segment with
  | true => exact ⟨nofun, fun h => nomatch h.1.1⟩
  | false =>
    cases decodeURIComponent segment with
    | none => exact ⟨fun h => ⟨⟨rfl, rfl⟩, (Except.error.inj h).symm⟩, fun h => h.2 ▸ rfl⟩
    | some text => exact ⟨nofun, fun h => nomatch h.1.2⟩

theorem hexDigit_ne_percent {c : Char} (h : (hexDigit? c).isSome) : c ≠ '%' := by
  rintro rfl
  exact nomatch h

/-- The check of the syntax finds the segments whose escapes cannot be read. -/
theorem percentBytes_eq_none_iff (segment : List Char) :
    percentBytes segment = none ↔ badEscape segment = true := by
  induction segment using percentBytes.induct with
  | case1 => exact ⟨nofun, nofun⟩
  | case2 a b rest high low hlow hhigh ih =>
    have ha : a ≠ '%' := hexDigit_ne_percent (by rw [hhigh]; rfl)
    have hb : b ≠ '%' := hexDigit_ne_percent (by rw [hlow]; rfl)
    simp only [percentBytes, badEscape, completes, hhigh, hlow, ha, hb]
    simpa using ih
  | case3 a b rest hnot =>
    have hdigits : ((hexDigit? a).isSome && (hexDigit? b).isSome) = false := by
      cases ha : hexDigit? a with
      | none => rfl
      | some high =>
        cases hb : hexDigit? b with
        | none => rfl
        | some low => exact (hnot high low ha hb).elim
    refine iff_of_true ?_ ?_
    · unfold percentBytes
      rw [if_pos rfl]
      dsimp only
      split
      · next high low ha hb => exact (hnot high low ha hb).elim
      · rfl
    · rw [badEscape, completes, hdigits]
      rfl
  | case4 rest hshort =>
    refine iff_of_true ?_ ?_
    · unfold percentBytes
      rw [if_pos rfl]
      split
      · next a b rest => exact (hshort a b rest rfl).elim
      · rfl
    · have hcompletes : completes rest = false := by
        unfold completes
        split
        · next a b rest => exact (hshort a b rest rfl).elim
        · rfl
      simp [badEscape, hcompletes]
  | case5 c rest hc ih =>
    unfold percentBytes
    rw [if_neg hc, Option.map_eq_none_iff, ih, badEscape]
    simp [hc]

/-- A segment that cannot be decoded has a bad escape, or decoding it throws. -/
theorem undecodable_iff {segment : List Char} :
    decodeURIComponent segment = none ↔ badEscape segment = true ∨ Throws segment := by
  cases hbad : badEscape segment with
  | true =>
    refine iff_of_true ?_ (Or.inl rfl)
    rw [decodeURIComponent, (percentBytes_eq_none_iff segment).mpr hbad]
    rfl
  | false =>
    rw [Throws, hbad]
    exact ⟨fun h => Or.inr ⟨rfl, h⟩, fun h => (h.resolve_left nofun).2⟩

end NanFung.Http
