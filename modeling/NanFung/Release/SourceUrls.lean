import NanFung.Release.Policies
import NanFung.Lib.Raises

/-!
# Source URLs

`validate_request_url` for any method, and the check of the store on top of it. A URL that `urllib` does
not parse, or whose port is no number, raises a `ValueError` that neither of them handles.
-/

namespace NanFung.Release

/-! ## The code -/

section

variable (lib : TextLibrary)

/-- `validate_request_url` without a resolver. -/
def validateRequestUrl (url : String) (policy : SourcePolicy) (method : String) :
    Except ReleaseError ParseResult := do
  require (url ≠ "") (.policy "URL is required")
  let parsed ← orThrow (lib.urlparse url) (.value "invalid URL")
  require ((truthy parsed.username || truthy parsed.password) = false)
    (.policy "URL userinfo is not allowed")
  require (parsed.fragment = "") (.policy "URL fragments are not valid acquisition targets")
  require (policy.requireHttps = true → lib.lower parsed.scheme = "https")
    (.policy "HTTPS is required by source policy")
  require (lib.lower parsed.scheme ∈ ["https", "http"]) (.policy "unsupported URL scheme")
  let hostname ← orThrow (parsed.hostname.filter (· ≠ "")) (.policy "URL hostname is required")
  require (∀ address ∈ lib.ipAddress hostname, lib.isPublicAddress address = true)
    (.policy "URL uses a private, loopback, or otherwise unsafe IP literal")
  let port ← orThrow parsed.port (.value "port is no number")
  require (port = none ∨ port = some 443) (.policy "non-default URL port is not allowed")
  let allowed ← hostAllowed lib hostname policy.allowedHosts
  require (allowed = true) (.policy "URL host is not allowlisted")
  require (lib.upper method ∈ policy.allowedMethods)
    (.policy ("method is not allowed: " ++ lib.upper method))
  require (policy.allowedQueryKeys ≠ [] →
      ∀ entry ∈ lib.parseQsl parsed.query, lib.lower entry.1 ∈ policy.allowedQueryKeys)
    (.policy "URL includes a query key not approved by source policy")
  .ok parsed

/-- `SourcePolicy.__post_init__`, of a policy with a query and header allowlist in lower case. -/
def SourcePolicy.make (allowedHosts allowedMethods : List String) : Except ReleaseError SourcePolicy := do
  let hosts ← allowedHosts.mapM (normalizeHost lib)
  require (hosts ≠ []) (.policy "at least one allowed host is required")
  require ("" ∉ hosts) (.policy "allowed hosts cannot be empty")
  let methods := allowedMethods.map lib.upper
  require (methods ≠ []) (.policy "at least one allowed method is required")
  .ok { allowedHosts := hosts, allowedMethods := methods }

/-- What the check of the store raises: its own exception, or one that it does not handle. -/
inductive BoundError where
  | operational (message : String)
  | escaped (e : ReleaseError)
  deriving DecidableEq, Repr

/-- `_validate_bound_source_url` -/
def validateBoundSourceUrl (allowedHosts : List String) (url method : String) : Except BoundError Unit :=
  if allowedHosts = [] then .error (.operational "bound source has no approved network host")
  else match SourcePolicy.make lib allowedHosts [method] >>= fun policy =>
      validateRequestUrl lib url policy method with
    | .ok _ => .ok ()
    | .error (.policy _) => .error (.operational "evidence has unapproved source provenance")
    | .error e => .error (.escaped e)

end

variable {lib : TextLibrary} {url method hostname normalized : String} {policy : SourcePolicy}
  {parsed : ParseResult} {port : Option Nat}

/-- The check for a GET is the one that the other stages use. -/
theorem validateSourceUrl_eq : validateSourceUrl lib url policy = validateRequestUrl lib url policy "GET" := by
  rw [validateSourceUrl, validateRequestUrl]
  simp only [lib.upper_get]
  rfl

/-! ## What a validated URL is -/

/-- The host is an exact entry of the allowlist, or lies below the domain of a wildcard. -/
def Admitted (hosts : List String) (host : String) : Prop :=
  ∃ allowed ∈ hosts, (¬ ['*', '.'] <+: allowed.toList ∧ host = allowed) ∨
    ['*', '.'] <+: allowed.toList ∧ allowed.toList.drop 1 <:+ host.toList ∧
      host.toList ≠ allowed.toList.drop 2

/-- The text is no IP literal, or a public one. -/
def NoPrivateLiteral (lib : TextLibrary) (host : String) : Prop :=
  ∀ address ∈ lib.ipAddress host, lib.isPublicAddress address = true

/-- What the parse of a validated URL has. -/
structure Sound (lib : TextLibrary) (policy : SourcePolicy) (method : String) (parsed : ParseResult) :
    Prop where
  host : ∃ hostname normalized, parsed.hostname = some hostname ∧
    normalizeHost lib hostname = .ok normalized ∧ Admitted policy.allowedHosts normalized ∧
      NoPrivateLiteral lib hostname ∧ NoPrivateLiteral lib normalized
  userinfo : truthy parsed.username = false ∧ truthy parsed.password = false
  fragment : parsed.fragment = ""
  scheme : lib.lower parsed.scheme = "https" ∨ policy.requireHttps = false ∧ lib.lower parsed.scheme = "http"
  method : lib.upper method ∈ policy.allowedMethods
  port : parsed.port = some none ∨ parsed.port = some (some 443)
  query : policy.allowedQueryKeys ≠ [] →
    ∀ entry ∈ lib.parseQsl parsed.query, lib.lower entry.1 ∈ policy.allowedQueryKeys

/-- The validation is sound, and fails with its own exception, as that of the store does. -/
structure ValidatedSoundly (lib : TextLibrary) (url : String) (policy : SourcePolicy) (method : String) :
    Prop where
  sound : ∀ parsed, validateRequestUrl lib url policy method = .ok parsed →
    lib.urlparse url = some parsed ∧ Sound lib policy method parsed
  closed : ∀ e, validateRequestUrl lib url policy method = .error e → ∃ message, e = .policy message
  bound : ∀ allowedHosts e, validateBoundSourceUrl lib allowedHosts url method = .error e →
    ∃ message, e = .operational message

/-- The checks before the port accept the parse. -/
structure PassesEarly (lib : TextLibrary) (policy : SourcePolicy) (parsed : ParseResult)
    (hostname : String) : Prop where
  userinfo : (truthy parsed.username || truthy parsed.password) = false
  fragment : parsed.fragment = ""
  https : policy.requireHttps = true → lib.lower parsed.scheme = "https"
  scheme : lib.lower parsed.scheme ∈ ["https", "http"]
  literal : NoPrivateLiteral lib hostname
  named : parsed.hostname = some hostname ∧ hostname ≠ ""

/-- The checks from the port on accept the parse. -/
structure PassesLate (lib : TextLibrary) (policy : SourcePolicy) (method : String) (parsed : ParseResult)
    (hostname : String) (port : Option Nat) : Prop where
  port : port = none ∨ port = some 443
  host : hostAllowed lib hostname policy.allowedHosts = .ok true
  method : lib.upper method ∈ policy.allowedMethods
  query : policy.allowedQueryKeys ≠ [] →
    ∀ entry ∈ lib.parseQsl parsed.query, lib.lower entry.1 ∈ policy.allowedQueryKeys

/-- The URL is empty, or it parses, and if its port is looked at then it is a number, and if all checks
accept it then the host is no private literal without its dots and in lower case either. -/
def WellFormed (lib : TextLibrary) (url : String) (policy : SourcePolicy) (method : String) : Prop :=
  url = "" ∨ ∃ parsed, lib.urlparse url = some parsed ∧ ∀ hostname,
    PassesEarly lib policy parsed hostname → ∃ port, parsed.port = some port ∧
      (PassesLate lib policy method parsed hostname port →
        ∀ normalized, normalizeHost lib hostname = .ok normalized → NoPrivateLiteral lib normalized)

/-! ## Soundness -/

theorem validateRequestUrl_ok : validateRequestUrl lib url policy method = .ok parsed ↔
    url ≠ "" ∧ lib.urlparse url = some parsed ∧ ∃ hostname, PassesEarly lib policy parsed hostname ∧
      ∃ port, parsed.port = some port ∧ PassesLate lib policy method parsed hostname port := by
  simp only [validateRequestUrl, bind_ok, require_ok, orThrow_ok, Except.ok.injEq]
  constructor
  · rintro ⟨-, hurl, parsed', hparses, -, huserinfo, -, hfragment, -, hhttps, -, hscheme, hostname,
      hhost, -, hliteral, port, hport, -, hdefault, allowed, hallowed, -, rfl, -, hmethod, -, hquery, rfl⟩
    obtain ⟨hhostname, hne⟩ := Option.filter_eq_some_iff.mp hhost
    exact ⟨hurl, hparses, hostname, ⟨huserinfo, hfragment, hhttps, hscheme, hliteral, hhostname,
      of_decide_eq_true hne⟩, port, hport, hdefault, hallowed, hmethod, hquery⟩
  · rintro ⟨hurl, hparses, hostname, hearly, port, hport, hlate⟩
    exact ⟨(), hurl, parsed, hparses, (), hearly.userinfo, (), hearly.fragment, (), hearly.https, (),
      hearly.scheme, hostname, Option.filter_eq_some_iff.mpr ⟨hearly.named.1,
        decide_eq_true hearly.named.2⟩, (), hearly.literal, port, hport, (), hlate.port, true,
      hlate.host, (), rfl, (), hlate.method, (), hlate.query, rfl⟩

theorem hostAllowed_ok {hosts : List String} (h : hostAllowed lib hostname hosts = .ok true) :
    ∃ normalized, normalizeHost lib hostname = .ok normalized ∧ Admitted hosts normalized := by
  simp only [hostAllowed, bind_ok, Except.ok.injEq] at h
  obtain ⟨normalized, hnormalized, hany⟩ := h
  obtain ⟨allowed, hmem, hadmits⟩ := List.any_eq_true.mp hany
  refine ⟨normalized, hnormalized, allowed, hmem, ?_⟩
  rw [admits] at hadmits
  split at hadmits
  · next hwildcard => exact .inr ⟨hwildcard, of_decide_eq_true hadmits⟩
  · next hexact => exact .inl ⟨hexact, of_decide_eq_true hadmits⟩

theorem WellFormed.sound (h : WellFormed lib url policy method)
    (hok : validateRequestUrl lib url policy method = .ok parsed) :
    lib.urlparse url = some parsed ∧ Sound lib policy method parsed := by
  obtain ⟨hurl, hparses, hostname, hearly, port, hport, hlate⟩ := validateRequestUrl_ok.mp hok
  obtain ⟨normalized, hnormalized, hadmitted⟩ := hostAllowed_ok hlate.host
  have hliteral : NoPrivateLiteral lib normalized := by
    rcases h with hempty | ⟨parsed', hparses', hrest⟩
    · exact absurd hempty hurl
    · obtain rfl := Option.some.inj (hparses.symm.trans hparses')
      obtain ⟨port', hport', hdots⟩ := hrest hostname hearly
      obtain rfl := Option.some.inj (hport.symm.trans hport')
      exact hdots hlate normalized hnormalized
  refine ⟨hparses, ⟨hostname, normalized, hearly.named.1, hnormalized, hadmitted, hearly.literal,
    hliteral⟩, Bool.or_eq_false_iff.mp hearly.userinfo, hearly.fragment, ?_, hlate.method, ?_,
    hlate.query⟩
  · rcases List.mem_cons.mp hearly.scheme with hhttps | hhttp
    · exact .inl hhttps
    · rcases Bool.eq_false_or_eq_true policy.requireHttps with htrue | hfalse
      · exact .inl (hearly.https htrue)
      · exact .inr ⟨hfalse, List.mem_singleton.mp hhttp⟩
  · rcases hlate.port with rfl | rfl
    · exact .inl hport
    · exact .inr hport

/-! ## Exceptions -/

def IsPolicy (e : ReleaseError) : Prop := ∃ message, e = .policy message

theorem isPolicy (message : String) : IsPolicy (.policy message) := ⟨message, rfl⟩

theorem raises_normalizeHost (value : String) : Raises IsPolicy (normalizeHost lib value) := by
  unfold normalizeHost
  dsimp only
  intro e he
  split at he
  all_goals
    rcases bind_error he with hcheck | ⟨_, -, hok⟩
    · unfold require at hcheck
      split at hcheck
      · cases hcheck
      · exact ⟨_, (Except.error.inj hcheck).symm⟩
    · cases hok

theorem raises_hostAllowed (hosts : List String) : Raises IsPolicy (hostAllowed lib hostname hosts) :=
  (raises_normalizeHost hostname).andThen fun _ => .ok _

/-- The URL parses, and if its port is looked at then it is a number. -/
def Readable (lib : TextLibrary) (url : String) (policy : SourcePolicy) : Prop :=
  url = "" ∨ ∃ parsed, lib.urlparse url = some parsed ∧ ∀ hostname,
    PassesEarly lib policy parsed hostname → ∃ port, parsed.port = some port

theorem WellFormed.readable (h : WellFormed lib url policy method) : Readable lib url policy :=
  h.imp_right fun ⟨parsed, hparses, hrest⟩ =>
    ⟨parsed, hparses, fun hostname hearly => (hrest hostname hearly).imp fun _ h => h.1⟩

theorem Readable.raises (h : Readable lib url policy) (method : String) :
    Raises IsPolicy (validateRequestUrl lib url policy method) := by
  refine Raises.bind (.require (isPolicy _)) fun _ hurl => ?_
  rw [require_ok] at hurl
  obtain ⟨parsed, hparses, hport⟩ := h.resolve_left hurl
  rw [hparses, orThrow_some_bind]
  refine Raises.bind (.require (isPolicy _)) fun _ huserinfo => ?_
  refine Raises.bind (.require (isPolicy _)) fun _ hfragment => ?_
  refine Raises.bind (.require (isPolicy _)) fun _ hhttps => ?_
  refine Raises.bind (.require (isPolicy _)) fun _ hscheme => ?_
  refine Raises.bind (.orThrow (isPolicy _)) fun hostname hhost => ?_
  refine Raises.bind (.require (isPolicy _)) fun _ hliteral => ?_
  rw [require_ok] at huserinfo hfragment hhttps hscheme hliteral
  rw [orThrow_ok] at hhost
  obtain ⟨hhostname, hne⟩ := Option.filter_eq_some_iff.mp hhost
  obtain ⟨port, hsome⟩ := hport hostname ⟨huserinfo, hfragment, hhttps, hscheme, hliteral, hhostname,
    of_decide_eq_true hne⟩
  rw [hsome, orThrow_some_bind]
  refine (Raises.require (isPolicy _)).andThen fun _ => ?_
  refine (raises_hostAllowed _).andThen fun _ => ?_
  refine (Raises.require (isPolicy _)).andThen fun _ => ?_
  refine (Raises.require (isPolicy _)).andThen fun _ => ?_
  exact (Raises.require (isPolicy _)).andThen fun _ => .ok _

/-- Where the validation raises only its own exception, the URL is readable. -/
theorem readable_of_raises (h : Raises IsPolicy (validateRequestUrl lib url policy method)) :
    Readable lib url policy := by
  refine or_iff_not_imp_left.mpr fun hurl => ?_
  have hvalue : ∀ message, validateRequestUrl lib url policy method ≠ .error (.value message) :=
    fun message heq => by
      obtain ⟨text, htext⟩ := h _ heq
      exact nomatch htext
  cases hparses : lib.urlparse url with
  | none =>
    refine absurd ?_ (hvalue "invalid URL")
    rw [validateRequestUrl, require, if_pos hurl, hparses]
    rfl
  | some parsed =>
    refine ⟨parsed, rfl, fun hostname hearly => ?_⟩
    cases hport : parsed.port with
    | some port => exact ⟨port, rfl⟩
    | none =>
      refine absurd ?_ (hvalue "port is no number")
      have hhost : parsed.hostname.filter (· ≠ "") = some hostname :=
        Option.filter_eq_some_iff.mpr ⟨hearly.named.1, decide_eq_true hearly.named.2⟩
      rw [validateRequestUrl, require, if_pos hurl, hparses]
      simp only [ok_bind, orThrow_some_bind, require, if_pos hearly.userinfo, if_pos hearly.fragment,
        if_pos hearly.https, if_pos hearly.scheme, hhost, hport]
      have hliteral : ∀ address ∈ lib.ipAddress hostname, lib.isPublicAddress address = true :=
        hearly.literal
      rw [if_pos hliteral]
      rfl

/-- A policy of the store requires HTTPS, so it looks at the port of no other URL. -/
theorem Readable.https (h : Readable lib url policy) {policy' : SourcePolicy}
    (hhttps : policy'.requireHttps = true) : Readable lib url policy' :=
  h.imp_right fun ⟨parsed, hparses, hport⟩ => ⟨parsed, hparses, fun hostname hearly =>
    hport hostname { hearly with https := fun _ => hearly.https hhttps }⟩

theorem raises_mapM_normalizeHost (hosts : List String) :
    Raises IsPolicy (hosts.mapM (normalizeHost lib)) := by
  induction hosts with
  | nil => exact .ok []
  | cons host hosts ih =>
    rw [List.mapM_cons]
    exact (raises_normalizeHost host).andThen fun _ => ih.andThen fun _ => .ok _

theorem raises_make (allowedHosts allowedMethods : List String) :
    Raises IsPolicy (SourcePolicy.make lib allowedHosts allowedMethods) := by
  refine (raises_mapM_normalizeHost _).andThen fun _ => ?_
  refine (Raises.require (isPolicy _)).andThen fun _ => ?_
  refine (Raises.require (isPolicy _)).andThen fun _ => ?_
  exact (Raises.require (isPolicy _)).andThen fun _ => .ok _

theorem make_requireHttps {allowedHosts allowedMethods : List String}
    (h : SourcePolicy.make lib allowedHosts allowedMethods = .ok policy) : policy.requireHttps = true := by
  simp only [SourcePolicy.make, bind_ok, require_ok, Except.ok.injEq] at h
  obtain ⟨hosts, -, -, -, -, -, -, -, rfl⟩ := h
  rfl

theorem Readable.bound (h : Readable lib url policy) {allowedHosts : List String} {e : BoundError}
    (he : validateBoundSourceUrl lib allowedHosts url method = .error e) :
    ∃ message, e = .operational message := by
  have hraises : Raises IsPolicy (SourcePolicy.make lib allowedHosts [method] >>= fun policy =>
      validateRequestUrl lib url policy method) :=
    (raises_make _ _).bind fun policy' hmake => (h.https (make_requireHttps hmake)).raises method
  rw [validateBoundSourceUrl] at he
  split at he
  · exact ⟨_, (Except.error.inj he).symm⟩
  · split at he
    · exact nomatch he
    · exact ⟨_, (Except.error.inj he).symm⟩
    · next e' hne heq =>
      obtain ⟨message, rfl⟩ := hraises _ heq
      exact absurd rfl (hne message)

/-- The library for one URL, `https://www.bankofengland.co.uk:port/`. -/
def badPort : TextLibrary where
  urlparse url :=
    if url = "https://www.bankofengland.co.uk:port/" then
      some { scheme := "https", netloc := "www.bankofengland.co.uk:port",
             hostname := some "www.bankofengland.co.uk", username := none, password := none,
             port := none, path := "/", query := "", fragment := "" }
    else none
  urljoin _ _ := none
  parseQsl _ := []
  lower text := text
  upper text := text
  casefold text := text
  strip text := text
  unescape text := text
  ipAddress _ := none
  isPublicAddress _ := false
  zipMembers _ := none
  normalizeTimestamp _ := none
  redactUrl text := text
  lower_scheme _ := rfl
  upper_get := rfl

end NanFung.Release
