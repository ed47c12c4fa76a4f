import NanFung.Dates
import NanFung.Lib.Base64
import NanFung.Lib.JsonRead
import NanFung.Lib.PyText
import NanFung.Lib.Raises

/-!
# Scoped handles

`ScopedHandleCodec`: what `mint` seals, and what `verify` makes of a text that the model supplies. Texts
are any Python strings; the payload and the binding are JSON.
-/

namespace NanFung.Agent

open Base64 PyText

/-- What `mint` and `verify` raise. -/
inductive HandleFault where
  /-- `HandleError` -/
  | handle (message : String)
  /-- `HandleScopeError` -/
  | scope (message : String)
  /-- Another `ValueError`. -/
  | value (message : String)
  /-- `UnicodeEncodeError` -/
  | unicodeEncode
  /-- `OverflowError` -/
  | overflow
  deriving DecidableEq, Repr

/-- `HANDLE_VERSION` -/
def handleVersion : String := "h1"

/-- `MAX_HANDLE_BYTES` -/
def maxHandleBytes : Nat := 8 * 1024

/-- `DEFAULT_HANDLE_TTL` -/
def defaultHandleTtl : Int := 30 * 60 * 1000000

/-- The keys of a body. -/
def handleKeys : List String := ["v", "k", "p", "s", "e", "d", "b"]

/-- `ScopedHandleCodec`; `sign` is HMAC-SHA256 under its secret, `float` the `repr` of a literal's
value. -/
structure HandleCodec where
  sign : Bytes → Bytes
  float : String → String
  sign_length : ∀ encoded, (sign encoded).length = 32

/-- A JSON object as the program holds it. -/
structure JsonObject (float : String → String) where
  members : List (String × Json)
  readable : Json.Readable float (.obj members)

def JsonObject.value {float : String → String} (o : JsonObject float) : Json := .obj o.members

/-- A call of `mint`, with the time that it reads. -/
structure MintCall (float : String → String) where
  kind : PyText
  principal : PyText
  capabilityScopeId : PyText
  payload : JsonObject float
  binding : JsonObject float
  expiresAt : Option Time := none
  ttl : Int := defaultHandleTtl
  now : Time

/-- When the handle of a call expires. -/
def MintCall.expiry {float : String → String} (call : MintCall float) : Except HandleFault Time :=
  match call.expiresAt with
  | some expiry => .ok expiry
  | none => orThrow (call.now.add? call.ttl.toNat) .overflow

/-- What a call of `verify` asks of a handle, with the time that it reads. -/
structure VerifyCall (float : String → String) where
  kind : PyText
  principal : PyText
  capabilityScopeId : PyText
  binding : JsonObject float
  now : Time

/-! ## Arguments -/

def kindCharacters : List Char := "abcdefghijklmnopqrstuvwxyz0123456789_-".toList

/-- `_validate_kind` -/
def validateKind (value : PyText) : Except HandleFault Unit := do
  require (value ≠ [] ∧ value.length ≤ 64) (.value "handle kind must be a bounded string")
  require (∀ c ∈ value, c ∈ ofChars kindCharacters)
    (.value "handle kind contains unsupported characters")

/-- `_validate_identity` -/
def validateIdentity (value : PyText) (name : String) : Except HandleFault Unit :=
  require (value ≠ [] ∧ value.length ≤ 256) (.value (name ++ " must be a bounded string"))

/-- `_encode_json` of a value whose texts can be encoded. -/
def encodeJson (value : Json) : Bytes := utf8Encode value.render

/-- `_json_object` -/
def jsonObject {float : String → String} (value : JsonObject float) (name : String) :
    Except HandleFault Json :=
  match Json.loads float value.value.render with
  | .ok (.obj members) => .ok (.obj members)
  | .ok _ => .error (.value (name ++ " must be an object"))
  | .error _ => .error (.value (name ++ " must be JSON-compatible"))

/-! ## Minting -/

/-- The body of a handle. -/
structure HandleBody where
  kind : String
  principal : String
  capabilityScopeId : String
  expiry : Time
  payload : Json
  binding : Json

def HandleBody.members (body : HandleBody) : List (String × Json) :=
  [("v", .str handleVersion), ("k", .str body.kind), ("p", .str body.principal),
    ("s", .str body.capabilityScopeId), ("e", .str (isoformat body.expiry)), ("d", body.payload),
    ("b", body.binding)]

def HandleBody.encoded (body : HandleBody) : Bytes := encodeJson (.obj body.members)

/-- A text as a string that can be encoded. -/
def encodable (text : PyText) : Except HandleFault String := do
  let chars ← orThrow (chars? text) .unicodeEncode
  .ok (String.ofList chars)

variable (codec : HandleCodec)

/-- The handle that carries these bytes, with their signature. -/
def sealHandle (encoded : Bytes) : List Char :=
  handleVersion.toList ++ '.' :: encode encoded ++ '.' :: encode (codec.sign encoded)

/-- `ScopedHandleCodec.mint` -/
def mint (call : MintCall codec.float) : Except HandleFault (List Char) := do
  validateKind call.kind
  validateIdentity call.principal "principal"
  validateIdentity call.capabilityScopeId "capability_scope_id"
  require (0 < call.ttl) (.value "handle ttl must be positive")
  let expiry ← call.expiry
  require (call.now < expiry) (.value "handle expiry must be in the future")
  let payload ← jsonObject call.payload "payload"
  let binding ← jsonObject call.binding "binding"
  let kind ← encodable call.kind
  let principal ← encodable call.principal
  let capabilityScopeId ← encodable call.capabilityScopeId
  let body : HandleBody := { kind, principal, capabilityScopeId, expiry, payload, binding }
  let value := sealHandle codec body.encoded
  require (value.length ≤ maxHandleBytes) (.value "handle is too large")
  .ok value

/-! ## Verification -/

attribute [local instance] decidableChars

/-- `_unb64` -/
def unb64 (value : PyText) : Option Bytes := do
  let text ← chars? value
  if text ≠ [] ∧ ∀ c ∈ text, c ∈ alphabet then urlsafeDecode text else none

/-- The checks of `_decode` on the bytes that are signed. -/
def decodeBody (encoded : Bytes) : Except HandleFault Json := do
  let text ← orThrow (utf8Decode encoded) (.handle "handle payload is invalid")
  match Json.loads codec.float text with
  | .ok (.obj members) => do
    require (members.map Prod.fst ⊆ handleKeys ∧ handleKeys ⊆ members.map Prod.fst)
      (.handle "handle payload is invalid")
    require (Json.lookup "v" members = some (.str handleVersion)) (.handle "handle version is invalid")
    .ok (.obj members)
  | .ok _ => .error (.handle "handle payload is invalid")
  | .error .decode => .error (.handle "handle payload is invalid")
  -- only `JSONDecodeError` is handled
  | .error _ => .error (.value "Exceeds the limit for integer string conversion")

/-- `_decode` -/
def decode (value : PyText) : Except HandleFault Json := do
  require (value ≠ []) (.handle "handle encoding is invalid")
  let text ← orThrow (chars? value) .unicodeEncode
  require ((utf8Encode text).length ≤ maxHandleBytes) (.handle "handle encoding is invalid")
  match value.split '.' with
  | [version, encoded, signature] => do
    require (version = ofString handleVersion) (.handle "handle version is invalid")
    let encoded ← orThrow (unb64 encoded) (.handle "handle encoding is invalid")
    let signature ← orThrow (unb64 signature) (.handle "handle encoding is invalid")
    require (signature = codec.sign encoded) (.handle "handle signature is invalid")
    decodeBody codec encoded
  | _ => .error (.handle "handle version is invalid")

/-- The text under a key. -/
def textAt (body : Json) (key : String) : Option PyText :=
  ((body.get? key).bind Json.asStr?).map ofString

/-- The checks of `verify` on a body. -/
def checkBody (call : VerifyCall codec.float) (body : Json) :
    Except HandleFault (List (String × Json)) := do
  require (textAt body "k" = some call.kind) (.handle "handle kind does not match")
  require (textAt body "p" = some call.principal ∧ textAt body "s" = some call.capabilityScopeId)
    (.scope "handle belongs to another scope")
  let expiry ← orThrow (((body.get? "e").bind Json.asStr?).bind fromIsoformat)
    (.handle "handle expiry is invalid")
  require (call.now < expiry) (.handle "handle is expired")
  let actual ← match body.get? "b" with
    | some (.obj actual) => .ok (Json.obj actual)
    | _ => .error (.handle "handle binding is invalid")
  let requested ← jsonObject call.binding "binding"
  require (encodeJson actual = encodeJson requested) (.handle "handle binding does not match")
  match body.get? "d" with
  | some (.obj payload) => .ok payload
  | _ => .error (.handle "handle payload is invalid")

/-- `ScopedHandleCodec.verify` -/
def verify (value : PyText) (call : VerifyCall codec.float) :
    Except HandleFault (List (String × Json)) := do
  validateKind call.kind
  validateIdentity call.principal "principal"
  validateIdentity call.capabilityScopeId "capability_scope_id"
  let body ← decode codec value
  checkBody codec call body

end NanFung.Agent
