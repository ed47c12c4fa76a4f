import NanFung.Agent.Handles

/-!
# What a handle verifies as

A minted handle is decoded to its body, and the checks of the body tell the call for it from any other.
A text that is not minted is rejected, apart from another spelling of a minted one.
-/

namespace NanFung.Agent

open Base64 PyText

variable {codec : HandleCodec} {body : HandleBody} {encoded : Bytes} {value : PyText}

/-! ## Bodies -/

/-- A body whose payload and binding can be written and read. -/
structure HandleBody.Readable (float : String → String) (body : HandleBody) : Prop where
  payload : ∃ members, body.payload = Json.sorted (.obj members) ∧ Json.Readable float (.obj members)
  binding : ∃ members, body.binding = Json.sorted (.obj members) ∧ Json.Readable float (.obj members)

theorem members_nodup (body : HandleBody) : (body.members.map Prod.fst).Nodup := by
  have hkeys : body.members.map Prod.fst = handleKeys := rfl
  rw [hkeys]
  decide

theorem HandleBody.Readable.members (h : body.Readable codec.float) :
    Json.Readable codec.float (.obj body.members) := by
  obtain ⟨p, hp, hpayload⟩ := h.payload
  obtain ⟨b, hb, hbinding⟩ := h.binding
  refine ⟨members_nodup body, trivial, trivial, trivial, trivial, trivial, ?_, ?_, trivial⟩
  · exact hp ▸ Json.readable_sorted hpayload
  · exact hb ▸ Json.readable_sorted hbinding

theorem get?_body {key : String} {v : Json} (h : Json.lookup key body.members = some v) :
    (Json.sorted (.obj body.members)).get? key = some (Json.sorted v) := by
  rw [Json.get?_sorted (members_nodup body), h, Option.map_some]

theorem get?_body_str {key v : String} (h : Json.lookup key body.members = some (.str v)) :
    (Json.sorted (.obj body.members)).get? key = some (.str v) := get?_body h

/-- The bytes of a body are read back. -/
theorem decodeBody_encoded (h : body.Readable codec.float) :
    decodeBody codec body.encoded = .ok (Json.sorted (.obj body.members)) := by
  have hload : Json.loads codec.float (Json.render (.obj body.members)) = .ok (Json.sorted (.obj body.members)) :=
    Json.loads_render h.members
  have hkeys : ∀ key, key ∈ ((Json.sortedMembers body.members).insertionSort Json.keyLe).map Prod.fst ↔
      key ∈ handleKeys := by
    intro key
    have hperm := (List.perm_insertionSort Json.keyLe (Json.sortedMembers body.members)).map Prod.fst
    exact hperm.mem_iff
  have hget : (Json.sorted (.obj body.members)).get? "v" = some (.str handleVersion) := get?_body_str rfl
  have hversion : Json.lookup "v" ((Json.sortedMembers body.members).insertionSort Json.keyLe) =
      some (.str handleVersion) := hget
  rw [decodeBody, HandleBody.encoded, encodeJson, utf8Decode_encode, orThrow_some_bind, hload]
  simp only [Json.sorted, bind_ok, require_ok]
  exact ⟨(), ⟨fun key => (hkeys key).mp, fun key => (hkeys key).mpr⟩, (), hversion, trivial⟩

/-! ## Texts -/

theorem unb64_eq_some {text : PyText} {bytes : Bytes} : unb64 text = some bytes ↔
    ∃ chars, text = ofChars chars ∧ chars ≠ [] ∧ (∀ c ∈ chars, c ∈ alphabet) ∧
      urlsafeDecode chars = some bytes := by
  rw [unb64, Option.bind_eq_bind, Option.bind_eq_some_iff]
  refine exists_congr fun chars => ?_
  rw [chars?_eq_some]
  refine and_congr_right fun _ => ?_
  split
  · next h => exact ⟨fun hdecode => ⟨h.1, h.2, hdecode⟩, fun h => h.2.2⟩
  · next h => exact ⟨fun hdecode => (nomatch hdecode), fun h' => absurd ⟨h'.1, h'.2.1⟩ h⟩

theorem unb64_encode {bytes : Bytes} (h : bytes ≠ []) : unb64 (ofChars (encode bytes)) = some bytes :=
  unb64_eq_some.mpr ⟨encode bytes, rfl, encode_ne_nil h, mem_alphabet_of_mem_encode bytes,
    urlsafeDecode_encode bytes⟩

/-- The text carries these bytes with their signature. -/
def Carries (codec : HandleCodec) (value : PyText) (encoded : Bytes) : Prop :=
  value.length ≤ maxHandleBytes ∧ ∃ a b, value.split '.' = [ofString handleVersion, a, b] ∧
    unb64 a = some encoded ∧ unb64 b = some (codec.sign encoded)

/-- A text that carries bytes has characters of ASCII only. -/
theorem Carries.ascii (h : Carries codec value encoded) :
    ∃ chars, value = ofChars chars ∧ IsAscii chars := by
  obtain ⟨-, a, b, hsplit, ha, hb⟩ := h
  obtain ⟨s, rfl, -, hs, -⟩ := unb64_eq_some.mp ha
  obtain ⟨t, rfl, -, ht, -⟩ := unb64_eq_some.mp hb
  obtain ⟨hvalue, -⟩ := (split_eq_iff (List.cons_ne_nil _ _)).mp hsplit
  have halphabet : ∀ c ∈ alphabet, c.toNat < 128 := List.all_iff_forall_prop.mp (by decide)
  refine ⟨handleVersion.toList ++ '.' :: (s ++ '.' :: t), ?_, ?_⟩
  · rw [← hvalue]
    simp [List.intercalate, ofString]
  · intro c hc
    simp only [List.mem_append, List.mem_cons] at hc
    rcases hc with hc | rfl | hc | rfl | hc
    · have hversion : ∀ c ∈ handleVersion.toList, c.toNat < 128 :=
        List.all_iff_forall_prop.mp (by decide)
      exact hversion c hc
    · decide
    · exact halphabet c (hs c hc)
    · decide
    · exact halphabet c (ht c hc)

theorem decode_of_carries (h : Carries codec value encoded) :
    decode codec value = decodeBody codec encoded := by
  obtain ⟨chars, rfl, hascii⟩ := h.ascii
  obtain ⟨hlength, a, b, hsplit, ha, hb⟩ := h
  have hne : ofChars chars ≠ [] := by
    intro hnil
    rw [hnil] at hsplit
    exact nomatch (List.cons.inj hsplit).2
  have hbytes : (utf8Encode chars).length ≤ maxHandleBytes := by
    rw [length_utf8Encode hascii]
    rwa [ofChars, List.length_map] at hlength
  rw [decode, require, if_pos hne, ok_bind, chars?_ofChars, orThrow_some_bind, require, if_pos hbytes,
    ok_bind, hsplit]
  dsimp only
  rw [require, if_pos rfl, ok_bind, ha, orThrow_some_bind, hb, orThrow_some_bind, require, if_pos rfl,
    ok_bind]

/-- What is not decoded for its form is a `HandleError`, unless it cannot be encoded. -/
theorem decode_cases (value : PyText) :
    (¬ ∀ n, .surrogate n ∉ value) ∧ decode codec value = .error .unicodeEncode ∨
    (∀ n, .surrogate n ∉ value) ∧ ((∃ encoded, Carries codec value encoded) ∨
      ∃ message, decode codec value = .error (.handle message)) := by
  by_cases hchars : ∀ n, .surrogate n ∉ value
  · refine Or.inr ⟨hchars, ?_⟩
    obtain ⟨text, htext⟩ := Option.isSome_iff_exists.mp (chars?_isSome.mpr hchars)
    rcases eq_or_ne value [] with rfl | hne
    · exact Or.inr ⟨_, rfl⟩
    rw [decode, require, if_pos hne, ok_bind, htext, orThrow_some_bind]
    by_cases hbytes : (utf8Encode text).length ≤ maxHandleBytes
    · have hlength : value.length ≤ maxHandleBytes := by
        rw [chars?_eq_some.mp htext, ofChars, List.length_map]
        exact (length_le_utf8Encode text).trans hbytes
      rw [require, if_pos hbytes, ok_bind]
      split
      · next version a b hsplit =>
        by_cases hversion : version = ofString handleVersion
        · rw [require, if_pos hversion, ok_bind]
          cases ha : unb64 a with
          | none => exact Or.inr ⟨_, rfl⟩
          | some encoded =>
            cases hb : unb64 b with
            | none => exact Or.inr ⟨_, rfl⟩
            | some signature =>
              rw [orThrow_some_bind, orThrow_some_bind]
              by_cases hsign : signature = codec.sign encoded
              · exact Or.inl ⟨encoded, hlength, a, b, hversion ▸ hsplit, ha, hsign ▸ hb⟩
              · exact Or.inr ⟨_, bind_of_error (if_neg hsign)⟩
        · exact Or.inr ⟨_, bind_of_error (if_neg hversion)⟩
      · exact Or.inr ⟨_, rfl⟩
    · exact Or.inr ⟨_, bind_of_error (if_neg hbytes)⟩
  · refine Or.inl ⟨hchars, ?_⟩
    have hnone : chars? value = none := by
      rw [← chars?_isSome] at hchars
      exact Option.not_isSome_iff_eq_none.mp hchars
    have hne : value ≠ [] := by
      rintro rfl
      cases hnone
    rw [decode, require, if_pos hne, ok_bind, hnone]
    rfl

theorem sealHandle_eq (encoded : Bytes) : ofChars (sealHandle codec encoded) =
    [PyChar.char '.'].intercalate [ofString handleVersion, ofChars (encode encoded),
      ofChars (encode (codec.sign encoded))] := by
  simp [sealHandle, List.intercalate, ofString]

theorem split_sealHandle (encoded : Bytes) : (ofChars (sealHandle codec encoded)).split '.' =
    [ofString handleVersion, ofChars (encode encoded), ofChars (encode (codec.sign encoded))] := by
  refine (split_eq_iff (List.cons_ne_nil _ _)).mpr ⟨(sealHandle_eq encoded).symm, ?_⟩
  simp only [List.forall_mem_cons]
  refine ⟨by decide, ?_, ?_, nofun⟩
  · exact fun h => dot_notMem_encode _ (mem_ofChars.mp h)
  · exact fun h => dot_notMem_encode _ (mem_ofChars.mp h)

theorem carries_sealHandle (hlength : (sealHandle codec encoded).length ≤ maxHandleBytes)
    (hne : encoded ≠ []) : Carries codec (ofChars (sealHandle codec encoded)) encoded := by
  have hsign : codec.sign encoded ≠ [] := by
    intro hnil
    have := codec.sign_length encoded
    rw [hnil] at this
    exact nomatch this
  exact ⟨by rwa [ofChars, List.length_map], _, _, split_sealHandle encoded, unb64_encode hne,
    unb64_encode hsign⟩

/-- Two sequences of bytes have two handles. -/
theorem sealHandle_injective {encoded' : Bytes}
    (h : sealHandle codec encoded = sealHandle codec encoded') : encoded = encoded' := by
  have hparts := @split_sealHandle codec encoded
  rw [h, split_sealHandle] at hparts
  obtain ⟨-, htail⟩ := List.cons.inj hparts
  obtain ⟨hencode, -⟩ := List.cons.inj htail
  rw [← decode_encode encoded, ← ofChars_injective hencode, decode_encode]

/-- A text carries one sequence of bytes at most. -/
theorem Carries.eq {encoded' : Bytes} (h : Carries codec value encoded)
    (h' : Carries codec value encoded') : encoded = encoded' := by
  obtain ⟨-, a, b, hsplit, ha, -⟩ := h
  obtain ⟨-, a', b', hsplit', ha', -⟩ := h'
  rw [hsplit] at hsplit'
  obtain ⟨-, hparts⟩ := List.cons.inj hsplit'
  obtain ⟨rfl, -⟩ := List.cons.inj hparts
  exact Option.some.inj (ha.symm.trans ha')

/-! ## Minting -/

/-- The call seals this body. -/
structure Seals (codec : HandleCodec) (m : MintCall codec.float) (body : HandleBody) : Prop where
  kind : m.kind = ofString body.kind
  principal : m.principal = ofString body.principal
  scope : m.capabilityScopeId = ofString body.capabilityScopeId
  expiry : m.expiry = .ok body.expiry
  payload : body.payload = Json.sorted m.payload.value
  binding : body.binding = Json.sorted m.binding.value
  future : m.now < body.expiry
  validKind : validateKind m.kind = .ok ()
  validPrincipal : validateIdentity m.principal "principal" = .ok ()
  validScope : validateIdentity m.capabilityScopeId "capability_scope_id" = .ok ()
  length_le : (sealHandle codec body.encoded).length ≤ maxHandleBytes

theorem Seals.readable {m : MintCall codec.float} (h : Seals codec m body) :
    body.Readable codec.float :=
  ⟨⟨_, h.payload, m.payload.readable⟩, _, h.binding, m.binding.readable⟩

theorem jsonObject_eq (o : JsonObject codec.float) (name : String) :
    jsonObject o name = .ok (Json.sorted o.value) := by
  have hload : Json.loads codec.float o.value.render = .ok (Json.sorted o.value) :=
    Json.loads_render o.readable
  rw [jsonObject, hload]
  rfl

theorem encodable_ok {text : PyText} {s : String} : encodable text = .ok s ↔ text = ofString s := by
  simp only [encodable, bind_ok, orThrow_ok, chars?_eq_some, Except.ok.injEq]
  constructor
  · rintro ⟨chars, rfl, rfl⟩
    rw [ofString, String.toList_ofList]
  · rintro rfl
    exact ⟨s.toList, rfl, String.ofList_toList⟩

theorem HandleBody.encoded_ne_nil (h : body.Readable codec.float) : body.encoded ≠ [] := by
  obtain ⟨c, w, htext, -⟩ := Json.stringify_head (Json.readable_sorted h.members)
  have hlength := length_le_utf8Encode (Json.render (.obj body.members))
  rw [Json.render_eq, htext] at hlength
  intro hnil
  rw [HandleBody.encoded, encodeJson, Json.render_eq, htext] at hnil
  rw [hnil] at hlength
  exact absurd hlength (by simp)

/-- A handle that is returned is sealed over the body of its call. -/
theorem mint_ok {m : MintCall codec.float} {text : List Char} (h : mint codec m = .ok text) :
    ∃ body, Seals codec m body ∧ text = sealHandle codec body.encoded := by
  simp only [mint, bind_ok, require_ok, jsonObject_eq, encodable_ok, Except.ok.injEq] at h
  obtain ⟨_, hkind, _, hprincipal, _, hscope, -, -, expiry, hexpiry, -, hfuture, _, rfl, _, rfl,
    kind, hk, principal, hp, scope, hs, -, hlength, rfl⟩ := h
  exact ⟨⟨kind, principal, scope, expiry, _, _⟩, ⟨hk, hp, hs, hexpiry, rfl, rfl, hfuture, hkind, hprincipal,
    hscope, hlength⟩, rfl⟩

/-! ## The checks of a body -/

/-- The arguments are a kind, a principal and a scope. -/
structure VerifyCall.Valid {float : String → String} (call : VerifyCall float) : Prop where
  kind : validateKind call.kind = .ok ()
  principal : validateIdentity call.principal "principal" = .ok ()
  scope : validateIdentity call.capabilityScopeId "capability_scope_id" = .ok ()

theorem verify_of_valid {call : VerifyCall codec.float} (h : call.Valid) :
    verify codec value call = decode codec value >>= checkBody codec call := by
  rw [verify, h.kind, ok_bind, h.principal, ok_bind, h.scope, ok_bind]

theorem textAt_body {key v : String} (h : Json.lookup key body.members = some (.str v)) :
    textAt (Json.sorted (.obj body.members)) key = some (ofString v) := by
  rw [textAt, get?_body_str h]
  rfl

/-- The members of an object in the order of their keys. -/
def JsonObject.sorted {float : String → String} (o : JsonObject float) : List (String × Json) :=
  (Json.sortedMembers o.members).insertionSort Json.keyLe

/-- The call names the principal and the scope of a handle. -/
def SameScope {float : String → String} (m : MintCall float) (call : VerifyCall float) : Prop :=
  m.principal = call.principal ∧ m.capabilityScopeId = call.capabilityScopeId

/-- The binding of the call is that of a handle, whatever the order of the keys. -/
def SameBinding {float : String → String} (m : MintCall float) (call : VerifyCall float) : Prop :=
  Json.sorted m.binding.value = Json.sorted call.binding.value

/-- What a call of `verify` has to make of a minted handle. -/
structure VerifiesAs {float : String → String} (m : MintCall float) (expiry : Time)
    (call : VerifyCall float) (result : Except HandleFault (List (String × Json))) : Prop where
  kind : m.kind ≠ call.kind → ∃ message, result = .error (.handle message)
  scope : m.kind = call.kind → ¬ SameScope m call → ∃ message, result = .error (.scope message)
  refused : m.kind = call.kind → SameScope m call → expiry ≤ call.now ∨ ¬ SameBinding m call →
    ∃ message, result = .error (.handle message)
  payload : m.kind = call.kind → SameScope m call → call.now < expiry → SameBinding m call →
    result = .ok m.payload.sorted

/-- The checks compare the call with what was sealed. -/
theorem verifiesAs_checkBody {m : MintCall codec.float} (hseals : Seals codec m body)
    (call : VerifyCall codec.float) :
    VerifiesAs m body.expiry call (checkBody codec call (Json.sorted (.obj body.members))) := by
  have hk : textAt (Json.sorted (.obj body.members)) "k" = some m.kind :=
    hseals.kind ▸ textAt_body rfl
  have hp : textAt (Json.sorted (.obj body.members)) "p" = some m.principal :=
    hseals.principal ▸ textAt_body rfl
  have hs : textAt (Json.sorted (.obj body.members)) "s" = some m.capabilityScopeId :=
    hseals.scope ▸ textAt_body rfl
  have he : (Json.sorted (.obj body.members)).get? "e" = some (.str (isoformat body.expiry)) :=
    get?_body_str rfl
  have hb : (Json.sorted (.obj body.members)).get? "b" = some (.obj m.binding.sorted) := by
    have hget : (Json.sorted (.obj body.members)).get? "b" = some (Json.sorted body.binding) :=
      get?_body rfl
    rw [hget, hseals.binding, Json.sorted_sorted]
    rfl
  have hd : (Json.sorted (.obj body.members)).get? "d" = some (.obj m.payload.sorted) := by
    have hget : (Json.sorted (.obj body.members)).get? "d" = some (Json.sorted body.payload) :=
      get?_body rfl
    rw [hget, hseals.payload, Json.sorted_sorted]
    rfl
  have hencode : encodeJson (.obj m.binding.sorted) =
      encodeJson (Json.sorted call.binding.value) ↔ SameBinding m call := by
    have hrender := Json.render_eq_iff (Json.readable_sorted m.binding.readable)
      (Json.readable_sorted call.binding.readable)
    rw [Json.sorted_sorted, Json.sorted_sorted] at hrender
    exact ⟨fun h => hrender.mp (utf8Encode_injective h), fun h => congrArg encodeJson h⟩
  have hexpiry : ((some (Json.str (isoformat body.expiry))).bind Json.asStr?).bind fromIsoformat =
      some body.expiry := by
    rw [Option.bind_some, Json.asStr?, Option.bind_some, fromIsoformat_isoformat]
  rw [checkBody, hk, hp, hs, he, hb, hd, hexpiry, orThrow_some_bind, jsonObject_eq]
  dsimp only
  rw [ok_bind, ok_bind]
  constructor
  · intro hkind
    exact ⟨_, bind_of_error (if_neg fun h => hkind (Option.some.inj h))⟩
  · intro hkind hscope
    rw [require, if_pos (congrArg some hkind), ok_bind]
    exact ⟨_, bind_of_error (if_neg fun h => hscope ⟨Option.some.inj h.1, Option.some.inj h.2⟩)⟩
  · intro hkind hscope hrefused
    rw [require, if_pos (congrArg some hkind), ok_bind, require,
      if_pos ⟨congrArg some hscope.1, congrArg some hscope.2⟩, ok_bind]
    by_cases hfuture : call.now < body.expiry
    · have hbinding := hrefused.resolve_left (not_le.mpr hfuture)
      rw [require, if_pos hfuture, ok_bind]
      exact ⟨_, bind_of_error (if_neg fun h => hbinding (hencode.mp h))⟩
    · exact ⟨_, bind_of_error (if_neg hfuture)⟩
  · intro hkind hscope hfuture hbinding
    rw [require, if_pos (congrArg some hkind), ok_bind, require,
      if_pos ⟨congrArg some hscope.1, congrArg some hscope.2⟩, ok_bind, require, if_pos hfuture, ok_bind]
    exact bind_ok.mpr ⟨(), require_ok.mpr (hencode.mpr hbinding), rfl⟩

/-! ## Handles -/

/-- The error is a `HandleError` or a `HandleScopeError`. -/
def HandleFault.IsHandle : HandleFault → Prop
  | .handle _ | .scope _ => True
  | _ => False

variable {minted : Set (MintCall codec.float)}

/-- One of these calls returned the handle of these bytes. -/
def Issues (codec : HandleCodec) (minted : Set (MintCall codec.float)) (encoded : Bytes) : Prop :=
  ∃ m ∈ minted, mint codec m = .ok (sealHandle codec encoded)

/-- What carries a signature under the secret is what a handle was issued for. -/
def Unforgeable (codec : HandleCodec) (minted : Set (MintCall codec.float)) (value : PyText) : Prop :=
  ∀ encoded, Carries codec value encoded → Issues codec minted encoded

/-- Another spelling of an issued handle: its parts are decoded to the same bytes. -/
def Respelled (codec : HandleCodec) (minted : Set (MintCall codec.float)) (value : PyText) : Prop :=
  ∃ encoded, Issues codec minted encoded ∧ Carries codec value encoded ∧
    value ≠ ofChars (sealHandle codec encoded)

/-- What a text owes to be verified as, if these calls issued handles. -/
structure VerifiesExactly (codec : HandleCodec) (minted : Set (MintCall codec.float))
    (value : PyText) : Prop where
  /-- Nothing but a `HandleError` or a `HandleScopeError` is raised. -/
  raises : ∀ call, call.Valid → Raises HandleFault.IsHandle (verify codec value call)
  /-- A minted handle verifies as what it was minted for. -/
  issued : ∀ m ∈ minted, ∀ text, mint codec m = .ok text → value = ofChars text →
    ∀ expiry, m.expiry = .ok expiry → ∀ call, call.Valid →
      VerifiesAs m expiry call (verify codec value call)
  /-- Any other text is refused. -/
  other : (∀ m ∈ minted, ∀ text, mint codec m = .ok text → value ≠ ofChars text) →
    ∀ call, call.Valid → ∃ message, verify codec value call = .error (.handle message)

/-- What issued a handle sealed its bytes. -/
theorem Issues.seals (h : Issues codec minted encoded) :
    ∃ m ∈ minted, ∃ body, Seals codec m body ∧ body.encoded = encoded ∧
      mint codec m = .ok (sealHandle codec encoded) := by
  obtain ⟨m, hm, hmint⟩ := h
  obtain ⟨body, hseals, htext⟩ := mint_ok hmint
  exact ⟨m, hm, body, hseals, (sealHandle_injective htext).symm, hmint⟩

/-- A minted handle carries the bytes of its body. -/
theorem Seals.carries {m : MintCall codec.float} (h : Seals codec m body) :
    Carries codec (ofChars (sealHandle codec body.encoded)) body.encoded :=
  carries_sealHandle h.length_le (HandleBody.encoded_ne_nil h.readable)

theorem verify_sealed {m : MintCall codec.float} {call : VerifyCall codec.float}
    (hseals : Seals codec m body) (hcarries : Carries codec value body.encoded)
    (hcall : call.Valid) : VerifiesAs m body.expiry call (verify codec value call) := by
  rw [verify_of_valid hcall, decode_of_carries hcarries, decodeBody_encoded hseals.readable, ok_bind]
  exact verifiesAs_checkBody hseals call

theorem VerifiesAs.raises {float : String → String} {m : MintCall float} {expiry : Time}
    {call : VerifyCall float} {result : Except HandleFault (List (String × Json))}
    (h : VerifiesAs m expiry call result) : Raises HandleFault.IsHandle result := by
  by_cases hkind : m.kind = call.kind
  · by_cases hscope : SameScope m call
    · by_cases hfresh : call.now < expiry ∧ SameBinding m call
      · rw [h.payload hkind hscope hfresh.1 hfresh.2]
        exact .ok _
      · rw [not_and_or, not_lt] at hfresh
        obtain ⟨message, hresult⟩ := h.refused hkind hscope hfresh
        exact hresult ▸ .error trivial
    · obtain ⟨message, hresult⟩ := h.scope hkind hscope
      exact hresult ▸ .error trivial
  · obtain ⟨message, hresult⟩ := h.kind hkind
    exact hresult ▸ .error trivial

theorem verify_of_surrogate {call : VerifyCall codec.float} (hcall : call.Valid)
    (h : ¬ ∀ n, .surrogate n ∉ value) : verify codec value call = .error .unicodeEncode := by
  rcases @decode_cases codec value with ⟨-, hdecode⟩ | ⟨hnot, -⟩
  · rw [verify_of_valid hcall]
    exact bind_of_error hdecode
  · exact absurd hnot h

/-- What verifies without a surrogate is refused, or carries what was sealed. -/
theorem verify_cases {call : VerifyCall codec.float} (hunf : Unforgeable codec minted value)
    (hchars : ∀ n, .surrogate n ∉ value) (hcall : call.Valid) :
    (∃ message, verify codec value call = .error (.handle message)) ∨
      ∃ m ∈ minted, ∃ body, Seals codec m body ∧ Carries codec value body.encoded ∧
        mint codec m = .ok (sealHandle codec body.encoded) := by
  rcases @decode_cases codec value with ⟨h, -⟩ | ⟨-, ⟨encoded, hcarries⟩ | ⟨message, h⟩⟩
  · exact absurd hchars h
  · obtain ⟨m, hm, body, hseals, rfl, hmint⟩ := (hunf encoded hcarries).seals
    exact Or.inr ⟨m, hm, body, hseals, hcarries, hmint⟩
  · rw [verify_of_valid hcall]
    exact Or.inl ⟨message, bind_of_error h⟩

/-- A call that any host may make. -/
def plainCall (float : String → String) : VerifyCall float where
  kind := ofString "cursor"
  principal := ofString "analyst"
  capabilityScopeId := ofString "session"
  binding := ⟨[], List.nodup_nil, trivial⟩
  now := ⟨0, Nat.zero_le _⟩

theorem plainCall_valid (float : String → String) : (plainCall float).Valid :=
  ⟨rfl, rfl, rfl⟩

/-- The call for which a handle was minted. -/
def MintCall.verifyCall {float : String → String} (m : MintCall float) : VerifyCall float where
  kind := m.kind
  principal := m.principal
  capabilityScopeId := m.capabilityScopeId
  binding := m.binding
  now := m.now

/-- A text verifies as exactly what was minted if and only if it can be encoded and is no other
spelling of a minted handle. -/
theorem verifiesExactly_iff (hunf : Unforgeable codec minted value) :
    VerifiesExactly codec minted value ↔
      (∀ n, .surrogate n ∉ value) ∧ ¬ Respelled codec minted value := by
  constructor
  · intro h
    constructor
    · by_contra hchars
      have hvalid := plainCall_valid codec.float
      exact h.raises _ hvalid _ (verify_of_surrogate hvalid hchars)
    · rintro ⟨encoded, hissues, hcarries, hne⟩
      obtain ⟨m, hm, body, hseals, rfl, -⟩ := hissues.seals
      have hvalid : m.verifyCall.Valid := ⟨hseals.validKind, hseals.validPrincipal, hseals.validScope⟩
      have hverify := (verify_sealed hseals hcarries hvalid).payload rfl ⟨rfl, rfl⟩ hseals.future rfl
      -- the text is not the handle of any call: they would carry the same bytes
      have hother : ∀ m' ∈ minted, ∀ text, mint codec m' = .ok text → value ≠ ofChars text := by
        rintro m' - text hmint rfl
        obtain ⟨body', hseals', rfl⟩ := mint_ok hmint
        exact hne (by rw [hseals'.carries.eq hcarries])
      obtain ⟨message, herror⟩ := h.other hother _ hvalid
      rw [hverify] at herror
      exact nomatch herror
  · rintro ⟨hchars, hspelled⟩
    refine ⟨fun call hcall => ?_, ?_, fun hother call hcall => ?_⟩
    · rcases verify_cases hunf hchars hcall with ⟨message, h⟩ | ⟨m, -, body, hseals, hcarries, -⟩
      · exact h ▸ .error trivial
      · exact (verify_sealed hseals hcarries hcall).raises
    · rintro m - text hmint rfl expiry hexpiry call hcall
      obtain ⟨body, hseals, rfl⟩ := mint_ok hmint
      obtain rfl := Except.ok.inj (hexpiry.symm.trans hseals.expiry)
      exact verify_sealed hseals hseals.carries hcall
    · rcases verify_cases hunf hchars hcall with h | ⟨m, hm, body, hseals, hcarries, hmint⟩
      · exact h
      · exact absurd ⟨_, ⟨m, hm, hmint⟩, hcarries, hother m hm _ hmint⟩ hspelled

/-! ## Two texts -/

/-- What a minted handle carries is what it was minted for. -/
theorem unforgeable_minted {m : MintCall codec.float} {text : List Char} (hm : m ∈ minted)
    (h : mint codec m = .ok text) : Unforgeable codec minted (ofChars text) := by
  intro encoded hcarries
  obtain ⟨body, hseals, rfl⟩ := mint_ok h
  exact hcarries.eq hseals.carries ▸ ⟨m, hm, h⟩

theorem not_respelled_minted {m : MintCall codec.float} {text : List Char}
    (h : mint codec m = .ok text) : ¬ Respelled codec minted (ofChars text) := by
  rintro ⟨encoded, -, hcarries, hne⟩
  obtain ⟨body, hseals, rfl⟩ := mint_ok h
  exact hne (by rw [hcarries.eq hseals.carries])

/-- `sign` is the digest of the body of the sample under a secret. -/
def sampleCodec : HandleCodec where
  sign _ := [49, 57, 198, 24, 142, 146, 109, 88, 116, 70, 200, 224, 159, 169, 89, 9,
    225, 182, 154, 57, 183, 59, 14, 27, 177, 114, 17, 132, 95, 137, 26, 233]
  float s := s
  sign_length _ := rfl

theorem few_one : Json.FewDigits 1 := by
  rw [Json.FewDigits]
  decide

def sampleMint : MintCall sampleCodec.float where
  kind := ofString "cursor"
  principal := ofString "analyst"
  capabilityScopeId := ofString "session"
  payload := ⟨[("page", .int 1)], List.nodup_singleton _, few_one, trivial⟩
  binding := ⟨[("capability", .str "supply")], List.nodup_singleton _, trivial, trivial⟩
  expiresAt := some ⟨1, by decide⟩
  now := ⟨0, Nat.zero_le _⟩

theorem verifiesExactly_minted : ∃ text, mint sampleCodec sampleMint = .ok text ∧
    VerifiesExactly sampleCodec {sampleMint} (ofChars text) := by
  have hok : (mint sampleCodec sampleMint).isOk = true := by decide +kernel
  obtain ⟨text, htext⟩ := ok_of_isOk hok
  have hmem : sampleMint ∈ ({sampleMint} : Set (MintCall sampleCodec.float)) := rfl
  refine ⟨text, htext, (verifiesExactly_iff (unforgeable_minted hmem htext)).mpr
    ⟨fun n hn => ?_, not_respelled_minted htext⟩⟩
  obtain ⟨c, -, hc⟩ := List.mem_map.mp hn
  exact nomatch hc

/-- A lone surrogate raises a `UnicodeEncodeError`, though no handle carries it. -/
theorem not_verifiesExactly : Unforgeable sampleCodec ∅ [.surrogate 0] ∧
    ¬ VerifiesExactly sampleCodec ∅ [.surrogate 0] := by
  constructor
  · intro encoded hcarries
    obtain ⟨chars, hvalue, -⟩ := hcarries.ascii
    have hnone : chars? [.surrogate 0] = some chars := chars?_eq_some.mpr hvalue
    exact nomatch hnone
  · intro h
    have hvalid := plainCall_valid sampleCodec.float
    refine h.raises _ hvalid _ (verify_of_surrogate hvalid fun hchars => ?_)
    exact hchars 0 List.mem_cons_self

end NanFung.Agent
