import NanFung.Lib.Raises
import NanFung.Read.Service
import NanFung.Sample

/-!
# Authentic cursors

A cursor is read back exactly if it was issued under the secret of the service, and a query goes on only
with one that was issued for it. Other cursors are rejected, but the envelope check lets through texts
that the signature check cannot compare.
-/

namespace NanFung

open Base64 PyText

variable {P : Platform} {svc : ReadService} {clock : ServiceClock} {context : ReadContext}
  {q : ReadQuery} {cursor : PyText} {call : CursorCall} {issued : Set CursorCall} {encoded : List Char}
  {fingerprint : String}

/-! ## Texts -/

theorem isAscii_encode (bytes : Bytes) : IsAscii (encode bytes) := by
  have hall : ∀ c ∈ alphabet, c.toNat < 128 := List.all_iff_forall_prop.mp (by decide)
  exact fun c hc => hall c (mem_alphabet_of_mem_encode bytes c hc)

theorem split_pair {a b : PyText} : cursor.split '.' = [a, b] ↔
    cursor = a ++ .char '.' :: b ∧ .char '.' ∉ a ∧ .char '.' ∉ b := by
  rw [split_eq_iff (List.cons_ne_nil _ _)]
  have hjoin : [PyChar.char '.'].intercalate [a, b] = a ++ .char '.' :: b := by
    simp [List.intercalate]
  rw [hjoin]
  simp only [List.mem_cons, List.not_mem_nil, or_false, forall_eq_or_imp, forall_eq]
  exact and_congr_left fun _ => eq_comm

theorem count_eq_one_iff : cursor.count (.char '.') = 1 ↔ ∃ a b, cursor.split '.' = [a, b] := by
  constructor
  · intro h
    have hmem : .char '.' ∈ cursor := List.count_pos_iff.mp (by omega)
    obtain ⟨a, b, rfl, ha⟩ := List.eq_append_cons_of_mem hmem
    rw [List.count_append, List.count_cons_self, List.count_eq_zero_of_not_mem ha] at h
    refine ⟨a, b, split_pair.mpr ⟨rfl, ha, List.count_eq_zero.mp (by omega)⟩⟩
  · rintro ⟨a, b, h⟩
    obtain ⟨rfl, ha, hb⟩ := split_pair.mp h
    rw [List.count_append, List.count_cons_self, List.count_eq_zero_of_not_mem ha,
      List.count_eq_zero_of_not_mem hb]

/-- One dot, and a character that is not ASCII. -/
def Malformed (cursor : PyText) : Prop :=
  cursor.count (.char '.') = 1 ∧ ∃ c ∈ cursor, 128 ≤ c.code

/-! ## Decoding -/

/-- The cursor has this part and its signature. -/
def Signed (svc : ReadService) (cursor : PyText) (encoded : List Char) : Prop :=
  cursor = ofChars (encoded ++ '.' :: signature svc encoded)

theorem split_signed (h : '.' ∉ encoded) :
    (ofChars (encoded ++ '.' :: signature svc encoded)).split '.' =
      [ofChars encoded, ofChars (signature svc encoded)] := by
  refine split_pair.mpr ⟨by simp, fun hmem => h (mem_ofChars.mp hmem), fun hmem => ?_⟩
  exact dot_notMem_encode _ (mem_ofChars.mp hmem)

theorem payload_nodup (call : CursorCall) : (call.payload.map Prod.fst).Nodup := by
  have hkeys : call.payload.map Prod.fst = ["schema_version", "query_fingerprint",
      "policy_fingerprint", "anchor_as_of", "last_available_at", "last_observation_id",
      "issued_at"] := rfl
  rw [hkeys]
  decide

theorem readable_payload (call : CursorCall) : Json.Readable svc.float (.obj call.payload) :=
  ⟨payload_nodup call, trivial, trivial, trivial, trivial, trivial, trivial, trivial, trivial⟩

theorem signed_iff : Signed svc cursor (encodeJson (.obj call.payload)) ↔
    cursor = ofChars (makeCursor svc call) := by
  rw [Signed, makeCursor]

/-- What was issued is read back. -/
theorem decodeCursor_makeCursor (call : CursorCall) :
    decodeCursor svc (ofChars (makeCursor svc call)) = .ok (Json.sorted (.obj call.payload)) := by
  have hascii : ∀ bytes, ascii? (ofChars (encode bytes)) = some (encode bytes) := fun bytes =>
    ascii?_eq_some.mpr ⟨rfl, isAscii_encode bytes⟩
  have hdot : '.' ∉ encodeJson (.obj call.payload) := dot_notMem_encode _
  have hload : Json.loads svc.float (Json.render (.obj call.payload)) = _ :=
    Json.loads_render (readable_payload call)
  have hpart : decodePart (encodeJson (.obj call.payload)) =
      .ok (utf8Encode (Json.render (.obj call.payload))) := by
    rw [decodePart, orThrow_ok]
    exact urlsafeDecode_encode _
  rw [makeCursor, decodeCursor, split_signed hdot]
  simp only [bind_ok, orThrow_ok, require_ok]
  refine ⟨_, hascii _, _, hascii _, (), rfl, _, hpart, _, utf8Decode_encode _, ?_⟩
  rw [hload]
  rfl

/-- What is not rejected for its form is signed. -/
theorem decodeCursor_cases (cursor : PyText) :
    Malformed cursor ∧ decodeCursor svc cursor ∈
        ([.error .unicodeEncode, .error .type] : List (Except ServiceError Json)) ∨
    ¬ Malformed cursor ∧ ((∃ encoded, Signed svc cursor encoded) ∨
      ∃ message, decodeCursor svc cursor = .error (.invalidCursor message)) := by
  by_cases hcount : cursor.count (.char '.') = 1
  · obtain ⟨a, b, hsplit⟩ := count_eq_one_iff.mp hcount
    obtain ⟨hcursor, -, -⟩ := split_pair.mp hsplit
    have hmalformed : ∀ text, ascii? text = none → (∀ c ∈ text, c ∈ cursor) → Malformed cursor := by
      intro text hnone hsub
      refine ⟨hcount, ?_⟩
      have hnot : ¬ ∀ c ∈ text, c.code < 128 := by
        rw [← ascii?_isSome, hnone]
        exact Bool.false_ne_true
      simp only [not_forall, not_lt] at hnot
      obtain ⟨c, hc, hcode⟩ := hnot
      exact ⟨c, hsub c hc, hcode⟩
    rw [decodeCursor, hsplit]
    dsimp only
    cases ha : ascii? a with
    | none =>
      refine Or.inl ⟨hmalformed a ha fun c hc => ?_, List.mem_cons.mpr (Or.inl rfl)⟩
      exact hcursor ▸ List.mem_append_left _ hc
    | some encoded =>
      cases hb : ascii? b with
      | none =>
        refine Or.inl ⟨hmalformed b hb fun c hc => ?_,
          List.mem_cons_of_mem _ (List.mem_singleton.mpr rfl)⟩
        exact hcursor ▸ List.mem_append_right _ (List.mem_cons_of_mem _ hc)
      | some supplied =>
        obtain ⟨rfl, hascii⟩ := ascii?_eq_some.mp ha
        obtain ⟨rfl, hascii'⟩ := ascii?_eq_some.mp hb
        have hform : ¬ Malformed cursor := by
          rintro ⟨-, c, hc, hcode⟩
          rw [hcursor, List.mem_append, List.mem_cons] at hc
          rcases hc with hc | rfl | hc
          · exact absurd (ascii?_isSome.mp (Option.isSome_of_eq_some ha) c hc) (not_lt.mpr hcode)
          · exact absurd hcode (by decide)
          · exact absurd (ascii?_isSome.mp (Option.isSome_of_eq_some hb) c hc) (not_lt.mpr hcode)
        refine Or.inr ⟨hform, ?_⟩
        by_cases hsign : signature svc encoded = supplied
        · refine Or.inl ⟨encoded, ?_⟩
          rw [Signed, hsign, hcursor]
          simp
        · refine Or.inr ⟨"cursor signature is invalid", ?_⟩
          rw [orThrow_some_bind, orThrow_some_bind]
          exact bind_of_error (if_neg hsign)
  · refine Or.inr ⟨fun h => hcount h.1, Or.inr ⟨"cursor has an invalid envelope", ?_⟩⟩
    rw [decodeCursor]
    split
    · next a b hsplit => exact absurd (count_eq_one_iff.mpr ⟨a, b, hsplit⟩) hcount
    · rfl

/-! ## What is raised -/

/-- The error is an `InvalidCursor`. -/
def ServiceError.IsInvalidCursor : ServiceError → Prop
  | .invalidCursor _ => True
  | _ => False

theorem ServiceError.IsInvalidCursor.isReadApi {e : ServiceError} (h : e.IsInvalidCursor) :
    e.IsReadApi := by
  cases e with
  | invalidCursor message => trivial
  | _ => exact h.elim

theorem invalid_of_raises {x : Except ServiceError Unit}
    (h : Raises ServiceError.IsInvalidCursor x) (hx : x ≠ .ok ()) :
    ∃ message, x = .error (.invalidCursor message) := by
  cases x with
  | ok u => exact absurd rfl hx
  | error e =>
    cases e with
    | invalidCursor message => exact ⟨message, rfl⟩
    | _ => exact (h _ rfl).elim

/-- Every text of the query can be encoded. -/
def ReadQuery.Encodable (q : ReadQuery) : Prop :=
  (∀ f ∈ q.filters, ∀ value ∈ f.2, (chars? value).isSome) ∧ ∀ ref ∈ q.resultRef, (chars? ref).isSome

theorem mapM_isSome {α β : Type} {f : α → Option β} {l : List α} :
    (l.mapM f).isSome ↔ ∀ a ∈ l, (f a).isSome := by
  induction l with
  | nil => simp
  | cons a l ih =>
    rw [List.forall_mem_cons, ← ih, List.mapM_cons]
    cases f a with
    | none => simp
    | some b => cases l.mapM f <;> simp

theorem filterJson?_isSome {values : List PyText} :
    (filterJson? values).isSome ↔ ∀ value ∈ values, (chars? value).isSome := by
  unfold filterJson?
  split
  · simp [textJson?]
  · simp [mapM_isSome, textJson?]

theorem queryFingerprint_isOk : (∃ fp, queryFingerprint P q = .ok fp) ↔ q.Encodable := by
  have hfilters : (q.filters.mapM fun f => (filterJson? f.2).map fun v => (f.1, v)).isSome ↔
      ∀ f ∈ q.filters, ∀ value ∈ f.2, (chars? value).isSome := by
    simp only [mapM_isSome, Option.isSome_map, filterJson?_isSome]
  rw [ReadQuery.Encodable, ← hfilters, Option.isSome_iff_exists, queryFingerprint]
  cases q.resultRef with
  | none => simp
  | some ref => simp [textJson?, Option.isSome_iff_exists]

theorem queryFingerprint_raises :
    Raises (· = .unicodeEncode) (queryFingerprint P q) := by
  refine .andThen (.orThrow rfl) fun filters => ?_
  cases q.resultRef with
  | none => exact .ok _
  | some ref => exact .andThen (.orThrow rfl) fun ref => .ok _

/-! ## The checks of an issued cursor -/

/-- The cursor of a call is one for the query: its fingerprint, the context and the time are those it
was issued for, and it has not expired. -/
structure Fits (P : Platform) (svc : ReadService) (clock : ServiceClock) (context : ReadContext)
    (q : ReadQuery) (call : CursorCall) : Prop where
  fingerprint : queryFingerprint P q = .ok call.queryFingerprint
  policy : call.policyFingerprint = context.policyFingerprint P
  asOf : ∀ asOf ∈ q.asOf, asOf = call.anchorAsOf
  fresh : clock.validate.val ≤ call.issuedAt.val + svc.cursorMaxAge

theorem get?_payload {key : String} {v : String} (h : Json.lookup key call.payload = some (.str v)) :
    (Json.sorted (.obj call.payload)).get? key = some (.str v) := by
  rw [Json.get?_sorted (payload_nodup call), h]
  rfl

theorem cursorTime_payload {key : String} {t : Time}
    (h : Json.lookup key call.payload = some (.str (isoformat t))) :
    cursorTime (Json.sorted (.obj call.payload)) key = .ok t := by
  rw [cursorTime, get?_payload h, orThrow_ok, Option.bind_some, Json.asStr?, Option.bind_some,
    fromIsoformat_isoformat]

theorem anchorAsOf_payload : anchorAsOf clock q (some (Json.sorted (.obj call.payload))) = (do
    require (∀ asOf ∈ q.asOf, asOf = call.anchorAsOf)
      (.invalidCursor "cursor cannot be reused with a different as_of")
    .ok call.anchorAsOf) := by
  have hget : (Json.sorted (.obj call.payload)).get? "anchor_as_of" =
      some (.str (isoformat call.anchorAsOf)) := get?_payload rfl
  rw [anchorAsOf, hget]
  dsimp only
  rw [fromIsoformat_isoformat, orThrow_some_bind]

theorem validateCursor_raises {cursor : Json} {anchor : Time} :
    Raises ServiceError.IsInvalidCursor
      (validateCursor P svc clock context cursor fingerprint anchor) :=
  .andThen (.require trivial) fun _ => .andThen (.require trivial) fun _ =>
    .andThen (.require trivial) fun _ => .andThen (.require trivial) fun _ =>
      .andThen (.require trivial) fun _ => .andThen (.orThrow trivial) fun _ =>
        .andThen (.orThrow trivial) fun _ => .require trivial

/-- An issued cursor passes its checks exactly if it fits. -/
theorem validateCursor_payload (hfp : queryFingerprint P q = .ok fingerprint)
    (hasOf : ∀ asOf ∈ q.asOf, asOf = call.anchorAsOf) :
    validateCursor P svc clock context (Json.sorted (.obj call.payload)) fingerprint
      call.anchorAsOf = .ok () ↔ Fits P svc clock context q call := by
  have hschema : (Json.sorted (.obj call.payload)).get? "schema_version" = _ := get?_payload rfl
  have hquery : (Json.sorted (.obj call.payload)).get? "query_fingerprint" = _ := get?_payload rfl
  have hpolicy : (Json.sorted (.obj call.payload)).get? "policy_fingerprint" = _ := get?_payload rfl
  have hanchor : (Json.sorted (.obj call.payload)).get? "anchor_as_of" = _ := get?_payload rfl
  have hid : (Json.sorted (.obj call.payload)).get? "last_observation_id" = _ := get?_payload rfl
  have hlast : cursorTime (Json.sorted (.obj call.payload)) "last_available_at" = _ :=
    cursorTime_payload rfl
  have hissued : cursorTime (Json.sorted (.obj call.payload)) "issued_at" = _ :=
    cursorTime_payload rfl
  simp only [validateCursor, bind_ok, require_ok, hschema, hquery, hpolicy, hanchor, hid, hlast,
    hissued, Option.some.injEq, Json.str.injEq, Except.ok.injEq]
  constructor
  · rintro ⟨-, -, -, hq, -, hp, -, -, -, -, -, -, _, rfl, hfresh⟩
    exact ⟨by rw [hfp, hq], hp, hasOf, hfresh⟩
  · intro h
    have hq : call.queryFingerprint = fingerprint := by
      rw [h.fingerprint] at hfp
      exact Except.ok.inj hfp
    exact ⟨(), trivial, (), hq, (), h.policy, (), trivial, (), rfl, _, rfl, _, rfl, h.fresh⟩

theorem loadRecords_raises {asOf : Time} :
    Raises ServiceError.IsReadApi (loadRecords svc context q asOf) := by
  unfold loadRecords
  cases q.resultRef with
  | none => exact .ok _
  | some ref =>
    exact .andThen (.require trivial) fun _ => .andThen (.orThrow trivial) fun load =>
      .andThen (.require trivial) fun _ => .ok _

theorem queryStoragePage_raises
    {load : ReadQuery → Time → ReadContext → Option (String × String) → Option ReadPage}
    {asOf : Time} {decoded : Option Json} :
    Raises ServiceError.IsReadApi
      (queryStoragePage P svc clock context q load fingerprint asOf decoded) := by
  refine .andThen (.require trivial) fun _ => .andThen (.orThrow trivial) fun page =>
    .andThen (.require trivial) fun _ => .andThen (.require trivial) fun _ => ?_
  split
  · exact .andThen (.require trivial) fun _ => .andThen (.require trivial) fun _ =>
      .andThen (.require trivial) fun _ => .ok _
  · exact .andThen (.require trivial) fun _ => .andThen (.require trivial) fun _ =>
      .andThen (.require trivial) fun _ => .ok _

theorem queryPage_raises {asOf : Time} {decoded : Option Json} :
    Raises ServiceError.IsReadApi (queryPage P svc clock context q fingerprint asOf decoded) := by
  unfold queryPage
  split
  · exact queryStoragePage_raises
  · exact .andThen loadRecords_raises fun records => .ok _

/-! ## The query -/

/-- What a query owes to its cursor, if these calls issued cursors. -/
structure CursorsHold (P : Platform) (svc : ReadService) (clock : ServiceClock)
    (context : ReadContext) (q : ReadQuery) (issued : Set CursorCall) : Prop where
  /-- Nothing but a `ReadApiError` is raised. -/
  raises : Raises ServiceError.IsReadApi (svc.query P clock context q)
  /-- A cursor that is read is an issued one, with the payload that was signed. -/
  authentic : ∀ c ∈ q.cursor, ∀ decoded, decodeCursor svc c = .ok decoded →
    ∃ call ∈ issued, c = ofChars (makeCursor svc call) ∧ decoded = Json.sorted (.obj call.payload)
  /-- Any other cursor is invalid, and so is one that was issued for something else. -/
  rejected : ∀ c ∈ q.cursor,
    (∀ call ∈ issued, c = ofChars (makeCursor svc call) → ¬ Fits P svc clock context q call) →
    ∃ message, svc.query P clock context q = .error (.invalidCursor message)
  /-- What is issued is read back. -/
  roundTrip : ∀ call, decodeCursor svc (ofChars (makeCursor svc call)) =
    .ok (Json.sorted (.obj call.payload))

/-- A signature under the secret of the service is one of an issued cursor. -/
def Unforgeable (svc : ReadService) (q : ReadQuery) (issued : Set CursorCall) : Prop :=
  ∀ c ∈ q.cursor, ∀ encoded, Signed svc c encoded →
    ∃ call ∈ issued, encoded = encodeJson (.obj call.payload)

/-- A cursor that keeps the form of one is rejected, or it is one that was issued. -/
theorem decodeCursor_of_not_malformed (hunf : Unforgeable svc q issued) (hc : cursor ∈ q.cursor)
    (hform : ¬ Malformed cursor) :
    (∃ message, decodeCursor svc cursor = .error (.invalidCursor message)) ∨
      ∃ call ∈ issued, cursor = ofChars (makeCursor svc call) := by
  rcases @decodeCursor_cases svc cursor with ⟨h, -⟩ | ⟨-, ⟨encoded, hsigned⟩ | hinvalid⟩
  · exact absurd h hform
  · obtain ⟨call, hcall, hencoded⟩ := hunf cursor hc encoded hsigned
    rw [hencoded] at hsigned
    exact Or.inr ⟨call, hcall, signed_iff.mp hsigned⟩
  · exact Or.inl hinvalid

/-- The query of an issued cursor raises nothing but what it may, and rejects one that does not fit. -/
theorem query_issued (hq : q.Encodable) (hc : q.cursor = some (ofChars (makeCursor svc call))) :
    Raises ServiceError.IsReadApi (svc.query P clock context q) ∧
      (¬ Fits P svc clock context q call →
        ∃ message, svc.query P clock context q = .error (.invalidCursor message)) := by
  obtain ⟨fp, hfp⟩ := queryFingerprint_isOk (P := P).mpr hq
  have hquery : svc.query P clock context q = (do
      let asOf ← anchorAsOf clock q (some (Json.sorted (.obj call.payload)))
      validateCursor P svc clock context (Json.sorted (.obj call.payload)) fp asOf
      queryPage P svc clock context q fp asOf (some (Json.sorted (.obj call.payload)))) := by
    rw [ReadService.query, hfp, hc, ok_bind]
    dsimp only
    rw [decodeCursor_makeCursor, ok_bind]
  rw [hquery, anchorAsOf_payload]
  constructor
  · refine .andThen (.andThen (.require trivial) fun _ => .ok _) fun asOf => .andThen ?_ fun _ =>
      queryPage_raises
    exact fun e he => (validateCursor_raises e he).isReadApi
  · intro hfits
    by_cases hasOf : ∀ asOf ∈ q.asOf, asOf = call.anchorAsOf
    · have hvalid : validateCursor P svc clock context (Json.sorted (.obj call.payload)) fp
          call.anchorAsOf ≠ .ok () := fun h => hfits ((validateCursor_payload hfp hasOf).mp h)
      obtain ⟨message, hmessage⟩ := invalid_of_raises validateCursor_raises hvalid
      refine ⟨message, ?_⟩
      rw [require, if_pos hasOf, ok_bind, ok_bind]
      exact bind_of_error hmessage
    · exact ⟨_, bind_of_error (bind_of_error (if_neg hasOf))⟩

theorem query_of_decode_error {c : PyText} {e : ServiceError} (hq : q.Encodable)
    (hc : q.cursor = some c) (h : decodeCursor svc c = .error e) :
    svc.query P clock context q = .error e := by
  obtain ⟨fp, hfp⟩ := queryFingerprint_isOk (P := P).mpr hq
  rw [ReadService.query, hfp, hc, ok_bind]
  exact bind_of_error h

theorem query_of_not_encodable (hq : ¬ q.Encodable) :
    svc.query P clock context q = .error .unicodeEncode := by
  cases hfp : queryFingerprint P q with
  | ok fp => exact absurd (queryFingerprint_isOk.mp ⟨fp, hfp⟩) hq
  | error e =>
    obtain rfl := queryFingerprint_raises e hfp
    exact bind_of_error hfp

/-- A query without a cursor raises what its page raises. -/
theorem query_raises_of_none (hq : q.Encodable) (hc : q.cursor = none) :
    Raises ServiceError.IsReadApi (svc.query P clock context q) := by
  obtain ⟨fp, hfp⟩ := queryFingerprint_isOk (P := P).mpr hq
  rw [ReadService.query, hfp, hc, ok_bind]
  exact .andThen (.ok _) fun asOf => queryPage_raises

/-- A cursor is authentic or rejected as long as the texts of the query can be encoded and the cursor
is not malformed; with any other request, an exception of another kind escapes. -/
theorem cursorsHold_iff (hunf : Unforgeable svc q issued) :
    CursorsHold P svc clock context q issued ↔
      q.Encodable ∧ ∀ c ∈ q.cursor, ¬ Malformed c := by
  constructor
  · intro h
    have hq : q.Encodable := by
      by_contra hq
      exact h.raises _ (query_of_not_encodable hq)
    refine ⟨hq, fun c hc hform => ?_⟩
    rcases @decodeCursor_cases svc c with ⟨-, herror⟩ | ⟨hnot, -⟩
    · simp only [List.mem_cons, List.not_mem_nil, or_false] at herror
      rcases herror with herror | herror
      · exact h.raises _ (query_of_decode_error hq hc herror)
      · exact h.raises _ (query_of_decode_error hq hc herror)
    · exact hnot hform
  · rintro ⟨hq, hform⟩
    -- what a cursor that is not malformed comes to
    have hcursor : ∀ c ∈ q.cursor, (∃ message, decodeCursor svc c = .error (.invalidCursor message)) ∨
        ∃ call ∈ issued, c = ofChars (makeCursor svc call) := fun c hc =>
      decodeCursor_of_not_malformed hunf hc (hform c hc)
    refine ⟨?_, ?_, ?_, decodeCursor_makeCursor⟩
    · cases hc : q.cursor with
      | none => exact query_raises_of_none hq hc
      | some c =>
        rcases hcursor c hc with ⟨message, h⟩ | ⟨call, -, hissued⟩
        · rw [query_of_decode_error hq hc h]
          exact .error trivial
        · exact (query_issued hq (hissued ▸ hc)).1
    · intro c hc decoded hdecoded
      rcases hcursor c hc with ⟨message, h⟩ | ⟨call, hcall, hissued⟩
      · rw [h] at hdecoded
        cases hdecoded
      · rw [hissued, decodeCursor_makeCursor] at hdecoded
        exact ⟨call, hcall, hissued, (Except.ok.inj hdecoded).symm⟩
    · intro c hc hfits
      rcases hcursor c hc with ⟨message, h⟩ | ⟨call, hcall, hissued⟩
      · exact ⟨message, query_of_decode_error hq hc h⟩
      · exact (query_issued hq (hissued ▸ hc)).2 (hfits call hcall hissued)

/-! ## Two requests -/

theorem not_malformed_makeCursor (call : CursorCall) :
    ¬ Malformed (ofChars (makeCursor svc call)) := by
  rintro ⟨-, c, hc, hcode⟩
  obtain ⟨d, hd, rfl⟩ := List.mem_map.mp hc
  have hascii : d.toNat < 128 := by
    rcases List.mem_append.mp hd with hd | hd
    · exact isAscii_encode _ d hd
    · rcases List.mem_cons.mp hd with rfl | hd
      · decide
      · exact isAscii_encode _ d hd
  exact absurd hcode (not_le.mpr hascii)

/-- The only signed part of an issued cursor is its payload. -/
theorem unforgeable_singleton (hc : q.cursor = some (ofChars (makeCursor svc call))) :
    Unforgeable svc q {call} := by
  intro c hmem encoded hsigned
  obtain rfl := Option.some.inj (hc.symm.trans hmem)
  refine ⟨call, rfl, ?_⟩
  have hparts := ofChars_injective hsigned
  have hdot : ∀ bytes, '.' ∉ encode bytes := dot_notMem_encode
  exact ((List.append_cons_inj_of_notMem (hdot _) (hdot _)).mp hparts).1.symm

namespace Sample

def cursorCall : CursorCall where
  policyFingerprint := "p"
  queryFingerprint := "q"
  anchorAsOf := ⟨0, Nat.zero_le _⟩
  lastAvailableAt := ⟨0, Nat.zero_le _⟩
  lastObservationId := "obs_1"
  issuedAt := ⟨0, Nat.zero_le _⟩

/-- An empty repository; `sign` is the digest of the payload of the sample under a secret. -/
def readService : ReadService where
  repository := ⟨fun _ _ _ => [], none, none⟩
  sign _ := [111, 138, 68, 30, 27, 169, 55, 96, 73, 243, 46, 243, 26, 125, 91, 249, 91, 169, 173, 249,
    250, 72, 93, 231, 68, 168, 247, 223, 220, 170, 249, 157]
  cursorMaxAge := 900000000
  float s := s
  maxAge_pos := by decide

def readContext : ReadContext := ⟨"analyst", [.open_], [], by decide, by decide⟩

theorem one_le_maxMicros : 1 ≤ maxMicros := by decide

def serviceClock : ServiceClock := ⟨⟨1, one_le_maxMicros⟩, ⟨2, by decide⟩, ⟨3, by decide⟩⟩

/-- A query of metrics with this cursor. -/
def cursorQuery (cursor : PyText) (h : 1 ≤ cursor.length ∧ cursor.length ≤ 4096) : ReadQuery where
  queryKind := "metrics"
  filters := []
  asOf := none
  cursor := some cursor
  limit := 50
  resultRef := none
  kind_known := by decide
  limit_bounds := by decide
  cursor_bounds c hc := Option.some.inj hc ▸ h
  ref_bounds _ h := nomatch h
  filters_allowed _ h := nomatch h
  filters_nodup := List.nodup_nil

theorem issued_length : 1 ≤ (ofChars (makeCursor readService cursorCall)).length ∧
    (ofChars (makeCursor readService cursorCall)).length ≤ 4096 := by decide +kernel

theorem cursorsHold_issued : CursorsHold platform readService serviceClock readContext
    (cursorQuery (ofChars (makeCursor readService cursorCall)) issued_length) {cursorCall} := by
  refine (cursorsHold_iff (unforgeable_singleton rfl)).mpr ⟨⟨fun _ h => (nomatch h), fun _ h => (nomatch h)⟩,
    fun c hc => ?_⟩
  rw [← Option.some.inj hc]
  exact not_malformed_makeCursor cursorCall

/-- `é.x` -/
def accented : PyText := ofString "é.x"

/-- With the cursor `é.x`, a query raises a `UnicodeEncodeError`. -/
theorem not_cursorsHold : Unforgeable readService (cursorQuery accented (by decide)) ∅ ∧
    ¬ CursorsHold platform readService serviceClock readContext (cursorQuery accented (by decide))
      ∅ := by
  constructor
  · intro c hc encoded hsigned
    obtain rfl := Option.some.inj hc
    have hlength := congrArg List.length hsigned
    have hsignature : (signature readService encoded).length = 43 := by
      have hdigest : signature readService encoded = encode (readService.sign []) := rfl
      rw [hdigest]
      decide +kernel
    simp only [ofChars, List.length_map, List.length_append, List.length_cons, hsignature] at hlength
    have : accented.length = 3 := rfl
    omega
  · intro h
    have hdecode : decodeCursor readService accented = .error .unicodeEncode := rfl
    refine h.raises _ (query_of_decode_error ⟨fun _ h => (nomatch h), fun _ h => (nomatch h)⟩ rfl
      hdecode)

end Sample

end NanFung
