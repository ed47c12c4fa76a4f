import NanFung.Dates
import NanFung.Lib.JsonText
import NanFung.Lib.Splits
import NanFung.Sample

/-!
# What is hashed

The byte strings under `hash_canonical` and `record_key_hash`. Canonical JSON escapes NUL, so the last
NUL of a byte string ends what stands before its JSON. That prefix tells the domains apart, and it tells
the datasource and the key version of a record key unless one of them has a NUL inside.
-/

namespace NanFung

/-! ## Values -/

/-- What `normalize_json` looks into; a `datetime` is aware. -/
inductive Value where
  | null
  | bool (b : Bool)
  | int (i : Int)
  | float (text : String)
  | str (s : String)
  | date (d : CalendarDate)
  | datetime (t : Time)
  | arr (items : List Value)
  | obj (members : List (String × Value))

namespace Platform

variable (P : Platform)

mutual

/-- `normalize_json` -/
def normalizeValue : Value → Except StoreError Json
  | .null => .ok .null
  | .bool b => .ok (.bool b)
  | .int i => .ok (.int i)
  | .float _ => .error (.canonicalization
      "floats are not accepted in hash-sensitive canonical JSON; use a decimal string")
  | .str s => .ok (.str (P.nfc s))
  | .date d => .ok (.str (String.ofList (isoDate d.year d.month d.day)))
  | .datetime t => .ok (.str (isoformat t))
  | .arr items => do
    let items ← normalizeValues items
    .ok (.arr items)
  | .obj members => do
    let members ← normalizeEntries [] members
    .ok (.obj members)

def normalizeValues : List Value → Except StoreError (List Json)
  | [] => .ok []
  | x :: xs => do
    let y ← normalizeValue x
    let ys ← normalizeValues xs
    .ok (y :: ys)

/-- The members left to normalise, after the keys `seen`. -/
def normalizeEntries (seen : List String) :
    List (String × Value) → Except StoreError (List (String × Json))
  | [] => .ok []
  | (k, x) :: xs => do
    require (P.nfc k ∉ seen) (.canonicalization
      ("duplicate object key after Unicode normalization: " ++ P.pyRepr (P.nfc k)))
    let y ← normalizeValue x
    let ys ← normalizeEntries (P.nfc k :: seen) xs
    .ok ((P.nfc k, y) :: ys)

end

/-- `canonical_json` -/
def canonicalText (v : Value) : Except StoreError String := do
  let v ← P.normalizeValue v
  .ok (String.ofList v.render)

/-! ## Byte strings -/

/-- The byte string that `hash_canonical(domain, value)` hashes. -/
def canonicalPayload (domain : String) (v : Value) : Except StoreError ByteArray := do
  let text ← P.canonicalText v
  .ok (("nan-fung/" ++ domain ++ "/v1\x00").toUTF8 ++ text.toUTF8)

/-- The byte string that `record_key_hash` hashes. -/
def recordKeyPayload (datasourceId recordKeyVersion : String) (recordKey : List Value) :
    Except StoreError ByteArray := do
  require (datasourceId ≠ "") (.canonicalization "datasource_id is required")
  require (recordKeyVersion ≠ "") (.canonicalization "record_key_version is required")
  let key ← P.canonicalText (.arr recordKey)
  .ok ("nan-fung/record-key/v1\x00".toUTF8 ++ datasourceId.toUTF8 ++ "\x00".toUTF8 ++
    recordKeyVersion.toUTF8 ++ "\x00".toUTF8 ++ key.toUTF8)

/-- The domains that the code hashes under. -/
def hashDomains : List String :=
  ["source", "definition", "request", "locator", "schedule-rule", "watermark", "observation",
    "job-dedupe"]

end Platform

variable {P : Platform} {datasourceId recordKeyVersion domain : String} {recordKey : List Value}
  {v : Value} {bytes : ByteArray}

open Platform

theorem toUTF8_injective {s t : String} (h : s.toUTF8 = t.toUTF8) : s = t :=
  String.toByteArray_inj.mp h

theorem canonicalPayload_ok : P.canonicalPayload domain v = .ok bytes ↔
    ∃ text, P.canonicalText v = .ok text ∧
      ("nan-fung/" ++ domain ++ "/v1\x00" ++ text).toUTF8 = bytes := by
  simp only [canonicalPayload, bind_ok, Except.ok.injEq, String.toUTF8_eq_toByteArray,
    String.toByteArray_append]

theorem recordKeyPayload_ok : P.recordKeyPayload datasourceId recordKeyVersion recordKey = .ok bytes ↔
    datasourceId ≠ "" ∧ recordKeyVersion ≠ "" ∧ ∃ text, P.canonicalText (.arr recordKey) = .ok text ∧
      ("nan-fung/record-key/v1\x00" ++ datasourceId ++ "\x00" ++ recordKeyVersion ++ "\x00" ++
        text).toUTF8 = bytes := by
  simp only [recordKeyPayload, bind_ok, require_ok, exists_and_left, exists_const, Except.ok.injEq,
    String.toUTF8_eq_toByteArray, String.toByteArray_append]

/-! ## The digests of the store -/

mutual

/-- A JSON value, seen as one that has no dates. -/
def Value.ofJson : Json → Value
  | .null => .null
  | .bool b => .bool b
  | .int i => .int i
  | .float text => .float text
  | .str s => .str s
  | .arr items => .arr (ofItems items)
  | .obj members => .obj (ofMembers members)

def Value.ofItems : List Json → List Value
  | [] => []
  | x :: xs => ofJson x :: ofItems xs

def Value.ofMembers : List (String × Json) → List (String × Value)
  | [] => []
  | (k, x) :: xs => (k, ofJson x) :: ofMembers xs

end

mutual

theorem normalizeValue_ofJson : ∀ v : Json, P.normalizeValue (.ofJson v) = P.normalizeJson v
  | .null | .bool _ | .int _ | .float _ | .str _ => rfl
  | .arr items => by
    rw [Value.ofJson, normalizeValue, normalizeJson, normalizeValues_ofItems]
  | .obj members => by
    rw [Value.ofJson, normalizeValue, normalizeJson, normalizeEntries_ofMembers]

theorem normalizeValues_ofItems : ∀ items : List Json,
    P.normalizeValues (Value.ofItems items) = P.normalizeItems items
  | [] => rfl
  | x :: xs => by
    rw [Value.ofItems, normalizeValues, normalizeItems, normalizeValue_ofJson x,
      normalizeValues_ofItems xs]

theorem normalizeEntries_ofMembers : ∀ (seen : List String) (members : List (String × Json)),
    P.normalizeEntries seen (Value.ofMembers members) = P.normalizeMembers seen members
  | _, [] => rfl
  | seen, (k, x) :: xs => by
    rw [Value.ofMembers, normalizeEntries, normalizeMembers, normalizeValue_ofJson x,
      normalizeEntries_ofMembers _ xs]

end

theorem canonicalText_ofJson {v : Json} {text : List Char} (h : P.canonicalJson v = .ok text) :
    P.canonicalText (.ofJson v) = .ok (String.ofList text) := by
  simp only [canonicalJson, bind_ok, Except.ok.injEq] at h
  obtain ⟨j, hj, rfl⟩ := h
  simp only [Platform.canonicalText, bind_ok, Except.ok.injEq]
  exact ⟨j, (normalizeValue_ofJson v).trans hj, rfl⟩

/-- `hash_canonical` digests the byte string of its domain. -/
theorem hashCanonical_ok {v : Json} {hash : String} (h : P.hashCanonical domain v = .ok hash) :
    ∃ text : String, P.canonicalPayload domain (.ofJson v) = .ok text.toUTF8 ∧
      hash = P.sha256 text.toList := by
  simp only [hashCanonical, bind_ok, Except.ok.injEq] at h
  obtain ⟨text, htext, rfl⟩ := h
  refine ⟨_, canonicalPayload_ok.mpr ⟨_, canonicalText_ofJson htext, rfl⟩, ?_⟩
  simp

/-- `record_key_hash` digests the byte string of its key. -/
theorem recordKeyHash_ok {key : List String} {hash : String}
    (h : P.recordKeyHash datasourceId recordKeyVersion key = .ok hash) :
    ∃ text : String, P.recordKeyPayload datasourceId recordKeyVersion
        (Value.ofItems (key.map .str)) = .ok text.toUTF8 ∧ hash = P.sha256 text.toList := by
  simp only [recordKeyHash, bind_ok, require_ok, Except.ok.injEq] at h
  obtain ⟨-, hd, -, hv, text, htext, rfl⟩ := h
  refine ⟨_, recordKeyPayload_ok.mpr ⟨hd, hv, _, canonicalText_ofJson htext, rfl⟩, ?_⟩
  simp

/-! ## Canonical JSON without NUL -/

theorem nul_not_mem_quote (s : String) : '\x00' ∉ Json.quote s := by
  have hescaped : ∀ c, '\x00' ∉ Json.escapeChar c := by
    intro c hc
    obtain heq | ⟨w, heq, hw⟩ := Json.escapeChar_cases c
    · rw [heq] at hc
      obtain rfl := List.mem_singleton.mp hc
      exact absurd heq (by decide)
    · rw [heq] at hc
      rcases List.mem_cons.mp hc with h | h
      · exact absurd h (by decide)
      · exact absurd (hw _ h) (by decide)
  intro h
  simp only [Json.quote, List.cons_append, List.mem_cons, List.mem_append, List.mem_flatMap,
    List.not_mem_nil, or_false] at h
  rcases h with h | ⟨c, -, hc⟩ | h
  · exact absurd h (by decide)
  · exact hescaped c hc
  · exact absurd h (by decide)

theorem mem_commaJoin {c : Char} {ts : List (List Char)} (h : c ∈ Json.commaJoin ts) :
    c = ',' ∨ ∃ t ∈ ts, c ∈ t := by
  induction ts with
  | nil => exact nomatch h
  | cons t ts ih =>
    cases ts with
    | nil => exact Or.inr ⟨t, List.mem_singleton_self t, h⟩
    | cons u us =>
      rw [Json.commaJoin, List.mem_append, List.mem_cons] at h
      rcases h with h | h | h
      · exact Or.inr ⟨t, List.mem_cons_self, h⟩
      · exact Or.inl h
      · exact (ih h).imp_right fun ⟨t, ht, hc⟩ => ⟨t, List.mem_cons_of_mem _ ht, hc⟩

theorem nul_not_mem_commaJoin {ts : List (List Char)} (h : ∀ t ∈ ts, '\x00' ∉ t) :
    '\x00' ∉ Json.commaJoin ts := by
  intro hmem
  rcases mem_commaJoin hmem with hc | ⟨t, ht, hc⟩
  · exact absurd hc (by decide)
  · exact h t ht hc

mutual

/-- Strings are escaped and numbers are integers. -/
theorem nul_not_mem_render : ∀ {v : Value} {j : Json}, P.normalizeValue v = .ok j →
    '\x00' ∉ j.render
  | .null, _, h => by
    cases h
    decide
  | .bool b, _, h => by
    cases h
    cases b <;> decide
  | .int i, _, h => by
    cases h
    exact fun hmem => absurd (Json.int_chars i _ hmem) (by decide)
  | .float _, _, h => nomatch h
  | .str _, _, h => by
    cases h
    exact nul_not_mem_quote _
  | .date _, _, h => by
    cases h
    exact nul_not_mem_quote _
  | .datetime _, _, h => by
    cases h
    exact nul_not_mem_quote _
  | .arr items, _, h => by
    simp only [normalizeValue, bind_ok, Except.ok.injEq] at h
    obtain ⟨items', hitems, rfl⟩ := h
    have hjoin := nul_not_mem_commaJoin (nul_not_mem_renderItems hitems)
    simpa [Json.render] using hjoin
  | .obj members, _, h => by
    simp only [normalizeValue, bind_ok, Except.ok.injEq] at h
    obtain ⟨members', hmembers, rfl⟩ := h
    have hentries := nul_not_mem_renderMembers hmembers
    have hjoin : '\x00' ∉ Json.commaJoin
        (((Json.renderMembers members').insertionSort fun a b => a.1 ≤ b.1).map fun e =>
          Json.quote e.1 ++ ':' :: e.2) := by
      refine nul_not_mem_commaJoin fun t ht => ?_
      obtain ⟨e, he, rfl⟩ := List.mem_map.mp ht
      have hvalue := hentries e ((List.mem_insertionSort _).mp he)
      simpa using ⟨nul_not_mem_quote e.1, hvalue⟩
    simpa [Json.render] using hjoin

theorem nul_not_mem_renderItems : ∀ {items : List Value} {items' : List Json},
    P.normalizeValues items = .ok items' → ∀ t ∈ Json.renderItems items', '\x00' ∉ t
  | [], _, h => by
    cases h
    exact fun t ht => nomatch ht
  | x :: xs, _, h => by
    simp only [normalizeValues, bind_ok, Except.ok.injEq] at h
    obtain ⟨y, hy, ys, hys, rfl⟩ := h
    rw [Json.renderItems]
    exact List.forall_mem_cons.mpr ⟨nul_not_mem_render hy, nul_not_mem_renderItems hys⟩

theorem nul_not_mem_renderMembers : ∀ {seen : List String} {members : List (String × Value)}
    {members' : List (String × Json)}, P.normalizeEntries seen members = .ok members' →
    ∀ e ∈ Json.renderMembers members', '\x00' ∉ e.2
  | _, [], _, h => by
    cases h
    exact fun t ht => nomatch ht
  | _, (k, x) :: xs, _, h => by
    simp only [normalizeEntries, bind_ok, Except.ok.injEq] at h
    obtain ⟨-, -, y, hy, ys, hys, rfl⟩ := h
    rw [Json.renderMembers]
    exact List.forall_mem_cons.mpr ⟨nul_not_mem_render hy, nul_not_mem_renderMembers hys⟩

end

theorem nul_not_mem_canonicalText {text : String} (h : P.canonicalText v = .ok text) :
    '\x00' ∉ text.toList := by
  simp only [Platform.canonicalText, bind_ok, Except.ok.injEq] at h
  obtain ⟨j, hj, rfl⟩ := h
  rw [String.toList_ofList]
  exact nul_not_mem_render hj

/-! ## Record keys -/

/-- No NUL inside: one that starts the datasource or ends the key version would leave a part empty. -/
def Separable (datasourceId recordKeyVersion : String) : Prop :=
  '\x00' ∉ datasourceId.toList.tail ∧ '\x00' ∉ recordKeyVersion.toList.dropLast

instance (datasourceId recordKeyVersion : String) :
    Decidable (Separable datasourceId recordKeyVersion) := instDecidableAnd

/-- The datasource and the key version, as they stand before the last NUL. -/
def keyPrefix (datasourceId recordKeyVersion : String) : List Char :=
  datasourceId.toList ++ '\x00' :: recordKeyVersion.toList

theorem recordKeyPayload_chars {text : String} :
    ("nan-fung/record-key/v1\x00" ++ datasourceId ++ "\x00" ++ recordKeyVersion ++ "\x00" ++ text).toList =
      ("nan-fung/record-key/v1".toList ++ '\x00' :: keyPrefix datasourceId recordKeyVersion) ++
        '\x00' :: text.toList := by
  simp [keyPrefix]

theorem canonicalPayload_chars {text : String} :
    ("nan-fung/" ++ domain ++ "/v1\x00" ++ text).toList =
      ("nan-fung/".toList ++ domain.toList ++ "/v1".toList) ++ '\x00' :: text.toList := by
  simp

/-- One byte string has one canonical key, and one prefix. -/
theorem recordKeyPayload_inj {datasourceId' recordKeyVersion' : String} {recordKey' : List Value}
    (h : P.recordKeyPayload datasourceId recordKeyVersion recordKey = .ok bytes)
    (h' : P.recordKeyPayload datasourceId' recordKeyVersion' recordKey' = .ok bytes) :
    keyPrefix datasourceId' recordKeyVersion' = keyPrefix datasourceId recordKeyVersion ∧
      P.canonicalText (.arr recordKey') = P.canonicalText (.arr recordKey) := by
  obtain ⟨-, -, text, htext, hbytes⟩ := recordKeyPayload_ok.mp h
  obtain ⟨-, -, text', htext', hbytes'⟩ := recordKeyPayload_ok.mp h'
  have hchars := congrArg String.toList (toUTF8_injective (hbytes'.trans hbytes.symm))
  rw [recordKeyPayload_chars, recordKeyPayload_chars] at hchars
  obtain ⟨hbefore, hafter⟩ := Splits.append_cons_inj_of_last (nul_not_mem_canonicalText htext')
    (nul_not_mem_canonicalText htext) hchars
  refine ⟨(List.cons.inj (List.append_cancel_left hbefore)).2, ?_⟩
  rw [htext', htext, String.toList_inj.mp hafter]

theorem recordKeyPayload_congr {datasourceId' recordKeyVersion' : String}
    (h : P.recordKeyPayload datasourceId recordKeyVersion recordKey = .ok bytes)
    (hd : datasourceId' ≠ "") (hv : recordKeyVersion' ≠ "")
    (hkeyed : keyPrefix datasourceId' recordKeyVersion' = keyPrefix datasourceId recordKeyVersion) :
    P.recordKeyPayload datasourceId' recordKeyVersion' recordKey = .ok bytes := by
  obtain ⟨-, -, text, htext, hbytes⟩ := recordKeyPayload_ok.mp h
  refine recordKeyPayload_ok.mpr ⟨hd, hv, text, htext, ?_⟩
  rw [← hbytes]
  refine congrArg String.toUTF8 (String.toList_inj.mp ?_)
  rw [recordKeyPayload_chars, recordKeyPayload_chars, hkeyed]

theorem toList_ne_nil {s : String} (h : s ≠ "") : s.toList ≠ [] :=
  fun hnil => h (String.toList_inj.mp hnil)

/-- A byte string of a record key tells all of its parts, exactly when they are separable. -/
theorem recordKeyPayload_unique_iff
    (h : P.recordKeyPayload datasourceId recordKeyVersion recordKey = .ok bytes) :
    (∀ datasourceId' recordKeyVersion' recordKey',
      P.recordKeyPayload datasourceId' recordKeyVersion' recordKey' = .ok bytes →
        datasourceId' = datasourceId ∧ recordKeyVersion' = recordKeyVersion ∧
          P.canonicalText (.arr recordKey') = P.canonicalText (.arr recordKey)) ↔
      Separable datasourceId recordKeyVersion := by
  obtain ⟨hd, hv, -⟩ := recordKeyPayload_ok.mp h
  rw [Separable, ← Splits.unique_iff (toList_ne_nil hd) (toList_ne_nil hv)]
  constructor
  · intro hunique a b ha hb hsplit
    have hpayload : P.recordKeyPayload (String.ofList a) (String.ofList b) recordKey = .ok bytes := by
      refine recordKeyPayload_congr h (fun hnil => ha ?_) (fun hnil => hb ?_) ?_
      · simpa using congrArg String.toList hnil
      · simpa using congrArg String.toList hnil
      · simpa [keyPrefix] using hsplit
    obtain ⟨rfl, rfl, -⟩ := hunique _ _ _ hpayload
    simp
  · intro hunique d v key hpayload
    obtain ⟨hd', hv', -⟩ := recordKeyPayload_ok.mp hpayload
    obtain ⟨hkeyed, hkey⟩ := recordKeyPayload_inj h hpayload
    obtain ⟨hd, hv⟩ := hunique _ _ (toList_ne_nil hd') (toList_ne_nil hv') hkeyed
    exact ⟨String.toList_inj.mp hd, String.toList_inj.mp hv, hkey⟩

/-! ## Domains -/

theorem canonicalPayload_ne_recordKeyPayload (hdomain : '\x00' ∉ domain.toList)
    (h : P.recordKeyPayload datasourceId recordKeyVersion recordKey = .ok bytes) :
    P.canonicalPayload domain v ≠ .ok bytes := by
  intro h'
  obtain ⟨-, -, text, htext, hbytes⟩ := recordKeyPayload_ok.mp h
  obtain ⟨text', htext', hbytes'⟩ := canonicalPayload_ok.mp h'
  have hchars := congrArg String.toList (toUTF8_injective (hbytes'.trans hbytes.symm))
  rw [recordKeyPayload_chars, canonicalPayload_chars] at hchars
  have hbefore := (Splits.append_cons_inj_of_last (nul_not_mem_canonicalText htext')
    (nul_not_mem_canonicalText htext) hchars).1
  have hmem : '\x00' ∈ "nan-fung/".toList ++ domain.toList ++ "/v1".toList := by
    rw [hbefore]
    exact List.mem_append_right _ List.mem_cons_self
  rw [List.mem_append, List.mem_append] at hmem
  rcases hmem with (hmem | hmem) | hmem
  · exact absurd hmem (by decide)
  · exact hdomain hmem
  · exact absurd hmem (by decide)

theorem canonicalPayload_domain {domain' : String} {v' : Value}
    (h : P.canonicalPayload domain v = .ok bytes) (h' : P.canonicalPayload domain' v' = .ok bytes) :
    domain = domain' := by
  obtain ⟨text, htext, hbytes⟩ := canonicalPayload_ok.mp h
  obtain ⟨text', htext', hbytes'⟩ := canonicalPayload_ok.mp h'
  have hchars := congrArg String.toList (toUTF8_injective (hbytes.trans hbytes'.symm))
  rw [canonicalPayload_chars, canonicalPayload_chars] at hchars
  have hbefore := (Splits.append_cons_inj_of_last (nul_not_mem_canonicalText htext)
    (nul_not_mem_canonicalText htext') hchars).1
  exact String.toList_inj.mp (List.append_cancel_left (List.append_cancel_right hbefore))

theorem nul_not_mem_hashDomains : ∀ domain ∈ hashDomains, '\x00' ∉ domain.toList := by decide

/-- Record keys are told apart exactly where they are separable, and domains always. -/
theorem preImages_unambiguous_iff (P : Platform) :
    (∀ datasourceId recordKeyVersion recordKey bytes,
      P.recordKeyPayload datasourceId recordKeyVersion recordKey = .ok bytes →
        ((∀ datasourceId' recordKeyVersion' recordKey',
          P.recordKeyPayload datasourceId' recordKeyVersion' recordKey' = .ok bytes →
            datasourceId' = datasourceId ∧ recordKeyVersion' = recordKeyVersion ∧
              P.canonicalText (.arr recordKey') = P.canonicalText (.arr recordKey)) ↔
          Separable datasourceId recordKeyVersion)) ∧
    (∀ domain ∈ hashDomains, ∀ datasourceId recordKeyVersion recordKey v bytes,
      P.recordKeyPayload datasourceId recordKeyVersion recordKey = .ok bytes →
        P.canonicalPayload domain v ≠ .ok bytes) ∧
    ∀ domain ∈ hashDomains, ∀ domain' ∈ hashDomains, domain ≠ domain' → ∀ v v' bytes,
      P.canonicalPayload domain v = .ok bytes → P.canonicalPayload domain' v' ≠ .ok bytes := by
  refine ⟨?_, ?_, ?_⟩
  · intro datasourceId recordKeyVersion recordKey bytes h
    exact recordKeyPayload_unique_iff h
  · intro domain hdomain datasourceId recordKeyVersion recordKey v bytes h
    exact canonicalPayload_ne_recordKeyPayload (nul_not_mem_hashDomains domain hdomain) h
  · intro domain _ domain' _ hne v v' bytes h h'
    exact hne (canonicalPayload_domain h h')

theorem preImages_unambiguous_iff_bankRate : ∃ bytes,
    Sample.platform.recordKeyPayload "boe.bank-rate" "1" [.str "IUDBEDR"] = .ok bytes ∧
      ∀ datasourceId recordKeyVersion recordKey,
        Sample.platform.recordKeyPayload datasourceId recordKeyVersion recordKey = .ok bytes →
          datasourceId = "boe.bank-rate" ∧ recordKeyVersion = "1" := by
  refine ⟨_, rfl, fun d v key h => ?_⟩
  have hunique := ((preImages_unambiguous_iff Sample.platform).1 "boe.bank-rate" "1" [.str "IUDBEDR"] _
    rfl).mpr (by decide) d v key h
  exact ⟨hunique.1, hunique.2.1⟩

/-- A NUL moves from one part to the other. -/
theorem not_preImages_unambiguous :
    ¬ ∀ (P : Platform) (datasourceId recordKeyVersion : String) (recordKey : List Value)
      (datasourceId' recordKeyVersion' : String) (recordKey' : List Value) (bytes : ByteArray),
      P.recordKeyPayload datasourceId recordKeyVersion recordKey = .ok bytes →
      P.recordKeyPayload datasourceId' recordKeyVersion' recordKey' = .ok bytes →
        datasourceId = datasourceId' ∧ recordKeyVersion = recordKeyVersion' := by
  intro hall
  have hfirst : Sample.platform.recordKeyPayload "a\x00b" "c" [] =
      .ok "nan-fung/record-key/v1\x00a\x00b\x00c\x00[]".toUTF8 := rfl
  have hsecond : Sample.platform.recordKeyPayload "a" "b\x00c" [] =
      .ok "nan-fung/record-key/v1\x00a\x00b\x00c\x00[]".toUTF8 := rfl
  exact absurd (hall _ _ _ _ _ _ _ _ hfirst hsecond).1 (by decide)

end NanFung
