import NanFung.Canonical
import NanFung.Lib.JsonCancel
import NanFung.Lib.JsonRead

/-!
# What an observation hash tells

`observation_hash` is the digest of a canonical text, and the text tells the members of the envelope
apart. So two envelopes with one hash agree in every member unless their texts collide.
-/

namespace NanFung

open Json

/-! ## Sorted values -/

namespace Json

mutual

theorem wellFormed_sorted : ∀ {v : Json}, WellFormed v → WellFormed (sorted v)
  | .null, h | .bool _, h | .int _, h | .float _, h | .str _, h => h
  | .arr items, h => wellFormedItems_sorted h
  | .obj members, h => by
    have hperm := List.perm_insertionSort keyLe (sortedMembers members)
    have hkeys : (sortedMembers members).map Prod.fst = members.map Prod.fst := by
      rw [sortedMembers_eq, List.map_map]
      rfl
    refine ⟨(hperm.map Prod.fst).nodup_iff.mpr (hkeys ▸ h.1), wellFormedMembers_iff.mpr fun m hm => ?_⟩
    exact wellFormedMembers_iff.mp (wellFormedMembers_sorted h.2) m (hperm.mem_iff.mp hm)

theorem wellFormedItems_sorted : ∀ {items : List Json}, WellFormedItems items →
    WellFormedItems (sortedItems items)
  | [], _ => trivial
  | _ :: _, h => ⟨wellFormed_sorted h.1, wellFormedItems_sorted h.2⟩

theorem wellFormedMembers_sorted : ∀ {members : List (String × Json)}, WellFormedMembers members →
    WellFormedMembers (sortedMembers members)
  | [], _ => trivial
  | (_, _) :: _, h => ⟨wellFormed_sorted h.1, wellFormedMembers_sorted h.2⟩

end

/-- Values with one canonical text differ in the order of their keys at most. -/
theorem sorted_eq_of_render {a b : Json} (ha : WellFormed a) (hb : WellFormed b)
    (h : render a = render b) : sorted a = sorted b := by
  rw [render_eq, render_eq] at h
  exact stringify_injective (wellFormed_sorted ha) (wellFormed_sorted hb) h

end Json

namespace Platform

variable {P : Platform}

/-! ## Normalised values -/

mutual

/-- A normalised value has no floats and distinct names. -/
theorem wellFormed_normalizeJson : ∀ {v w : Json}, P.normalizeJson v = .ok w → WellFormed w
  | .null, _, h | .bool _, _, h | .int _, _, h | .str _, _, h => by
    cases h
    trivial
  | .float _, _, h => nomatch h
  | .arr items, w, h => by
    simp only [normalizeJson, bind_ok, Except.ok.injEq] at h
    obtain ⟨items', hitems, rfl⟩ := h
    exact wellFormed_normalizeItems hitems
  | .obj members, w, h => by
    simp only [normalizeJson, bind_ok, Except.ok.injEq] at h
    obtain ⟨members', hmembers, rfl⟩ := h
    obtain ⟨hnodup, -, hvalues⟩ := wellFormed_normalizeMembers hmembers
    exact ⟨hnodup, hvalues⟩

theorem wellFormed_normalizeItems : ∀ {xs ys : List Json}, P.normalizeItems xs = .ok ys →
    WellFormedItems ys
  | [], _, h => by
    cases h
    trivial
  | x :: xs, ys, h => by
    simp only [normalizeItems, bind_ok, Except.ok.injEq] at h
    obtain ⟨y, hy, ys', hys, rfl⟩ := h
    exact ⟨wellFormed_normalizeJson hy, wellFormed_normalizeItems hys⟩

theorem wellFormed_normalizeMembers : ∀ {ms ms' : List (String × Json)} {seen : List String},
    P.normalizeMembers seen ms = .ok ms' →
      (ms'.map Prod.fst).Nodup ∧ (∀ key ∈ ms'.map Prod.fst, key ∉ seen) ∧ WellFormedMembers ms'
  | [], _, _, h => by
    cases h
    exact ⟨List.nodup_nil, nofun, trivial⟩
  | (k, x) :: ms, ms', seen, h => by
    simp only [normalizeMembers, bind_ok, require_ok, Except.ok.injEq] at h
    obtain ⟨-, hk, y, hy, ms₁, hms, rfl⟩ := h
    obtain ⟨hnodup, hunseen, hvalues⟩ := wellFormed_normalizeMembers hms
    refine ⟨List.nodup_cons.mpr ⟨fun hmem => hunseen _ hmem List.mem_cons_self, hnodup⟩,
      List.forall_mem_cons.mpr ⟨hk, fun key hkey hseen => ?_⟩, wellFormed_normalizeJson hy, hvalues⟩
    exact hunseen key hkey (List.mem_cons_of_mem _ hseen)

end

mutual

/-- A normalised value is its own normal form. -/
theorem normalizeJson_idem (hnfc : ∀ s, P.nfc (P.nfc s) = P.nfc s) : ∀ {v w : Json},
    P.normalizeJson v = .ok w → P.normalizeJson w = .ok w
  | .null, _, h | .bool _, _, h | .int _, _, h => by
    cases h
    rfl
  | .float _, _, h => nomatch h
  | .str s, _, h => by
    cases h
    rw [normalizeJson, hnfc]
  | .arr items, _, h => by
    simp only [normalizeJson, bind_ok, Except.ok.injEq] at h
    obtain ⟨items', hitems, rfl⟩ := h
    rw [normalizeJson, normalizeItems_idem hnfc hitems]
    rfl
  | .obj members, _, h => by
    simp only [normalizeJson, bind_ok, Except.ok.injEq] at h
    obtain ⟨members', hmembers, rfl⟩ := h
    rw [normalizeJson, normalizeMembers_idem hnfc hmembers]
    rfl

theorem normalizeItems_idem (hnfc : ∀ s, P.nfc (P.nfc s) = P.nfc s) : ∀ {xs ys : List Json},
    P.normalizeItems xs = .ok ys → P.normalizeItems ys = .ok ys
  | [], _, h => by
    cases h
    rfl
  | x :: xs, _, h => by
    simp only [normalizeItems, bind_ok, Except.ok.injEq] at h
    obtain ⟨y, hy, ys', hys, rfl⟩ := h
    rw [normalizeItems, normalizeJson_idem hnfc hy, normalizeItems_idem hnfc hys]
    rfl

theorem normalizeMembers_idem (hnfc : ∀ s, P.nfc (P.nfc s) = P.nfc s) :
    ∀ {ms ms' : List (String × Json)} {seen : List String},
      P.normalizeMembers seen ms = .ok ms' → P.normalizeMembers seen ms' = .ok ms'
  | [], _, _, h => by
    cases h
    rfl
  | (k, x) :: ms, _, seen, h => by
    simp only [normalizeMembers, bind_ok, require_ok, Except.ok.injEq] at h
    obtain ⟨-, hk, y, hy, ms₁, hms, rfl⟩ := h
    rw [normalizeMembers, hnfc, normalizeJson_idem hnfc hy, normalizeMembers_idem hnfc hms, require,
      if_pos hk]
    rfl

end

/-- Strings are normalised one by one. -/
theorem normalizeJson_strings (xs : List String) :
    P.normalizeJson (.arr (xs.map .str)) = .ok (.arr (xs.map fun s => .str (P.nfc s))) := by
  have hitems : P.normalizeItems (xs.map .str) = .ok (xs.map fun s => .str (P.nfc s)) := by
    induction xs with
    | nil => rfl
    | cons x xs ih =>
      rw [List.map_cons, normalizeItems, ih]
      rfl
  rw [normalizeJson, hitems]
  rfl

/-- A member is normalised with its name and its value. -/
theorem mem_normalizeMembers {key : String} {x : Json} {ms ms' : List (String × Json)}
    {seen : List String} (h : P.normalizeMembers seen ms = .ok ms') (hmem : (key, x) ∈ ms) :
    ∃ y, P.normalizeJson x = .ok y ∧ (P.nfc key, y) ∈ ms' := by
  induction ms generalizing seen ms' with
  | nil => exact nomatch hmem
  | cons m ms ih =>
    simp only [normalizeMembers, bind_ok, require_ok, Except.ok.injEq] at h
    obtain ⟨-, -, y, hy, ms₁, hms, rfl⟩ := h
    rcases List.mem_cons.mp hmem with rfl | hmem
    · exact ⟨y, hy, List.mem_cons_self⟩
    · obtain ⟨z, hz, hin⟩ := ih hms hmem
      exact ⟨z, hz, List.mem_cons_of_mem _ hin⟩

/-- Objects with one canonical text agree in their members. -/
theorem member_eq_of_canonicalJson {ms ms' : List (String × Json)} {text : List Char} {key : String}
    {x x' : Json} (h : P.canonicalJson (.obj ms) = .ok text)
    (h' : P.canonicalJson (.obj ms') = .ok text) (hx : (key, x) ∈ ms) (hx' : (key, x') ∈ ms') :
    ∃ y y', P.normalizeJson x = .ok y ∧ P.normalizeJson x' = .ok y' ∧ sorted y = sorted y' := by
  simp only [canonicalJson, normalizeJson, bind_ok, Except.ok.injEq] at h h'
  obtain ⟨v, ⟨ns, hns, rfl⟩, rfl⟩ := h
  obtain ⟨v', ⟨ns', hns', rfl⟩, heq⟩ := h'
  obtain ⟨hnodup, -, hvalues⟩ := wellFormed_normalizeMembers hns
  obtain ⟨hnodup', -, hvalues'⟩ := wellFormed_normalizeMembers hns'
  have hsorted : sorted (.obj ns) = sorted (.obj ns') :=
    sorted_eq_of_render ⟨hnodup, hvalues⟩ ⟨hnodup', hvalues'⟩ heq.symm
  obtain ⟨y, hy, hmem⟩ := mem_normalizeMembers hns hx
  obtain ⟨y', hy', hmem'⟩ := mem_normalizeMembers hns' hx'
  refine ⟨y, y', hy, hy', Option.some.inj ?_⟩
  calc some (sorted y) = (sorted (.obj ns)).get? (P.nfc key) := by
        rw [get?_sorted hnodup, (lookup_eq_some_iff hnodup).mpr hmem]
        rfl
    _ = (sorted (.obj ns')).get? (P.nfc key) := by rw [hsorted]
    _ = some (sorted y') := by
        rw [get?_sorted hnodup', (lookup_eq_some_iff hnodup').mpr hmem']
        rfl

/-! ## Observation hashes -/

/-- The members of an envelope. -/
def Envelope.members (e : Envelope) : List (String × Json) := [
  ("datasource_id", .str e.datasourceId),
  ("definition_version", .int e.definitionVersion),
  ("record_type", .str e.recordType),
  ("schema_version", .str e.schemaVersion),
  ("revision_action", .str e.revisionAction),
  ("record_key", e.recordKey),
  ("payload", e.payload),
  ("source_date", optStr e.sourceDate),
  ("period_start", .null),
  ("period_end", .null),
  ("period_label", optStr e.periodLabel),
  ("geography_code", .null),
  ("geography_name", .null),
  ("unit", optStr e.unit),
  ("data_kind", .str e.dataKind),
  ("confidence", .str e.confidence),
  ("snapshot_scope_hash", optStr e.snapshotScopeHash),
  ("definition", optStr e.definition),
  ("limitations", e.limitations)]

variable (P) in
/-- The text under the digest of `observation_hash`. -/
def observationText (e : Envelope) : Except StoreError (List Char) := do
  let text ← P.canonicalJson (.obj e.members)
  .ok ("nan-fung/observation/v1\x00".toList ++ text)

theorem observationHash_ok {e : Envelope} {hash : String} (h : P.observationHash e = .ok hash) :
    ∃ text, P.observationText e = .ok text ∧ P.sha256 text = hash := by
  have heq : P.observationHash e = P.hashCanonical "observation" (.obj e.members) := rfl
  simp only [heq, hashCanonical, bind_ok, Except.ok.injEq] at h
  obtain ⟨text, htext, rfl⟩ := h
  refine ⟨"nan-fung/observation/v1\x00".toList ++ text, ?_, rfl⟩
  rw [observationText, htext]
  rfl

/-- The text tells the definition version. -/
theorem definitionVersion_eq_of_observationText {e e' : Envelope} {text : List Char}
    (h : P.observationText e = .ok text) (h' : P.observationText e' = .ok text) :
    e.definitionVersion = e'.definitionVersion := by
  simp only [observationText, bind_ok, Except.ok.injEq] at h h'
  obtain ⟨json, hjson, rfl⟩ := h
  obtain ⟨json', hjson', heq⟩ := h'
  obtain rfl : json' = json := List.append_cancel_left heq
  have hmem : ∀ f : Envelope, ("definition_version", Json.int f.definitionVersion) ∈ f.members :=
    fun f => List.mem_cons_of_mem _ List.mem_cons_self
  obtain ⟨y, y', hy, hy', hsorted⟩ := member_eq_of_canonicalJson hjson hjson' (hmem e) (hmem e')
  cases hy
  cases hy'
  have hint : (e.definitionVersion : Int) = e'.definitionVersion := Json.int.inj hsorted
  omega

end Platform

end NanFung
