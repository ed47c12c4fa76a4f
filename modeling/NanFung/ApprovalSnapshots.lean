import NanFung.Digests
import NanFung.Store.Approvals

/-!
# Approval snapshots

What is stored of a request is in NFC, and NFC can make a text longer. So a snapshot can be read back
exactly if the normal forms of its texts are within the bounds as well; what is read then has the
fingerprint of what was stored.
-/

namespace NanFung

variable {P : Platform} {s : RefreshSnapshot}

/-! ## Bounds -/

/-- A text that `_require_agent_approval_identifier` takes. -/
def ApprovalIdentifier (text : String) : Prop := text ≠ "" ∧ text.length ≤ 256

instance ApprovalIdentifier.decidable (text : String) : Decidable (ApprovalIdentifier text) :=
  inferInstanceAs (Decidable (text ≠ "" ∧ text.length ≤ 256))

/-- The bounds of a snapshot. -/
structure RefreshSnapshot.Bounded (s : RefreshSnapshot) : Prop where
  datasourceId : ApprovalIdentifier s.datasourceId
  requestProfile : ApprovalIdentifier s.requestProfile
  intent : s.intent ≠ "" ∧ s.intent.length ≤ 240
  scope : s.boundedScope.length ≤ 100
  keys : ∀ m ∈ s.boundedScope, ApprovalIdentifier m.1
  values : ∀ m ∈ s.boundedScope, (m.2 ≠ [] ∧ m.2.length ≤ 100) ∧ ∀ v ∈ m.2, ApprovalIdentifier v
  total : (s.boundedScope.map fun m => m.2.length).sum ≤ 100

@[simp] theorem requireAgentApprovalIdentifier_ok {name value : String} {u : Unit} :
    requireAgentApprovalIdentifier name value = .ok u ↔ ApprovalIdentifier value := require_ok

theorem approvalText_ok {name text : String} {value : Json} :
    approvalText name value = .ok text ↔ value = .str text ∧ ApprovalIdentifier text := by
  simp only [approvalText, bind_ok, orThrow_ok, requireAgentApprovalIdentifier_ok, Except.ok.injEq]
  constructor
  · rintro ⟨text', h, _, hbound, rfl⟩
    cases value with
    | str s =>
      cases h
      exact ⟨rfl, hbound⟩
    | _ => cases h
  · rintro ⟨rfl, hbound⟩
    exact ⟨text, rfl, (), hbound, rfl⟩

/-- The members of a scope as the snapshot stores them. -/
def scopeMembers (scope : List (String × List String)) : List (String × Json) :=
  scope.map fun m => (m.1, .arr (m.2.map .str))

theorem scopeValues_strings (values : List String) :
    scopeValues (.arr (values.map .str)) = .ok values := by
  rw [scopeValues, orThrow_ok]
  induction values with
  | nil => rfl
  | cons v vs ih =>
    rw [List.map_cons, List.mapM_cons, ih]
    rfl

/-- What `_agent_refresh_snapshot` accepts of a scope has the bounds of a snapshot. -/
theorem normalizedScope_bounded : ∀ {members : List (String × Json)} {total : Nat}
    {scope : List (String × List String)}, normalizedScope total members = .ok scope → total ≤ 100 →
    scope.map Prod.fst = members.map Prod.fst ∧ (∀ m ∈ scope, ApprovalIdentifier m.1) ∧
      (∀ m ∈ scope, (m.2 ≠ [] ∧ m.2.length ≤ 100) ∧ ∀ v ∈ m.2, ApprovalIdentifier v) ∧
      total + (scope.map fun m => m.2.length).sum ≤ 100
  | [], total, scope, h, htotal => by
    obtain rfl := Except.ok.inj h
    exact ⟨rfl, List.forall_mem_nil _, List.forall_mem_nil _, htotal⟩
  | (key, raw) :: rest, total, scope, h, htotal => by
    simp only [normalizedScope, bind_ok, require_ok, requireAgentApprovalIdentifier_ok,
      Except.ok.injEq] at h
    obtain ⟨_, hkey, values, -, _, hlength, _, hvalues, _, hsum, scope', hrest, rfl⟩ := h
    obtain ⟨hkeys, hids, hbounds, htotal'⟩ := normalizedScope_bounded hrest hsum
    refine ⟨by rw [List.map_cons, List.map_cons, hkeys], List.forall_mem_cons.mpr ⟨hkey, hids⟩,
      List.forall_mem_cons.mpr ⟨⟨hlength, hvalues⟩, hbounds⟩, ?_⟩
    show total + (values.length + (scope'.map fun m => m.2.length).sum) ≤ 100
    omega

/-- A scope of lists is taken as it is if it is within the bounds. -/
theorem normalizedScope_members : ∀ {scope : List (String × List String)} {total : Nat},
    (∀ m ∈ scope, ApprovalIdentifier m.1) →
    (∀ m ∈ scope, (m.2 ≠ [] ∧ m.2.length ≤ 100) ∧ ∀ v ∈ m.2, ApprovalIdentifier v) →
    total + (scope.map fun m => m.2.length).sum ≤ 100 →
    normalizedScope total (scopeMembers scope) = .ok scope
  | [], _, _, _, _ => rfl
  | (key, values) :: rest, total, hids, hbounds, htotal => by
    obtain ⟨hkey, hids⟩ := List.forall_mem_cons.mp hids
    obtain ⟨⟨hlength, hvalues⟩, hbounds⟩ := List.forall_mem_cons.mp hbounds
    change total + (values.length + (rest.map fun m => m.2.length).sum) ≤ 100 at htotal
    have hrest : normalizedScope (total + values.length) (scopeMembers rest) = .ok rest :=
      normalizedScope_members hids hbounds (by omega)
    rw [scopeMembers, List.map_cons, normalizedScope]
    simp only [bind_ok, require_ok, requireAgentApprovalIdentifier_ok]
    exact ⟨(), hkey, values, scopeValues_strings values, (), hlength, (), hvalues, (), by omega, rest,
      hrest, rfl⟩

/-- The members of a scope in the order of their keys. -/
def sortScope (scope : List (String × List String)) : List (String × List String) :=
  scope.insertionSort fun a b => a.1 ≤ b.1

theorem perm_sortScope (scope : List (String × List String)) : (sortScope scope).Perm scope :=
  List.perm_insertionSort _ _

/-- The bounds do not depend on the order of the scope. -/
theorem bounded_sortScope : RefreshSnapshot.Bounded { s with boundedScope := sortScope s.boundedScope } ↔
    s.Bounded := by
  have hperm := perm_sortScope s.boundedScope
  constructor
  · intro h
    refine ⟨h.datasourceId, h.requestProfile, h.intent, hperm.length_eq ▸ h.scope, fun m hm => ?_,
      fun m hm => ?_, ?_⟩
    · exact h.keys m (hperm.mem_iff.mpr hm)
    · exact h.values m (hperm.mem_iff.mpr hm)
    · exact (hperm.map fun m => m.2.length).sum_eq ▸ h.total
  · intro h
    refine ⟨h.datasourceId, h.requestProfile, h.intent, hperm.length_eq.symm ▸ h.scope, fun m hm => ?_,
      fun m hm => ?_, ?_⟩
    · exact h.keys m (hperm.mem_iff.mp hm)
    · exact h.values m (hperm.mem_iff.mp hm)
    · exact (hperm.map fun m => m.2.length).sum_eq.symm ▸ h.total

theorem eq_of_normalizedScope : ∀ {scope scope' : List (String × List String)} {total : Nat},
    normalizedScope total (scopeMembers scope) = .ok scope' → scope' = scope
  | [], _, _, h => (Except.ok.inj h).symm
  | (key, values) :: rest, scope', total, h => by
    rw [scopeMembers, List.map_cons, normalizedScope] at h
    simp only [bind_ok, scopeValues_strings, Except.ok.injEq] at h
    obtain ⟨_, -, values', rfl, _, -, _, -, _, -, rest', hrest, rfl⟩ := h
    rw [eq_of_normalizedScope hrest]

theorem scopeMapping_ok {scope : Json} {members : List (String × Json)} :
    scopeMapping scope = .ok members ↔ scope = .obj members ∧ members.length ≤ 100 := by
  unfold scopeMapping
  cases scope with
  | obj members' =>
    simp only [bind_ok, require_ok, Except.ok.injEq, Json.obj.injEq]
    constructor
    · rintro ⟨_, h, rfl⟩
      exact ⟨rfl, h⟩
    · rintro ⟨rfl, h⟩
      exact ⟨(), h, rfl⟩
  | _ => simp

theorem agentRefreshSnapshot_bounded {datasourceId requestProfile boundedScope intent : Json}
    (h : agentRefreshSnapshot datasourceId requestProfile boundedScope intent = .ok s) :
    s.Bounded ∧ ∃ members, boundedScope = .obj members ∧
      (s.boundedScope.map Prod.fst).Perm (members.map Prod.fst) := by
  simp only [agentRefreshSnapshot, bind_ok, orThrow_ok, approvalText_ok, scopeMapping_ok,
    Except.ok.injEq] at h
  obtain ⟨d, ⟨-, hd⟩, p, ⟨-, hp⟩, i, hi, members, ⟨rfl, hcount⟩, scope, hscope, rfl⟩ := h
  obtain ⟨hkeys, hids, hbounds, htotal⟩ := normalizedScope_bounded hscope (Nat.zero_le _)
  have hlength : scope.length = members.length := by
    simpa using congrArg List.length hkeys
  have hbounded : RefreshSnapshot.Bounded ⟨d, p, scope, i⟩ := by
    refine ⟨hd, hp, ?_, hlength ▸ hcount, hids, hbounds, ?_⟩
    · simpa using (Option.filter_eq_some_iff.mp hi).2
    · simpa using htotal
  refine ⟨bounded_sortScope.mpr hbounded, members, rfl, ?_⟩
  rw [← hkeys]
  exact (perm_sortScope scope).map _

/-- A snapshot is accepted again exactly if it is within the bounds. -/
theorem agentRefreshSnapshot_members {d p i : String} {scope : List (String × List String)} :
    agentRefreshSnapshot (.str d) (.str p) (.obj (scopeMembers scope)) (.str i) = .ok s ↔
      RefreshSnapshot.Bounded ⟨d, p, scope, i⟩ ∧ s = ⟨d, p, sortScope scope, i⟩ := by
  constructor
  · intro h
    have hbounded := (agentRefreshSnapshot_bounded h).1
    simp only [agentRefreshSnapshot, bind_ok, orThrow_ok, approvalText_ok, scopeMapping_ok,
      Except.ok.injEq, Json.str.injEq, Json.asStr?, Option.filter_eq_some_iff, Option.some.injEq] at h
    obtain ⟨_, ⟨rfl, -⟩, _, ⟨rfl, -⟩, _, ⟨rfl, -⟩, _, ⟨hmembers, -⟩, scope', hscope, rfl⟩ := h
    obtain rfl := Json.obj.inj hmembers
    obtain rfl := eq_of_normalizedScope hscope
    exact ⟨bounded_sortScope.mp hbounded, rfl⟩
  · rintro ⟨h, rfl⟩
    have hscope : normalizedScope 0 (scopeMembers scope) = .ok scope := by
      apply normalizedScope_members h.keys h.values
      rw [Nat.zero_add]
      exact h.total
    have hcount : (scopeMembers scope).length ≤ 100 := by
      rw [scopeMembers, List.length_map]
      exact h.scope
    simp only [agentRefreshSnapshot, bind_ok, orThrow_ok, approvalText_ok, scopeMapping_ok,
      Except.ok.injEq, Json.str.injEq, Json.asStr?, Option.filter_eq_some_iff, Option.some.injEq]
    exact ⟨d, ⟨rfl, h.datasourceId⟩, p, ⟨rfl, h.requestProfile⟩, i, ⟨rfl, decide_eq_true h.intent⟩,
      _, ⟨rfl, hcount⟩, scope, hscope, rfl⟩

/-! ## Normal forms -/

/-- The members of an object may stand in any order. -/
theorem sorted_obj_perm {ms ms' : List (String × Json)} (hperm : ms.Perm ms')
    (h : (ms.map Prod.fst).Nodup) : Json.sorted (.obj ms) = Json.sorted (.obj ms') := by
  have hmembers : (Json.sortedMembers ms).Perm (Json.sortedMembers ms') := by
    rw [Json.sortedMembers_eq, Json.sortedMembers_eq]
    exact hperm.map _
  have hkeys : (Json.sortedMembers ms).map Prod.fst = ms.map Prod.fst := by
    rw [Json.sortedMembers_eq, List.map_map]
    rfl
  have hsort : (Json.sortedMembers ms).insertionSort Json.keyLe =
      (Json.sortedMembers ms').insertionSort Json.keyLe := by
    have hleft := List.perm_insertionSort Json.keyLe (Json.sortedMembers ms)
    have hright := List.perm_insertionSort Json.keyLe (Json.sortedMembers ms')
    apply List.Perm.eq_of_pairwise _ (Json.pairwise_insertionSort_keyLe _)
      (Json.pairwise_insertionSort_keyLe _) (hleft.trans (hmembers.trans hright.symm))
    intro a b ha hb hab hba
    refine List.inj_on_of_nodup_map (hkeys ▸ h) (hleft.mem_iff.mp ha) ?_ (le_antisymm hab hba)
    exact hmembers.mem_iff.mpr (hright.mem_iff.mp hb)
  rw [Json.sorted, Json.sorted, hsort]

variable (P) in
/-- A scope in NFC. -/
def nfcScope (scope : List (String × List String)) : List (String × List String) :=
  scope.map fun m => (P.nfc m.1, m.2.map P.nfc)

variable (P) in
/-- A snapshot as it is read back. -/
def RefreshSnapshot.nfc (s : RefreshSnapshot) : RefreshSnapshot where
  datasourceId := P.nfc s.datasourceId
  requestProfile := P.nfc s.requestProfile
  boundedScope := sortScope (nfcScope P s.boundedScope)
  intent := P.nfc s.intent

theorem normalizeMembers_scope : ∀ {scope : List (String × List String)} {seen : List String}
    {ms : List (String × Json)}, P.normalizeMembers seen (scopeMembers scope) = .ok ms ↔
      ms = scopeMembers (nfcScope P scope) ∧ ((nfcScope P scope).map Prod.fst).Nodup ∧
        ∀ key ∈ (nfcScope P scope).map Prod.fst, key ∉ seen
  | [], seen, ms => by
    simp [scopeMembers, nfcScope, Platform.normalizeMembers, eq_comm]
  | (key, values) :: rest, seen, ms => by
    have hvalues : P.normalizeJson (.arr (values.map .str)) = _ := Platform.normalizeJson_strings values
    rw [scopeMembers, List.map_cons, Platform.normalizeMembers]
    simp only [bind_ok, require_ok, hvalues, Except.ok.injEq]
    rw [nfcScope, List.map_cons, List.map_cons, List.nodup_cons, List.forall_mem_cons]
    constructor
    · rintro ⟨_, hkey, _, rfl, ms', hms, rfl⟩
      obtain ⟨rfl, hnodup, hunseen⟩ := normalizeMembers_scope.mp hms
      refine ⟨?_, ⟨fun hmem => hunseen _ hmem List.mem_cons_self, hnodup⟩, hkey, fun k hk hseen => ?_⟩
      · simp [scopeMembers, nfcScope]
      · exact hunseen k hk (List.mem_cons_of_mem _ hseen)
    · rintro ⟨rfl, ⟨hnot, hnodup⟩, hkey, hunseen⟩
      refine ⟨(), hkey, _, rfl, _, normalizeMembers_scope.mpr ⟨rfl, hnodup, ?_⟩, ?_⟩
      · intro k hk hmem
        rcases List.mem_cons.mp hmem with rfl | hmem
        · exact hnot hk
        · exact hunseen k hk hmem
      · simp [scopeMembers, nfcScope]

/-- What the platform does to the texts that the code itself writes. -/
structure KeepsSnapshots (P : Platform) : Prop where
  /-- The normal form of a text is its own normal form. -/
  idem : ∀ text, P.nfc (P.nfc text) = P.nfc text
  /-- The keys of a snapshot are ASCII. -/
  keys : ∀ key ∈ snapshotKeys, P.nfc key = key

theorem normalizeJson_snapshot (hP : KeepsSnapshots P) {value : Json} :
    P.normalizeJson s.json = .ok value ↔
    value = RefreshSnapshot.json ⟨P.nfc s.datasourceId, P.nfc s.requestProfile,
        nfcScope P s.boundedScope, P.nfc s.intent⟩ ∧
      ((nfcScope P s.boundedScope).map Prod.fst).Nodup := by
  have hd : P.nfc "datasource_id" = "datasource_id" := hP.keys _ (by decide)
  have hp : P.nfc "request_profile" = "request_profile" := hP.keys _ (by decide)
  have hb : P.nfc "bounded_scope" = "bounded_scope" := hP.keys _ (by decide)
  have hi : P.nfc "intent" = "intent" := hP.keys _ (by decide)
  have hscope : ∀ ms, P.normalizeMembers [] (s.boundedScope.map fun m => (m.1, .arr (m.2.map .str))) =
      .ok ms ↔ ms = scopeMembers (nfcScope P s.boundedScope) ∧
        ((nfcScope P s.boundedScope).map Prod.fst).Nodup := by
    intro ms
    have h := @normalizeMembers_scope P s.boundedScope [] ms
    simpa [scopeMembers] using h
  simp only [RefreshSnapshot.json, Platform.normalizeJson, Platform.normalizeMembers, bind_ok,
    require_ok, hd, hp, hb, hi, hscope, Except.ok.injEq]
  constructor
  · rintro ⟨_, ⟨_, -, _, rfl, _, ⟨_, -, _, rfl, _, ⟨_, -, _, ⟨_, ⟨rfl, hnodup⟩, rfl⟩, _,
      ⟨_, -, _, rfl, _,
      rfl, rfl⟩, rfl⟩, rfl⟩, rfl⟩, rfl⟩
    exact ⟨rfl, hnodup⟩
  · rintro ⟨rfl, hnodup⟩
    exact ⟨_, ⟨(), by decide, _, rfl, _, ⟨(), by decide, _, rfl, _, ⟨(), by decide, _,
      ⟨_, ⟨rfl, hnodup⟩, rfl⟩, _, ⟨(), by decide, _, rfl, _, rfl, rfl⟩, rfl⟩, rfl⟩, rfl⟩, rfl⟩

/-! ## Reading back -/

theorem storedSnapshot_json (s : RefreshSnapshot) : storedSnapshot s.json =
    agentRefreshSnapshot (.str s.datasourceId) (.str s.requestProfile)
      (.obj (scopeMembers s.boundedScope)) (.str s.intent) := by
  have hkeys : ([("datasource_id", .str s.datasourceId), ("request_profile", .str s.requestProfile),
      ("bounded_scope", .obj (scopeMembers s.boundedScope)), ("intent", .str s.intent)] :
        List (String × Json)).map Prod.fst = snapshotKeys := rfl
  have hjson : s.json = .obj [("datasource_id", .str s.datasourceId),
      ("request_profile", .str s.requestProfile),
      ("bounded_scope", .obj (scopeMembers s.boundedScope)), ("intent", .str s.intent)] := rfl
  rw [hjson, storedSnapshot, hkeys, require, if_pos ⟨List.Subset.refl _, List.Subset.refl _⟩]
  simp [Json.lookup_cons]
  rfl

/-- What was stored of a snapshot is read back exactly if its normal form is within the bounds. -/
theorem storedSnapshot_normalized (hP : KeepsSnapshots P) {value : Json} {t : RefreshSnapshot}
    (h : P.normalizeJson s.json = .ok value) :
    storedSnapshot value = .ok t ↔ (s.nfc P).Bounded ∧ t = s.nfc P := by
  obtain ⟨rfl, -⟩ := (normalizeJson_snapshot hP).mp h
  rw [storedSnapshot_json, agentRefreshSnapshot_members]
  exact and_congr_left' bounded_sortScope.symm

theorem nfcScope_sortScope (hP : KeepsSnapshots P) (scope : List (String × List String)) :
    nfcScope P (sortScope (nfcScope P scope)) = sortScope (nfcScope P scope) := by
  rw [nfcScope]
  conv_rhs => rw [← List.map_id (sortScope (nfcScope P scope))]
  apply List.map_congr_left
  intro m hm
  obtain ⟨m', -, rfl⟩ := List.mem_map.mp ((perm_sortScope _).mem_iff.mp hm)
  show (P.nfc (P.nfc m'.1), (m'.2.map P.nfc).map P.nfc) = (P.nfc m'.1, m'.2.map P.nfc)
  rw [hP.idem, List.map_map]
  refine Prod.ext rfl (List.map_congr_left fun v _ => hP.idem v)

/-- What is read back has the fingerprint of what was stored. -/
theorem snapshotFingerprint_nfc (hP : KeepsSnapshots P) {fp : String}
    (h : snapshotFingerprint P s = .ok fp) : snapshotFingerprint P (s.nfc P) = .ok fp := by
  simp only [snapshotFingerprint, Platform.canonicalJson, bind_ok, liftStore_ok, Except.ok.injEq] at h ⊢
  obtain ⟨_, ⟨value, hvalue, rfl⟩, rfl⟩ := h
  obtain ⟨rfl, hnodup⟩ := (normalizeJson_snapshot hP).mp hvalue
  have hperm := perm_sortScope (nfcScope P s.boundedScope)
  have hfixed : P.normalizeJson (s.nfc P).json = .ok (s.nfc P).json := by
    apply (normalizeJson_snapshot hP).mpr
    rw [RefreshSnapshot.nfc]
    dsimp only
    rw [nfcScope_sortScope hP, hP.idem, hP.idem, hP.idem]
    exact ⟨rfl, (hperm.map Prod.fst).nodup_iff.mpr hnodup⟩
  have hscope : Json.sorted (.obj (scopeMembers (sortScope (nfcScope P s.boundedScope)))) =
      Json.sorted (.obj (scopeMembers (nfcScope P s.boundedScope))) := by
    have hnames : (scopeMembers (sortScope (nfcScope P s.boundedScope))).map Prod.fst =
        (sortScope (nfcScope P s.boundedScope)).map Prod.fst := by
      rw [scopeMembers, List.map_map]
      rfl
    have hdistinct : ((scopeMembers (sortScope (nfcScope P s.boundedScope))).map Prod.fst).Nodup := by
      rw [hnames]
      exact (hperm.map Prod.fst).nodup_iff.mpr hnodup
    exact sorted_obj_perm (hperm.map _) hdistinct
  refine ⟨_, ⟨_, hfixed, rfl⟩, ?_⟩
  have hsorted : Json.sorted (s.nfc P).json = Json.sorted (RefreshSnapshot.json ⟨P.nfc s.datasourceId,
      P.nfc s.requestProfile, nfcScope P s.boundedScope, P.nfc s.intent⟩) := by
    show Json.sorted (.obj [_, _, ("bounded_scope", .obj (scopeMembers (sortScope _))), _]) =
      Json.sorted (.obj [_, _, ("bounded_scope", .obj (scopeMembers _)), _])
    rw [Json.sorted, Json.sorted]
    simp only [Json.sortedMembers, hscope]
    rfl
  rw [Json.render_eq, Json.render_eq, hsorted]

end NanFung
