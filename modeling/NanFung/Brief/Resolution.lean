import NanFung.Brief.Finalizer
import NanFung.Lib.Loops

/-!
# What the finaliser's steps establish

One lemma for each step of `finalizeBrief`: what a parsed draft, a collected ledger and resolved
references satisfy when the step does not throw.
-/

namespace NanFung.Brief

variable {engine : TextEngine} {ledger : Ledger} {draft : MarketBriefDraft} {host : HostLedger}
  {references : Dict String CitationResolution} {ref : String}

/-! ## Drafts -/

theorem requireDistinct_ok {code : String} {seen texts : List String} {u : Unit} :
    requireDistinct code seen texts = .ok u ↔ texts.Nodup ∧ ∀ s ∈ texts, s ∉ seen := by
  induction texts generalizing seen with
  | nil => simp [requireDistinct]
  | cons s texts ih =>
    simp only [requireDistinct, bind_ok, require_ok, exists_and_left, exists_const, ih]
    constructor
    · rintro ⟨hs, hnodup, hseen⟩
      refine ⟨List.nodup_cons.mpr ⟨fun hmem => hseen s hmem List.mem_cons_self, hnodup⟩, ?_⟩
      intro t ht
      cases List.mem_cons.mp ht with
      | inl he => exact he ▸ hs
      | inr ht => exact fun htseen => hseen t ht (List.mem_cons_of_mem _ htseen)
    · rintro ⟨hnodup, hseen⟩
      obtain ⟨hs, hnodup⟩ := List.nodup_cons.mp hnodup
      refine ⟨hseen s List.mem_cons_self, hnodup, fun t ht htseen => ?_⟩
      cases List.mem_cons.mp htseen with
      | inl he => exact hs (he ▸ ht)
      | inr htseen => exact hseen t (List.mem_cons_of_mem _ ht) htseen

/-- The claims of a parsed draft have distinct ids. -/
theorem parseDraft_nodup {input : Json} (h : parseDraft input = .ok draft) :
    (draft.facts.map FactDraft.claimId ++
      draft.inferences.map InferenceDraft.claimId).Nodup := by
  simp only [parseDraft, bind_ok, require_ok, pure_ok] at h
  obtain ⟨record, -, -, -, -, -, title, -, status, -, factsInput, -, inferencesInput, -,
    limitations, -, -, -, -, -, facts, -, inferences, -, _, hdistinct, -, -, rfl⟩ := h
  exact (requireDistinct_ok.mp hdistinct).1

theorem guardTexts_ok {texts : List String} {u : Unit} :
    guardTexts engine texts = .ok u ↔ ∀ text ∈ texts, NumericGuard.check engine text = none := by
  induction texts with
  | nil => simp [guardTexts]
  | cons text texts ih =>
    unfold guardTexts
    cases hcheck : NumericGuard.check engine text with
    | none => simp [ih, hcheck]
    | some span => simp [hcheck]

/-! ## The ledger -/

/-- The entry is a query entry of the ledger that lists the reference and carries the numbers. -/
structure Carries (ledger : Ledger) (ref : String) (entry : LedgerEntry) (fields : NumericFields) :
    Prop where
  mem : entry ∈ ledger
  lists : ref ∈ entry.citationRefs
  numbers : parseNumericFields entry.numericProjection = some fields

/-- An entry of the ledger lists the reference and carries the metadata. -/
def Describes (ledger : Ledger) (ref : String) (metadata : CitationMetadata) (c : LedgerEntry) :
    Prop :=
  c ∈ ledger ∧ ref ∈ c.citationRefs ∧ parseCitationMetadata c.numericProjection = some metadata ∧
    ∀ anchor ∈ metadata.anchorAsOf, anchor = c.anchorAsOf

/-- What the loop of `hostLedger` keeps. -/
structure CollectedFrom (ledger : Ledger) (c : Collected) : Prop where
  numericKeys : c.numeric.keys.Nodup
  numeric : ∀ e ∈ c.numeric, Carries ledger e.1 e.2.1 e.2.2
  metadata : ∀ e ∈ c.metadata, ∃ entry, Describes ledger e.1 e.2 entry

theorem collectNumeric_from {entry : LedgerEntry} {c c' : Collected} (hentry : entry ∈ ledger)
    (hlists : ref ∈ entry.citationRefs) (hc : CollectedFrom ledger c)
    (h : collectNumeric entry ref c = .ok c') : CollectedFrom ledger c' := by
  unfold collectNumeric at h
  split at h
  · rwa [← pure_ok.mp h]
  · next fields hfields =>
    simp only [bind_ok, require_ok, pure_ok] at h
    obtain ⟨-, -, rfl⟩ := h
    refine ⟨Dict.keys_set_nodup hc.numericKeys, fun e he => ?_, hc.metadata⟩
    cases Dict.mem_set he with
    | inl he => exact he ▸ ⟨hentry, hlists, hfields⟩
    | inr he => exact hc.numeric e he

theorem collectMetadata_from {entry : LedgerEntry} {c c' : Collected} (hentry : entry ∈ ledger)
    (hlists : ref ∈ entry.citationRefs) (hc : CollectedFrom ledger c)
    (h : collectMetadata entry ref c = .ok c') : CollectedFrom ledger c' := by
  unfold collectMetadata at h
  split at h
  · rwa [← pure_ok.mp h]
  · next metadata hmetadata =>
    simp only [bind_ok, require_ok, pure_ok] at h
    obtain ⟨-, -, -, hanchor, rfl⟩ := h
    refine ⟨hc.numericKeys, hc.numeric, fun e he => ?_⟩
    cases Dict.mem_set he with
    | inl he => exact he ▸ ⟨entry, hentry, hlists, hmetadata, hanchor⟩
    | inr he => exact hc.metadata e he

theorem collectRef_from {entry : LedgerEntry} {c c' : Collected} (hentry : entry ∈ ledger)
    (hlists : ref ∈ entry.citationRefs) (hc : CollectedFrom ledger c)
    (h : collectRef entry c ref = .ok c') : CollectedFrom ledger c' := by
  obtain ⟨c₁, hnumeric, hmetadata⟩ := bind_ok.mp h
  exact collectMetadata_from hentry hlists (collectNumeric_from hentry hlists hc hnumeric) hmetadata

theorem collectEntry_from {anchor : Option String} {entry : LedgerEntry} {c c' : Collected}
    (hentry : entry ∈ ledger) (hc : CollectedFrom ledger c)
    (h : collectEntry anchor c entry = .ok c') : CollectedFrom ledger c' := by
  simp only [collectEntry, bind_ok, require_ok] at h
  obtain ⟨-, -, h⟩ := h
  exact foldlM_ok hc (fun ref hlists _ _ hc h => collectRef_from hentry hlists hc h) h

/-- A reference that the host ledger resolves: its numbers and its metadata. -/
structure Resolvable (ledger : Ledger) (ref : String) (r : CitationResolution) : Prop where
  carries : Carries ledger ref r.entry r.fields
  described : ∃ c, Describes ledger ref r.metadata c

theorem Collected.mem_citations {c : Collected} {e : String × CitationResolution}
    (h : e ∈ c.citations) :
    (e.1, e.2.entry, e.2.fields) ∈ c.numeric ∧ c.metadata.get? e.1 = some e.2.metadata := by
  obtain ⟨n, hn, hm⟩ := List.mem_filterMap.mp h
  obtain ⟨metadata, hmetadata, rfl⟩ := Option.map_eq_some_iff.mp hm
  exact ⟨hn, hmetadata⟩

/-- Every entry has the anchor of the host ledger, whose citations all resolve. -/
theorem hostLedger_ok (h : hostLedger ledger = .ok host) :
    (∀ entry ∈ ledger, host.anchorAsOf = some entry.anchorAsOf) ∧
      ∀ ref r, host.citations.get? ref = some r → Resolvable ledger ref r := by
  simp only [hostLedger, bind_ok, pure_ok] at h
  obtain ⟨collected, hloop, rfl⟩ := h
  constructor
  · intro entry hentry
    obtain ⟨c, c', hstep⟩ := foldlM_ok_mem hloop hentry
    simp only [collectEntry, bind_ok, require_ok] at hstep
    obtain ⟨-, hanchor, -⟩ := hstep
    exact hanchor
  · intro ref r hr
    have hstart : CollectedFrom ledger ⟨[], []⟩ :=
      ⟨List.nodup_nil, fun e he => (by cases he), fun e he => (by cases he)⟩
    have hfrom : CollectedFrom ledger collected :=
      foldlM_ok hstart (fun entry hentry _ _ hc h => collectEntry_from hentry hc h) hloop
    obtain ⟨hnumeric, hmetadata⟩ := Collected.mem_citations (Dict.mem_of_get? hr)
    exact ⟨hfrom.numeric _ hnumeric, hfrom.metadata _ (Dict.mem_of_get? hmetadata)⟩

/-! ## References -/

/-- What `resolveAll` adds to the references it has. -/
theorem resolveAll_ok {refs : List String} {resolved : Dict String CitationResolution}
    (h : resolveAll host resolved refs = .ok references) :
    (∀ k, k ∈ references.keys ↔ k ∈ resolved.keys ∨ k ∈ refs) ∧
      (resolved.keys.Nodup → references.keys.Nodup) ∧
      ∀ e ∈ references, e ∈ resolved ∨ host.citations.get? e.1 = some e.2 := by
  induction refs generalizing resolved with
  | nil =>
    rw [resolveAll, pure_ok] at h
    subst h
    exact ⟨fun k => by simp, id, fun e he => Or.inl he⟩
  | cons ref refs ih =>
    simp only [resolveAll, bind_ok, orThrow_ok, require_ok] at h
    obtain ⟨resolution, hresolution, -, -, h⟩ := h
    obtain ⟨hkeys, hnodup, hentries⟩ := ih h
    refine ⟨fun k => ?_, fun hd => hnodup (Dict.keys_set_nodup hd), fun e he => ?_⟩
    · rw [hkeys, Dict.mem_keys_set, List.mem_cons]
      constructor
      · rintro ((hk | hk) | hk)
        · exact Or.inr (Or.inl hk)
        · exact Or.inl hk
        · exact Or.inr (Or.inr hk)
      · rintro (hk | hk | hk)
        · exact Or.inl (Or.inr hk)
        · exact Or.inl (Or.inl hk)
        · exact Or.inr hk
    · cases hentries e he with
      | inr hr => exact Or.inr hr
      | inl hset =>
        cases Dict.mem_set hset with
        | inl he => exact Or.inr (he ▸ hresolution)
        | inr hr => exact Or.inl hr

/-- The references are the draft's, each resolved by the host ledger. -/
theorem resolveReferences_ok (h : resolveReferences draft host = .ok references) :
    (∀ fact ∈ draft.facts, fact.refs.Nodup) ∧ (∀ ref, ref ∈ references.keys ↔ ref ∈ draft.refs) ∧
      references.keys.Nodup ∧
      ∀ ref r, references.get? ref = some r → host.citations.get? ref = some r := by
  simp only [resolveReferences, bind_ok] at h
  obtain ⟨u, hdistinct, h⟩ := h
  obtain ⟨hkeys, hnodup, hentries⟩ := resolveAll_ok h
  refine ⟨fun fact hfact => ?_, fun ref => ?_, hnodup List.nodup_nil, fun ref r hr => ?_⟩
  · exact (requireDistinct_ok.mp (forM_ok.mp hdistinct fact hfact)).1
  · rw [hkeys]
    exact ⟨fun h => h.resolve_left (fun h => by cases h), Or.inr⟩
  · exact (hentries _ (Dict.mem_of_get? hr)).resolve_left (fun h => by cases h)

/-! ## Facts -/

theorem requiredResolution_ok {r : CitationResolution} {ref : Option String} :
    requiredResolution references ref = .ok r ↔ ∃ k, ref = some k ∧ references.get? k = some r := by
  cases ref with
  | none => simp [requiredResolution]
  | some ref => simp [requiredResolution]

/-- The fact as the brief shows it, with the numbers of its reference. -/
def Shows (references : Dict String CitationResolution) : FactDraft → HydratedFact → Prop
  | .numeric f, shown => ∃ r, references.get? f.numericCitationRef = some r ∧
      shown = .numeric f.claimId f.confidence r.fields
  | .qualitative f, shown => shown = .qualitative f

/-- What a fact's hydration holds. -/
structure HydratedFrom (references : Dict String CitationResolution) (fact : FactDraft)
    (hydration : Hydration) : Prop where
  shows : Shows references fact hydration.fact
  datasource : ∃ ref r, fact.refs.head? = some ref ∧ references.get? ref = some r ∧
    hydration.datasourceConfidence = r.metadata.datasourceConfidence
  citationRefs : hydration.lineage.citationRefs = fact.refs
  observationIds : ∀ o, o ∈ hydration.lineage.observationIds ↔
    ∃ ref ∈ fact.refs, ∃ r, references.get? ref = some r ∧ o ∈ r.entry.observationIds

/-- The observations of some references that all resolve. -/
theorem mem_observationIds {refs : List String} {resolutions : List CitationResolution}
    (h : List.Forall₂ (fun ref r => requiredResolution references (some ref) = .ok r) refs
      resolutions) {o : String} :
    (o ∈ resolutions.flatMap fun r => r.entry.observationIds) ↔
      ∃ ref ∈ refs, ∃ r, references.get? ref = some r ∧ o ∈ r.entry.observationIds := by
  induction h with
  | nil => simp
  | cons hr _ ih =>
    obtain ⟨k, hk, hget⟩ := requiredResolution_ok.mp hr
    cases hk
    rw [List.flatMap_cons, List.mem_append, ih]
    constructor
    · rintro (ho | ⟨ref, href, r, hr, ho⟩)
      · exact ⟨_, List.mem_cons_self, _, hget, ho⟩
      · exact ⟨ref, List.mem_cons_of_mem _ href, r, hr, ho⟩
    · rintro ⟨ref, href, r, hr, ho⟩
      cases List.mem_cons.mp href with
      | inl he =>
        rw [he, hget] at hr
        cases hr
        exact Or.inl ho
      | inr href => exact Or.inr ⟨ref, href, r, hr, ho⟩

theorem hydrateFact_ok {fact : FactDraft} {hydration : Hydration}
    (h : hydrateFact references fact = .ok hydration) :
    HydratedFrom references fact hydration := by
  simp only [hydrateFact, bind_ok, mapM_ok] at h
  obtain ⟨resolution, hfirst, resolutions, hall, h⟩ := h
  obtain ⟨ref, hhead, hget⟩ := requiredResolution_ok.mp hfirst
  have hmem : ∀ o, o ∈ (resolutions.flatMap fun r => r.entry.observationIds).eraseDups ↔
      ∃ ref ∈ fact.refs, ∃ r, references.get? ref = some r ∧ o ∈ r.entry.observationIds :=
    fun o => List.mem_eraseDups.trans (mem_observationIds hall)
  cases fact with
  | qualitative f =>
    rw [← pure_ok.mp h]
    exact ⟨rfl, ⟨ref, resolution, hhead, hget, rfl⟩, rfl, hmem⟩
  | numeric f =>
    rw [← pure_ok.mp h]
    refine ⟨⟨resolution, ?_, rfl⟩, ⟨ref, resolution, hhead, hget, rfl⟩, rfl, hmem⟩
    cases hhead
    exact hget

/-- What an accepted draft went through. -/
theorem finalizeBrief_ok {input : Json} {brief : MarketBrief}
    (h : finalizeBrief engine input ledger = .ok brief) :
    ∃ draft host references hydrations, parseDraft input = .ok draft ∧
      (∀ text ∈ draft.texts, NumericGuard.check engine text = none) ∧
      hostLedger ledger = .ok host ∧ resolveReferences draft host = .ok references ∧
      List.Forall₂ (HydratedFrom references) draft.facts hydrations ∧
      brief = assembleBrief draft ledger host.anchorAsOf references hydrations := by
  simp only [finalizeBrief, bind_ok, require_ok] at h
  obtain ⟨draft, hdraft, _, htexts, host, hhost, -, -, references, hreferences, h⟩ := h
  have hend : ∃ hydrations, List.Forall₂ (fun f v => hydrateFact references f = .ok v)
      draft.facts hydrations ∧
      assembleBrief draft ledger host.anchorAsOf references hydrations = brief := by
    split at h
    · simp only [bind_ok, pure_ok, mapM_ok] at h
      obtain ⟨-, -, -, -, hydrations, hhydrations, hbrief⟩ := h
      exact ⟨hydrations, hhydrations, hbrief⟩
    · simp only [bind_ok, pure_ok, mapM_ok] at h
      obtain ⟨-, -, hydrations, hhydrations, hbrief⟩ := h
      exact ⟨hydrations, hhydrations, hbrief⟩
  obtain ⟨hydrations, hhydrations, rfl⟩ := hend
  exact ⟨draft, host, references, hydrations, hdraft, guardTexts_ok.mp htexts, hhost, hreferences,
    hhydrations.imp fun _ _ => hydrateFact_ok, rfl⟩

end NanFung.Brief
