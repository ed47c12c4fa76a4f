import NanFung.Brief.Resolution

/-!
# Numeric provenance of a brief

Every number of an accepted brief is one that the ledger holds for its reference, and what the brief
says of its sources, its lineage and its confidence is read from the ledger and the draft. Numbers
and metadata are joined by the reference alone: a citation entry names an observation only where the
facade named one.
-/

namespace NanFung.Brief

variable {engine : TextEngine} {ledger : Ledger} {draft : MarketBriefDraft} {host : HostLedger}
  {references : Dict String CitationResolution}

/-! ## The entries of a built ledger -/

/-- What a citation entry rests on: a query entry for the same references at the same anchor, whose
observations include those it names. It carries no numbers of its own. -/
structure Backed (ledger : Ledger) (c : LedgerEntry) : Prop where
  query : ∃ q ∈ ledger, q.kind = .query ∧ (∀ ref ∈ c.citationRefs, ref ∈ q.citationRefs) ∧
    q.anchorAsOf = c.anchorAsOf ∧ ∀ o ∈ c.observationIds, o ∈ q.observationIds
  numberless : parseNumericFields c.numericProjection = none

theorem Backed.mono {ledger' : Ledger} {c : LedgerEntry} (h : Backed ledger c)
    (hle : ∀ e ∈ ledger, e ∈ ledger') : Backed ledger' c := by
  obtain ⟨q, hq, hrest⟩ := h.query
  exact ⟨⟨q, hle q hq, hrest⟩, h.numberless⟩

theorem lookup_eq_none {key : String} {members : Members} (h : ∀ m ∈ members, m.1 ≠ key) :
    Json.lookup key members = none := by
  rw [Json.lookup, Option.map_eq_none_iff, List.find?_eq_none]
  exact fun m hm => by simpa using h m hm

/-- A citation's projection has no numbers: it has no property of that name. -/
theorem parseNumericFields_citationEntry (citation : Members) (ref : String)
    (observationId : Option String) (query : LedgerEntry) :
    parseNumericFields (citationEntry citation ref observationId query).numericProjection =
      none := by
  have hvalue : ∀ members : List (String × Option Json), (∀ m ∈ members, m.1 ≠ "value") →
      parseNumericFields (some (.obj (literal members))) = none := by
    intro members hmembers
    have hlookup : Json.lookup "value" (literal members) = none := by
      refine lookup_eq_none fun m hm => ?_
      obtain ⟨n, hn, hnm⟩ := List.mem_filterMap.mp hm
      obtain ⟨v, -, rfl⟩ := Option.map_eq_some_iff.mp hnm
      exact hmembers n hn
    simp [parseNumericFields, string?, record?, hlookup]
  refine hvalue _ fun m hm => ?_
  simp only [List.mem_cons, List.not_mem_nil, or_false] at hm
  obtain rfl | rfl | rfl | rfl | rfl := hm <;> simp

theorem kind_of_mem_queryEntries {data : Members} {records : List Members} {entry : LedgerEntry}
    (h : entry ∈ queryEntries data records) : entry.kind = .query := by
  unfold queryEntries at h
  split at h
  · split at h
    · rw [List.mem_singleton] at h
      rw [h]
      rfl
    · obtain ⟨record, -, rfl⟩ := List.mem_map.mp h
      rfl
  · exact nomatch h

theorem enrichOne_backed {citation : Members}
    (h : ∀ c ∈ ledger, c.kind = .citation → Backed ledger c) :
    ∀ c ∈ enrichOne ledger citation, c.kind = .citation →
      Backed (enrichOne ledger citation) c := by
  obtain heq | ⟨ref, query, hquery, heq⟩ := enrichOne_cases ledger citation
  · rwa [heq]
  · rw [heq]
    obtain ⟨hmem, hkind, hlists, hobservation⟩ := citedQuery_eq_some hquery
    have hle : ∀ e ∈ ledger, e ∈ ledger ++
        [citationEntry citation ref (string? citation "observation_id") query] :=
      fun e he => List.mem_append_left _ he
    intro c hc hcitation
    cases List.mem_append.mp hc with
    | inl hc => exact (h c hc hcitation).mono hle
    | inr hc =>
      rw [List.mem_singleton] at hc
      subst hc
      refine ⟨⟨query, hle query hmem, hkind, fun r hr => ?_, rfl, fun o ho => ?_⟩, ?_⟩
      · rw [List.mem_singleton.mp hr]
        exact hlists
      · exact hobservation o (Option.mem_toList.mp ho)
      · exact parseNumericFields_citationEntry _ _ _ _

/-- In a ledger of query and citation results every citation entry is backed. -/
theorem Built.backed (h : Built ledger) : ∀ c ∈ ledger, c.kind = .citation → Backed ledger c := by
  induction h with
  | empty => exact fun c hc => nomatch hc
  | query data before ih =>
    intro c hc hcitation
    cases List.mem_append.mp hc with
    | inl hc => exact (ih c hc hcitation).mono fun e he => List.mem_append_left _ he
    | inr hc => exact nomatch (kind_of_mem_queryEntries hc).symm.trans hcitation
  | citations data before ih =>
    unfold enrichQueryLedger
    generalize recordArray (Json.lookup "citations" data) = citations
    clear before
    rename_i ledger
    induction citations generalizing ledger with
    | nil => exact ih
    | cons citation citations ihc => exact ihc (enrichOne_backed ih)

/-! ## Own members of plain objects -/

/-- One own member for each id, the ids that a plain object takes as members given. -/
structure OneEach {ν : Type} (object : Dict String ν) (ids : List String) : Prop where
  once : object.keys.Nodup
  own : ∀ id, id ≠ "__proto__" → (id ∈ object.keys ↔ id ∈ ids)

theorem oneEach_assignAll {ν : Type} (es : List (String × ν)) :
    OneEach (assignAll es) (es.map Prod.fst) := by
  refine ⟨Dict.keys_setAll_nodup List.nodup_nil, fun id hid => ?_⟩
  rw [assignAll, Dict.mem_keys_setAll]
  constructor
  · rintro (h | h)
    · exact nomatch h
    · obtain ⟨e, he, rfl⟩ := List.mem_map.mp h
      exact List.mem_map_of_mem (List.mem_of_mem_filter he)
  · intro h
    obtain ⟨e, he, rfl⟩ := List.mem_map.mp h
    exact Or.inr (List.mem_map_of_mem (List.mem_filter.mpr ⟨he, by simpa using hid⟩))

theorem get?_assignAll {ν : Type} {es : List (String × ν)} (hes : (es.map Prod.fst).Nodup)
    {id : String} {v : ν} (hid : id ≠ "__proto__") (h : (id, v) ∈ es) :
    (assignAll es).get? id = some v := by
  have hfilter : ((es.filter fun e => e.1 ≠ "__proto__").map Prod.fst).Nodup :=
    hes.sublist (List.Sublist.map _ List.filter_sublist)
  have hall : assignAll es = es.filter fun e => e.1 ≠ "__proto__" := by
    rw [assignAll, Dict.setAll_of_nodup (by simpa [Dict.keys] using hfilter), List.nil_append]
  rw [hall]
  exact Dict.get?_of_mem hfilter (List.mem_filter.mpr ⟨h, by simpa using hid⟩)

/-! ## The provenance of a brief -/

/-- What a reference resolves to: the numbers of a query entry that lists it, and the metadata of an
entry that lists it at the same anchor; a citation entry among the latter is backed. -/
structure Sourced (ledger : Ledger) (ref : String) (r : CitationResolution) : Prop where
  carries : Carries ledger ref r.entry r.fields
  query : r.entry.kind = .query
  described : ∃ c, Describes ledger ref r.metadata c ∧ c.anchorAsOf = r.entry.anchorAsOf ∧
    (c.kind = .citation → Backed ledger c)

/-- Where everything a brief says comes from: `references` is what the draft's references resolve
to. -/
structure Provenance (engine : TextEngine) (ledger : Ledger) (draft : MarketBriefDraft)
    (references : Dict String CitationResolution) (brief : MarketBrief) : Prop where
  cited : ∀ ref, ref ∈ references.keys ↔ ref ∈ draft.refs
  sourced : ∀ ref r, references.get? ref = some r → Sourced ledger ref r
  shown : List.Forall₂ (Shows references) draft.facts brief.facts
  anchor : ∀ entry ∈ ledger, brief.asOf = some entry.anchorAsOf
  guarded : ∀ text ∈ draft.texts, NumericGuard.check engine text = none
  sourcesOnce : (brief.sources.map BriefSource.citationRef).Nodup
  sources : ∀ s, s ∈ brief.sources ↔ ∃ r, references.get? s.citationRef = some r ∧
    s = ⟨s.citationRef, r.metadata.source, r.metadata.publicUrl, r.metadata.publishedAt⟩
  lineageEach : OneEach brief.lineage (draft.facts.map FactDraft.claimId)
  factEach : OneEach brief.factConfidence (draft.facts.map FactDraft.claimId)
  datasourceEach : OneEach brief.datasourceConfidence (draft.facts.map FactDraft.claimId)
  inferenceEach : OneEach brief.inferenceConfidence (draft.inferences.map InferenceDraft.claimId)
  lineage : ∀ fact ∈ draft.facts, fact.claimId ≠ "__proto__" →
    ∃ l, brief.lineage.get? fact.claimId = some l ∧ l.citationRefs = fact.refs ∧
      ∀ o, o ∈ l.observationIds ↔
        ∃ ref ∈ fact.refs, ∃ r, references.get? ref = some r ∧ o ∈ r.entry.observationIds
  factConfidence : ∀ fact ∈ draft.facts, fact.claimId ≠ "__proto__" →
    brief.factConfidence.get? fact.claimId = some fact.confidence
  datasourceConfidence : ∀ fact ∈ draft.facts, fact.claimId ≠ "__proto__" →
    ∃ ref r, fact.refs.head? = some ref ∧ references.get? ref = some r ∧
      brief.datasourceConfidence.get? fact.claimId = some r.metadata.datasourceConfidence
  inferenceConfidence : ∀ inference ∈ draft.inferences, inference.claimId ≠ "__proto__" →
    brief.inferenceConfidence.get? inference.claimId = some inference.confidence
  complete : brief.status = .complete → ∀ ref r, references.get? ref = some r →
    r.entry.isStale = false ∧ r.entry.isDegraded = false

theorem Resolvable.sourced {ref : String} {r : CitationResolution} (hbuilt : Built ledger)
    (hhost : hostLedger ledger = .ok host) (h : Resolvable ledger ref r) : Sourced ledger ref r := by
  have hanchors := (hostLedger_ok hhost).1
  obtain ⟨c, hc⟩ := h.described
  have hanchor : c.anchorAsOf = r.entry.anchorAsOf :=
    Option.some.inj ((hanchors c hc.1).symm.trans (hanchors _ h.carries.mem))
  refine ⟨h.carries, ?_, c, hc, hanchor, hbuilt.backed c hc.1⟩
  cases hkind : r.entry.kind with
  | query => rfl
  | citation =>
    have hnone := (hbuilt.backed _ h.carries.mem hkind).numberless
    exact nomatch hnone.symm.trans h.carries.numbers

theorem zip_keys {hydrations : List Hydration}
    (h : List.Forall₂ (HydratedFrom references) draft.facts hydrations) {ν : Type}
    (f : Hydration → ν) :
    ((draft.facts.map FactDraft.claimId).zip (hydrations.map f)).map Prod.fst =
      draft.facts.map FactDraft.claimId := by
  rw [List.map_fst_zip]
  simp [h.length_eq]

/-- The entry that a fact leaves in the zipped list of claims. -/
theorem mem_zip {facts : List FactDraft} {hydrations : List Hydration}
    (h : List.Forall₂ (HydratedFrom references) facts hydrations) {ν : Type} (f : Hydration → ν)
    {fact : FactDraft} (hfact : fact ∈ facts) :
    ∃ hydration, HydratedFrom references fact hydration ∧
      (fact.claimId, f hydration) ∈ (facts.map FactDraft.claimId).zip (hydrations.map f) := by
  induction h with
  | nil => exact nomatch hfact
  | cons hd _ ih =>
    cases List.mem_cons.mp hfact with
    | inl he => exact ⟨_, he ▸ hd, he ▸ List.mem_cons_self⟩
    | inr hfact =>
      obtain ⟨hydration, hfrom, hmem⟩ := ih hfact
      exact ⟨hydration, hfrom, List.mem_cons_of_mem _ hmem⟩

theorem freshnessWarnings_eq_nil (h : freshnessWarnings references = []) :
    ∀ e ∈ references, e.2.entry.isStale = false ∧ e.2.entry.isDegraded = false := by
  obtain ⟨hstale, hdegraded⟩ := List.append_eq_nil_iff.mp h
  intro e he
  constructor
  · have hnone : ∀ ref r, (ref, r) ∈ references → r.entry.isStale = false := by simpa using hstale
    exact hnone e.1 e.2 he
  · have hnone : ∀ ref r, (ref, r) ∈ references → r.entry.isDegraded = false := by
      simpa using hdegraded
    exact hnone e.1 e.2 he

/-- A brief is complete only without a freshness warning. -/
theorem warnings_of_complete {anchor : Option String} {hydrations : List Hydration}
    (h : (assembleBrief draft ledger anchor references hydrations).status = .complete) :
    freshnessWarnings references = [] := by
  simp only [assembleBrief] at h
  split at h
  · exact nomatch h
  · split at h
    · exact nomatch h
    · next hwarnings =>
      by_contra hne
      exact hwarnings ⟨h, hne⟩

theorem mem_briefSources (hnodup : references.keys.Nodup) {s : BriefSource} :
    s ∈ briefSources references ↔ ∃ r, references.get? s.citationRef = some r ∧
      s = ⟨s.citationRef, r.metadata.source, r.metadata.publicUrl, r.metadata.publishedAt⟩ := by
  constructor
  · intro h
    obtain ⟨e, he, rfl⟩ := List.mem_map.mp h
    exact ⟨e.2, Dict.get?_of_mem hnodup he, rfl⟩
  · rintro ⟨r, hr, hs⟩
    exact List.mem_map.mpr ⟨(s.citationRef, r), Dict.mem_of_get? hr, hs.symm⟩

/-- The brief that `finalizeBrief` returns for a draft says nothing but what the ledger holds. -/
theorem brief_provenance (engine : TextEngine) (input : Json) (ledger : Ledger)
    (brief : MarketBrief) (hbuilt : Built ledger)
    (h : finalizeBrief engine input ledger = .ok brief) :
    ∃ draft references, parseDraft input = .ok draft ∧
      Provenance engine ledger draft references brief := by
  obtain ⟨draft, host, references, hydrations, hdraft, htexts, hhost, hreferences, hhydrations,
    rfl⟩ := finalizeBrief_ok h
  obtain ⟨-, hcited, hnodup, hresolved⟩ := resolveReferences_ok hreferences
  obtain ⟨hanchors, hresolvable⟩ := hostLedger_ok hhost
  obtain ⟨hfactIds, hinferenceIds, -⟩ := List.nodup_append.mp (parseDraft_nodup hdraft)
  refine ⟨draft, references, hdraft, ?_⟩
  exact
    { cited := hcited
      sourced := fun ref r hr => (hresolvable ref r (hresolved ref r hr)).sourced hbuilt hhost
      shown := by
        show List.Forall₂ _ _ (hydrations.map Hydration.fact)
        rw [List.forall₂_map_right_iff]
        exact hhydrations.imp fun _ _ hd => hd.shows
      anchor := hanchors
      guarded := htexts
      sourcesOnce := by
        show ((briefSources references).map BriefSource.citationRef).Nodup
        rw [briefSources, List.map_map]
        exact hnodup
      sources := fun s => mem_briefSources hnodup
      lineageEach := zip_keys hhydrations Hydration.lineage ▸ oneEach_assignAll _
      factEach := by
        have heach := oneEach_assignAll (draft.facts.map fun f => (f.claimId, f.confidence))
        rwa [List.map_map] at heach
      datasourceEach := zip_keys hhydrations Hydration.datasourceConfidence ▸ oneEach_assignAll _
      inferenceEach := by
        have heach := oneEach_assignAll (draft.inferences.map fun i => (i.claimId, i.confidence))
        rwa [List.map_map] at heach
      lineage := fun fact hfact hid => by
        obtain ⟨hydration, hfrom, hmem⟩ := mem_zip hhydrations Hydration.lineage hfact
        refine ⟨hydration.lineage, ?_, hfrom.citationRefs, hfrom.observationIds⟩
        exact get?_assignAll (by rwa [zip_keys hhydrations]) hid hmem
      factConfidence := fun fact hfact hid => by
        refine get?_assignAll ?_ hid (List.mem_map_of_mem (f := fun f : FactDraft =>
          (f.claimId, f.confidence)) hfact)
        rwa [List.map_map]
      datasourceConfidence := fun fact hfact hid => by
        obtain ⟨hydration, hfrom, hmem⟩ := mem_zip hhydrations Hydration.datasourceConfidence hfact
        obtain ⟨ref, r, hhead, hr, hconfidence⟩ := hfrom.datasource
        refine ⟨ref, r, hhead, hr, ?_⟩
        rw [← hconfidence]
        exact get?_assignAll (by rwa [zip_keys hhydrations]) hid hmem
      inferenceConfidence := fun inference hinference hid => by
        refine get?_assignAll ?_ hid (List.mem_map_of_mem (f := fun i : InferenceDraft =>
          (i.claimId, i.confidence)) hinference)
        rwa [List.map_map]
      complete := fun hstatus ref r hr =>
        freshnessWarnings_eq_nil (warnings_of_complete hstatus) _ (Dict.mem_of_get? hr) }

/-! ## A Bank Rate brief -/

/-- The host's text functions on texts that name no number and no guarded claim. -/
def plainEngine : TextEngine := ⟨id, fun _ _ => none⟩

/-- One record of a `query_market_data` result. -/
def bankRateRecord (observationId ref : String) (value : Option String) : Json :=
  .obj (literal [("observation_id", some (.str observationId)),
    ("citation_refs", some (.arr [.str ref])),
    ("numeric", value.map fun v => .obj [("value", .str v), ("unit", .str "percent"),
      ("definition", .str "Bank Rate"), ("as_of", .str "2026-08-01"),
      ("source_date", .str "2026-08-01"), ("period_label", .null)]),
    ("retrieval_freshness", some (.str "fresh")), ("observation_freshness", some (.str "fresh")),
    ("degraded", some (.bool false))])

def bankRateQuery (anchor : String) (records : List Json) : Members :=
  [("anchor_as_of", .str anchor), ("capability_id", .str "uk.bank-rate-current"),
    ("datasource_ids", .arr [.str "boe.bank_rate.iudbedr"]), ("records", .arr records)]

/-- A `get_citation_metadata` result for one reference. -/
def bankRateCitation (ref observationId publisher : String) : Members :=
  [("citations", .arr [.obj [("citation_ref", .str ref), ("observation_id", .str observationId),
    ("confidence", .str "high"), ("publisher", .str publisher), ("public_url", .null),
    ("published_at", .null)]])]

def bankRateFact (claimId ref : String) : Json :=
  .obj [("claim_id", .str claimId), ("kind", .str "numeric"), ("confidence", .str "high"),
    ("numeric_citation_ref", .str ref)]

def bankRateDraft (facts : List Json) : Json :=
  .obj [("schema_version", .str "market_brief_draft.v1"), ("title", .str "Bank Rate"),
    ("status", .str "complete"), ("facts", .arr facts), ("inferences", .arr []),
    ("limitations", .arr [])]

/-- The ledger of one query and the metadata of one of its references. -/
def bankRateLedger (records : List Json) (citation : Members) : Ledger :=
  enrichQueryLedger
    (addQueryLedger [] (bankRateQuery "2026-08-02T00:00:00Z" records)
      (recordArray (Json.lookup "records" (bankRateQuery "2026-08-02T00:00:00Z" records))))
    citation

theorem built_bankRateLedger (records : List Json) (citation : Members) :
    Built (bankRateLedger records citation) :=
  (Built.empty.query _).citations _

/-- The ledger of one record whose reference is resolved. -/
def plainLedger : Ledger :=
  bankRateLedger [bankRateRecord "rate-observation" "h1.rate" (some "5.25")]
    (bankRateCitation "h1.rate" "rate-observation" "Bank of England")

theorem brief_provenance_plainLedger : ∃ brief draft references,
    finalizeBrief plainEngine (bankRateDraft [bankRateFact "rate" "h1.rate"]) plainLedger =
      .ok brief ∧
    parseDraft (bankRateDraft [bankRateFact "rate" "h1.rate"]) = .ok draft ∧
    Provenance plainEngine plainLedger draft references brief := by
  obtain ⟨brief, hbrief⟩ := ok_of_isOk (x := finalizeBrief plainEngine
    (bankRateDraft [bankRateFact "rate" "h1.rate"]) plainLedger) (by decide +kernel)
  obtain ⟨draft, references, hdraft, hprovenance⟩ := brief_provenance plainEngine
    (bankRateDraft [bankRateFact "rate" "h1.rate"]) plainLedger brief
    (built_bankRateLedger _ _) hbrief
  exact ⟨brief, draft, references, hbrief, hdraft, hprovenance⟩

/-- Two records that list one reference, the first without numbers: the metadata names the first. -/
def sharedLedger : Ledger :=
  bankRateLedger [bankRateRecord "note-observation" "h1.rate" none,
      bankRateRecord "rate-observation" "h1.rate" (some "5.25")]
    (bankRateCitation "h1.rate" "note-observation" "Bank of England")

/-- The metadata of a number need not name an observation of the entry the number comes from. -/
theorem not_observation_backed : ¬ ∀ (engine : TextEngine) (input : Json) (ledger : Ledger)
    (brief : MarketBrief) (draft : MarketBriefDraft), Built ledger →
    finalizeBrief engine input ledger = .ok brief → parseDraft input = .ok draft →
    ∀ fact, FactDraft.numeric fact ∈ draft.facts → ∃ entry ∈ ledger, ∃ c ∈ ledger,
      entry.kind = .query ∧ fact.numericCitationRef ∈ entry.citationRefs ∧
      (parseNumericFields entry.numericProjection).isSome ∧ c.kind = .citation ∧
      fact.numericCitationRef ∈ c.citationRefs ∧ c.anchorAsOf = entry.anchorAsOf ∧
      ∃ o ∈ c.observationIds, o ∈ entry.observationIds := by
  intro h
  obtain ⟨brief, hbrief⟩ := ok_of_isOk (x := finalizeBrief plainEngine
    (bankRateDraft [bankRateFact "rate" "h1.rate"]) sharedLedger) (by decide +kernel)
  have hdraft : parseDraft (bankRateDraft [bankRateFact "rate" "h1.rate"]) =
      .ok ⟨"Bank Rate", .complete, [.numeric ⟨"rate", .high, "h1.rate"⟩], [], []⟩ := by
    rfl
  obtain ⟨entry, hentry, c, hc, -, -, hnumeric, hkind, -, -, o, ho, hoe⟩ := h _ _ _ _ _
    (built_bankRateLedger _ _) hbrief hdraft ⟨"rate", .high, "h1.rate"⟩ List.mem_cons_self
  have hnone : ∀ c ∈ sharedLedger, ∀ entry ∈ sharedLedger, c.kind = .citation →
      (parseNumericFields entry.numericProjection).isSome →
      ∀ o ∈ c.observationIds, o ∉ entry.observationIds := by
    decide +kernel
  exact hnone c hc entry hentry hkind hnumeric o ho hoe

end NanFung.Brief
