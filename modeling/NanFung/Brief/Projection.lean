import NanFung.Brief.Browser

/-!
# What the browser sees of an accepted brief

The copy of an accepted brief agrees with the brief in everything but the citation references, and
is withheld exactly when one of its other texts contains `h1.`. Whatever is projected, no signed
handle is shown.
-/

namespace NanFung.Brief.Browser

open Json

variable {engine : TextEngine} {ledger : Ledger} {b : MarketBrief} {f : String → String}

/-! ## Accepted briefs name their sources -/

theorem mem_of_assignAll {ν : Type} {es : List (String × ν)} {e : String × ν}
    (h : e ∈ assignAll es) : e ∈ es :=
  (Dict.mem_setAll h).elim (fun h => nomatch h) List.mem_of_mem_filter

theorem finalizeBrief_selfContained {input : Json}
    (h : finalizeBrief engine input ledger = .ok b) : SelfContained b := by
  obtain ⟨draft, host, references, hydrations, -, -, -, hreferences, hhydrations, rfl⟩ :=
    finalizeBrief_ok h
  obtain ⟨-, hcited, hnodup, -⟩ := resolveReferences_ok hreferences
  have hsources : (briefSources references).map BriefSource.citationRef = references.keys := by
    rw [briefSources, List.map_map]
    rfl
  -- A fact's references are among the draft's, hence among the sources.
  have hrefs : ∀ fact ∈ draft.facts, ∀ ref ∈ fact.refs, ref ∈ references.keys :=
    fun fact hfact ref href => (hcited ref).mpr (List.mem_flatMap.mpr ⟨fact, hfact, href⟩)
  refine ⟨?_, fun shown hshown ref href => ?_, fun e he ref href => ?_⟩
  · show ((briefSources references).map BriefSource.citationRef).Nodup
    rwa [hsources]
  · show ref ∈ (briefSources references).map BriefSource.citationRef
    rw [hsources]
    obtain ⟨hydration, hmem, rfl⟩ := List.mem_map.mp hshown
    obtain ⟨fact, hfact, hfrom⟩ := exists_of_mem_right hhydrations hmem
    have hshows := hfrom.shows
    cases fact with
    | numeric f =>
      obtain ⟨r, -, hshown⟩ := hshows
      rw [hshown] at href
      cases href
    | qualitative f =>
      rw [hshows] at href
      exact hrefs _ hfact ref href
  · show ref ∈ (briefSources references).map BriefSource.citationRef
    rw [hsources]
    have hlineage := (List.of_mem_zip (mem_of_assignAll he)).2
    obtain ⟨hydration, hmem, hlin⟩ := List.mem_map.mp hlineage
    obtain ⟨fact, hfact, hfrom⟩ := exists_of_mem_right hhydrations hmem
    rw [← hlin, hfrom.citationRefs] at href
    exact hrefs fact hfact ref href

/-! ## The mark of a handle -/

/-- One of the texts of a value contains the mark of a handle. -/
def Leaks (v : Json) : Prop := ∃ t ∈ v.texts, handleMark <:+: t.toList

theorem marker_handleMark : Marker handleMark := by decide

theorem leaks_iff (v : Json) : Leaks v ↔ handleMark <:+: v.stringify :=
  (infix_stringify marker_handleMark v).symm

instance (v : Json) : Decidable (Leaks v) := decidable_of_iff _ (leaks_iff v).symm

theorem leaks_obj_nil : Leaks (.obj []) ↔ False := by simp [Leaks, texts, textsOfMembers]

theorem leaks_obj_cons (k : String) (v : Json) (ms : Members) :
    Leaks (.obj ((k, v) :: ms)) ↔ handleMark <:+: k.toList ∨ Leaks v ∨ Leaks (.obj ms) := by
  simp only [Leaks, texts, textsOfMembers, List.cons_append, List.mem_cons, List.mem_append,
    exists_eq_left, or_and_right, exists_or]

theorem leaks_arr_nil : Leaks (.arr []) ↔ False := by simp [Leaks, texts, textsOfItems]

theorem leaks_arr_cons (v : Json) (vs : List Json) :
    Leaks (.arr (v :: vs)) ↔ Leaks v ∨ Leaks (.arr vs) := by
  simp only [Leaks, texts, textsOfItems, List.mem_append, or_and_right, exists_or]

theorem leaks_arr_map {α : Type} {g h : α → Json} {l : List α}
    (hl : ∀ a ∈ l, Leaks (g a) ↔ Leaks (h a)) :
    Leaks (.arr (l.map g)) ↔ Leaks (.arr (l.map h)) := by
  induction l with
  | nil => rfl
  | cons a l ih =>
    rw [List.map_cons, List.map_cons, leaks_arr_cons, leaks_arr_cons, hl a List.mem_cons_self,
      ih fun b hb => hl b (List.mem_cons_of_mem _ hb)]

/-- A label numbers a source: it has no mark. -/
theorem not_leaks_label (index : Nat) : ¬ Leaks (.str (sourceAlias index).label) := by
  rintro ⟨t, ht, hinside⟩
  rw [texts, List.mem_singleton] at ht
  subst ht
  have hmem : 'h' ∈ (sourceAlias index).label.toList := hinside.subset (by decide)
  rw [sourceAlias, String.toList_append, List.mem_append] at hmem
  cases hmem with
  | inl hmem => exact absurd hmem (by decide)
  | inr hmem =>
    have hword : 'h' ∈ wordChars := int_chars (Int.ofNat (index + 1)) 'h' hmem
    exact absurd hword (by decide)

/-! ## The copy and the brief -/

def mapRefsFact (f : String → String) : HydratedFact → HydratedFact
  | .numeric claimId confidence fields => .numeric claimId confidence fields
  | .qualitative fact =>
    .qualitative { fact with supportingCitationRefs := fact.supportingCitationRefs.map f }

/-- The brief with every citation reference replaced. -/
def mapRefs (f : String → String) (b : MarketBrief) : MarketBrief :=
  { b with
    facts := b.facts.map (mapRefsFact f)
    sources := b.sources.map fun s => { s with citationRef := f s.citationRef }
    lineage := b.lineage.map fun e => (e.1, ⟨e.2.observationIds, e.2.citationRefs.map f⟩) }

theorem mapRefs_lineage :
    ((mapRefs f b).lineage.map fun e => (e.1, e.2.toJson)) = b.lineage.map fun e =>
      (e.1, BriefLineage.toJson ⟨e.2.observationIds, e.2.citationRefs.map f⟩) := by
  show (b.lineage.map _).map _ = _
  rw [List.map_map]
  rfl

/-- A value shows a brief: the same members, whatever their order, and a label for each source. -/
structure Mirrors (b : MarketBrief) (v : Json) : Prop where
  rest : ∀ key, key ≠ "sources" → key ≠ "facts" → v.get? key = b.toJson.get? key
  sources : ∃ items, v.get? "sources" = some (.arr items) ∧
    List.Forall₂ (fun s item => ∀ key, key ≠ "source_alias" → item.get? key = s.toJson.get? key)
      b.sources items
  facts : ∃ items, v.get? "facts" = some (.arr items) ∧
    List.Forall₂ (fun fact item => ∀ key, item.get? key = fact.toJson.get? key) b.facts items

/-- Two lists of members that differ in one place. -/
theorem lookup_replace {A B : Members} {k key : String} {v w : Json} (h : key ≠ k) :
    lookup key (A ++ (k, v) :: B) = lookup key (A ++ (k, w) :: B) := by
  induction A with
  | nil => rw [List.nil_append, List.nil_append, lookup_cons, lookup_cons, if_neg h.symm,
      if_neg h.symm]
  | cons m A ih => rw [List.cons_append, List.cons_append, lookup_cons, lookup_cons, ih]

theorem viewFact_mirrors (f : String → String) (fact : HydratedFact) (key : String) :
    (viewFact f fact).get? key = (mapRefsFact f fact).toJson.get? key := by
  cases fact with
  | numeric claimId confidence fields =>
    show lookup key _ = lookup key _
    simp only [lookup_cons]
    by_cases hid : "claim_id" = key
    · rw [if_pos hid, if_pos hid]
    · rw [if_neg hid, if_neg hid]
      by_cases hkind : "kind" = key
      · subst hkind
        rfl
      · rw [if_neg hkind, if_neg hkind]
  | qualitative fact =>
    show lookup key _ = lookup key _
    simp only [lookup_cons]
    by_cases hid : "claim_id" = key
    · rw [if_pos hid, if_pos hid]
    · rw [if_neg hid, if_neg hid]
      by_cases hkind : "kind" = key
      · subst hkind
        rfl
      · rw [if_neg hkind, if_neg hkind]

/-- The `k`-th source's alias is numbered `k`. -/
theorem map_aliasIn {refs : List String} (h : refs.Nodup) :
    refs.map (aliasIn refs) =
      (List.range' 0 refs.length).map fun k => (sourceAlias k).id := by
  refine List.ext_getElem (by simp) fun i hi hi' => ?_
  rw [List.length_map] at hi
  simp only [List.getElem_map, List.getElem_range', aliasIn, h.idxOf_getElem i hi]
  rw [Nat.zero_add, Nat.one_mul]

theorem viewSources_mirrors {sources : List BriefSource} {index : Nat}
    (h : (sources.map fun s => f s.citationRef) =
      (List.range' index sources.length).map fun k => (sourceAlias k).id) :
    List.Forall₂ (fun s item => ∀ key, key ≠ "source_alias" →
        item.get? key = (BriefSource.toJson s).get? key)
      (sources.map fun s => { s with citationRef := f s.citationRef })
      (viewSources index sources) := by
  induction sources generalizing index with
  | nil => exact .nil
  | cons s rest ih =>
    rw [List.length_cons, List.range'_succ, List.map_cons, List.map_cons] at h
    obtain ⟨hs, hrest⟩ := List.cons.inj h
    refine .cons (fun key hkey => ?_) (ih hrest)
    show lookup key _ = lookup key _
    simp only [lookup_cons, if_neg (Ne.symm hkey), hs]

theorem view_mirrors (h : SelfContained b) : Mirrors (mapRefs (MarketBriefAlias b) b) (view b) := by
  refine ⟨fun key hsources hfacts => ?_, ⟨_, rfl, ?_⟩, ⟨_, rfl, ?_⟩⟩
  · show lookup key _ = lookup key _
    simp only [MarketBrief.members, lookup_cons, if_neg hsources.symm, if_neg hfacts.symm,
      mapRefs_lineage]
    rfl
  · refine viewSources_mirrors ?_
    have hmap := map_aliasIn h.once
    rwa [List.map_map, List.length_map] at hmap
  · show List.Forall₂ _ (b.facts.map _) (b.facts.map _)
    rw [List.forall₂_map_left_iff, List.forall₂_map_right_iff]
    exact List.forall₂_same.mpr fun fact _ key => viewFact_mirrors _ fact key

/-! ## When the copy is withheld -/

theorem leaks_viewFact (f : String → String) (fact : HydratedFact) :
    Leaks (viewFact f fact) ↔ Leaks (mapRefsFact f fact).toJson := by
  cases fact with
  | numeric claimId confidence fields =>
    simp only [viewFact, mapRefsFact, HydratedFact.toJson, leaks_obj_cons]
    tauto
  | qualitative fact =>
    simp only [viewFact, mapRefsFact, HydratedFact.toJson, leaks_obj_cons]
    tauto

theorem leaks_viewSources {sources : List BriefSource} {index : Nat}
    (h : (sources.map fun s => f s.citationRef) =
      (List.range' index sources.length).map fun k => (sourceAlias k).id) :
    Leaks (.arr (viewSources index sources)) ↔ Leaks (.arr (sources.map fun s =>
      BriefSource.toJson { s with citationRef := f s.citationRef })) := by
  induction sources generalizing index with
  | nil => rfl
  | cons s rest ih =>
    rw [List.length_cons, List.range'_succ, List.map_cons, List.map_cons] at h
    obtain ⟨hs, hrest⟩ := List.cons.inj h
    have hkey : ¬ handleMark <:+: "source_alias".toList := by decide
    have hlabel := not_leaks_label index
    rw [viewSources, List.map_cons, leaks_arr_cons, leaks_arr_cons, ih hrest]
    simp only [viewSource, BriefSource.toJson, leaks_obj_cons, hs, hkey, hlabel, false_or]

theorem leaks_view (h : SelfContained b) :
    Leaks (view b) ↔ Leaks (mapRefs (MarketBriefAlias b) b).toJson := by
  have hfacts : Leaks (.arr (b.facts.map (viewFact (MarketBriefAlias b)))) ↔
      Leaks (.arr ((mapRefs (MarketBriefAlias b) b).facts.map HydratedFact.toJson)) := by
    show _ ↔ Leaks (.arr ((b.facts.map _).map _))
    rw [List.map_map]
    exact leaks_arr_map fun fact _ => leaks_viewFact _ fact
  have hsources : Leaks (.arr (viewSources 0 b.sources)) ↔
      Leaks (.arr ((mapRefs (MarketBriefAlias b) b).sources.map BriefSource.toJson)) := by
    have hmap := map_aliasIn h.once
    rw [List.map_map, List.length_map] at hmap
    show _ ↔ Leaks (.arr ((b.sources.map _).map _))
    rw [List.map_map]
    exact leaks_viewSources hmap
  simp only [view, MarketBrief.toJson, MarketBrief.members, leaks_obj_cons, hfacts, hsources,
    mapRefs_lineage]
  rfl

theorem not_leaks_unsupported : ¬ Leaks unsupportedArtifact := by decide +kernel

/-- Whatever is projected, what the browser gets has no mark of a handle. -/
theorem not_leaks_project (v : Json) : ¬ Leaks (projectArtifactForBrowser v) := by
  unfold projectArtifactForBrowser
  split
  · split
    · exact not_leaks_unsupported
    · next hmark => exact fun h => hmark ((leaks_iff _).mp h)
  · exact not_leaks_unsupported

/-- A signed handle starts with the version of the codec. -/
def SignedHandle (handle : String) : Prop := handleMark <+: handle.toList

/-- An accepted brief reaches the browser with its references numbered, unless another of its texts
contains the mark of a handle; no handle does. -/
theorem brief_projection (engine : TextEngine) (input : Json) (ledger : Ledger) (b : MarketBrief)
    (h : finalizeBrief engine input ledger = .ok b) :
    ((mapRefs (MarketBriefAlias b) b).sources.map BriefSource.citationRef =
      (List.range' 0 b.sources.length).map fun k => "source-" ++ toString (k + 1)) ∧
    (¬ Leaks (mapRefs (MarketBriefAlias b) b).toJson →
      projectArtifactForBrowser b.toJson ≠ unsupportedArtifact ∧
      Mirrors (mapRefs (MarketBriefAlias b) b) (projectArtifactForBrowser b.toJson)) ∧
    (Leaks (mapRefs (MarketBriefAlias b) b).toJson →
      projectArtifactForBrowser b.toJson = unsupportedArtifact) ∧
    ∀ v handle, SignedHandle handle →
      ¬ handle.toList <:+: (projectArtifactForBrowser v).stringify := by
  have hself := finalizeBrief_selfContained h
  have hproject : projectArtifactForBrowser b.toJson =
      if Leaks (mapRefs (MarketBriefAlias b) b).toJson then unsupportedArtifact else view b := by
    simp only [projectArtifactForBrowser, projectMarketBrief_eq hself, ← leaks_iff,
      leaks_view hself]
  refine ⟨?_, fun hleaks => ?_, fun hleaks => ?_, fun v handle hsigned hinside => ?_⟩
  · have hmap := map_aliasIn hself.once
    rw [List.map_map, List.length_map] at hmap
    show (b.sources.map _).map _ = _
    rw [List.map_map]
    exact hmap
  · rw [hproject, if_neg hleaks]
    refine ⟨fun heq => ?_, view_mirrors hself⟩
    have hversion : some (Json.str "market_brief.v1") = some (.str "unsupported_artifact.v1") :=
      congrArg (Json.get? "schema_version") heq
    exact absurd hversion (by decide)
  · rw [hproject, if_pos hleaks]
  · exact not_leaks_project v ((leaks_iff _).mpr (hsigned.isInfix.trans hinside))

theorem brief_projection_plainLedger : ∃ b,
    finalizeBrief plainEngine (bankRateDraft [bankRateFact "rate" "h1.rate"]) plainLedger = .ok b ∧
    projectArtifactForBrowser b.toJson ≠ unsupportedArtifact ∧
    Mirrors (mapRefs (MarketBriefAlias b) b) (projectArtifactForBrowser b.toJson) := by
  obtain ⟨b, hb⟩ := ok_of_isOk (x := finalizeBrief plainEngine
    (bankRateDraft [bankRateFact "rate" "h1.rate"]) plainLedger) (by decide +kernel)
  have hleaks : ∀ b ∈ (finalizeBrief plainEngine (bankRateDraft [bankRateFact "rate" "h1.rate"])
      plainLedger).toOption, ¬ Leaks (mapRefs (MarketBriefAlias b) b).toJson := by
    decide +kernel
  have hproject := brief_projection plainEngine (bankRateDraft [bankRateFact "rate" "h1.rate"])
    plainLedger b hb
  exact ⟨b, hb, hproject.2.1 (hleaks b (by rw [hb]; rfl))⟩

/-- A publisher whose name contains the mark withholds the brief. -/
theorem not_every_brief_reaches : ¬ ∀ (engine : TextEngine) (input : Json) (ledger : Ledger)
    (b : MarketBrief), finalizeBrief engine input ledger = .ok b →
    projectArtifactForBrowser b.toJson ≠ unsupportedArtifact := by
  intro h
  let ledger := bankRateLedger [bankRateRecord "rate-observation" "h1.rate" (some "5.25")]
    (bankRateCitation "h1.rate" "rate-observation" "Health1.org")
  have hwithheld : ∃ b ∈ (finalizeBrief plainEngine
      (bankRateDraft [bankRateFact "rate" "h1.rate"]) ledger).toOption,
      projectArtifactForBrowser b.toJson = unsupportedArtifact := by
    decide +kernel
  obtain ⟨b, hb, hunsupported⟩ := hwithheld
  exact h _ _ _ b (ok_of_toOption hb) hunsupported

end NanFung.Brief.Browser
