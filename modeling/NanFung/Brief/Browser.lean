import NanFung.Brief.Provenance
import NanFung.Lib.JsonText

/-!
# The browser's view of a brief

`browser-artifact.ts`: the final artifact is checked field by field and copied with every citation
reference replaced by its place among the sources. A copy in whose text `h1.` occurs is withheld.
-/

namespace NanFung.Brief

/-! ## The brief as a value -/

def ofNullable : Option String → Json
  | some s => .str s
  | none => .null

def ofStrings (l : List String) : Json := .arr (l.map .str)

def HydratedFact.toJson : HydratedFact → Json
  | .numeric claimId confidence fields =>
    .obj [("claim_id", .str claimId), ("kind", .str "numeric"),
      ("confidence", .str confidence.text), ("numeric_value", .str fields.value),
      ("numeric_unit", .str fields.unit), ("numeric_definition", .str fields.definition),
      ("numeric_as_of", .str fields.asOf), ("numeric_source_date", .str fields.sourceDate),
      ("numeric_period_label", .str fields.periodLabel)]
  | .qualitative fact =>
    .obj [("claim_id", .str fact.claimId), ("kind", .str "qualitative"),
      ("confidence", .str fact.confidence.text), ("text", .str fact.text),
      ("supporting_citation_refs", ofStrings fact.supportingCitationRefs)]

def InferenceDraft.toJson (inference : InferenceDraft) : Json :=
  .obj [("claim_id", .str inference.claimId), ("text", .str inference.text),
    ("confidence", .str inference.confidence.text),
    ("supporting_fact_ids", ofStrings inference.supportingFactIds),
    ("caveat", .str inference.caveat)]

def BriefSource.toJson (source : BriefSource) : Json :=
  .obj [("citation_ref", .str source.citationRef), ("source", .str source.source),
    ("public_url", ofNullable source.publicUrl), ("published_at", ofNullable source.publishedAt)]

def BriefLineage.toJson (lineage : BriefLineage) : Json :=
  .obj [("observation_ids", ofStrings lineage.observationIds),
    ("citation_refs", ofStrings lineage.citationRefs)]

def confidences (d : Dict String Confidence) : Json := .obj (d.map fun e => (e.1, .str e.2.text))

def MarketBrief.members (b : MarketBrief) : Members :=
  [("schema_version", .str "market_brief.v1"), ("title", .str b.title),
    ("status", .str b.status.text), ("facts", .arr (b.facts.map HydratedFact.toJson)),
    ("inferences", .arr (b.inferences.map InferenceDraft.toJson)),
    ("limitations", ofStrings b.limitations), ("as_of", ofNullable b.asOf),
    ("sources", .arr (b.sources.map BriefSource.toJson)),
    ("lineage", .obj (b.lineage.map fun e => (e.1, e.2.toJson))),
    ("freshness_warnings", ofStrings b.freshnessWarnings),
    ("published_at", ofNullable b.publishedAt),
    ("publication_date_warning", .bool b.publicationDateWarning),
    ("datasource_confidence", confidences b.datasourceConfidence),
    ("fact_confidence", confidences b.factConfidence),
    ("inference_confidence", confidences b.inferenceConfidence),
    ("display_text", .str b.displayText)]

def MarketBrief.toJson (b : MarketBrief) : Json := .obj b.members

namespace Browser

def unsupportedArtifact : Json :=
  .obj [("schema_version", .str "unsupported_artifact.v1"),
    ("message", .str "The host returned an unsupported final artifact.")]

structure SourceAlias where
  id : String
  label : String
  deriving DecidableEq, Repr

/-! ## Checks that throw -/

def record (value : Option Json) : Option Members := value.bind record?

def array : Option Json → Option (List Json)
  | some (.arr items) => some items
  | _ => none

def string (value : Option Json) : Option String := value.bind Json.asStr?

def strings (value : Option Json) : Option (List String) :=
  (array value).bind fun items => items.mapM Json.asStr?

def nullableString : Option Json → Option (Option String)
  | some .null => some none
  | value => (string value).map some

def boolean : Option Json → Option Bool
  | some (.bool b) => some b
  | _ => none

def member (allowed : List String) (value : Option Json) : Option String :=
  (string value).filter (· ∈ allowed)

/-! ## Projections -/

def confidenceNames : List String := ["high", "medium", "low"]

/-- The `index`-th source's alias. -/
def sourceAlias (index : Nat) : SourceAlias :=
  ⟨"source-" ++ toString (index + 1), "Source " ++ toString (index + 1)⟩

/-- The map over the sources, with the aliases it fills. -/
def projectSources (aliases : Dict String SourceAlias) (index : Nat) :
    List Json → Option (List Json × Dict String SourceAlias)
  | [] => some ([], aliases)
  | value :: rest => do
    let source ← record (some value)
    let rawRef ← string (Json.lookup "citation_ref" source)
    guard (aliases.get? rawRef = none)
    let name ← string (Json.lookup "source" source)
    let publicUrl ← nullableString (Json.lookup "public_url" source)
    let publishedAt ← nullableString (Json.lookup "published_at" source)
    let sourceAlias := sourceAlias index
    let (projected, aliases) ← projectSources (aliases.set rawRef sourceAlias) (index + 1) rest
    pure (.obj [("citation_ref", .str sourceAlias.id), ("source_alias", .str sourceAlias.label),
      ("source", .str name), ("public_url", ofNullable publicUrl),
      ("published_at", ofNullable publishedAt)] :: projected, aliases)

def citationAliases (value : Option Json) (aliases : Dict String SourceAlias) :
    Option (List String) := do
  (← strings value).mapM fun rawRef => (aliases.get? rawRef).map SourceAlias.id

def projectFact (aliases : Dict String SourceAlias) (value : Json) : Option Json := do
  let fact ← record (some value)
  let claimId ← string (Json.lookup "claim_id" fact)
  let confidence ← member confidenceNames (Json.lookup "confidence" fact)
  if Json.lookup "kind" fact = some (.str "numeric") then
    let value ← string (Json.lookup "numeric_value" fact)
    let unit ← string (Json.lookup "numeric_unit" fact)
    let definition ← string (Json.lookup "numeric_definition" fact)
    let asOf ← string (Json.lookup "numeric_as_of" fact)
    let sourceDate ← string (Json.lookup "numeric_source_date" fact)
    let periodLabel ← string (Json.lookup "numeric_period_label" fact)
    pure (.obj [("claim_id", .str claimId), ("confidence", .str confidence),
      ("kind", .str "numeric"), ("numeric_value", .str value), ("numeric_unit", .str unit),
      ("numeric_definition", .str definition), ("numeric_as_of", .str asOf),
      ("numeric_source_date", .str sourceDate), ("numeric_period_label", .str periodLabel)])
  else if Json.lookup "kind" fact = some (.str "qualitative") then
    let text ← string (Json.lookup "text" fact)
    let refs ← citationAliases (Json.lookup "supporting_citation_refs" fact) aliases
    pure (.obj [("claim_id", .str claimId), ("confidence", .str confidence),
      ("kind", .str "qualitative"), ("text", .str text),
      ("supporting_citation_refs", ofStrings refs)])
  else none

def projectInference (value : Json) : Option Json := do
  let inference ← record (some value)
  let claimId ← string (Json.lookup "claim_id" inference)
  let text ← string (Json.lookup "text" inference)
  let confidence ← member confidenceNames (Json.lookup "confidence" inference)
  let supportingFactIds ← strings (Json.lookup "supporting_fact_ids" inference)
  let caveat ← string (Json.lookup "caveat" inference)
  pure (.obj [("claim_id", .str claimId), ("text", .str text), ("confidence", .str confidence),
    ("supporting_fact_ids", ofStrings supportingFactIds), ("caveat", .str caveat)])

def projectLineageEntry (aliases : Dict String SourceAlias) (member : String × Json) :
    Option (String × Json) := do
  let entry ← record (some member.2)
  let observationIds ← strings (Json.lookup "observation_ids" entry)
  let refs ← citationAliases (Json.lookup "citation_refs" entry) aliases
  pure (member.1, .obj [("observation_ids", ofStrings observationIds),
    ("citation_refs", ofStrings refs)])

def projectLineage (value : Option Json) (aliases : Dict String SourceAlias) : Option Json := do
  let members ← (← record value).mapM (projectLineageEntry aliases)
  pure (.obj members)

def confidenceMap (value : Option Json) : Option Json := do
  let members ← (← record value).mapM fun m =>
    (member confidenceNames (some m.2)).map fun c => (m.1, Json.str c)
  pure (.obj members)

def projectMarketBrief (value : Json) : Option Json := do
  let artifact ← record (some value)
  guard (Json.lookup "schema_version" artifact = some (.str "market_brief.v1"))
  let (sources, aliases) ← projectSources [] 0 (← array (Json.lookup "sources" artifact))
  let title ← string (Json.lookup "title" artifact)
  let status ← member ["complete", "partial", "unavailable"] (Json.lookup "status" artifact)
  let facts ← (← array (Json.lookup "facts" artifact)).mapM (projectFact aliases)
  let inferences ← (← array (Json.lookup "inferences" artifact)).mapM projectInference
  let limitations ← strings (Json.lookup "limitations" artifact)
  let asOf ← nullableString (Json.lookup "as_of" artifact)
  let lineage ← projectLineage (Json.lookup "lineage" artifact) aliases
  let freshnessWarnings ← strings (Json.lookup "freshness_warnings" artifact)
  let publishedAt ← nullableString (Json.lookup "published_at" artifact)
  let publicationDateWarning ← boolean (Json.lookup "publication_date_warning" artifact)
  let datasourceConfidence ← confidenceMap (Json.lookup "datasource_confidence" artifact)
  let factConfidence ← confidenceMap (Json.lookup "fact_confidence" artifact)
  let inferenceConfidence ← confidenceMap (Json.lookup "inference_confidence" artifact)
  let displayText ← string (Json.lookup "display_text" artifact)
  pure (.obj [("schema_version", .str "market_brief.v1"), ("title", .str title),
    ("status", .str status), ("facts", .arr facts), ("inferences", .arr inferences),
    ("limitations", ofStrings limitations), ("as_of", ofNullable asOf), ("sources", .arr sources),
    ("lineage", lineage), ("freshness_warnings", ofStrings freshnessWarnings),
    ("published_at", ofNullable publishedAt),
    ("publication_date_warning", .bool publicationDateWarning),
    ("datasource_confidence", datasourceConfidence), ("fact_confidence", factConfidence),
    ("inference_confidence", inferenceConfidence), ("display_text", .str displayText)])

/-- What every signed handle starts with. -/
def handleMark : List Char := "h1.".toList

def projectArtifactForBrowser (value : Json) : Json :=
  match projectMarketBrief value with
  | some projected =>
    if handleMark <:+: projected.stringify then unsupportedArtifact else projected
  | none => unsupportedArtifact

/-! ## The copy of a brief -/

section View

variable {b : MarketBrief} {aliases : Dict String SourceAlias} {f : String → String}

/-- The alias of a reference: its place among some references. -/
def aliasIn (refs : List String) (ref : String) : String := (sourceAlias (refs.idxOf ref)).id

def viewSource (index : Nat) (s : BriefSource) : Json :=
  .obj [("citation_ref", .str (sourceAlias index).id),
    ("source_alias", .str (sourceAlias index).label), ("source", .str s.source),
    ("public_url", ofNullable s.publicUrl), ("published_at", ofNullable s.publishedAt)]

def viewSources (index : Nat) : List BriefSource → List Json
  | [] => []
  | s :: rest => viewSource index s :: viewSources (index + 1) rest

/-- The aliases that sources get, the first one numbered. -/
def aliasEntries (index : Nat) : List BriefSource → Dict String SourceAlias
  | [] => []
  | s :: rest => (s.citationRef, sourceAlias index) :: aliasEntries (index + 1) rest

theorem keys_aliasEntries (index : Nat) (sources : List BriefSource) :
    (aliasEntries index sources).keys = sources.map BriefSource.citationRef := by
  induction sources generalizing index with
  | nil => rfl
  | cons s rest ih => exact congrArg (s.citationRef :: ·) (ih (index + 1))

theorem get?_aliasEntries {ref : String} {sources : List BriefSource} (index : Nat)
    (h : ref ∈ sources.map BriefSource.citationRef) :
    (aliasEntries index sources).get? ref =
      some (sourceAlias (index + (sources.map BriefSource.citationRef).idxOf ref)) := by
  induction sources generalizing index with
  | nil => exact nomatch h
  | cons s rest ih =>
    rw [aliasEntries, Dict.get?_cons, List.map_cons, List.idxOf_cons]
    by_cases hs : s.citationRef = ref
    · simp [hs]
    · have hrest := (List.mem_cons.mp h).resolve_left (Ne.symm hs)
      rw [if_neg hs, ih (index + 1) hrest, cond_eq_ite, if_neg (by simpa using hs)]
      congr 2
      omega

@[simp] theorem nullableString_ofNullable (s : Option String) :
    nullableString (some (ofNullable s)) = some s := by
  cases s <;> rfl

@[simp] theorem strings_ofStrings (l : List String) : strings (some (ofStrings l)) = some l := by
  show (l.map Json.str).mapM Json.asStr? = some l
  induction l with
  | nil => rfl
  | cons s l ih => rw [List.map_cons, List.mapM_cons, ih]; rfl

theorem member_confidence (c : Confidence) :
    member confidenceNames (some (.str c.text)) = some c.text := by
  cases c <;> decide

/-- The sources are copied in order, each under its place. -/
theorem projectSources_eq {sources : List BriefSource} (index : Nat)
    (h : (aliases.keys ++ sources.map BriefSource.citationRef).Nodup) :
    projectSources aliases index (sources.map BriefSource.toJson) =
      some (viewSources index sources, aliases ++ aliasEntries index sources) := by
  induction sources generalizing aliases index with
  | nil => simp [projectSources, viewSources, aliasEntries]
  | cons s rest ih =>
    have hnew : s.citationRef ∉ aliases.keys := fun hmem =>
      List.disjoint_of_nodup_append h hmem List.mem_cons_self
    have hset : aliases.set s.citationRef (sourceAlias index) =
        aliases ++ [(s.citationRef, sourceAlias index)] := Dict.set_of_new hnew
    have hrest := @ih (aliases.set s.citationRef (sourceAlias index)) (index + 1) (by
      rw [hset, Dict.keys, List.map_append, List.append_assoc]
      exact h)
    rw [hset] at hrest
    rw [List.map_cons, projectSources]
    simp [BriefSource.toJson, record, record?, string, Json.lookup_cons, Json.asStr?,
      Dict.get?_eq_none_iff.mpr hnew, viewSources, viewSource, aliasEntries, hset, hrest]

/-- References that all have an alias. -/
def Aliased (aliases : Dict String SourceAlias) (f : String → String) (refs : List String) : Prop :=
  ∀ ref ∈ refs, (aliases.get? ref).map SourceAlias.id = some (f ref)

theorem citationAliases_eq {refs : List String} (h : Aliased aliases f refs) :
    citationAliases (some (ofStrings refs)) aliases = some (refs.map f) := by
  rw [citationAliases, strings_ofStrings]
  show refs.mapM _ = _
  induction refs with
  | nil => rfl
  | cons ref refs ih =>
    rw [List.mapM_cons, h ref List.mem_cons_self,
      ih fun r hr => h r (List.mem_cons_of_mem _ hr)]
    rfl

def viewFact (f : String → String) : HydratedFact → Json
  | .numeric claimId confidence fields =>
    .obj [("claim_id", .str claimId), ("confidence", .str confidence.text),
      ("kind", .str "numeric"), ("numeric_value", .str fields.value),
      ("numeric_unit", .str fields.unit), ("numeric_definition", .str fields.definition),
      ("numeric_as_of", .str fields.asOf), ("numeric_source_date", .str fields.sourceDate),
      ("numeric_period_label", .str fields.periodLabel)]
  | .qualitative fact =>
    .obj [("claim_id", .str fact.claimId), ("confidence", .str fact.confidence.text),
      ("kind", .str "qualitative"), ("text", .str fact.text),
      ("supporting_citation_refs", ofStrings (fact.supportingCitationRefs.map f))]

/-- The references a fact of the brief shows. -/
def shownRefs : HydratedFact → List String
  | .numeric _ _ _ => []
  | .qualitative fact => fact.supportingCitationRefs

theorem projectFact_eq {fact : HydratedFact} (h : Aliased aliases f (shownRefs fact)) :
    projectFact aliases fact.toJson = some (viewFact f fact) := by
  cases fact with
  | numeric claimId confidence fields =>
    simp [projectFact, HydratedFact.toJson, viewFact, record, record?, string, Json.lookup_cons,
      Json.asStr?, member_confidence]
  | qualitative fact =>
    have hrefs := @citationAliases_eq _ _ fact.supportingCitationRefs h
    simp [projectFact, HydratedFact.toJson, viewFact, record, record?, string, Json.lookup_cons,
      Json.asStr?, member_confidence, hrefs]

theorem projectInference_eq (inference : InferenceDraft) :
    projectInference inference.toJson = some inference.toJson := by
  simp [projectInference, InferenceDraft.toJson, record, record?, string, Json.lookup_cons,
    Json.asStr?, member_confidence]

theorem projectLineageEntry_eq {e : String × BriefLineage} (h : Aliased aliases f e.2.citationRefs) :
    projectLineageEntry aliases (e.1, e.2.toJson) =
      some (e.1, BriefLineage.toJson ⟨e.2.observationIds, e.2.citationRefs.map f⟩) := by
  simp [projectLineageEntry, BriefLineage.toJson, record, record?, Json.lookup_cons,
    citationAliases_eq h]

theorem mapM_map_eq {α β γ : Type} {g : α → β} {h : β → Option γ} {k : α → γ} {l : List α}
    (hl : ∀ a ∈ l, h (g a) = some (k a)) : (l.map g).mapM h = some (l.map k) := by
  induction l with
  | nil => rfl
  | cons a l ih =>
    rw [List.map_cons, List.mapM_cons, hl a List.mem_cons_self,
      ih fun b hb => hl b (List.mem_cons_of_mem _ hb)]
    rfl

theorem confidenceMap_eq (d : Dict String Confidence) :
    confidenceMap (some (confidences d)) = some (confidences d) := by
  have hmap := mapM_map_eq (l := d) (g := fun e => (e.1, Json.str e.2.text))
    (h := fun m => (member confidenceNames (some m.2)).map fun c => (m.1, Json.str c))
    (k := fun e => (e.1, Json.str e.2.text)) fun e _ => by simp [member_confidence]
  simp [confidenceMap, confidences, record, record?, hmap]

/-- Every reference of a brief is one of its sources, which are listed once. -/
structure SelfContained (b : MarketBrief) : Prop where
  once : (b.sources.map BriefSource.citationRef).Nodup
  facts : ∀ fact ∈ b.facts, ∀ ref ∈ shownRefs fact, ref ∈ b.sources.map BriefSource.citationRef
  lineage : ∀ e ∈ b.lineage, ∀ ref ∈ e.2.citationRefs,
    ref ∈ b.sources.map BriefSource.citationRef

/-- The aliases of a brief's references. -/
def MarketBriefAlias (b : MarketBrief) : String → String :=
  aliasIn (b.sources.map BriefSource.citationRef)

/-- The copy of a brief, as `projectMarketBrief` lays it out. -/
def view (b : MarketBrief) : Json :=
  let f := MarketBriefAlias b
  .obj [("schema_version", .str "market_brief.v1"), ("title", .str b.title),
    ("status", .str b.status.text), ("facts", .arr (b.facts.map (viewFact f))),
    ("inferences", .arr (b.inferences.map InferenceDraft.toJson)),
    ("limitations", ofStrings b.limitations), ("as_of", ofNullable b.asOf),
    ("sources", .arr (viewSources 0 b.sources)),
    ("lineage", .obj (b.lineage.map fun e =>
      (e.1, BriefLineage.toJson ⟨e.2.observationIds, e.2.citationRefs.map f⟩))),
    ("freshness_warnings", ofStrings b.freshnessWarnings),
    ("published_at", ofNullable b.publishedAt),
    ("publication_date_warning", .bool b.publicationDateWarning),
    ("datasource_confidence", confidences b.datasourceConfidence),
    ("fact_confidence", confidences b.factConfidence),
    ("inference_confidence", confidences b.inferenceConfidence),
    ("display_text", .str b.displayText)]

theorem aliased_of_mem {refs : List String}
    (h : ∀ ref ∈ refs, ref ∈ b.sources.map BriefSource.citationRef) :
    Aliased (aliasEntries 0 b.sources) (MarketBriefAlias b) refs := by
  intro ref href
  rw [get?_aliasEntries 0 (h ref href), Nat.zero_add]
  rfl

/-- One step of a chain of checks that passes. -/
theorem bind_of {α β : Type} {x : Option α} {g : α → Option β} {a : α} {v : β} (hx : x = some a)
    (hg : g a = some v) : (x >>= g) = some v := by
  rw [hx]
  exact hg

theorem projectMarketBrief_eq (h : SelfContained b) : projectMarketBrief b.toJson = some (view b) := by
  have hsources := @projectSources_eq [] b.sources 0 h.once
  have hfacts := mapM_map_eq (l := b.facts) (g := HydratedFact.toJson)
    (h := projectFact (aliasEntries 0 b.sources)) (k := viewFact (MarketBriefAlias b))
    fun fact hfact => projectFact_eq (aliased_of_mem (h.facts fact hfact))
  have hinferences := mapM_map_eq (l := b.inferences) (g := InferenceDraft.toJson)
    (h := projectInference) (k := InferenceDraft.toJson) fun i _ => projectInference_eq i
  have hlineage := mapM_map_eq (l := b.lineage) (g := fun e => (e.1, e.2.toJson))
    (h := projectLineageEntry (aliasEntries 0 b.sources)) (k := fun e =>
      (e.1, BriefLineage.toJson ⟨e.2.observationIds, e.2.citationRefs.map (MarketBriefAlias b)⟩))
    fun e he => projectLineageEntry_eq (aliased_of_mem (h.lineage e he))
  have hstatus : member ["complete", "partial", "unavailable"] (some (.str b.status.text)) =
      some b.status.text := by
    cases b.status <;> decide
  have hlineageMap : projectLineage (some (.obj (b.lineage.map fun e => (e.1, e.2.toJson))))
      (aliasEntries 0 b.sources) = some (.obj (b.lineage.map fun e => (e.1, BriefLineage.toJson
        ⟨e.2.observationIds, e.2.citationRefs.map (MarketBriefAlias b)⟩))) :=
    bind_of rfl (bind_of hlineage rfl)
  -- One check for each field, in the order of the source.
  exact bind_of (a := b.members) rfl <| bind_of (a := ()) rfl <|
    bind_of (a := b.sources.map BriefSource.toJson) rfl <| bind_of hsources <|
    bind_of (a := b.title) rfl <| bind_of hstatus <|
    bind_of (a := b.facts.map HydratedFact.toJson) rfl <| bind_of hfacts <|
    bind_of (a := b.inferences.map InferenceDraft.toJson) rfl <| bind_of hinferences <|
    bind_of (strings_ofStrings b.limitations) <| bind_of (nullableString_ofNullable b.asOf) <|
    bind_of hlineageMap <| bind_of (strings_ofStrings b.freshnessWarnings) <|
    bind_of (nullableString_ofNullable b.publishedAt) <|
    bind_of (a := b.publicationDateWarning) rfl <|
    bind_of (confidenceMap_eq b.datasourceConfidence) <|
    bind_of (confidenceMap_eq b.factConfidence) <|
    bind_of (confidenceMap_eq b.inferenceConfidence) <| bind_of (a := b.displayText) rfl rfl

end View

end Browser

end NanFung.Brief
