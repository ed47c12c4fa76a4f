import NanFung.Brief.Collected
import NanFung.Brief.Refresh

/-!
# Repeated reads of citation metadata

A turn may read the metadata of its references at any time. Every answer is entered in the ledger
beside the query it belongs to, and the finaliser takes the ledger as a whole: what further reads do to
a draft is a matter of the metadata that they add.
-/

namespace NanFung.Brief

variable {engine : TextEngine} {ledger ledger' added : Ledger} {host host' : HostLedger}

/-! ## A larger ledger -/

/-- The larger host ledger has the anchor and the citations of the smaller one. -/
structure HostLedger.Within (host host' : HostLedger) : Prop where
  anchor : host'.anchorAsOf = host.anchorAsOf
  citations : ∀ ref r, host.citations.get? ref = some r → host'.citations.get? ref = some r

theorem resolveAll_mono (h : host.Within host') {refs : List String}
    {resolved references : Dict String CitationResolution}
    (hrefs : resolveAll host resolved refs = .ok references) :
    resolveAll host' resolved refs = .ok references := by
  induction refs generalizing resolved with
  | nil => exact hrefs
  | cons ref refs ih =>
    simp only [resolveAll, bind_ok, orThrow_ok, require_ok] at hrefs ⊢
    obtain ⟨resolution, hresolution, u, hanchor, hrest⟩ := hrefs
    exact ⟨resolution, h.citations _ _ hresolution, u, h.anchor ▸ hanchor, ih hrest⟩

/-- A draft that is accepted over a ledger is accepted, as the same brief, over one with more
citations. -/
theorem finalizeBrief_mono {input : Json} {brief : MarketBrief} (hhost : hostLedger ledger = .ok host)
    (hhost' : hostLedger ledger' = .ok host') (hwithin : host.Within host')
    (hplanning : ∀ draft, emptyPlanningAttempt draft ledger' = emptyPlanningAttempt draft ledger)
    (h : finalizeBrief engine input ledger = .ok brief) :
    finalizeBrief engine input ledger' = .ok brief := by
  have hassemble : ∀ draft references hydrations,
      assembleBrief draft ledger' host'.anchorAsOf references hydrations =
        assembleBrief draft ledger host.anchorAsOf references hydrations := by
    intro draft references hydrations
    simp only [assembleBrief, hplanning, hwithin.anchor]
  simp only [finalizeBrief, bind_ok, resolveReferences] at h ⊢
  obtain ⟨draft, hdraft, u, htexts, d, hd, v, hfacts, references, ⟨w, hdistinct, hreferences⟩, h⟩ := h
  obtain rfl : d = host := Except.ok.inj (hd.symm.trans hhost)
  rw [← hwithin.anchor] at hfacts
  refine ⟨draft, hdraft, u, htexts, host', hhost', v, hfacts, references,
    ⟨w, hdistinct, resolveAll_mono hwithin hreferences⟩, ?_⟩
  simp only [hassemble]
  exact h

/-! ## What an answer adds -/

def LedgerEntry.isQuery (entry : LedgerEntry) : Bool := entry.kind = .query

/-- The entry of one citation, if a query lists its reference. -/
def citationAdded (ledger : Ledger) (citation : Members) : Option LedgerEntry :=
  (string? citation "citation_ref").bind fun ref =>
    (citedQuery ledger ref (string? citation "observation_id")).map
      (citationEntry citation ref (string? citation "observation_id"))

def citationsAdded (ledger : Ledger) (citations : List Members) : Ledger :=
  citations.filterMap (citationAdded ledger)

/-- The entries that the answer to a call adds to the ledger. -/
def entriesOf (populateLedger : Bool) (ledger : Ledger) (k : ToolCall) : Ledger :=
  if k.result.status = .error then []
  else match populateLedger, k.tool, k.result.data with
    | true, .queryMarketData, some data => queryEntries data (resultRecords k.result)
    | true, .getCitationMetadata, some data =>
      citationsAdded ledger (recordArray (Json.lookup "citations" data))
    | _, _, _ => []

/-- Only the query entries decide what a citation belongs to. -/
theorem citedQuery_congr (h : ledger.filter LedgerEntry.isQuery = ledger'.filter LedgerEntry.isQuery)
    (ref : String) (observationId : Option String) :
    citedQuery ledger ref observationId = citedQuery ledger' ref observationId := by
  have hfilter : ∀ l : Ledger, citedQuery l ref observationId =
      (l.filter LedgerEntry.isQuery).find? fun entry => ref ∈ entry.citationRefs ∧
        observationId.all fun o => o ∈ entry.observationIds := by
    intro l
    rw [List.find?_filter, citedQuery]
    congr 1
    funext entry
    simp [LedgerEntry.isQuery]
  rw [hfilter, hfilter, h]

theorem citationsAdded_congr
    (h : ledger.filter LedgerEntry.isQuery = ledger'.filter LedgerEntry.isQuery)
    (citations : List Members) : citationsAdded ledger citations = citationsAdded ledger' citations := by
  have hsame : citationAdded ledger = citationAdded ledger' := by
    funext citation
    simp only [citationAdded, citedQuery_congr h]
  rw [citationsAdded, citationsAdded, hsame]

/-- What a citation entry rests on: a query entry of its anchor; it has no numbers, and its metadata
is dated at its anchor. -/
structure Read (ledger : Ledger) (entry : LedgerEntry) : Prop where
  kind : entry.kind = .citation
  numberless : parseNumericFields entry.numericProjection = none
  anchored : Anchored entry
  query : ∃ q ∈ ledger, q.kind = .query ∧ q.anchorAsOf = entry.anchorAsOf

theorem lookup_literal_cons (key name : String) (value : Option Json)
    (members : List (String × Option Json)) : Json.lookup key (literal ((name, value) :: members)) =
      if name = key ∧ value.isSome then value else Json.lookup key (literal members) := by
  unfold literal
  rw [List.filterMap_cons]
  cases value with
  | none => simp
  | some v => simp [Json.lookup_cons]

theorem anchored_citationEntry (citation : Members) (ref : String) (observationId : Option String)
    (query : LedgerEntry) : Anchored (citationEntry citation ref observationId query) := by
  intro metadata hmetadata anchor hanchor
  have hlookup : ∀ a b c d : Option Json, Json.lookup "anchor_as_of" (literal
      [("published_at", a), ("datasource_confidence", b), ("source", c), ("public_url", d),
        ("anchor_as_of", some (.str query.anchorAsOf))]) = some (.str query.anchorAsOf) := by
    intro a b c d
    simp only [lookup_literal_cons]
    simp
  simp only [Option.mem_def, parseCitationMetadata, citationEntry, Option.bind_eq_bind,
    Option.bind_eq_some_iff, record?] at hmetadata
  obtain ⟨_, ⟨_, hobject, hrecord⟩, published, -, confidence, -, source, -, url, -, found, hfound,
    hpure⟩ := hmetadata
  cases hobject
  cases hrecord
  cases hpure
  rw [hlookup] at hfound
  cases hfound
  exact (Option.mem_some_iff.mp hanchor).symm

theorem read_of_citationAdded {citation : Members} {entry : LedgerEntry}
    (h : citationAdded ledger citation = some entry) : Read ledger entry := by
  simp only [citationAdded, Option.bind_eq_some_iff, Option.map_eq_some_iff] at h
  obtain ⟨ref, -, query, hquery, rfl⟩ := h
  obtain ⟨hmem, hkind, -⟩ := citedQuery_eq_some hquery
  exact ⟨rfl, parseNumericFields_citationEntry _ _ _ _, anchored_citationEntry _ _ _ _,
    query, hmem, hkind, rfl⟩

theorem read_of_mem_citationsAdded {citations : List Members} :
    ∀ entry ∈ citationsAdded ledger citations, Read ledger entry := by
  intro entry hentry
  obtain ⟨citation, -, h⟩ := List.mem_filterMap.mp hentry
  exact read_of_citationAdded h

theorem filter_isQuery_of_read (h : ∀ entry ∈ added, Read ledger' entry) :
    (ledger ++ added).filter LedgerEntry.isQuery = ledger.filter LedgerEntry.isQuery := by
  have hnone : added.filter LedgerEntry.isQuery = [] := by
    apply List.filter_eq_nil_iff.mpr
    intro entry hentry
    simp [LedgerEntry.isQuery, (h entry hentry).kind]
  rw [List.filter_append, hnone, List.append_nil]

theorem enrichQueryLedger_eq (ledger : Ledger) (data : Members) :
    enrichQueryLedger ledger data =
      ledger ++ citationsAdded ledger (recordArray (Json.lookup "citations" data)) := by
  unfold enrichQueryLedger
  generalize recordArray (Json.lookup "citations" data) = citations
  induction citations generalizing ledger with
  | nil => exact (List.append_nil _).symm
  | cons citation citations ih =>
    have hone : enrichOne ledger citation = ledger ++ (citationAdded ledger citation).toList := by
      unfold enrichOne citationAdded
      cases string? citation "citation_ref" with
      | none => exact (List.append_nil _).symm
      | some ref =>
        dsimp only [Option.bind_some]
        cases citedQuery ledger ref (string? citation "observation_id") with
        | none => exact (List.append_nil _).symm
        | some query => rfl
    have hadded : ∀ entry ∈ (citationAdded ledger citation).toList, Read ledger entry :=
      fun entry hentry => read_of_citationAdded (Option.mem_toList.mp hentry)
    have hqueries : (ledger ++ (citationAdded ledger citation).toList).filter LedgerEntry.isQuery =
        ledger.filter LedgerEntry.isQuery := filter_isQuery_of_read hadded
    have hcons : citationsAdded ledger (citation :: citations) =
        (citationAdded ledger citation).toList ++ citationsAdded ledger citations := by
      rw [citationsAdded, List.filterMap_cons]
      cases citationAdded ledger citation with
      | none => rfl
      | some entry => rfl
    rw [List.foldl_cons, hone, ih, citationsAdded_congr hqueries, hcons, List.append_assoc]

variable {s : TurnState} {k : ToolCall}

theorem populate_eq (populateLedger : Bool) (ledger : Ledger) (k : ToolCall)
    (h : k.result.status ≠ .error) :
    populate populateLedger ledger k.tool k.result = ledger ++ entriesOf populateLedger ledger k := by
  unfold entriesOf populate
  rw [if_neg h]
  cases populateLedger with
  | false => exact (List.append_nil _).symm
  | true =>
    cases k.tool <;> cases k.result.data <;>
      first
      | exact (List.append_nil _).symm
      | exact enrichQueryLedger_eq ledger _
      | rfl

theorem entriesOf_congr (h : ledger.filter LedgerEntry.isQuery = ledger'.filter LedgerEntry.isQuery)
    (populateLedger : Bool) (k : ToolCall) :
    entriesOf populateLedger ledger k = entriesOf populateLedger ledger' k := by
  simp only [entriesOf, citationsAdded_congr h]

/-- A citation lookup adds only what it read. -/
theorem read_of_mem_entriesOf {populateLedger : Bool} (hk : k.tool = .getCitationMetadata) :
    ∀ entry ∈ entriesOf populateLedger ledger k, Read ledger entry := by
  intro entry hentry
  unfold entriesOf at hentry
  rw [hk] at hentry
  split at hentry
  · exact nomatch hentry
  · cases populateLedger with
    | false => exact nomatch hentry
    | true =>
      cases hdata : k.result.data with
      | none =>
        rw [hdata] at hentry
        exact nomatch hentry
      | some data =>
        rw [hdata] at hentry
        exact read_of_mem_citationsAdded entry hentry

/-- A finalisation adds nothing. -/
theorem populate_finalize (populateLedger : Bool) (ledger : Ledger) (result : ToolResult) :
    populate populateLedger ledger .finalizeMarketBrief result = ledger := by
  cases populateLedger <;> rfl

/-- Every facade call of the run was answered: the turn is within its budgets. -/
def FacadeAnswered (engine : TextEngine) (s : TurnState) (calls : List ToolCall) : Prop :=
  ∀ p ∈ outcomes engine s calls, p.1.tool ≠ .finalizeMarketBrief → p.2 = .answered p.1.result

instance (engine : TextEngine) (s : TurnState) (calls : List ToolCall) :
    Decidable (FacadeAnswered engine s calls) :=
  inferInstanceAs (Decidable (∀ p ∈ outcomes engine s calls, _))

theorem callTool_ledger
    (h : k.tool ≠ .finalizeMarketBrief → (callTool engine s k).2 = .answered k.result) :
    (callTool engine s k).1.turn.ledger =
      s.turn.ledger ++ entriesOf s.runner.populateLedger s.turn.ledger k := by
  by_cases hk : k.tool = .finalizeMarketBrief
  · have hnone : entriesOf s.runner.populateLedger s.turn.ledger k = [] := by
      unfold entriesOf
      rw [hk]
      cases s.runner.populateLedger <;> exact ite_self _
    rw [hnone, List.append_nil]
    obtain heq | ⟨result, heq⟩ := (callTool_called engine s k).ledger_cases
    · exact heq
    · rw [heq, hk, populate_finalize]
  · have hcalled := callTool_called engine s k
    rw [h hk] at hcalled
    cases hcalled with
    | idle hledger hrunner herror =>
      have hnone : entriesOf s.runner.populateLedger s.turn.ledger k = [] := by
        unfold entriesOf
        exact if_pos (herror k.result rfl).1
      rw [hledger, hnone, List.append_nil]
    | charged hallowed hanswer hstatus hledger hrunner =>
      rw [hledger, populate_eq _ _ _ hstatus]

/-! ## Runs with further reads -/

/-- The calls of a turn, each marked with whether it was inserted. -/
abbrev MarkedCalls := List (Bool × ToolCall)

def MarkedCalls.all (run : MarkedCalls) : List ToolCall := run.map Prod.snd

def MarkedCalls.kept (run : MarkedCalls) : List ToolCall :=
  (run.filter fun m => !m.1).map Prod.snd

/-- The entries of the inserted calls. -/
def insertedEntries (populateLedger : Bool) : Ledger → MarkedCalls → Ledger
  | _, [] => []
  | ledger, (marked, k) :: run =>
    (if marked then entriesOf populateLedger ledger k else []) ++
      insertedEntries populateLedger (ledger ++ entriesOf populateLedger ledger k) run

/-- A ledger with further citation entries in it. -/
structure Interleaved (ledger ledger' added : Ledger) : Prop where
  perm : ledger'.Perm (ledger ++ added)
  queries : ledger.filter LedgerEntry.isQuery = ledger'.filter LedgerEntry.isQuery
  first : ledger'.head? = ledger.head?
  read : ∀ entry ∈ added, Read ledger entry

theorem Read.mono {entry : LedgerEntry} (h : Read ledger entry)
    (hle : ∀ e ∈ ledger, e ∈ ledger') : Read ledger' entry := by
  obtain ⟨q, hq, hrest⟩ := h.query
  exact ⟨h.kind, h.numberless, h.anchored, q, hle q hq, hrest⟩

theorem Interleaved.refl (ledger : Ledger) : Interleaved ledger ledger [] :=
  ⟨by rw [List.append_nil], rfl, rfl, nofun⟩

/-- Both ledgers get the same further entries. -/
theorem Interleaved.append (h : Interleaved ledger ledger' added) (entries : Ledger) :
    Interleaved (ledger ++ entries) (ledger' ++ entries) added := by
  refine ⟨?_, ?_, ?_, fun entry hentry => (h.read entry hentry).mono fun e he =>
    List.mem_append_left _ he⟩
  · have hswap : (ledger ++ added ++ entries).Perm (ledger ++ entries ++ added) := by
      rw [List.append_assoc, List.append_assoc]
      exact List.Perm.append_left _ List.perm_append_comm
    exact (h.perm.append_right entries).trans hswap
  · rw [List.filter_append, List.filter_append, h.queries]
  · rw [List.head?_append, List.head?_append, h.first]

/-- Only the larger ledger gets further citation entries. -/
theorem Interleaved.read_more (h : Interleaved ledger ledger' added) {entries : Ledger}
    (hentries : ∀ entry ∈ entries, Read ledger' entry) :
    Interleaved ledger (ledger' ++ entries) (added ++ entries) := by
  have hquery : ∀ q ∈ ledger', q.kind = .query → q ∈ ledger := by
    intro q hq hkind
    have hmem : q ∈ ledger'.filter LedgerEntry.isQuery :=
      List.mem_filter.mpr ⟨hq, by simp [LedgerEntry.isQuery, hkind]⟩
    rw [← h.queries] at hmem
    exact (List.mem_filter.mp hmem).1
  have hread : ∀ entry ∈ entries, Read ledger entry := by
    intro entry hentry
    obtain ⟨q, hq, hkind, hanchor⟩ := (hentries entry hentry).query
    exact { hentries entry hentry with query := ⟨q, hquery q hq hkind, hkind, hanchor⟩ }
  refine ⟨?_, ?_, ?_, fun entry hentry => ?_⟩
  · rw [← List.append_assoc]
    exact h.perm.append_right entries
  · rw [filter_isQuery_of_read hentries, h.queries]
  · cases entries with
    | nil => rw [List.append_nil, h.first]
    | cons entry entries =>
      obtain ⟨q, hq, -⟩ := (hread entry List.mem_cons_self).query
      rw [List.head?_append, h.first]
      cases ledger with
      | nil => exact nomatch hq
      | cons e ledger => rfl
  · cases List.mem_append.mp hentry with
    | inl hentry => exact h.read entry hentry
    | inr hentry => exact hread entry hentry

/-- A run with further reads builds the ledger of the run without them, with their entries between. -/
theorem interleaved_runCalls {s s' : TurnState} {run : MarkedCalls}
    (hreads : ∀ m ∈ run, m.1 = true → m.2.tool = .getCitationMetadata)
    (hpopulate : s'.runner.populateLedger = s.runner.populateLedger)
    (hkept : FacadeAnswered engine s run.kept) (hall : FacadeAnswered engine s' run.all)
    (h : Interleaved s.turn.ledger s'.turn.ledger added) :
    Interleaved (runCalls engine s run.kept).turn.ledger (runCalls engine s' run.all).turn.ledger
      (added ++ insertedEntries s.runner.populateLedger s'.turn.ledger run) := by
  induction run generalizing s s' added with
  | nil => exact (List.append_nil added).symm ▸ h
  | cons m run ih =>
    obtain ⟨marked, k⟩ := m
    have hfirst : k.tool ≠ .finalizeMarketBrief → (callTool engine s' k).2 = .answered k.result :=
      hall (k, (callTool engine s' k).2) List.mem_cons_self
    have hledger' := callTool_ledger hfirst
    have hpopulate' := (callTool_called engine s' k).populateLedger
    have hall' : FacadeAnswered engine (callTool engine s' k).1 (MarkedCalls.all run) :=
      fun p hp => hall p (List.mem_cons_of_mem _ hp)
    have hreads' : ∀ m ∈ run, m.1 = true → m.2.tool = .getCitationMetadata :=
      fun m hm => hreads m (List.mem_cons_of_mem _ hm)
    cases marked with
    | true =>
      have htool := hreads (true, k) List.mem_cons_self rfl
      have hread : ∀ entry ∈ entriesOf s'.runner.populateLedger s'.turn.ledger k,
          Read s'.turn.ledger entry := read_of_mem_entriesOf htool
      have hmore := h.read_more hread
      rw [← hledger'] at hmore
      have hrest := ih hreads' (hpopulate'.trans hpopulate) hkept hall' hmore
      rw [hledger', hpopulate, List.append_assoc] at hrest
      exact hrest
    | false =>
      have hsecond : k.tool ≠ .finalizeMarketBrief → (callTool engine s k).2 = .answered k.result :=
        hkept (k, (callTool engine s k).2) List.mem_cons_self
      have hkept' : FacadeAnswered engine (callTool engine s k).1 (MarkedCalls.kept run) :=
        fun p hp => hkept p (List.mem_cons_of_mem _ hp)
      have hpopulate'' := (callTool_called engine s k).populateLedger
      have hsame := entriesOf_congr h.queries s.runner.populateLedger k
      have hboth := h.append (entriesOf s.runner.populateLedger s.turn.ledger k)
      rw [← callTool_ledger hsecond, hsame, ← hpopulate, ← hledger'] at hboth
      have hrest := ih hreads' (hpopulate'.trans (hpopulate.trans hpopulate''.symm)) hkept' hall' hboth
      rw [hledger', hpopulate'', hpopulate] at hrest
      exact hrest

/-! ## Fresh metadata -/

/-- The references a ledger has readable metadata for, once for each entry. -/
def metadataRefs (ledger : Ledger) : List String := Dict.keys (ledger.flatMap metadataPairs)

/-- The further entries bring metadata only for references without any, and for none twice. -/
structure Fresh (ledger added : Ledger) : Prop where
  once : (metadataRefs added).Nodup
  unread : ∀ ref ∈ metadataRefs added, ref ∉ metadataRefs ledger

theorem nodup_metadataRefs_append : (metadataRefs (ledger ++ added)).Nodup ↔
    (metadataRefs ledger).Nodup ∧ Fresh ledger added := by
  rw [metadataRefs, List.flatMap_append, Dict.keys, List.map_append, List.nodup_append]
  constructor
  · rintro ⟨hledger, hadded, hne⟩
    exact ⟨hledger, hadded, fun ref href hmem => hne ref hmem ref href rfl⟩
  · rintro ⟨hledger, hfresh⟩
    exact ⟨hledger, hfresh.once, fun a ha b hb hab => hfresh.unread b hb (hab ▸ ha)⟩

/-- Entries without numbers collect none. -/
theorem flatMap_numericPairs_of_read (h : ∀ entry ∈ added, Read ledger entry) :
    added.flatMap numericPairs = [] := by
  apply List.flatMap_eq_nil_iff.mpr
  intro entry hentry
  apply List.flatMap_eq_nil_iff.mpr
  intro ref _
  rw [numericPair, (h entry hentry).numberless]
  rfl

theorem Interleaved.emptyPlanningAttempt (h : Interleaved ledger ledger' added)
    (draft : MarketBriefDraft) :
    emptyPlanningAttempt draft ledger' = Brief.emptyPlanningAttempt draft ledger := by
  have hfilter : ∀ l : Ledger, (l.any fun entry => entry.kind = .query &&
        entry.capabilityId = some planningCapabilityId && entry.observationIds = []) =
      (l.filter LedgerEntry.isQuery).any fun entry =>
        entry.capabilityId = some planningCapabilityId && entry.observationIds = [] := by
    intro l
    rw [List.any_filter]
    simp only [LedgerEntry.isQuery, Bool.and_assoc]
  simp only [Brief.emptyPlanningAttempt, hfilter, h.queries]

/-- A larger ledger is accepted when its further metadata is fresh, and then it resolves what the
smaller one does. -/
theorem Interleaved.hostLedger (h : Interleaved ledger ledger' added)
    (hhost : hostLedger ledger = .ok host) :
    (∀ host', Brief.hostLedger ledger' = .ok host' → Fresh ledger added) ∧
      (Fresh ledger added → ∃ host', Brief.hostLedger ledger' = .ok host' ∧ host.Within host') := by
  obtain ⟨honce, hfits, rfl⟩ := hostLedger_iff.mp hhost
  have hnumeric : (collected ledger').numeric.Perm (collected ledger).numeric := by
    have := h.perm.flatMap_right numericPairs
    rwa [List.flatMap_append, flatMap_numericPairs_of_read h.read, List.append_nil] at this
  have hmetadata : (collected ledger').metadata.Perm (collected (ledger ++ added)).metadata :=
    h.perm.flatMap_right metadataPairs
  have hnodup : (collected ledger').metadata.keys.Nodup ↔ Fresh ledger added :=
    ((hmetadata.map Prod.fst).nodup_iff.trans nodup_metadataRefs_append).trans
      (and_iff_right honce.metadata)
  have hanchor : firstAnchor ledger' = firstAnchor ledger := by rw [firstAnchor, firstAnchor, h.first]
  constructor
  · intro host' hhost'
    exact hnodup.mp (hostLedger_iff.mp hhost').1.metadata
  · intro hfresh
    have honce' : (collected ledger').Once :=
      ⟨((hnumeric.map Prod.fst).nodup_iff).mpr honce.numeric, hnodup.mpr hfresh⟩
    have hfits' : ∀ entry ∈ ledger', Fits (firstAnchor ledger') entry := by
      intro entry hentry
      rw [hanchor]
      cases List.mem_append.mp (h.perm.mem_iff.mp hentry) with
      | inl hentry => exact hfits entry hentry
      | inr hentry =>
        have hread := h.read entry hentry
        obtain ⟨q, hq, -, hq'⟩ := hread.query
        exact ⟨hq' ▸ (hfits q hq).anchor, fun _ _ => hread.anchored⟩
    refine ⟨_, hostLedger_iff.mpr ⟨honce', hfits', rfl⟩, hanchor, fun ref r hr => ?_⟩
    obtain ⟨hn, hm⟩ := (get?_citations honce).mp hr
    refine (get?_citations honce').mpr ⟨hnumeric.mem_iff.mpr hn, hmetadata.mem_iff.mpr ?_⟩
    show (ref, r.metadata) ∈ (ledger ++ added).flatMap metadataPairs
    rw [List.flatMap_append]
    exact List.mem_append_left _ hm

/-- In a turn that a draft could close, further reads of citation metadata leave the draft accepted,
as the same brief, exactly when what they bring is fresh; when it is not, the turn accepts no draft any
more. -/
theorem repeated_reads (engine : TextEngine) (s : TurnState) (run : MarkedCalls)
    (hreads : ∀ m ∈ run, m.1 = true → m.2.tool = .getCitationMetadata)
    (hkept : FacadeAnswered engine s run.kept) (hall : FacadeAnswered engine s run.all)
    {input : Json} {brief : MarketBrief}
    (haccepted : finalizeBrief engine input (runCalls engine s run.kept).turn.ledger = .ok brief) :
    (finalizeBrief engine input (runCalls engine s run.all).turn.ledger = .ok brief ↔
      Fresh (runCalls engine s run.kept).turn.ledger
        (insertedEntries s.runner.populateLedger s.turn.ledger run)) ∧
    (¬ Fresh (runCalls engine s run.kept).turn.ledger
        (insertedEntries s.runner.populateLedger s.turn.ledger run) →
      ∀ input' brief', finalizeBrief engine input' (runCalls engine s run.all).turn.ledger ≠
        .ok brief') := by
  have h := interleaved_runCalls hreads rfl hkept hall (Interleaved.refl s.turn.ledger)
  rw [List.nil_append] at h
  obtain ⟨_, host, _, _, _, _, hhost, _⟩ := finalizeBrief_ok haccepted
  obtain ⟨honly, hextends⟩ := h.hostLedger hhost
  have hfresh : ∀ input' brief', finalizeBrief engine input'
      (runCalls engine s run.all).turn.ledger = .ok brief' →
      Fresh (runCalls engine s run.kept).turn.ledger
        (insertedEntries s.runner.populateLedger s.turn.ledger run) := by
    intro input' brief' hbrief'
    obtain ⟨_, host', _, _, _, _, hhost', _⟩ := finalizeBrief_ok hbrief'
    exact honly host' hhost'
  refine ⟨⟨hfresh input brief, fun hfresh' => ?_⟩, fun hnot input' brief' hbrief' =>
    hnot (hfresh input' brief' hbrief')⟩
  obtain ⟨host', hhost', hwithin⟩ := hextends hfresh'
  exact finalizeBrief_mono hhost hhost' hwithin h.emptyPlanningAttempt haccepted

/-! ## One reference read twice -/

/-- A turn that queries the Bank Rate, with a read of the metadata of its reference. -/
def readOnce (marked : Bool) : MarkedCalls :=
  [(false, marketQuery "uk.bank-rate-current" newRate),
    (marked, rateCitation "h1.new" "new-observation")]

/-- The same with the read repeated. -/
def readTwice : MarkedCalls := readOnce false ++ [(true, rateCitation "h1.new" "new-observation")]

/-- The draft that cites the reference is accepted after one read and rejected after two. -/
theorem not_repeated_reads :
    let s := newTurn defaultTurnLimits true 0
    (∀ m ∈ readTwice, m.1 = true → m.2.tool = .getCitationMetadata) ∧
      FacadeAnswered plainEngine s readTwice.kept ∧ FacadeAnswered plainEngine s readTwice.all ∧
      (∃ brief, finalizeBrief plainEngine newRateDraft
        (runCalls plainEngine s readTwice.kept).turn.ledger = .ok brief) ∧
      finalizeBrief plainEngine newRateDraft (runCalls plainEngine s readTwice.all).turn.ledger =
        .error (.rejected "DUPLICATE_CITATION_REF" (some "h1.new")) := by
  refine ⟨by decide, by decide +kernel, by decide +kernel, ?_, by decide +kernel⟩
  exact ok_of_isOk (by decide +kernel)

/-- A first read is fresh, and leaves a draft without facts as it was. -/
theorem repeated_reads_first : ∃ brief,
    finalizeBrief plainEngine (bankRateDraft []) (runCalls plainEngine
      (newTurn defaultTurnLimits true 0) (readOnce true).kept).turn.ledger = .ok brief ∧
    finalizeBrief plainEngine (bankRateDraft []) (runCalls plainEngine
      (newTurn defaultTurnLimits true 0) (readOnce true).all).turn.ledger = .ok brief := by
  obtain ⟨brief, hbrief⟩ := ok_of_isOk (x := finalizeBrief plainEngine (bankRateDraft [])
    (runCalls plainEngine (newTurn defaultTurnLimits true 0) (readOnce true).kept).turn.ledger)
    (by decide +kernel)
  have hrefs : metadataRefs (insertedEntries true [] (readOnce true)) = ["h1.new"] := by
    decide +kernel
  have hkept : metadataRefs (runCalls plainEngine (newTurn defaultTurnLimits true 0)
      (readOnce true).kept).turn.ledger = [] := by decide +kernel
  refine ⟨brief, hbrief, ?_⟩
  apply (repeated_reads plainEngine (newTurn defaultTurnLimits true 0) (readOnce true) (by decide)
    (by decide +kernel) (by decide +kernel) hbrief).1.mpr
  refine ⟨?_, ?_⟩
  · show (metadataRefs (insertedEntries true [] (readOnce true))).Nodup
    rw [hrefs]
    decide
  · intro ref _
    rw [hkept]
    exact List.not_mem_nil

end NanFung.Brief
