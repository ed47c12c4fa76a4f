import NanFung.Lib.Dict
import NanFung.Lib.StableSort
import NanFung.Read.Health
import NanFung.Sample

/-!
# Described availability

`_describe_market_data` of the agent facade: what it says of each granted capability about the data
that is there. It is taken from one page of the health of all datasources, so a capability whose
datasources stand behind the page is described as unknown.
-/

namespace NanFung

open Table StableSort

/-- `MAX_MODEL_LIMIT` -/
def maxModelLimit : Nat := 20

structure Availability where
  canonicalAvailable : Option Bool
  retrievalFreshness : Freshness
  observationFreshness : Freshness
  degraded : Option Bool
  deriving DecidableEq, Repr

/-- `_unknown_availability()` -/
def unknownAvailability : Availability := ⟨none, .unknown, .unknown, none⟩

def HealthRecord.availability (r : HealthRecord) : Availability where
  canonicalAvailable := some r.canonicalAvailable
  retrievalFreshness := r.retrievalFreshness
  observationFreshness := r.observationFreshness
  degraded := some r.degraded

/-- The fields of a capability that are described. -/
structure Capability where
  capabilityId : String
  status : String
  queryKinds : List String
  queryDisabled : Bool
  datasourceIds : List String
  metricIds : List String
  geography : Json
  refreshProfiles : List String
  limitations : List String
  blockedReason : Option String

/-- `safe_projection`, with the profiles that are not granted left out. -/
def Capability.safeProjection (c : Capability) (allowedProfiles : List String) : Capability :=
  { c with refreshProfiles := c.refreshProfiles.filter fun profile => profile ∈ allowedProfiles }

/-- The capability that a datasource belongs to. -/
def Capability.owns (c : Capability) (datasourceId : String) : Bool := datasourceId ∈ c.datasourceIds

def Capability.ownsRecord (c : Capability) (r : HealthRecord) : Bool := c.owns r.datasourceId

abbrev CapabilityManifest := Dict String Capability

/-- The sets of `HostContext` are lists that hold nothing twice. -/
structure HostContext where
  allowedAccessClasses : List AccessClass
  allowedCapabilityIds : List String
  allowedRefreshProfiles : List String
  capabilities_nodup : allowedCapabilityIds.Nodup

structure DescribedCapability where
  projection : Capability
  canonicalAvailability : Availability

inductive DescribeError where
  /-- The `ValueError` of `ReadContext`. -/
  | invalidArgument (message : String)
  /-- What leaves the read service and is no `ReadApiError`. -/
  | raised (error : ReadError)
  deriving DecidableEq, Repr

section

variable (manifest : CapabilityManifest) (context : HostContext) (db : Db) (asOf : Time)

/-- The records of the page, or none where reading them raises a `ReadApiError`. -/
def availabilityPage : Except DescribeError (List HealthRecord) := do
  require (context.allowedAccessClasses ≠ []) (.invalidArgument "host access classes are invalid")
  match queryHealth db context.allowedAccessClasses asOf maxModelLimit with
  | .ok records => .ok records
  | .error (.invalidReadRequest _) => .ok []
  | .error e => .error (.raised e)

/-- `_availability`: the first record of the page that is of one of the capability's datasources. -/
def availabilityOf (records : List HealthRecord) (capability : Capability) : Option Availability :=
  (records.filter capability.ownsRecord).head?.map HealthRecord.availability

/-- `_describe_market_data` -/
def describeMarketData : Except DescribeError (Dict String DescribedCapability) := do
  let records ← availabilityPage context db asOf
  let granted := context.allowedCapabilityIds.insertionSort (· ≤ ·)
  .ok (granted.filterMap fun id => (manifest.get? id).map fun capability =>
    (id, {
      projection := capability.safeProjection context.allowedRefreshProfiles
      canonicalAvailability := (availabilityOf records capability).getD unknownAvailability }))

end

/-! ## The rows of a capability -/

instance : IsTrans HealthRecord HealthRecord.notAfter := ⟨fun _ _ _ hab hbc => le_trans hbc hab⟩

instance : Std.Total HealthRecord.notAfter := ⟨fun _ _ => le_total _ _⟩

def HealthRow.observationId (row : HealthRow) : String := "health:" ++ row.definition.datasourceId

/-- The health rows that a reader may see of the capability's datasources. -/
def Db.ownRows (db : Db) (context : HostContext) (capability : Capability) : List HealthRow :=
  (db.healthSql context.allowedAccessClasses).filter fun row =>
    capability.owns row.definition.datasourceId

/-- The rows that stand before all of the capability's. -/
def Db.precedingRows (db : Db) (context : HostContext) (capability : Capability) : List HealthRow :=
  (db.healthSql context.allowedAccessClasses).filter fun row =>
    ∀ own ∈ db.ownRows context capability, own.observationId < row.observationId

/-- The record of every row can be made. -/
def Db.Readable (db : Db) (context : HostContext) (asOf : Time) : Prop :=
  ∀ row ∈ db.healthSql context.allowedAccessClasses, ∃ r, healthRecord row asOf = .ok r

variable {manifest : CapabilityManifest} {context : HostContext} {db db' : Db} {asOf : Time}
  {capability : Capability} {row : HealthRow} {r : HealthRecord}

/-- What a record has from its row. -/
structure HealthRecord.Of (row : HealthRow) (asOf : Time) (r : HealthRecord) : Prop where
  observationId : r.observationId = row.observationId
  datasourceId : r.datasourceId = row.definition.datasourceId
  accessClass : r.accessClass = row.definition.accessClass
  availableAt : r.availableAt = asOf

theorem healthRecord_of (h : healthRecord row asOf = .ok r) : r.Of row asOf := by
  simp only [healthRecord, bind_ok, require_ok, Except.ok.injEq] at h
  obtain ⟨retrieval, -, observation, -, -, -, -, -, rfl⟩ := h
  exact ⟨rfl, rfl, rfl, rfl⟩

/-- The records of the rows that can be read. -/
def recordsOf (rows : List HealthRow) (asOf : Time) : List HealthRecord :=
  rows.filterMap fun row => (healthRecord row asOf).toOption

theorem mem_recordsOf {rows : List HealthRow} :
    r ∈ recordsOf rows asOf ↔ ∃ row ∈ rows, healthRecord row asOf = .ok r := by
  rw [recordsOf, List.mem_filterMap]
  refine exists_congr fun row => and_congr_right fun _ => ?_
  cases healthRecord row asOf with
  | ok r' => exact ⟨fun h => congrArg _ (Option.some.inj h), fun h => congrArg _ (Except.ok.inj h)⟩
  | error e => exact ⟨nofun, nofun⟩

/-- Rows that can be read are read one by one. -/
theorem mapM_recordsOf {rows : List HealthRow}
    (h : ∀ row ∈ rows, ∃ r, healthRecord row asOf = .ok r) :
    (rows.mapM fun row => healthRecord row asOf) = .ok (recordsOf rows asOf) := by
  rw [mapM_ok, recordsOf]
  induction rows with
  | nil => exact .nil
  | cons row rows ih =>
    obtain ⟨⟨r, hr⟩, hrows⟩ := List.forall_mem_cons.mp h
    have hsome : (healthRecord row asOf).toOption = some r := by
      rw [hr]
      rfl
    rw [List.filterMap_cons, hsome]
    exact .cons hr (ih hrows)

/-- A condition on records that is one on their rows. -/
theorem filter_recordsOf {rows : List HealthRow} {p : HealthRecord → Bool} {q : HealthRow → Bool}
    (h : ∀ row r, healthRecord row asOf = .ok r → p r = q row) :
    (recordsOf rows asOf).filter p = recordsOf (rows.filter q) asOf := by
  rw [recordsOf, recordsOf, List.filter_filterMap, List.filterMap_filter]
  apply List.filterMap_congr
  intro row _
  cases hrow : healthRecord row asOf with
  | ok r =>
    show (some r).filter p = if q row = true then some r else none
    rw [Option.filter_some, h row r hrow]
  | error e =>
    show none = if q row = true then none else none
    rw [ite_self]

theorem length_recordsOf {rows : List HealthRow}
    (h : ∀ row ∈ rows, ∃ r, healthRecord row asOf = .ok r) :
    (recordsOf rows asOf).length = rows.length :=
  (mapM_ok.mp (mapM_recordsOf h)).length_eq.symm

/-- The records of a page before it is cut. -/
def sortedRecords (db : Db) (context : HostContext) (asOf : Time) : List HealthRecord :=
  (recordsOf (db.healthSql context.allowedAccessClasses) asOf).insertionSort HealthRecord.notAfter

theorem queryHealth_eq (h : db.Readable context asOf) (limit : Nat) :
    queryHealth db context.allowedAccessClasses asOf limit =
      .ok ((sortedRecords db context asOf).take limit) := by
  have hallowed : ((recordsOf (db.healthSql context.allowedAccessClasses) asOf).filter fun r =>
      r.availableAt ≤ asOf ∧ r.accessClass ∈ context.allowedAccessClasses) =
      recordsOf (db.healthSql context.allowedAccessClasses) asOf := by
    rw [List.filter_eq_self]
    intro r hr
    obtain ⟨row, hrow, heq⟩ := mem_recordsOf.mp hr
    have hof := healthRecord_of heq
    obtain ⟨d, hd, rfl⟩ := List.mem_map.mp hrow
    refine decide_eq_true ⟨hof.availableAt.le, ?_⟩
    rw [hof.accessClass]
    exact of_decide_eq_true (List.mem_filter.mp hd).2
  rw [queryHealth, mapM_recordsOf h]
  show Except.ok ((List.insertionSort HealthRecord.notAfter (List.filter _ _)).take limit) = _
  rw [hallowed]
  rfl

/-- The first record of the capability, whatever the page is. -/
theorem filter_sortedRecords :
    (sortedRecords db context asOf).filter capability.ownsRecord =
      (recordsOf (db.ownRows context capability) asOf).insertionSort HealthRecord.notAfter := by
  rw [sortedRecords, filter_insertionSort, Db.ownRows]
  congr 1
  exact filter_recordsOf fun row r h => by rw [Capability.ownsRecord, (healthRecord_of h).datasourceId]

/-- The page holds a record of the capability exactly when few enough rows stand before its own. -/
theorem page_meets_iff (hreadable : db.Readable context asOf)
    (hown : db.ownRows context capability ≠ []) (limit : Nat) :
    ((sortedRecords db context asOf).take limit).filter capability.ownsRecord ≠ [] ↔
      (db.precedingRows context capability).length < limit := by
  have hmem : ∀ r ∈ sortedRecords db context asOf,
      r.observationId = "health:" ++ r.datasourceId ∧ r.availableAt = asOf := by
    intro r hr
    obtain ⟨row, -, heq⟩ := mem_recordsOf.mp ((List.perm_insertionSort _ _).mem_iff.mp hr)
    have hof := healthRecord_of heq
    exact ⟨by rw [hof.observationId, hof.datasourceId, HealthRow.observationId], hof.availableAt⟩
  have hclass : ∀ a ∈ sortedRecords db context asOf, ∀ b ∈ sortedRecords db context asOf,
      capability.ownsRecord a = true → a.notAfter b → b.notAfter a →
      capability.ownsRecord b = true := by
    intro a ha b hb howns hab hba
    have hkey : (a.availableAt, a.observationId) = (b.availableAt, b.observationId) :=
      toLex.injective (le_antisymm hba hab)
    have hid : a.observationId = b.observationId := (Prod.mk.inj hkey).2
    rw [(hmem a ha).1, (hmem b hb).1] at hid
    have hdatasource : a.datasourceId = b.datasourceId := by
      apply String.toList_injective
      have hlist := congrArg String.toList hid
      rw [String.toList_append, String.toList_append] at hlist
      exact List.append_cancel_left hlist
    rwa [Capability.ownsRecord, ← hdatasource]
  have hrows : ∀ row ∈ db.ownRows context capability, ∃ r, healthRecord row asOf = .ok r :=
    fun row hrow => hreadable row (List.mem_filter.mp hrow).1
  have howned : ∀ r, r ∈ (sortedRecords db context asOf).filter capability.ownsRecord ↔
      ∃ row ∈ db.ownRows context capability, healthRecord row asOf = .ok r := by
    intro r
    rw [filter_sortedRecords, (List.perm_insertionSort _ _).mem_iff, mem_recordsOf]
  have hfilter : (sortedRecords db context asOf).filter capability.ownsRecord ≠ [] := by
    obtain ⟨row, hrow⟩ := List.exists_mem_of_ne_nil _ hown
    obtain ⟨r, hr⟩ := hrows row hrow
    exact List.ne_nil_of_mem ((howned r).mpr ⟨row, hrow, hr⟩)
  have hsorted : (sortedRecords db context asOf).Pairwise HealthRecord.notAfter :=
    List.pairwise_insertionSort _ _
  -- a record precedes the capability's records when its row precedes their rows
  have hprecedes : ∀ row r, healthRecord row asOf = .ok r →
      decide (∀ a ∈ (sortedRecords db context asOf).filter capability.ownsRecord,
        ¬ a.notAfter r) =
      decide (∀ own ∈ db.ownRows context capability, own.observationId < row.observationId) := by
    intro row r hr
    have hof := healthRecord_of hr
    have hbefore : ∀ own a, healthRecord own asOf = .ok a →
        (¬ a.notAfter r ↔ own.observationId < row.observationId) := by
      intro own a ha
      have hof' := healthRecord_of ha
      show ¬ toLex (r.availableAt, r.observationId) ≤ toLex (a.availableAt, a.observationId) ↔ _
      rw [not_le, hof.availableAt, hof'.availableAt, hof.observationId, hof'.observationId,
        Prod.Lex.toLex_lt_toLex]
      exact ⟨fun h => (h.resolve_left (lt_irrefl _)).2, fun h => Or.inr ⟨rfl, h⟩⟩
    rw [decide_eq_decide]
    constructor
    · intro h own hown
      obtain ⟨a, ha⟩ := hrows own hown
      exact (hbefore own a ha).mp (h a ((howned a).mpr ⟨own, hown, ha⟩))
    · intro h a ha
      obtain ⟨own, hown, heq⟩ := (howned a).mp ha
      exact (hbefore own a heq).mpr (h own hown)
  have hreadable' : ∀ row ∈ db.precedingRows context capability, ∃ r, healthRecord row asOf = .ok r :=
    fun row hrow => hreadable row (List.mem_filter.mp hrow).1
  have hperm : (sortedRecords db context asOf).Perm
      (recordsOf (db.healthSql context.allowedAccessClasses) asOf) := List.perm_insertionSort _ _
  rw [filter_take_ne_nil hsorted hclass hfilter, ← length_recordsOf hreadable', Db.precedingRows,
    ← filter_recordsOf hprecedes, (hperm.filter _).length_eq]

/-! ## What is described -/

/-- The page in the cases in which nothing is raised. -/
theorem availabilityPage_ok {records : List HealthRecord}
    (h : availabilityPage context db asOf = .ok records) :
    queryHealth db context.allowedAccessClasses asOf maxModelLimit = .ok records ∨ records = [] := by
  simp only [availabilityPage, bind_ok, require_ok] at h
  obtain ⟨-, -, h⟩ := h
  cases hquery : queryHealth db context.allowedAccessClasses asOf maxModelLimit with
  | ok records' =>
    rw [hquery] at h
    exact Or.inl (congrArg Except.ok (Except.ok.inj h))
  | error e =>
    rw [hquery] at h
    cases e with
    | invalidReadRequest message => exact Or.inr (Except.ok.inj h).symm
    | _ => cases h

/-- A page of something is that of a registry whose rows can all be read. -/
theorem readable_of_page {records : List HealthRecord}
    (h : availabilityPage context db asOf = .ok records) (hne : records ≠ []) :
    db.Readable context asOf := by
  have hquery := (availabilityPage_ok h).resolve_right hne
  simp only [queryHealth, bind_ok] at hquery
  obtain ⟨candidates, hcandidates, -⟩ := hquery
  intro row hrow
  obtain ⟨r, -, hr⟩ := exists_of_mem_right (mapM_ok.mp hcandidates).flip hrow
  exact ⟨r, hr⟩

theorem availabilityPage_eq (hreadable : db.Readable context asOf)
    (hclasses : context.allowedAccessClasses ≠ []) :
    availabilityPage context db asOf = .ok ((sortedRecords db context asOf).take maxModelLimit) := by
  rw [availabilityPage, require, if_pos hclasses, queryHealth_eq hreadable]
  rfl

/-- Only a reader with an access class sees a row. -/
theorem classes_ne_nil (hown : db.ownRows context capability ≠ []) :
    context.allowedAccessClasses ≠ [] := by
  intro hclasses
  obtain ⟨row, hrow⟩ := List.exists_mem_of_ne_nil _ hown
  obtain ⟨d, hd, -⟩ := List.mem_map.mp (List.mem_filter.mp hrow).1
  have hmem := of_decide_eq_true (List.mem_filter.mp hd).2
  rw [hclasses] at hmem
  exact nomatch hmem

/-- A dictionary made for a list of keys has those of them that are found. -/
theorem get?_filterMap {β : Type} {ids : List String} {id : String} (h : id ∈ ids)
    (f : String → Option β) :
    Dict.get? id (ids.filterMap fun id => (f id).map (id, ·)) = f id := by
  induction ids with
  | nil => exact nomatch h
  | cons id' ids ih =>
    rw [List.filterMap_cons]
    cases hf : f id' with
    | none =>
      cases List.mem_cons.mp h with
      | inr h => exact ih h
      | inl h =>
        rw [h, hf]
        apply Dict.get?_eq_none_iff.mpr
        intro hkeys
        obtain ⟨e, he, hid⟩ := List.mem_map.mp hkeys
        obtain ⟨id'', -, hsome⟩ := List.mem_filterMap.mp he
        obtain ⟨v, hv, rfl⟩ := Option.map_eq_some_iff.mp hsome
        rw [← hid, hv] at hf
        exact nomatch hf
    | some v =>
      show (if id' = id then some v else Dict.get? id _) = f id
      by_cases hid : id' = id
      · rw [if_pos hid, ← hid, hf]
      · rw [if_neg hid]
        exact ih ((List.mem_cons.mp h).resolve_left (Ne.symm hid))

/-- What is described of a granted capability. -/
theorem describe_entry {id : String} {entries : Dict String DescribedCapability}
    (h : describeMarketData manifest context db asOf = .ok entries)
    (hgranted : id ∈ context.allowedCapabilityIds) (hcapability : manifest.get? id = some capability) :
    ∃ records, availabilityPage context db asOf = .ok records ∧
      Dict.get? id entries = some {
        projection := capability.safeProjection context.allowedRefreshProfiles
        canonicalAvailability := (availabilityOf records capability).getD unknownAvailability } := by
  simp only [describeMarketData, bind_ok, Except.ok.injEq] at h
  obtain ⟨records, hpage, rfl⟩ := h
  refine ⟨records, hpage, ?_⟩
  have hsorted : id ∈ context.allowedCapabilityIds.insertionSort (· ≤ ·) :=
    (List.perm_insertionSort _ _).mem_iff.mpr hgranted
  have hentry := get?_filterMap hsorted fun id => (manifest.get? id).map fun capability =>
    (⟨capability.safeProjection context.allowedRefreshProfiles,
      (availabilityOf records capability).getD unknownAvailability⟩ : DescribedCapability)
  rw [hcapability] at hentry
  simp only [Option.map_map] at hentry ⊢
  exact hentry

/-- Nothing is described of a capability that no record of the page is of. -/
theorem availabilityOf_eq_none {records : List HealthRecord}
    (h : records.filter capability.ownsRecord = []) : availabilityOf records capability = none := by
  rw [availabilityOf, h]
  rfl

/-- The first record of the capability's own rows. -/
def ownRecord? (rows : List HealthRow) (asOf : Time) : Option HealthRecord :=
  ((recordsOf rows asOf).insertionSort HealthRecord.notAfter).head?

/-- Within the page a capability is described by its own rows. -/
theorem availabilityOf_page (hreadable : db.Readable context asOf)
    (hown : db.ownRows context capability ≠ [])
    (hwithin : (db.precedingRows context capability).length < maxModelLimit) :
    availabilityOf ((sortedRecords db context asOf).take maxModelLimit) capability =
      (ownRecord? (db.ownRows context capability) asOf).map HealthRecord.availability := by
  have hmeets := (page_meets_iff hreadable hown maxModelLimit).mpr hwithin
  rw [availabilityOf, head?_filter_take hmeets, filter_sortedRecords, ownRecord?]

theorem ownRecord?_eq_some (hreadable : db.Readable context asOf)
    (hown : db.ownRows context capability ≠ []) :
    ∃ r, ownRecord? (db.ownRows context capability) asOf = some r ∧
      ∃ row ∈ db.ownRows context capability, healthRecord row asOf = .ok r := by
  have hmem : ∀ r ∈ (recordsOf (db.ownRows context capability) asOf).insertionSort
      HealthRecord.notAfter, ∃ row ∈ db.ownRows context capability, healthRecord row asOf = .ok r :=
    fun r hr => mem_recordsOf.mp ((List.perm_insertionSort _ _).mem_iff.mp hr)
  rw [ownRecord?]
  cases hsorted : (recordsOf (db.ownRows context capability) asOf).insertionSort
      HealthRecord.notAfter with
  | nil =>
    obtain ⟨row, hrow⟩ := List.exists_mem_of_ne_nil _ hown
    obtain ⟨r, hr⟩ := hreadable row (List.mem_filter.mp hrow).1
    have hin := (List.perm_insertionSort HealthRecord.notAfter _).mem_iff.mpr
      (mem_recordsOf.mpr ⟨row, hrow, hr⟩)
    rw [hsorted] at hin
    exact nomatch hin
  | cons r records =>
    rw [hsorted] at hmem
    exact ⟨r, rfl, hmem r List.mem_cons_self⟩

/-! ## Coverage -/

/-- Each granted capability with a visible row is described by the record of such a row. -/
def Covered (manifest : CapabilityManifest) (context : HostContext) (db : Db) (asOf : Time) : Prop :=
  ∀ id ∈ context.allowedCapabilityIds, ∀ capability, manifest.get? id = some capability →
    db.ownRows context capability ≠ [] →
    ∃ entries item, describeMarketData manifest context db asOf = .ok entries ∧
      Dict.get? id entries = some item ∧
      ∃ row ∈ db.ownRows context capability, ∃ r, healthRecord row asOf = .ok r ∧
        item.canonicalAvailability = r.availability

/-- What is described of a capability is the same in two stores that have the same rows of it. -/
def Independent (manifest : CapabilityManifest) (context : HostContext) (db db' : Db)
    (asOf : Time) : Prop :=
  ∀ id ∈ context.allowedCapabilityIds, ∀ capability, manifest.get? id = some capability →
    db.ownRows context capability = db'.ownRows context capability →
    ∀ entries entries' item item', describeMarketData manifest context db asOf = .ok entries →
      describeMarketData manifest context db' asOf = .ok entries' →
      Dict.get? id entries = some item → Dict.get? id entries' = some item' →
      item.canonicalAvailability.canonicalAvailable =
        item'.canonicalAvailability.canonicalAvailable ∧
      item.canonicalAvailability.degraded = item'.canonicalAvailability.degraded

/-- Every visible row can be read, and fewer rows than a page holds stand before those of a granted
capability. -/
def Within (manifest : CapabilityManifest) (context : HostContext) (db : Db) (asOf : Time) : Prop :=
  ∀ id ∈ context.allowedCapabilityIds, ∀ capability, manifest.get? id = some capability →
    db.ownRows context capability ≠ [] →
    db.Readable context asOf ∧ (db.precedingRows context capability).length < maxModelLimit

theorem within_of_covered (h : Covered manifest context db asOf) :
    Within manifest context db asOf := by
  intro id hgranted capability hcapability hown
  obtain ⟨entries, item, hentries, hitem, row, -, r, -, havailability⟩ :=
    h id hgranted capability hcapability hown
  obtain ⟨records, hpage, hentry⟩ := describe_entry hentries hgranted hcapability
  rw [hitem] at hentry
  have hitem := congrArg DescribedCapability.canonicalAvailability (Option.some.inj hentry)
  have hmeets : records.filter capability.ownsRecord ≠ [] := by
    intro hnone
    rw [havailability, availabilityOf_eq_none hnone] at hitem
    exact nomatch congrArg Availability.canonicalAvailable hitem
  have hreadable : db.Readable context asOf := by
    apply readable_of_page hpage
    intro hrecords
    exact hmeets (by rw [hrecords]; rfl)
  rw [availabilityPage_eq hreadable (classes_ne_nil hown), Except.ok.injEq] at hpage
  rw [← hpage] at hmeets
  exact ⟨hreadable, (page_meets_iff hreadable hown maxModelLimit).mp hmeets⟩

theorem covered_of_within (h : Within manifest context db asOf) :
    Covered manifest context db asOf := by
  intro id hgranted capability hcapability hown
  obtain ⟨hreadable, hlength⟩ := h id hgranted capability hcapability hown
  have hpage := availabilityPage_eq hreadable (classes_ne_nil hown)
  obtain ⟨entries, hentries⟩ :
      ∃ entries, describeMarketData manifest context db asOf = .ok entries := by
    rw [describeMarketData, hpage]
    exact ⟨_, rfl⟩
  obtain ⟨records, hrecords, hentry⟩ := describe_entry hentries hgranted hcapability
  rw [hpage, Except.ok.injEq] at hrecords
  obtain ⟨r, hfirst, row, hrow, hr⟩ := ownRecord?_eq_some hreadable hown
  refine ⟨entries, _, hentries, hentry, row, hrow, r, hr, ?_⟩
  rw [← hrecords, availabilityOf_page hreadable hown hlength, hfirst]
  rfl

/-- What is described of a capability within the page is determined by its rows. -/
theorem described_within {id : String} {entries : Dict String DescribedCapability}
    {item : DescribedCapability} (h : Within manifest context db asOf)
    (hgranted : id ∈ context.allowedCapabilityIds) (hcapability : manifest.get? id = some capability)
    (hentries : describeMarketData manifest context db asOf = .ok entries)
    (hitem : Dict.get? id entries = some item) :
    item.canonicalAvailability =
      ((ownRecord? (db.ownRows context capability) asOf).map HealthRecord.availability).getD
        unknownAvailability := by
  obtain ⟨records, hpage, hentry⟩ := describe_entry hentries hgranted hcapability
  rw [hitem] at hentry
  rw [Option.some.inj hentry]
  show (availabilityOf records capability).getD unknownAvailability = _
  congr 1
  by_cases hown : db.ownRows context capability = []
  · -- no visible row is of the capability, so no record of the page is
    have hnone : availabilityOf records capability = none := by
      apply availabilityOf_eq_none
      by_cases hrecords : records = []
      · rw [hrecords]
        rfl
      · have hreadable := readable_of_page hpage hrecords
        have hquery := (availabilityPage_ok hpage).resolve_right hrecords
        rw [queryHealth_eq hreadable, Except.ok.injEq] at hquery
        have hall : (sortedRecords db context asOf).filter capability.ownsRecord = [] := by
          rw [filter_sortedRecords, hown]
          rfl
        rw [← hquery]
        exact List.eq_nil_of_sublist_nil
          (hall ▸ (List.take_sublist _ _).filter capability.ownsRecord)
    rw [hnone, hown]
    rfl
  · obtain ⟨hreadable, hlength⟩ := h id hgranted capability hcapability hown
    rw [availabilityPage_eq hreadable (classes_ne_nil hown), Except.ok.injEq] at hpage
    rw [← hpage, availabilityOf_page hreadable hown hlength]

/-- The description covers the capabilities of two stores, and takes them from their own rows, exactly
when the page reaches the rows of each. -/
theorem described_iff_within (manifest : CapabilityManifest) (context : HostContext) (db db' : Db)
    (asOf : Time) :
    (Covered manifest context db asOf ∧ Covered manifest context db' asOf ∧
      Independent manifest context db db' asOf) ↔
    Within manifest context db asOf ∧ Within manifest context db' asOf := by
  constructor
  · rintro ⟨hcovered, hcovered', -⟩
    exact ⟨within_of_covered hcovered, within_of_covered hcovered'⟩
  · rintro ⟨hwithin, hwithin'⟩
    refine ⟨covered_of_within hwithin, covered_of_within hwithin', ?_⟩
    intro id hgranted capability hcapability hrows entries entries' item item' hentries hentries'
      hitem hitem'
    have hfirst := described_within hwithin hgranted hcapability hentries hitem
    have hsecond := described_within hwithin' hgranted hcapability hentries' hitem'
    rw [hfirst, hsecond, hrows]
    exact ⟨rfl, rfl⟩

/-! ## A registry larger than a page -/

/-- Twenty-one definitions that differ in their identifier. -/
def crowded : Db where
  definitions := (List.range 21).map fun n => {
    definition := { Sample.offices with
      datasourceId := String.ofList ('u' :: List.replicate n 'k')
      id_ne := by simp }
    createdAt := Sample.tick 0 }

def lowest : Capability where
  capabilityId := "u"
  status := "active"
  queryKinds := ["health"]
  queryDisabled := false
  datasourceIds := ["u"]
  metricIds := []
  geography := .null
  refreshProfiles := []
  limitations := []
  blockedReason := none

def reader : HostContext where
  allowedAccessClasses := [.open_]
  allowedCapabilityIds := ["u"]
  allowedRefreshProfiles := []
  capabilities_nodup := List.nodup_singleton _

/-- The datasource that is first by its identifier stands behind a page of twenty. -/
theorem not_covered_crowded : ¬ Covered [("u", lowest)] reader crowded (Sample.tick 1) := by
  intro h
  have hwithin := within_of_covered h "u" (by decide) lowest rfl (by decide)
  exact absurd hwithin.2 (by decide)

end NanFung
