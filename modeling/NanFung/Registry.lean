import NanFung.Canonical
import NanFung.Lib.Table

/-!
# Datasource registry

`ingestion/registry.py`: frozen datasource definitions, looked up by identifier and version. A
descriptor and a registry carry the checks of their constructors as fields, so a malformed one cannot
be built. The canonical snapshot of a definition (`as_json`) and its hash are stored on it, as
computed when it is constructed.
-/

namespace NanFung

open Table

/-! ## Enumerations -/

inductive Lane where
  | productionIngestion
  | sourceDiscovery
  | adHocResearch
  deriving DecidableEq, Repr

def Lane.name : Lane → String
  | .productionIngestion => "production_ingestion"
  | .sourceDiscovery => "source_discovery"
  | .adHocResearch => "ad_hoc_research"

def Lane.ofName? (s : String) : Option Lane :=
  [Lane.productionIngestion, .sourceDiscovery, .adHocResearch].find? fun l => l.name = s

inductive DescriptorStatus where
  | draft
  | discovery
  | production
  | retired
  deriving DecidableEq, Repr

inductive SnapshotMode where
  | appendOnly
  | incremental
  | fullSnapshot
  | pointLookup
  deriving DecidableEq, Repr

inductive PromotionPolicy where
  | automatic
  | manualReview
  | neverCanonical
  deriving DecidableEq, Repr

inductive AccessClass where
  | open_
  | internal
  | restricted
  | referenceOnly
  deriving DecidableEq, Repr

def AccessClass.name : AccessClass → String
  | .open_ => "open"
  | .internal => "internal"
  | .restricted => "restricted"
  | .referenceOnly => "reference_only"

inductive DataKind where
  | direct
  | proxy
  | reportDerived
  deriving DecidableEq, Repr

def DataKind.name : DataKind → String
  | .direct => "direct"
  | .proxy => "proxy"
  | .reportDerived => "report-derived"

inductive Confidence where
  | high
  | medium
  | low
  deriving DecidableEq, Repr

def Confidence.name : Confidence → String
  | .high => "high"
  | .medium => "medium"
  | .low => "low"

inductive CatchupPolicy where
  | latestOnly
  | windowed
  | allSlots
  | manual
  deriving DecidableEq, Repr

inductive BindingKind where
  | collector
  | parser
  | recordKey
  | validator
  deriving DecidableEq, Repr

/-! ## Descriptors -/

/-- `BindingDescriptor`: the identity of a callable. -/
structure BindingDescriptor where
  kind : BindingKind
  name : String
  version : String
  deriving DecidableEq, Repr

/-- `SourceBinding`. -/
structure SourceBinding where
  sourceId : String
  sourceVersion : Nat
  deriving DecidableEq, Repr

/-- `SourceDefinitionDescriptor`, as far as the store reads it. -/
structure SourceDefinition where
  sourceId : String
  sourceVersion : Nat
  allowedHosts : List String
  deriving DecidableEq, Repr

/-- `ScheduleDescriptor`. -/
structure ScheduleDescriptor where
  name : String
  rule : Json
  timezone : String
  catchupPolicy : CatchupPolicy
  maxCatchupJobs : Nat
  maxCatchupHorizonSeconds : Nat
  enabled : Bool
  jobs_pos : 1 ≤ maxCatchupJobs
  jobs_le : maxCatchupJobs ≤ 1000
  deriving DecidableEq, Repr

/-- `DatasourceDefinitionDescriptor`. -/
structure DatasourceDefinition where
  datasourceId : String
  definitionVersion : Nat
  /-- `definition_hash`. -/
  definitionHash : String
  /-- `as_json()`. -/
  definitionJson : Json
  category : String
  collectorName : String
  collectorVersion : String
  parserName : String
  parserVersion : String
  schemaVersion : String
  recordKeyBuilderName : String
  recordKeyVersion : String
  validatorBindings : List BindingDescriptor
  sourceBindings : List SourceBinding
  retentionPolicy : String
  defaultRequest : List (String × Json)
  schedules : List ScheduleDescriptor
  snapshotMode : SnapshotMode
  defaultLane : Lane
  retryPolicy : Json
  artifactPolicy : Json
  promotionPolicy : PromotionPolicy
  dataKind : DataKind
  defaultConfidence : Confidence
  accessClass : AccessClass
  status : DescriptorStatus
  id_ne : datasourceId ≠ ""
  version_pos : 1 ≤ definitionVersion
  keyVersion_ne : recordKeyVersion ≠ ""
  bindings_ne : sourceBindings ≠ []
  deriving DecidableEq, Repr

namespace DatasourceDefinition

variable (d : DatasourceDefinition)

/-- The primary key of a definition. -/
def key : String × Nat := (d.datasourceId, d.definitionVersion)

/-- `executable_bindings`. -/
def executableBindings : List BindingDescriptor :=
  ⟨.collector, d.collectorName, d.collectorVersion⟩ ::
    ⟨.parser, d.parserName, d.parserVersion⟩ ::
      ⟨.recordKey, d.recordKeyBuilderName, d.recordKeyVersion⟩ :: d.validatorBindings

/-- `_max_attempts`. -/
def maxAttempts : Nat :=
  match ((d.retryPolicy.get? "max_attempts").getD (.int 4)).asInt? with
  | some v => if 1 ≤ v ∧ v ≤ 20 then v.toNat else 4
  | none => 4

theorem maxAttempts_pos : 0 < d.maxAttempts := by
  unfold maxAttempts
  split
  · split <;> omega
  · decide

end DatasourceDefinition

/-! ## Registry -/

/-- `DatasourceRegistry`, with what its constructor checks. -/
structure DatasourceRegistry where
  definitions : List DatasourceDefinition
  sources : List SourceDefinition
  definitions_keyed : Keyed DatasourceDefinition.key definitions
  hashes_keyed : Keyed DatasourceDefinition.definitionHash definitions
  sources_keyed : Keyed (fun s : SourceDefinition => (s.sourceId, s.sourceVersion)) sources
  bound : ∀ d ∈ definitions, ∀ b ∈ d.sourceBindings,
    ∃ s ∈ sources, (s.sourceId, s.sourceVersion) = (b.sourceId, b.sourceVersion)

namespace DatasourceRegistry

variable (P : Platform) (R : DatasourceRegistry)

/-- The persisted versions of a datasource. -/
def versions (datasourceId : String) : List Nat :=
  (R.definitions.filter fun d => d.datasourceId = datasourceId).map (·.definitionVersion)

/-- The version asked for, or without one the highest. -/
def resolveVersion (datasourceId : String) : Option Nat → Except StoreError Nat
  | some v => .ok v
  | none => orThrow (R.versions datasourceId).max?
      (.registry ("unknown datasource: " ++ P.pyRepr datasourceId))

/-- `lookup`. -/
def lookup (datasourceId : String) (definitionVersion : Option Nat) :
    Except StoreError DatasourceDefinition := do
  let version ← R.resolveVersion P datasourceId definitionVersion
  orThrow (R.definitions.find? fun d => d.key = (datasourceId, version))
    (.registry ("unknown datasource version: " ++ P.pyRepr datasourceId ++ "@" ++ toString version))

/-- `lookup_source` of a version. -/
def lookupSource (sourceId : String) (sourceVersion : Nat) : Except StoreError SourceDefinition :=
  orThrow (R.sources.find? fun s => (s.sourceId, s.sourceVersion) = (sourceId, sourceVersion))
    (.registry ("unknown source version: " ++ P.pyRepr sourceId ++ "@" ++ toString sourceVersion))

variable {P R}

theorem lookup_mem {datasourceId : String} {version : Option Nat} {d : DatasourceDefinition}
    (h : R.lookup P datasourceId version = .ok d) :
    d ∈ R.definitions ∧ d.datasourceId = datasourceId ∧
      ∀ v, version = some v → d.definitionVersion = v := by
  simp only [lookup, bind_ok, orThrow_ok] at h
  obtain ⟨v, hv, hf⟩ := h
  obtain ⟨hd, hk⟩ := R.definitions_keyed.find?_eq_some.mp hf
  refine ⟨hd, congrArg Prod.fst hk, ?_⟩
  rintro w rfl
  rw [← Except.ok.inj hv] at hk
  exact congrArg Prod.snd hk

theorem lookup_key {datasourceId : String} {version : Nat} {d : DatasourceDefinition}
    (h : R.lookup P datasourceId (some version) = .ok d) :
    d ∈ R.definitions ∧ d.key = (datasourceId, version) := by
  obtain ⟨hd, hid, hv⟩ := lookup_mem h
  exact ⟨hd, Prod.ext hid (hv version rfl)⟩

/-- A definition is found under its own identifier and version. -/
theorem lookup_self {d : DatasourceDefinition} (h : d ∈ R.definitions) :
    R.lookup P d.datasourceId (some d.definitionVersion) = .ok d := by
  simp only [lookup, bind_ok, orThrow_ok]
  exact ⟨d.definitionVersion, rfl, R.definitions_keyed.find?_eq_some.mpr ⟨h, rfl⟩⟩

end DatasourceRegistry

end NanFung
