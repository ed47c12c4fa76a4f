import NanFung.Brief.Resolution

/-!
# What the host ledger collects

`hostLedger` in closed form: it ends when the entries share an anchor and no reference has its numbers
or its metadata twice, and then it holds the pairs of all entries.
-/

namespace NanFung.Brief

/-! ## The pairs of an entry -/

/-- What one reference of an entry is paired with. -/
def numericPair (entry : LedgerEntry) (ref : String) : Dict String (LedgerEntry × NumericFields) :=
  (parseNumericFields entry.numericProjection).toList.map fun fields => (ref, entry, fields)

def metadataPair (entry : LedgerEntry) (ref : String) : Dict String CitationMetadata :=
  (parseCitationMetadata entry.numericProjection).toList.map fun metadata => (ref, metadata)

def numericPairs (entry : LedgerEntry) : Dict String (LedgerEntry × NumericFields) :=
  entry.citationRefs.flatMap (numericPair entry)

def metadataPairs (entry : LedgerEntry) : Dict String CitationMetadata :=
  entry.citationRefs.flatMap (metadataPair entry)

/-- The metadata of an entry is dated at the entry's anchor. -/
def Anchored (entry : LedgerEntry) : Prop :=
  ∀ metadata ∈ parseCitationMetadata entry.numericProjection,
    ∀ anchor ∈ metadata.anchorAsOf, anchor = entry.anchorAsOf

/-- The maps after some more pairs. -/
def Collected.plus (c : Collected) (numeric : Dict String (LedgerEntry × NumericFields))
    (metadata : Dict String CitationMetadata) : Collected :=
  ⟨c.numeric ++ numeric, c.metadata ++ metadata⟩

/-- No reference stands twice in either map. -/
structure Collected.Once (c : Collected) : Prop where
  numeric : c.numeric.keys.Nodup
  metadata : c.metadata.keys.Nodup

variable {c c' : Collected} {entry : LedgerEntry} {ref : String} {ledger : Ledger}

/-! ## One reference -/

theorem nodup_concat {ν : Type} {d : Dict String ν} {v : ν} (hd : d.keys.Nodup) :
    d.get? ref = none ↔ (Dict.keys (d ++ [(ref, v)])).Nodup := by
  rw [Dict.get?_eq_none_iff]
  simp only [Dict.keys, List.map_append, List.map_singleton, List.nodup_append,
    List.nodup_singleton, List.mem_singleton, true_and]
  exact ⟨fun h => ⟨hd, fun a ha b hb hab => h (hb ▸ hab ▸ ha)⟩, fun h hmem => h.2 ref hmem ref rfl rfl⟩

theorem collectNumeric_iff (hc : c.Once) :
    collectNumeric entry ref c = .ok c' ↔
      (c.plus (numericPair entry ref) []).Once ∧ c' = c.plus (numericPair entry ref) [] := by
  unfold collectNumeric numericPair Collected.plus
  rw [List.append_nil]
  cases parseNumericFields entry.numericProjection with
  | none =>
    rw [pure_ok, Option.toList_none, List.map_nil, List.append_nil]
    exact ⟨fun h => ⟨hc, h.symm⟩, fun h => h.2.symm⟩
  | some fields =>
    simp only [bind_ok, require_ok, pure_ok, exists_const, Option.toList_some, List.map_singleton]
    rw [nodup_concat (v := (entry, fields)) hc.numeric]
    constructor
    · rintro ⟨hnew, hset⟩
      have hkey := Dict.get?_eq_none_iff.mp ((nodup_concat hc.numeric).mpr hnew)
      exact ⟨⟨hnew, hc.metadata⟩, by rw [← hset, Dict.set_of_new hkey]⟩
    · rintro ⟨honce, hset⟩
      have hkey := Dict.get?_eq_none_iff.mp ((nodup_concat hc.numeric).mpr honce.numeric)
      exact ⟨honce.numeric, by rw [hset, Dict.set_of_new hkey]⟩

theorem collectMetadata_iff (hc : c.Once) :
    collectMetadata entry ref c = .ok c' ↔
      (c.plus [] (metadataPair entry ref)).Once ∧ Anchored entry ∧
        c' = c.plus [] (metadataPair entry ref) := by
  unfold collectMetadata metadataPair Collected.plus Anchored
  rw [List.append_nil]
  cases parseCitationMetadata entry.numericProjection with
  | none =>
    rw [pure_ok, Option.toList_none, List.map_nil, List.append_nil]
    exact ⟨fun h => ⟨hc, fun _ hm => (by cases hm), h.symm⟩, fun h => h.2.2.symm⟩
  | some metadata =>
    simp only [bind_ok, require_ok, pure_ok, exists_const, Option.toList_some, List.map_singleton,
      Option.mem_some_iff, forall_eq']
    rw [nodup_concat (v := metadata) hc.metadata]
    constructor
    · rintro ⟨hnew, hanchor, hset⟩
      have hkey := Dict.get?_eq_none_iff.mp ((nodup_concat hc.metadata).mpr hnew)
      exact ⟨⟨hc.numeric, hnew⟩, hanchor, by rw [← hset, Dict.set_of_new hkey]⟩
    · rintro ⟨honce, hanchor, hset⟩
      have hkey := Dict.get?_eq_none_iff.mp ((nodup_concat hc.metadata).mpr honce.metadata)
      exact ⟨honce.metadata, hanchor, by rw [hset, Dict.set_of_new hkey]⟩

theorem Collected.plus_plus {n n' : Dict String (LedgerEntry × NumericFields)}
    {m m' : Dict String CitationMetadata} :
    (c.plus n m).plus n' m' = c.plus (n ++ n') (m ++ m') := by
  simp only [Collected.plus, List.append_assoc]

/-- Fewer pairs are collected once too. -/
theorem Collected.Once.of_plus {n : Dict String (LedgerEntry × NumericFields)}
    {m : Dict String CitationMetadata} (h : (c.plus n m).Once) : c.Once :=
  ⟨h.numeric.sublist ((List.sublist_append_left _ _).map _),
    h.metadata.sublist ((List.sublist_append_left _ _).map _)⟩

theorem collectRef_iff (hc : c.Once) :
    collectRef entry c ref = .ok c' ↔
      (c.plus (numericPair entry ref) (metadataPair entry ref)).Once ∧ Anchored entry ∧
        c' = c.plus (numericPair entry ref) (metadataPair entry ref) := by
  have hboth : (c.plus (numericPair entry ref) []).plus [] (metadataPair entry ref) =
      c.plus (numericPair entry ref) (metadataPair entry ref) := by
    rw [Collected.plus_plus, List.append_nil, List.nil_append]
  rw [collectRef, bind_ok]
  constructor
  · intro ⟨d, hnumeric, hmetadata⟩
    obtain ⟨honce, rfl⟩ := (collectNumeric_iff hc).mp hnumeric
    rw [collectMetadata_iff honce, hboth] at hmetadata
    exact hmetadata
  · intro h
    have honce : (c.plus (numericPair entry ref) []).Once := by
      rw [← hboth] at h
      exact h.1.of_plus
    refine ⟨_, (collectNumeric_iff hc).mpr ⟨honce, rfl⟩, ?_⟩
    rw [collectMetadata_iff honce, hboth]
    exact h

/-! ## The loops -/

/-- A loop whose step adds to a collection, on a condition: it ends when every step's condition holds and
nothing is collected twice. -/
theorem foldlM_collect {α : Type} {f : Collected → α → Finalize Collected} {P : α → Prop}
    {n : α → Dict String (LedgerEntry × NumericFields)} {m : α → Dict String CitationMetadata}
    (hstep : ∀ c c' a, c.Once → (f c a = .ok c' ↔
      (c.plus (n a) (m a)).Once ∧ P a ∧ c' = c.plus (n a) (m a))) (hc : c.Once) (l : List α) :
    l.foldlM f c = .ok c' ↔
      (c.plus (l.flatMap n) (l.flatMap m)).Once ∧ (∀ a ∈ l, P a) ∧
        c' = c.plus (l.flatMap n) (l.flatMap m) := by
  induction l generalizing c with
  | nil =>
    rw [List.foldlM_nil, pure_ok, List.flatMap_nil, List.flatMap_nil]
    have hnil : c.plus [] [] = c := by simp [Collected.plus]
    rw [hnil]
    exact ⟨fun h => ⟨hc, nofun, h.symm⟩, fun h => h.2.2.symm⟩
  | cons a l ih =>
    rw [List.foldlM_cons, bind_ok, List.flatMap_cons, List.flatMap_cons, ← Collected.plus_plus]
    constructor
    · intro ⟨d, hd, hl⟩
      obtain ⟨honce, ha, rfl⟩ := (hstep _ _ _ hc).mp hd
      obtain ⟨hall, hP, hc'⟩ := (ih honce).mp hl
      exact ⟨hall, List.forall_mem_cons.mpr ⟨ha, hP⟩, hc'⟩
    · intro ⟨hall, hP, hc'⟩
      obtain ⟨ha, hP⟩ := List.forall_mem_cons.mp hP
      exact ⟨_, (hstep _ _ _ hc).mpr ⟨hall.of_plus, ha, rfl⟩, (ih hall.of_plus).mpr ⟨hall, hP, hc'⟩⟩

/-- An entry belongs to a ledger of the anchor, and so do the metadata that it has for references. -/
structure Fits (anchor : Option String) (entry : LedgerEntry) : Prop where
  anchor : anchor = some entry.anchorAsOf
  metadata : ∀ ref ∈ entry.citationRefs, Anchored entry

theorem collectEntry_iff {anchor : Option String} (hc : c.Once) :
    collectEntry anchor c entry = .ok c' ↔
      (c.plus (numericPairs entry) (metadataPairs entry)).Once ∧ Fits anchor entry ∧
        c' = c.plus (numericPairs entry) (metadataPairs entry) := by
  rw [collectEntry, bind_ok]
  simp only [require_ok, exists_const]
  rw [foldlM_collect (f := collectRef entry) (fun _ _ _ hc => collectRef_iff hc) hc]
  constructor
  · rintro ⟨hanchor, honce, hmetadata, h⟩
    exact ⟨honce, ⟨hanchor, hmetadata⟩, h⟩
  · rintro ⟨honce, hfits, h⟩
    exact ⟨hfits.anchor, honce, hfits.metadata, h⟩

/-- The pairs of a ledger. -/
def collected (ledger : Ledger) : Collected :=
  ⟨ledger.flatMap numericPairs, ledger.flatMap metadataPairs⟩

/-- When the host accepts a ledger, and what it reads off it. -/
theorem hostLedger_iff {host : HostLedger} :
    hostLedger ledger = .ok host ↔
      (collected ledger).Once ∧ (∀ entry ∈ ledger, Fits (firstAnchor ledger) entry) ∧
        host = ⟨firstAnchor ledger, (collected ledger).citations⟩ := by
  have hstart : Collected.Once ⟨[], []⟩ := ⟨List.nodup_nil, List.nodup_nil⟩
  have hplus : Collected.plus ⟨[], []⟩ (ledger.flatMap numericPairs) (ledger.flatMap metadataPairs) =
      collected ledger := rfl
  simp only [hostLedger, bind_ok, pure_ok]
  constructor
  · rintro ⟨d, hd, hhost⟩
    rw [foldlM_collect (f := collectEntry (firstAnchor ledger))
      (fun _ _ _ hc => collectEntry_iff hc) hstart, hplus] at hd
    obtain ⟨honce, hfits, rfl⟩ := hd
    exact ⟨honce, hfits, hhost.symm⟩
  · rintro ⟨honce, hfits, hhost⟩
    refine ⟨collected ledger, ?_, hhost.symm⟩
    rw [foldlM_collect (f := collectEntry (firstAnchor ledger))
      (fun _ _ _ hc => collectEntry_iff hc) hstart, hplus]
    exact ⟨honce, hfits, rfl⟩

theorem keys_citations (c : Collected) : ∃ p : String → Bool, c.citations.keys = c.numeric.keys.filter p := by
  refine ⟨fun ref => (c.metadata.get? ref).isSome, ?_⟩
  unfold Collected.citations
  generalize c.numeric = numeric
  induction numeric with
  | nil => rfl
  | cons e numeric ih =>
    rw [List.filterMap_cons, Dict.keys, Dict.keys, List.map_cons, List.filter_cons]
    cases c.metadata.get? e.1 with
    | none => exact ih
    | some metadata => exact congrArg (e.1 :: ·) ih

/-- A reference resolves to its numbers and its metadata. -/
theorem get?_citations (hc : c.Once) {r : CitationResolution} :
    c.citations.get? ref = some r ↔
      (ref, r.entry, r.fields) ∈ c.numeric ∧ (ref, r.metadata) ∈ c.metadata := by
  obtain ⟨p, hkeys⟩ := keys_citations c
  have hnodup : c.citations.keys.Nodup := hkeys ▸ hc.numeric.filter p
  constructor
  · intro h
    obtain ⟨hnumeric, hmetadata⟩ := Collected.mem_citations (Dict.mem_of_get? h)
    exact ⟨hnumeric, Dict.mem_of_get? hmetadata⟩
  · intro ⟨hnumeric, hmetadata⟩
    apply Dict.get?_of_mem hnodup
    refine List.mem_filterMap.mpr ⟨_, hnumeric, ?_⟩
    dsimp only
    rw [Dict.get?_of_mem hc.metadata hmetadata]
    rfl

end NanFung.Brief
