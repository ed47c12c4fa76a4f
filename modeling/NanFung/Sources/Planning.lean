import NanFung.Sources.Numbers
import NanFung.Sources.Csv
import NanFung.Lib.Tally
import NanFung.Lib.FixedWidth
import Mathlib.Data.List.Sort
import Mathlib.Data.String.Basic
import Mathlib.Order.Lex

/-!
# Planning applications

The parser of the planning-application CSV counts the rows of each London authority and month, and
returns the counts as records in the order of their keys. Rows that are not counted are skipped.
-/

namespace NanFung

open Decimal

/-! ## The code -/

/-- `LONDON_AUTHORITY_NAMES` -/
def londonAuthorityNames : Dict String String := [
  ("41", "Barking and Dagenham"), ("42", "Brent"), ("43", "Bexley"), ("48", "Barnet"),
  ("65", "Bromley"), ("90", "Camden"), ("100", "Croydon"), ("115", "Ealing"), ("126", "Enfield"),
  ("150", "Greenwich"), ("162", "Havering"), ("163", "Hackney"), ("167", "Hillingdon"),
  ("169", "Hammersmith and Fulham"), ("170", "Hounslow"), ("174", "Harrow"), ("175", "Haringey"),
  ("181", "Islington"), ("182", "Kensington and Chelsea"), ("188", "Kingston upon Thames"),
  ("192", "Lambeth"), ("198", "Lewisham"), ("203", "City of London"), ("217", "Merton"),
  ("246", "Newham"), ("261", "Redbridge"), ("266", "Richmond upon Thames"), ("319", "Sutton"),
  ("329", "Southwark"), ("350", "Tower Hamlets"), ("366", "Waltham Forest"), ("376", "Wandsworth"),
  ("387", "Westminster")]

/-- `LONDON_AUTHORITY_ENTITY_IDS` -/
def londonAuthorityEntityIds : List String := [
  "41", "42", "43", "48", "65", "90", "100", "115", "126", "150",
  "162", "163", "167", "169", "170", "174", "175", "181", "182",
  "188", "192", "198", "203", "217", "246", "261", "266", "319",
  "329", "350", "366", "376", "387"]

/-- An exception: `PLDParseError`, or `KeyError`. -/
inductive PlanningError where
  | parse (message : String)
  | key (key : String)
  deriving DecidableEq, Repr

section

variable (L : NumberLibrary)

/-- The spaces that `int` allows around a number. -/
def isIntSpace (c : Char) : Bool :=
  (9 ≤ c.toNat && c.toNat ≤ 13) || c.toNat = 32 || (127 ≤ c.toNat && isSpace c)

/-- The value of a digit of ASCII or of another script. -/
def intDigit (c : Char) : Option Nat :=
  if c.isDigit then some (c.toNat - 48)
  else if 127 ≤ c.toNat then (L.decimal c).map Fin.val
  else none

local instance lawfulBEq_groups : LawfulBEq (List Char) := inferInstance

/-- `int(text)`; none is `ValueError`. -/
def pyInt (text : List Char) : Option Int :=
  let body := ((text.dropWhile isIntSpace).reverse.dropWhile isIntSpace).reverse
  let (negative, number) := splitSign body
  let groups := number.splitOn '_'
  if [] ∈ groups then none
  else match groups.flatten.mapM (intDigit L) with
    | none => none
    | some ds =>
      if 4300 < ds.length then none
      else
        let n : Nat := ds.foldl (fun n d => 10 * n + d) 0
        some (if negative then -(n : Int) else n)

/-- `_parse_year_month` -/
def parseYearMonth (dateText : List Char) : Except PlanningError (Int × Int) :=
  if dateText = [] then .error (.parse "decision-date is empty")
  else match (strip dateText).splitOn '-' with
    | first :: second :: _ =>
      match pyInt L first, pyInt L second with
      | some year, some month => .ok (year, month)
      | _, _ => .error (.parse ("decision-date " ++ L.repr (PyText.ofChars dateText) ++
          " has non-numeric year/month"))
    | _ => .error (.parse ("unparseable decision-date " ++ L.repr (PyText.ofChars dateText)))

/-- Drop characters from the right end of a text: `rstrip`. -/
def rstripChar (c : Char) (s : List Char) : List Char := (s.reverse.dropWhile (· = c)).reverse

/-- `_decimal_text` of a string. A text that fits into memory has no coefficient that is too large for
the constructor. -/
def planningDecimalText (value : List Char) : Except PlanningError (List Char) :=
  let text := strip value
  if text = [] then .error (.parse "empty numeric value")
  else if text.head? = some '-' then .error (.parse "counts must be non-negative")
  else match (asciiText L (PyText.ofChars text)).bind numeral with
    | none => .error (.parse "count is not a valid decimal")
    | some (.finite d) =>
      if 'E' ∈ text.map Char.toUpper ∨ 'e' ∈ text then
        .error (.parse "exponent notation is not allowed in counts")
      else if d.negative = true ∧ d.coefficient ≠ 0 then
        .error (.parse "counts must be non-negative")
      else
        let normalized := fixedText d
        let normalized :=
          if '.' ∈ normalized then rstripChar '.' (rstripChar '0' normalized) else normalized
        .ok (if normalized = [] then ['0'] else normalized)
    | some _ => .error (.parse "exponent notation is not allowed in counts")

/-- `PLDRecord` -/
structure PLDRecord where
  organisationEntity : String
  borough : String
  periodYear : Int
  periodMonth : Int
  planningApplicationCount : List Char
  borough_eq : londonAuthorityNames.get? organisationEntity = some borough
  month_range : 1 ≤ periodMonth ∧ periodMonth ≤ 12
  year_range : 2000 ≤ periodYear ∧ periodYear ≤ 2100

/-- The construction of a record, `__post_init__` included. -/
def PLDRecord.make (organisationEntity borough : String) (periodYear periodMonth : Int)
    (planningApplicationCount : List Char) : Except PlanningError PLDRecord :=
  if organisationEntity ∉ londonAuthorityEntityIds then
    .error (.parse ("organisation-entity " ++ L.repr (PyText.ofString organisationEntity) ++
      " is not a London authority"))
  else if hborough : londonAuthorityNames.get? organisationEntity = some borough then
    if hmonth : 1 ≤ periodMonth ∧ periodMonth ≤ 12 then
      if hyear : 2000 ≤ periodYear ∧ periodYear ≤ 2100 then
        match planningDecimalText L planningApplicationCount with
        | .error e => .error e
        | .ok count => .ok ⟨organisationEntity, borough, periodYear, periodMonth, count, hborough,
            hmonth, hyear⟩
      else .error (.parse "period_year out of supported range")
    else .error (.parse "period_month must be 1..12")
  else .error (.parse ("borough " ++ L.repr (PyText.ofString borough) ++ " does not match entity " ++
    L.repr (PyText.ofString organisationEntity)))

end

/-- The entity, year and month that a count is for. -/
abbrev PlanningKey : Type := String ×ₗ (Int ×ₗ Int)

def planningKey (entity : String) (year month : Int) : PlanningKey := toLex (entity, toLex (year, month))

/-- `record_key`; a year of a record has four digits and a month two. -/
def PLDRecord.recordKey (r : PLDRecord) : String × List Char :=
  (r.organisationEntity,
    FixedWidth.digits 4 r.periodYear.toNat ++ '-' :: FixedWidth.digits 2 r.periodMonth.toNat)

/-- The key of the sort. -/
def PLDRecord.sortKey (r : PLDRecord) : PlanningKey :=
  planningKey r.organisationEntity r.periodYear r.periodMonth

def PLDRecord.NotAfter (r s : PLDRecord) : Prop := r.sortKey ≤ s.sortKey

instance : DecidableRel PLDRecord.NotAfter := fun r s =>
  inferInstanceAs (Decidable (r.sortKey ≤ s.sortKey))

instance : Std.Total PLDRecord.NotAfter := ⟨fun r s => le_total r.sortKey s.sortKey⟩

instance : IsTrans PLDRecord PLDRecord.NotAfter := ⟨fun _ _ _ => le_trans⟩

section

variable (L : NumberLibrary) (header : List String)

/-- The body of the loop over the rows. -/
def countRow (counts : Dict PlanningKey Nat) (row : List String) : Dict PlanningKey Nat :=
  let entity := String.ofList (cellText "organisation-entity" header row)
  if entity = "" then counts
  else if entity ∉ londonAuthorityEntityIds then counts
  else
    let decision := cellText "decision-date" header row
    if decision = [] then counts
    else match parseYearMonth L decision with
      | .error _ => counts
      | .ok (year, month) =>
        if ¬ (1 ≤ month ∧ month ≤ 12) ∨ ¬ (2000 ≤ year ∧ year ≤ 2100) then counts
        else counts.increment (planningKey entity year month)

/-- The body of the loop over the counts: a group that is refused is skipped. -/
def recordOf (e : PlanningKey × Nat) : Except PlanningError (Option PLDRecord) :=
  match londonAuthorityNames.get? (ofLex e.1).1 with
  | none => .error (.key (ofLex e.1).1)
  | some borough =>
    match PLDRecord.make L (ofLex e.1).1 borough (ofLex (ofLex e.1).2).1 (ofLex (ofLex e.1).2).2
        (digits e.2) with
    | .ok record => .ok (some record)
    | .error (.parse _) => .ok none
    | .error (.key k) => .error (.key k)

/-- `parse_planning_applications_csv`, from the header and the rows of the CSV. `csv.DictReader` leaves an
empty row out; without cells it is not counted either. -/
def parsePlanningApplications (rows : List (List String)) : Except PlanningError (List PLDRecord) :=
  let fields := header.map stripName
  let missing := ["decision-date", "organisation-entity"].filter fun name => name ∉ fields
  if missing ≠ [] then
    .error (.parse ("CSV missing required columns: [" ++
      ", ".intercalate (missing.map fun name => "'" ++ name ++ "'") ++ "]"))
  else do
    let counts := rows.foldl (countRow L header) []
    let records ← counts.mapM (recordOf L)
    let records := records.filterMap id
    if records = [] then
      .error (.parse "no London planning-application rows with decision-date found in payload")
    else .ok (records.insertionSort PLDRecord.NotAfter)

end

/-! ## What is counted -/

/-- The key of a row with a London authority and a date in the supported range. -/
def rowKey (L : NumberLibrary) (header row : List String) : Option PlanningKey :=
  let entity := String.ofList (cellText "organisation-entity" header row)
  if entity ∉ londonAuthorityEntityIds then none
  else match parseYearMonth L (cellText "decision-date" header row) with
    | .error _ => none
    | .ok (year, month) =>
      if (1 ≤ month ∧ month ≤ 12) ∧ 2000 ≤ year ∧ year ≤ 2100 then some (planningKey entity year month)
      else none

/-- The keys of the rows that are counted. -/
def countedKeys (L : NumberLibrary) (header : List String) (rows : List (List String)) :
    List PlanningKey := rows.filterMap (rowKey L header)

/-- A key that a record can have. -/
structure PlanningKey.Fits (k : PlanningKey) : Prop where
  london : (ofLex k).1 ∈ londonAuthorityEntityIds
  year : 2000 ≤ (ofLex (ofLex k).2).1 ∧ (ofLex (ofLex k).2).1 ≤ 2100
  month : 1 ≤ (ofLex (ofLex k).2).2 ∧ (ofLex (ofLex k).2).2 ≤ 12

variable {L : NumberLibrary} {header row : List String} {rows rows' : List (List String)}
  {counts : Dict PlanningKey Nat} {k : PlanningKey} {n : Nat} {records records' : List PLDRecord}

theorem rowKey_fits (h : rowKey L header row = some k) : k.Fits := by
  unfold rowKey at h
  dsimp only at h
  split at h
  · exact nomatch h
  · next hlondon =>
    split at h
    · exact nomatch h
    · split at h
      · next hrange =>
        obtain rfl := Option.some.inj h
        exact ⟨not_not.mp hlondon, hrange.2, hrange.1⟩
      · exact nomatch h

theorem countRow_eq : countRow L header counts row =
    (rowKey L header row).elim counts fun k => counts.increment k := by
  have hempty : "" ∉ londonAuthorityEntityIds := by decide
  unfold countRow rowKey
  dsimp only
  split
  · next hnone => rw [hnone, if_pos hempty, Option.elim_none]
  · split
    · rfl
    · split
      · next hdecision =>
        -- a row that is not decided has no month
        rw [hdecision]
        rfl
      · split
        · rfl
        · split
          · next hout => rw [if_neg (by omega), Option.elim_none]
          · next hin => rw [if_pos (by omega), Option.elim_some]

theorem foldl_countRow (rows : List (List String)) :
    rows.foldl (countRow L header) [] = Dict.tally (countedKeys L header rows) := by
  have hstep : countRow L header = fun counts row => (rowKey L header row).elim counts
      fun k => counts.increment k := funext fun _ => funext fun _ => countRow_eq
  rw [countedKeys, Dict.tally, List.foldl_filterMap, hstep]
  refine congrArg (fun f => rows.foldl f []) (funext fun counts => funext fun row => ?_)
  cases rowKey L header row <;> rfl

/-! ## Records of the counts -/

theorem strip_of_isPlain {s : List Char} (h : ∀ c ∈ s, IsPlain c) : strip s = s := by
  have hdrop : ∀ u : List Char, (∀ c ∈ u, IsPlain c) → u.dropWhile isSpace = u := by
    intro u hu
    cases u with
    | nil => rfl
    | cons c u =>
      apply List.dropWhile_cons_of_neg
      rw [isSpace_of_isPlain (hu c List.mem_cons_self)]
      exact Bool.false_ne_true
  rw [strip, hdrop s h, hdrop _ (fun c hc => h c (List.mem_reverse.mp hc)), List.reverse_reverse]

/-- The text of a count is canonical already. -/
theorem planningDecimalText_digits (n : Nat) : planningDecimalText L (digits n) = .ok (digits n) := by
  have hdigit : ∀ c ∈ digits n, c.isDigit = true := isDigits_digits n
  have hplain : ∀ c ∈ digits n, IsPlain c := fun c hc => .inr (.inr (hdigit c hc))
  have hhead : (digits n).head? ≠ some '-' := fun h =>
    isDigit_ne (hdigit '-' (List.mem_of_head? h)) rfl rfl
  have hE : 'E' ∉ (digits n).map Char.toUpper := by
    intro h
    obtain ⟨c, hc, heq⟩ := List.mem_map.mp h
    have hnat := toNat_of_isPlain (hplain c hc)
    have hsame : c.toUpper = c := by
      refine dif_neg ?_
      rintro ⟨hlower, -⟩
      have hlower' : 97 ≤ c.toNat := hlower
      omega
    rw [hsame.symm.trans heq] at hnat
    exact absurd hnat (by decide)
  have he : 'e' ∉ digits n := fun h => isDigit_ne (hdigit 'e' h) rfl rfl
  have hpoint : '.' ∉ digits n := fun h => isDigit_ne (hdigit '.' h) rfl rfl
  simp only [planningDecimalText, strip_of_isPlain hplain, if_neg (digits_ne_nil n), if_neg hhead,
    asciiText_ofChars hplain, Option.bind_some, numeral_digits, if_neg (not_or.mpr ⟨hE, he⟩),
    Bool.false_eq_true, false_and, if_false, fixedText_digits, if_neg hpoint]

/-- Every authority has a name. -/
theorem londonAuthorityNames_isSome : ∀ entity ∈ londonAuthorityEntityIds,
    (londonAuthorityNames.get? entity).isSome = true := by decide

/-- A key that fits has a record, with its count. -/
theorem recordOf_of_fits (hk : k.Fits) (n : Nat) : ∃ r, recordOf L (k, n) = .ok (some r) ∧
    r.sortKey = k ∧ r.planningApplicationCount = digits n := by
  obtain ⟨borough, hborough⟩ := Option.isSome_iff_exists.mp (londonAuthorityNames_isSome _ hk.london)
  refine ⟨⟨(ofLex k).1, borough, (ofLex (ofLex k).2).1, (ofLex (ofLex k).2).2, digits n, hborough,
    hk.month, hk.year⟩, ?_, rfl, rfl⟩
  have hmake : PLDRecord.make L (ofLex k).1 borough (ofLex (ofLex k).2).1 (ofLex (ofLex k).2).2
      (digits n) = .ok ⟨_, _, _, _, digits n, hborough, hk.month, hk.year⟩ := by
    rw [PLDRecord.make, if_neg (not_not.mpr hk.london), dif_pos hborough, dif_pos hk.month,
      dif_pos hk.year, planningDecimalText_digits]
  simp only [recordOf, hborough, hmake]

/-- What a record says: a key and a count. -/
def PLDRecord.entry (r : PLDRecord) : PlanningKey × List Char :=
  (r.sortKey, r.planningApplicationCount)

theorem PLDRecord.entry_injective : Function.Injective PLDRecord.entry := by
  rintro ⟨entity, borough, year, month, count, hborough, hmonth, hyear⟩
    ⟨entity', borough', year', month', count', hborough', hmonth', hyear'⟩ h
  obtain ⟨hkey, rfl⟩ := Prod.mk.inj h
  obtain ⟨rfl, hperiod⟩ := Prod.mk.inj (toLex.injective hkey)
  obtain ⟨rfl, rfl⟩ := Prod.mk.inj (toLex.injective hperiod)
  obtain rfl := Option.some.inj (hborough.symm.trans hborough')
  rfl

theorem mapM_recordOf (hcounts : ∀ e ∈ counts, e.1.Fits) :
    ∃ options, counts.mapM (recordOf L) = .ok options ∧
      (options.filterMap id).map PLDRecord.entry = counts.map fun e => (e.1, digits e.2) := by
  induction counts with
  | nil => exact ⟨[], rfl, rfl⟩
  | cons e counts ih =>
    obtain ⟨hfits, hcounts⟩ := List.forall_mem_cons.mp hcounts
    obtain ⟨options, hoptions, hentries⟩ := ih hcounts
    obtain ⟨r, hr, hkey, hcount⟩ := recordOf_of_fits (L := L) hfits e.2
    refine ⟨some r :: options, ?_, ?_⟩
    · rw [List.mapM_cons, hr, hoptions]
      rfl
    · show (r :: options.filterMap id).map PLDRecord.entry = _
      rw [List.map_cons, List.map_cons, hentries, PLDRecord.entry, hkey, hcount]

theorem mem_countedKeys : k ∈ countedKeys L header rows ↔ ∃ row ∈ rows, rowKey L header row = some k :=
  List.mem_filterMap

/-- What the parser returns: nothing if no row is counted, else the counts in the order of their keys. -/
theorem parsePlanningApplications_spec (hentity : "organisation-entity" ∈ header)
    (hdecision : "decision-date" ∈ header) (rows : List (List String)) :
    (countedKeys L header rows = [] ∧ parsePlanningApplications L header rows =
        .error (.parse "no London planning-application rows with decision-date found in payload")) ∨
      countedKeys L header rows ≠ [] ∧ ∃ records,
        parsePlanningApplications L header rows = .ok records ∧
          (records.map PLDRecord.entry).Perm
            ((Dict.tally (countedKeys L header rows)).map fun e => (e.1, digits e.2)) ∧
              records.Pairwise PLDRecord.NotAfter := by
  have hmissing : (["decision-date", "organisation-entity"].filter fun name =>
      name ∉ header.map stripName) = [] := by
    have hdate : "decision-date" ∈ header.map stripName := List.mem_map.mpr ⟨_, hdecision, by decide⟩
    have horganisation : "organisation-entity" ∈ header.map stripName :=
      List.mem_map.mpr ⟨_, hentity, by decide⟩
    simp only [List.filter_cons, hdate, horganisation, not_true_eq_false, decide_false,
      Bool.false_eq_true, if_false, List.filter_nil]
  have hfits : ∀ e ∈ Dict.tally (countedKeys L header rows), e.1.Fits := fun e he => by
    obtain ⟨row, -, hrow⟩ := mem_countedKeys.mp (Dict.mem_tally.mp he).1
    exact rowKey_fits hrow
  obtain ⟨options, hoptions, hentries⟩ := mapM_recordOf (L := L) hfits
  have hempty : options.filterMap id = [] ↔ countedKeys L header rows = [] := by
    constructor
    · intro hnil
      rw [hnil, List.map_nil] at hentries
      exact Dict.tally_eq_nil.mp (List.map_eq_nil_iff.mp hentries.symm)
    · intro hnil
      rw [hnil, Dict.tally_eq_nil.mpr rfl, List.map_nil] at hentries
      exact List.map_eq_nil_iff.mp hentries
  simp only [parsePlanningApplications, hmissing, ne_eq, not_true_eq_false, if_false, foldl_countRow,
    hoptions]
  rcases eq_or_ne (countedKeys L header rows) [] with hnil | hne
  · exact .inl ⟨hnil, if_pos (hempty.mpr hnil)⟩
  · refine .inr ⟨hne, (options.filterMap id).insertionSort PLDRecord.NotAfter,
      if_neg (hempty.not.mpr hne), ?_, ?_⟩
    · rw [← hentries]
      exact (List.perm_insertionSort _ _).map _
    · exact List.pairwise_insertionSort _ _

/-! ## Conservation -/

/-- The number that a record states. -/
def PLDRecord.count (r : PLDRecord) : Nat := digitsValue r.planningApplicationCount

/-- The count of a key in a result; without records it is zero. -/
def countOf (result : Except PlanningError (List PLDRecord)) (k : PlanningKey) : Nat :=
  match result with
  | .error _ => 0
  | .ok records => ((records.find? fun r => r.sortKey = k).map PLDRecord.count).getD 0

/-- The counts of the parser conserve the rows of a London authority with a date in the range. -/
structure ConservesRows (L : NumberLibrary) (header : List String) : Prop where
  raises : ∀ rows, (∃ message, parsePlanningApplications L header rows = .error (.parse message)) ↔
    (countedKeys L header rows).length = 0
  returns : ∀ rows, (countedKeys L header rows).length ≠ 0 →
    ∃ records, parsePlanningApplications L header rows = .ok records
  total : ∀ rows records, parsePlanningApplications L header rows = .ok records →
    (records.map PLDRecord.count).sum = (countedKeys L header rows).length
  counts : ∀ rows records, parsePlanningApplications L header rows = .ok records → ∀ r ∈ records,
    0 < r.count ∧ r.count = (countedKeys L header rows).count r.sortKey
  sorted : ∀ rows records, parsePlanningApplications L header rows = .ok records →
    records.Pairwise fun r s => r.sortKey < s.sortKey ∧ toLex r.recordKey < toLex s.recordKey
  permuted : ∀ rows rows', rows.Perm rows' →
    parsePlanningApplications L header rows = parsePlanningApplications L header rows'
  concatenated : ∀ rows rows' k, countOf (parsePlanningApplications L header (rows ++ rows')) k =
    countOf (parsePlanningApplications L header rows) k +
      countOf (parsePlanningApplications L header rows') k

/-- A list of records that states the counts of the keys, in their order. -/
structure States (ks : List PlanningKey) (records : List PLDRecord) : Prop where
  entries : (records.map PLDRecord.entry).Perm ((Dict.tally ks).map fun e => (e.1, digits e.2))
  sorted : records.Pairwise PLDRecord.NotAfter

variable {ks ks' : List PlanningKey} {r s : PLDRecord}

theorem States.mem (h : States ks records) (hr : r ∈ records) :
    r.sortKey ∈ ks ∧ r.count = ks.count r.sortKey := by
  obtain ⟨⟨k, n⟩, he, heq⟩ := List.mem_map.mp (h.entries.subset (List.mem_map_of_mem hr))
  obtain ⟨hkey, hcount⟩ := Prod.mk.inj heq
  obtain ⟨hk, hn⟩ := Dict.mem_tally.mp he
  dsimp only at hkey hcount
  rw [PLDRecord.count, ← hcount, digitsValue_digits, hn, ← hkey]
  exact ⟨hk, rfl⟩

theorem States.exists (h : States ks records) (hk : k ∈ ks) : ∃ r ∈ records, r.sortKey = k := by
  have he : (k, digits (ks.count k)) ∈ (Dict.tally ks).map fun e => (e.1, digits e.2) :=
    List.mem_map.mpr ⟨(k, ks.count k), Dict.mem_tally.mpr ⟨hk, rfl⟩, rfl⟩
  obtain ⟨r, hr, heq⟩ := List.mem_map.mp (h.entries.symm.subset he)
  exact ⟨r, hr, congrArg Prod.fst heq⟩

/-- No two records have one key. -/
theorem States.strict (h : States ks records) :
    records.Pairwise fun r s => r.sortKey < s.sortKey := by
  have hkeys : (records.map PLDRecord.sortKey).Nodup := by
    have hperm := h.entries.map Prod.fst
    simp only [List.map_map, Function.comp_def] at hperm
    exact hperm.nodup_iff.mpr (Dict.keys_tally_nodup ks)
  have hne : records.Pairwise fun r s => r.sortKey ≠ s.sortKey := List.pairwise_map.mp hkeys
  exact (h.sorted.and hne).imp fun ⟨hle, hne⟩ => lt_of_le_of_ne hle hne

theorem States.total (h : States ks records) : (records.map PLDRecord.count).sum = ks.length := by
  have hperm := (h.entries.map fun e => digitsValue e.2).sum_nat
  simp only [List.map_map, Function.comp_def, digitsValue_digits] at hperm
  exact hperm.trans (Dict.sum_tally ks)

theorem States.unique (h : States ks records) (h' : States ks' records') (hks : ks.Perm ks') :
    records = records' := by
  have hentries := h.entries.trans (((Dict.tally_perm hks).map _).trans h'.entries.symm)
  have hperm : records.Perm records' :=
    (List.map_perm_map_iff PLDRecord.entry_injective).mp hentries
  exact List.Perm.eq_of_pairwise (fun r s _ _ hrs hsr => absurd hsr (lt_asymm hrs)) h.strict h'.strict
    hperm

/-- The text of a record key compares like the numbers. -/
theorem PLDRecord.recordKey_lt (h : r.sortKey < s.sortKey) : toLex r.recordKey < toLex s.recordKey := by
  have hwidth : ∀ r : PLDRecord, r.periodYear.toNat < 10 ^ 4 ∧ r.periodMonth.toNat < 10 ^ 2 := fun r => by
    have hyear := r.year_range
    have hmonth := r.month_range
    omega
  have hperiod := r.year_range
  have hperiod' := s.year_range
  have hmonth := r.month_range
  have hmonth' := s.month_range
  have hlength : (FixedWidth.digits 4 r.periodYear.toNat).length =
      (FixedWidth.digits 4 s.periodYear.toNat).length := by
    rw [FixedWidth.length_digits, FixedWidth.length_digits]
  rw [sortKey, sortKey, planningKey, planningKey, Prod.Lex.toLex_lt_toLex] at h
  rw [recordKey, recordKey, Prod.Lex.toLex_lt_toLex]
  refine h.imp id fun ⟨hentity, hlt⟩ => ⟨hentity, ?_⟩
  rw [Prod.Lex.toLex_lt_toLex] at hlt
  dsimp only at hlt ⊢
  rw [FixedWidth.append_lt_append_iff hlength,
    FixedWidth.digits_lt_iff (hwidth r).1 (hwidth s).1]
  rcases hlt with hyear | ⟨hyear, hlt⟩
  · exact .inl (by omega)
  · refine .inr ⟨by rw [hyear], List.cons_lt_cons_iff.mpr (.inr ⟨rfl, ?_⟩)⟩
    rw [FixedWidth.digits_lt_iff (hwidth r).2 (hwidth s).2]
    omega

theorem states_of_ok (hentity : "organisation-entity" ∈ header) (hdecision : "decision-date" ∈ header)
    (h : parsePlanningApplications L header rows = .ok records) :
    States (countedKeys L header rows) records := by
  rcases parsePlanningApplications_spec (L := L) hentity hdecision rows with
    ⟨-, herror⟩ | ⟨-, records', hok, hentries, hsorted⟩
  · exact nomatch herror.symm.trans h
  · obtain rfl := Except.ok.inj (hok.symm.trans h)
    exact ⟨hentries, hsorted⟩

theorem countOf_parse (hentity : "organisation-entity" ∈ header)
    (hdecision : "decision-date" ∈ header) (rows : List (List String)) (k : PlanningKey) :
    countOf (parsePlanningApplications L header rows) k = (countedKeys L header rows).count k := by
  rcases parsePlanningApplications_spec (L := L) hentity hdecision rows with
    ⟨hnil, herror⟩ | ⟨-, records, hok, -⟩
  · rw [herror, hnil]
    rfl
  · have hstates := states_of_ok hentity hdecision hok
    rw [hok, countOf]
    cases hfind : records.find? fun r => r.sortKey = k with
    | none =>
      have hnew : k ∉ countedKeys L header rows := fun hk => by
        obtain ⟨r, hr, hkey⟩ := hstates.exists hk
        exact of_decide_eq_false (by simpa using List.find?_eq_none.mp hfind r hr) hkey
      rw [List.count_eq_zero_of_not_mem hnew]
      rfl
    | some r =>
      have hkey : r.sortKey = k := by simpa using List.find?_some hfind
      rw [← hkey]
      exact (hstates.mem (List.mem_of_find?_eq_some hfind)).2

/-- The parser conserves the rows, for every header with the columns that it reads. -/
theorem planningApplications_conserve (L : NumberLibrary) (header : List String)
    (hentity : "organisation-entity" ∈ header) (hdecision : "decision-date" ∈ header) :
    ConservesRows L header := by
  have hspec := parsePlanningApplications_spec (L := L) hentity hdecision
  have hstates : ∀ {rows records}, parsePlanningApplications L header rows = .ok records →
      States (countedKeys L header rows) records := fun h => states_of_ok hentity hdecision h
  constructor
  · intro rows
    rw [List.length_eq_zero_iff]
    rcases hspec rows with ⟨hnil, herror⟩ | ⟨hne, records, hok, -⟩
    · exact ⟨fun _ => hnil, fun _ => ⟨_, herror⟩⟩
    · exact ⟨fun ⟨_, herror⟩ => (nomatch hok.symm.trans herror), fun hnil => absurd hnil hne⟩
  · intro rows hne
    rcases hspec rows with ⟨hnil, -⟩ | ⟨-, records, hok, -⟩
    · rw [hnil] at hne
      exact absurd rfl hne
    · exact ⟨records, hok⟩
  · exact fun rows records h => (hstates h).total
  · intro rows records h r hr
    obtain ⟨hmem, hcount⟩ := (hstates h).mem hr
    rw [hcount]
    exact ⟨List.count_pos_iff.mpr hmem, rfl⟩
  · exact fun rows records h => (hstates h).strict.imp fun hlt => ⟨hlt, PLDRecord.recordKey_lt hlt⟩
  · intro rows rows' hperm
    have hkeys : (countedKeys L header rows).Perm (countedKeys L header rows') := hperm.filterMap _
    rcases hspec rows with ⟨hnil, herror⟩ | ⟨hne, records, hok, -⟩ <;>
      rcases hspec rows' with ⟨hnil', herror'⟩ | ⟨hne', records', hok', -⟩
    · rw [herror, herror']
    · rw [hnil] at hkeys
      exact absurd hkeys.nil_eq.symm hne'
    · rw [hnil'] at hkeys
      exact absurd hkeys.eq_nil hne
    · rw [hok, hok', (hstates hok).unique (hstates hok') hkeys]
  · intro rows rows' k
    simp only [countOf_parse hentity hdecision, countedKeys, List.filterMap_append, List.count_append]

/-- A header with the columns in another order, and one more. -/
theorem planningApplications_conserve_columns :
    ("organisation-entity" ∈ ["reference", "decision-date", "organisation-entity"] ∧
      "decision-date" ∈ ["reference", "decision-date", "organisation-entity"]) ∧
      ConservesRows asciiNumbers ["reference", "decision-date", "organisation-entity"] :=
  ⟨⟨by decide, by decide⟩, planningApplications_conserve asciiNumbers _ (by decide) (by decide)⟩

example : (parsePlanningApplications asciiNumbers ["reference", "decision-date", "organisation-entity"]
    [["a", "2024-02-01", "90"], ["b", "2024-02", " 90 "], ["c", "", "41"], ["d", "2024-01-31", "90"],
      ["e", "2024-13-01", "90"], ["f", "2024-01-31", "1"], [], ["g", "2024-01-31"]]).toOption.map
        (List.map fun r => (r.borough, r.periodYear, r.periodMonth, r.count)) =
    some [("Camden", 2024, 1, 1), ("Camden", 2024, 2, 2)] := by decide +kernel

end NanFung
