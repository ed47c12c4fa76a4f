import NanFung.Sources.Numbers
import NanFung.Sources.Csv
import NanFung.Dates

/-!
# The Bank Rate CSV

The parser turns each row with a date and a rate into a record and skips a row without both. The header
may pad its names with spaces, but a row is read under the names as they are written.
-/

namespace NanFung

open Decimal

/-! ## The code -/

/-- What the standard library does with dates and payloads. -/
structure BankRateLibrary extends NumberLibrary where
  /-- `datetime.strptime(text, pattern).date()`; none is `ValueError`. -/
  strptime : List Char → String → Option CalendarDate
  /-- The rows of a payload, the header first; none if it is not UTF-8. -/
  csvRows : List UInt8 → Option (List (List String))

/-- `BankRateRecord` -/
structure BankRateRecord where
  effectiveDate : List Char
  ratePercent : List Char
  rowNumber : Nat
  series : String
  deriving DecidableEq, Repr

/-- `record_key` -/
def BankRateRecord.recordKey (r : BankRateRecord) : String × List Char := (r.series, r.effectiveDate)

section

variable (L : BankRateLibrary)

/-- `_parse_effective_date` -/
def parseEffectiveDate (value : List Char) : Except NumberError (List Char) :=
  match L.strptime (strip value) "%d %b %Y" with
  | some d => .ok (isoDate d.year d.month d.day)
  | none =>
    match L.strptime (strip value) "%Y-%m-%d" with
    | some d => .ok (isoDate d.year d.month d.day)
    | none => .error (.parse ("invalid Bank Rate date: " ++ L.repr (PyText.ofChars (strip value))))

/-- The construction of a record, `__post_init__` included. -/
def BankRateRecord.make (effectiveDate ratePercent : List Char) (rowNumber : Nat) (series : String) :
    Except NumberError BankRateRecord :=
  if (dateFromIsoformat effectiveDate).isNone then
    .error (.parse "effective_date must be ISO calendar date")
  else if series ≠ "IUDBEDR" then .error (.parse "Bank Rate series must be IUDBEDR")
  else if rowNumber < 2 then .error (.parse "CSV record row must be at least two")
  else do
    let normalized ← bankRateDecimalText L.toNumberLibrary (PyText.ofChars ratePercent)
    .ok ⟨effectiveDate, normalized, rowNumber, series⟩

/-- What the loop makes of a row before it looks for the date among the ones seen: nothing of a row
without a date and a rate. -/
def bankRateRow (header : List String) (row : List String × Nat) :
    Except NumberError (Option BankRateRecord) :=
  let rawDate := cellText "DATE" header row.1
  let rawRate := cellText "IUDBEDR" header row.1
  if rawDate = [] ∧ rawRate = [] then .ok none
  else if rawDate = [] ∨ rawRate = [] then
    .error (.parse ("incomplete Bank Rate CSV row " ++ toString row.2))
  else do
    let date ← parseEffectiveDate L rawDate
    let record ← BankRateRecord.make L date rawRate row.2 "IUDBEDR"
    .ok (some record)

/-- The loop over the rows, with the keys that it has seen. -/
def bankRateRows (header : List String) :
    List (String × List Char) → List (List String × Nat) → Except NumberError (List BankRateRecord)
  | _, [] => .ok []
  | seenKeys, row :: rows => do
    match ← bankRateRow L header row with
    | none => bankRateRows header seenKeys rows
    | some record =>
      if record.recordKey ∈ seenKeys then
        .error (.parse ("duplicate Bank Rate date: " ++ String.ofList record.effectiveDate))
      else do
        let records ← bankRateRows header (record.recordKey :: seenKeys) rows
        .ok (record :: records)

/-- `enumerate(reader, start=2)`; the reader leaves empty rows out. -/
def numberedRows (rows : List (List String)) : List (List String × Nat) :=
  (rows.filter fun row => row ≠ []).zipIdx 2

/-- `{"DATE", "IUDBEDR"} - fields` is empty. -/
def HasColumns (header : List String) : Prop :=
  "DATE" ∈ header.map stripName ∧ "IUDBEDR" ∈ header.map stripName

instance (header : List String) : Decidable (HasColumns header) := inferInstanceAs (Decidable (_ ∧ _))

/-- `parse_bank_rate_csv` -/
def parseBankRateCsv (payload : List UInt8) : Except NumberError (List BankRateRecord) :=
  match L.csvRows payload with
  | none => .error (.parse "Bank Rate CSV must be UTF-8")
  | some [] => .error (.parse "Bank Rate CSV must contain DATE and IUDBEDR columns")
  | some (header :: rows) =>
    if HasColumns header then bankRateRows L header [] (numberedRows rows)
    else .error (.parse "Bank Rate CSV must contain DATE and IUDBEDR columns")

end

/-! ## What the parser is for -/

/-- The cell of the column whose stripped name is `name`. -/
def namedCell (name : String) (header row : List String) : List Char :=
  cellText name (header.map stripName) row

/-- The row has a date or a rate. -/
def HasData (header : List String) (row : List String × Nat) : Prop :=
  namedCell "DATE" header row.1 ≠ [] ∨ namedCell "IUDBEDR" header row.1 ≠ []

instance (header : List String) (row : List String × Nat) : Decidable (HasData header row) :=
  inferInstanceAs (Decidable (_ ∨ _))

/-- Two texts stand for one number. -/
def SameNumber (L : NumberLibrary) (s t : List Char) : Prop :=
  ∃ q, Spells L (PyText.ofChars s) q ∧ Spells L (PyText.ofChars t) q

/-- Each row with data has exactly one record, with its date and value, in the order of the rows. -/
structure KeepsEveryRow (L : BankRateLibrary) (header : List String) (rows : List (List String × Nat))
    (records : List BankRateRecord) : Prop where
  numbers : records.map BankRateRecord.rowNumber =
    (rows.filter fun row => HasData header row).map Prod.snd
  carries : ∀ r ∈ records, ∀ row ∈ rows, r.rowNumber = row.2 →
    parseEffectiveDate L (namedCell "DATE" header row.1) = .ok r.effectiveDate ∧
      SameNumber L.toNumberLibrary (namedCell "IUDBEDR" header row.1) r.ratePercent
  dates : (records.map BankRateRecord.effectiveDate).Nodup

/-- The parser loses no row of the payload, and raises nothing but its own exception. -/
structure LosesNoRow (L : BankRateLibrary) (payload : List UInt8) : Prop where
  kept : ∀ records, parseBankRateCsv L payload = .ok records → ∃ header rows,
    L.csvRows payload = some (header :: rows) ∧ KeepsEveryRow L header (numberedRows rows) records
  raises : ∀ e, parseBankRateCsv L payload = .error e → ∃ message, e = .parse message

/-! ## Rows -/

/-- The row is refused: it is incomplete, or its date or its rate is unreadable. -/
def Refused (L : BankRateLibrary) (header : List String) (row : List String × Nat) : Prop :=
  ∃ message, bankRateRow L header row = .error (.parse message)

/-- The rate of the row is too large for the decimal context. -/
def Overflows (L : BankRateLibrary) (header : List String) (row : List String × Nat) : Prop :=
  bankRateRow L header row = .error .overflow

/-- The row has a key that was seen, or that of an earlier row. -/
def RepeatsKey (L : BankRateLibrary) (header : List String) (seenKeys : List (String × List Char))
    (before : List (List String × Nat)) (row : List String × Nat) : Prop :=
  ∃ r, bankRateRow L header row = .ok (some r) ∧ (r.recordKey ∈ seenKeys ∨
    ∃ b ∈ before, ∃ r', bankRateRow L header b = .ok (some r') ∧ r'.recordKey = r.recordKey)

/-- A row is refused or repeats a key, and no row before it overflows. -/
def Stopped (L : BankRateLibrary) (header : List String) (seenKeys : List (String × List Char))
    (rows : List (List String × Nat)) : Prop :=
  ∃ before row after, rows = before ++ row :: after ∧ (∀ b ∈ before, ¬ Overflows L header b) ∧
    (Refused L header row ∨ RepeatsKey L header seenKeys before row)

variable {L : BankRateLibrary} {header : List String} {row : List String × Nat}
  {rows : List (List String × Nat)} {seenKeys : List (String × List Char)} {r : BankRateRecord}
  {records : List BankRateRecord} {e : NumberError}

theorem bankRateRows_error (h : bankRateRow L header row = .error e) :
    bankRateRows L header seenKeys (row :: rows) = .error e := by
  rw [bankRateRows, h]
  rfl

theorem bankRateRows_none (h : bankRateRow L header row = .ok none) :
    bankRateRows L header seenKeys (row :: rows) = bankRateRows L header seenKeys rows := by
  rw [bankRateRows, h]
  rfl

theorem bankRateRows_seen (h : bankRateRow L header row = .ok (some r)) (hseen : r.recordKey ∈ seenKeys) :
    ∃ message, bankRateRows L header seenKeys (row :: rows) = .error (.parse message) := by
  rw [bankRateRows, h]
  exact ⟨_, if_pos hseen⟩

theorem bankRateRows_some (h : bankRateRow L header row = .ok (some r)) (hnew : r.recordKey ∉ seenKeys) :
    bankRateRows L header seenKeys (row :: rows) =
      (bankRateRows L header (r.recordKey :: seenKeys) rows).map (r :: ·) := by
  rw [bankRateRows, h]
  apply (if_neg hnew).trans
  cases bankRateRows L header (r.recordKey :: seenKeys) rows <;> rfl

/-- What the loop can do with its first row. -/
theorem bankRateRows_cases (L : BankRateLibrary) (header : List String) (row : List String × Nat)
    (seenKeys : List (String × List Char)) :
    Refused L header row ∨ Overflows L header row ∨ bankRateRow L header row = .ok none ∨
      ∃ r, bankRateRow L header row = .ok (some r) ∧ (r.recordKey ∈ seenKeys ∨ r.recordKey ∉ seenKeys) := by
  rcases h : bankRateRow L header row with e | x
  · cases e with
    | parse message => exact .inl ⟨message, h⟩
    | overflow => exact .inr (.inl h)
  · cases x with
    | none => exact .inr (.inr (.inl rfl))
    | some r => exact .inr (.inr (.inr ⟨r, rfl, Classical.em _⟩))

/-! ## The loop -/

theorem Stopped.cons (h : Stopped L header seenKeys rows) (hrow : ¬ Overflows L header row) :
    Stopped L header seenKeys (row :: rows) := by
  obtain ⟨before, stop, after, rfl, hbefore, hstop⟩ := h
  refine ⟨row :: before, stop, after, rfl, List.forall_mem_cons.mpr ⟨hrow, hbefore⟩, ?_⟩
  refine hstop.imp_right fun ⟨r, hr, hkey⟩ => ⟨r, hr, hkey.imp_right fun ⟨b, hb, hr'⟩ => ?_⟩
  exact ⟨b, List.mem_cons_of_mem _ hb, hr'⟩

theorem stopped_of_error {message : String}
    (h : bankRateRows L header seenKeys rows = .error (.parse message)) :
    Stopped L header seenKeys rows := by
  induction rows generalizing seenKeys with
  | nil => exact nomatch h
  | cons row rows ih =>
    rcases bankRateRows_cases L header row seenKeys with
      hrefused | hoverflows | hnone | ⟨r, hr, hseen | hnew⟩
    · exact ⟨[], row, rows, rfl, nofun, .inl hrefused⟩
    · rw [bankRateRows_error hoverflows] at h
      exact nomatch h
    · rw [bankRateRows_none hnone] at h
      exact (ih h).cons fun hoverflows => nomatch hnone.symm.trans hoverflows
    · exact ⟨[], row, rows, rfl, nofun, .inr ⟨r, hr, .inl hseen⟩⟩
    · rw [bankRateRows_some hr hnew] at h
      have hrest : bankRateRows L header (r.recordKey :: seenKeys) rows = .error (.parse message) := by
        cases hrows : bankRateRows L header (r.recordKey :: seenKeys) rows with
        | error e =>
          rw [hrows] at h
          exact h
        | ok records =>
          rw [hrows] at h
          exact nomatch h
      obtain ⟨before, stop, after, rfl, hbefore, hstop⟩ := ih hrest
      have hrow : ¬ Overflows L header row := fun hoverflows => nomatch hr.symm.trans hoverflows
      refine ⟨row :: before, stop, after, rfl, List.forall_mem_cons.mpr ⟨hrow, hbefore⟩, ?_⟩
      refine hstop.imp_right fun ⟨x, hx, hkey⟩ => ⟨x, hx, ?_⟩
      -- the key that was seen last is that of the first row
      rcases hkey with hkey | ⟨b, hb, hr'⟩
      · rcases List.mem_cons.mp hkey with heq | hkey
        · exact .inr ⟨row, List.mem_cons_self, r, hr, heq.symm⟩
        · exact .inl hkey
      · exact .inr ⟨b, List.mem_cons_of_mem _ hb, hr'⟩

theorem error_of_stopped (h : Stopped L header seenKeys rows) :
    ∃ message, bankRateRows L header seenKeys rows = .error (.parse message) := by
  obtain ⟨before, stop, after, rfl, hbefore, hstop⟩ := h
  induction before generalizing seenKeys with
  | nil =>
    rcases hstop with ⟨message, hmessage⟩ | ⟨r, hr, hseen | ⟨b, hb, -⟩⟩
    · exact ⟨message, bankRateRows_error hmessage⟩
    · exact bankRateRows_seen hr hseen
    · exact nomatch hb
  | cons row before ih =>
    obtain ⟨hrow, hbefore⟩ := List.forall_mem_cons.mp hbefore
    rw [List.cons_append]
    rcases bankRateRows_cases L header row seenKeys with
      ⟨message, hmessage⟩ | hoverflows | hnone | ⟨r, hr, hseen | hnew⟩
    · exact ⟨message, bankRateRows_error hmessage⟩
    · exact absurd hoverflows hrow
    · rw [bankRateRows_none hnone]
      refine ih hbefore (hstop.imp_right fun ⟨x, hx, hkey⟩ => ⟨x, hx, hkey.imp_right ?_⟩)
      rintro ⟨b, hb, r', hr', heq⟩
      rcases List.mem_cons.mp hb with rfl | hb
      · exact nomatch hnone.symm.trans hr'
      · exact ⟨b, hb, r', hr', heq⟩
    · exact bankRateRows_seen hr hseen
    · obtain ⟨message, hmessage⟩ : ∃ message, bankRateRows L header (r.recordKey :: seenKeys)
          (before ++ stop :: after) = .error (.parse message) := by
        refine ih hbefore (hstop.imp_right fun ⟨x, hx, hkey⟩ => ⟨x, hx, ?_⟩)
        rcases hkey with hkey | ⟨b, hb, r', hr', heq⟩
        · exact .inl (List.mem_cons_of_mem _ hkey)
        · rcases List.mem_cons.mp hb with rfl | hb
          · obtain rfl := Option.some.inj (Except.ok.inj (hr.symm.trans hr'))
            rw [← heq]
            exact .inl List.mem_cons_self
          · exact .inr ⟨b, hb, r', hr', heq⟩
      rw [bankRateRows_some hr hnew, hmessage]
      exact ⟨message, rfl⟩

theorem overflows_of_error (h : bankRateRows L header seenKeys rows = .error .overflow) :
    ∃ row ∈ rows, Overflows L header row := by
  induction rows generalizing seenKeys with
  | nil => exact nomatch h
  | cons row rows ih =>
    rcases bankRateRows_cases L header row seenKeys with
      ⟨message, hmessage⟩ | hoverflows | hnone | ⟨r, hr, hseen | hnew⟩
    · rw [bankRateRows_error hmessage] at h
      exact nomatch h
    · exact ⟨row, List.mem_cons_self, hoverflows⟩
    · rw [bankRateRows_none hnone] at h
      obtain ⟨row', hrow', hoverflows⟩ := ih h
      exact ⟨row', List.mem_cons_of_mem _ hrow', hoverflows⟩
    · obtain ⟨message, hmessage⟩ : ∃ m, bankRateRows L header seenKeys (row :: rows) = .error (.parse m) :=
        bankRateRows_seen hr hseen
      exact nomatch hmessage.symm.trans h
    · rw [bankRateRows_some hr hnew] at h
      cases hrows : bankRateRows L header (r.recordKey :: seenKeys) rows with
      | error e =>
        rw [hrows] at h
        obtain ⟨row', hrow', hoverflows⟩ := ih (hrows.trans h)
        exact ⟨row', List.mem_cons_of_mem _ hrow', hoverflows⟩
      | ok records =>
        rw [hrows] at h
        exact nomatch h

/-- The record of a row. -/
def rowRecord (L : BankRateLibrary) (header : List String) (row : List String × Nat) :
    Option BankRateRecord := ((bankRateRow L header row).toOption).join

theorem rowRecord_eq_some : rowRecord L header row = some r ↔ bankRateRow L header row = .ok (some r) := by
  rw [rowRecord, Option.join_eq_some_iff]
  cases bankRateRow L header row with
  | error e => exact ⟨nofun, nofun⟩
  | ok x => exact ⟨fun h => congrArg Except.ok (Option.some.inj h), fun h => congrArg some (Except.ok.inj h)⟩

/-- Where the loop returns, no row is refused, and the records are those of the rows. -/
theorem reads_of_ok (h : bankRateRows L header seenKeys rows = .ok records) :
    (∀ row ∈ rows, ∃ x, bankRateRow L header row = .ok x) ∧
      records = rows.filterMap (rowRecord L header) ∧
        (records.map BankRateRecord.recordKey).Nodup ∧ ∀ r ∈ records, r.recordKey ∉ seenKeys := by
  induction rows generalizing seenKeys records with
  | nil =>
    obtain rfl := Except.ok.inj h
    exact ⟨nofun, rfl, List.nodup_nil, nofun⟩
  | cons row rows ih =>
    rcases bankRateRows_cases L header row seenKeys with
      ⟨message, hmessage⟩ | hoverflows | hnone | ⟨r, hr, hseen | hnew⟩
    · exact nomatch (bankRateRows_error hmessage).symm.trans h
    · exact nomatch (bankRateRows_error hoverflows).symm.trans h
    · rw [bankRateRows_none hnone] at h
      obtain ⟨hrows, hrecords, hnodup, hkeys⟩ := ih h
      have hrecord : rowRecord L header row = none := by
        rw [rowRecord, hnone]
        rfl
      refine ⟨List.forall_mem_cons.mpr ⟨⟨none, hnone⟩, hrows⟩, ?_, hnodup, hkeys⟩
      rw [List.filterMap_cons_none hrecord]
      exact hrecords
    · obtain ⟨message, hmessage⟩ : ∃ m, bankRateRows L header seenKeys (row :: rows) = .error (.parse m) :=
        bankRateRows_seen hr hseen
      exact nomatch hmessage.symm.trans h
    · rw [bankRateRows_some hr hnew] at h
      cases hrest : bankRateRows L header (r.recordKey :: seenKeys) rows with
      | error e =>
        rw [hrest] at h
        exact nomatch h
      | ok rest =>
        rw [hrest] at h
        obtain rfl := Except.ok.inj h
        obtain ⟨hrows, hrecords, hnodup, hkeys⟩ := ih hrest
        refine ⟨List.forall_mem_cons.mpr ⟨⟨_, hr⟩, hrows⟩, ?_, ?_, ?_⟩
        · rw [List.filterMap_cons_some (rowRecord_eq_some.mpr hr), ← hrecords]
        · rw [List.map_cons, List.nodup_cons]
          refine ⟨fun hmem => ?_, hnodup⟩
          obtain ⟨x, hx, heq⟩ := List.mem_map.mp hmem
          exact hkeys x hx (heq ▸ List.mem_cons_self)
        · intro x hx
          rcases List.mem_cons.mp hx with rfl | hx
          · exact hnew
          · exact fun hseen => hkeys x hx (List.mem_cons_of_mem _ hseen)

/-- A record has the date, the rate and the number of its row. -/
theorem bankRateRow_some (h : bankRateRow L header row = .ok (some r)) :
    cellText "DATE" header row.1 ≠ [] ∧ cellText "IUDBEDR" header row.1 ≠ [] ∧
      parseEffectiveDate L (cellText "DATE" header row.1) = .ok r.effectiveDate ∧
        bankRateDecimalText L.toNumberLibrary
            (PyText.ofChars (cellText "IUDBEDR" header row.1)) = .ok r.ratePercent ∧
          r.rowNumber = row.2 ∧ r.series = "IUDBEDR" := by
  unfold bankRateRow at h
  dsimp only at h
  split at h
  · exact nomatch h
  · split at h
    · exact nomatch h
    · next hdata =>
      rw [not_or] at hdata
      obtain ⟨date, hdate, h⟩ := bind_ok.mp h
      obtain ⟨record, hrecord, heq⟩ := bind_ok.mp h
      obtain rfl := Option.some.inj (Except.ok.inj heq)
      unfold BankRateRecord.make at hrecord
      split at hrecord
      · exact nomatch hrecord
      · split at hrecord
        · exact nomatch hrecord
        · split at hrecord
          · exact nomatch hrecord
          · obtain ⟨rate, hrate, heq⟩ := bind_ok.mp hrecord
            obtain rfl := Except.ok.inj heq
            exact ⟨hdata.1, hdata.2, hdate, hrate, rfl, rfl⟩

theorem bankRateRow_none : bankRateRow L header row = .ok none ↔
    cellText "DATE" header row.1 = [] ∧ cellText "IUDBEDR" header row.1 = [] := by
  constructor
  · intro h
    unfold bankRateRow at h
    dsimp only at h
    split at h
    · assumption
    · split at h
      · exact nomatch h
      · obtain ⟨date, hdate, h⟩ := bind_ok.mp h
        obtain ⟨record, hrecord, heq⟩ := bind_ok.mp h
        exact nomatch heq
  · exact fun h => if_pos h

/-! ## Names -/

/-- The row reads the same under the stripped names as under the names that are written, and its rate
keeps its number. -/
structure ReadsAsNamed (L : BankRateLibrary) (header : List String) (row : List String × Nat) :
    Prop where
  blank : cellText "DATE" header row.1 = [] → cellText "IUDBEDR" header row.1 = [] →
    ¬ HasData header row
  data : cellText "DATE" header row.1 ≠ [] → cellText "IUDBEDR" header row.1 ≠ [] →
    HasData header row
  date : cellText "DATE" header row.1 ≠ [] → cellText "IUDBEDR" header row.1 ≠ [] →
    parseEffectiveDate L (namedCell "DATE" header row.1) =
      parseEffectiveDate L (cellText "DATE" header row.1)
  rate : cellText "DATE" header row.1 ≠ [] → cellText "IUDBEDR" header row.1 ≠ [] →
    ∃ t, bankRateDecimalText L.toNumberLibrary
        (PyText.ofChars (cellText "IUDBEDR" header row.1)) = .ok t ∧
      SameNumber L.toNumberLibrary (namedCell "IUDBEDR" header row.1) t

/-- What the rows of a payload with both columns have to be: a row is refused before any overflows, or
every row reads as its names say. -/
def RowsRead (L : BankRateLibrary) (payload : List UInt8) : Prop :=
  ∀ header rows, L.csvRows payload = some (header :: rows) → HasColumns header →
    Stopped L header [] (numberedRows rows) ∨ ∀ row ∈ numberedRows rows, ReadsAsNamed L header row

theorem numberedRows_nodup (rows : List (List String)) : ((numberedRows rows).map Prod.snd).Nodup := by
  rw [numberedRows, List.zipIdx_map_snd]
  exact List.nodup_range'

/-- Rows are told by their numbers. -/
theorem eq_of_number {row row' : List String × Nat} (hrows : (rows.map Prod.snd).Nodup)
    (h : row ∈ rows) (h' : row' ∈ rows) (heq : row.2 = row'.2) : row = row' :=
  List.inj_on_of_nodup_map hrows h h' heq

theorem map_snd_filter_congr {p q : List String × Nat → Bool} (hrows : (rows.map Prod.snd).Nodup)
    (h : (rows.filter p).map Prod.snd = (rows.filter q).map Prod.snd) :
    ∀ row ∈ rows, p row = true → q row = true := by
  intro row hrow hp
  have hmem : row.2 ∈ (rows.filter q).map Prod.snd := by
    rw [← h]
    exact List.mem_map_of_mem (List.mem_filter.mpr ⟨hrow, hp⟩)
  obtain ⟨row', hrow', heq⟩ := List.mem_map.mp hmem
  obtain ⟨hin, hq⟩ := List.mem_filter.mp hrow'
  rwa [← eq_of_number hrows hin hrow heq]

/-- The records are numbered like the rows that have one. -/
theorem rowNumbers_of_filterMap (rows : List (List String × Nat)) :
    (rows.filterMap (rowRecord L header)).map BankRateRecord.rowNumber =
      (rows.filter fun row => (rowRecord L header row).isSome).map Prod.snd := by
  induction rows with
  | nil => rfl
  | cons row rows ih =>
    cases hrow : rowRecord L header row with
    | none => rw [List.filterMap_cons_none hrow, List.filter_cons_of_neg (by simp [hrow]), ih]
    | some r =>
      have hnumber := (bankRateRow_some (rowRecord_eq_some.mp hrow)).2.2.2.2.1
      rw [List.filterMap_cons_some hrow, List.filter_cons_of_pos (by simp [hrow]), List.map_cons,
        List.map_cons, ih, hnumber]

/-- A row that overflows has a date and a rate. -/
theorem bankRateRow_overflow (h : Overflows L header row) :
    cellText "DATE" header row.1 ≠ [] ∧ cellText "IUDBEDR" header row.1 ≠ [] ∧
      bankRateDecimalText L.toNumberLibrary
        (PyText.ofChars (cellText "IUDBEDR" header row.1)) = .error .overflow := by
  unfold Overflows bankRateRow at h
  dsimp only at h
  split at h
  · exact nomatch h
  · split at h
    · exact nomatch h
    · next hdata =>
      rw [not_or] at hdata
      refine ⟨hdata.1, hdata.2, ?_⟩
      rcases bind_error h with hdate | ⟨date, -, h⟩
      · unfold parseEffectiveDate at hdate
        split at hdate
        · exact nomatch hdate
        · split at hdate <;> exact nomatch hdate
      · rcases bind_error h with hmake | ⟨record, -, h⟩
        · unfold BankRateRecord.make at hmake
          split at hmake
          · exact nomatch hmake
          · split at hmake
            · exact nomatch hmake
            · split at hmake
              · exact nomatch hmake
              · rcases bind_error hmake with hrate | ⟨rate, -, h⟩
                · exact hrate
                · exact nomatch h
        · exact nomatch h

theorem LosesNoRow.rowsRead {payload : List UInt8} (h : LosesNoRow L payload) : RowsRead L payload := by
  intro header rows hcsv hcolumns
  have hparse : parseBankRateCsv L payload = bankRateRows L header [] (numberedRows rows) := by
    rw [parseBankRateCsv, hcsv]
    exact if_pos hcolumns
  cases hresult : bankRateRows L header [] (numberedRows rows) with
  | error e =>
    obtain ⟨message, rfl⟩ := h.raises e (hparse.trans hresult)
    exact .inl (stopped_of_error hresult)
  | ok records =>
    right
    obtain ⟨header', rows', hcsv', hkeeps⟩ := h.kept records (hparse.trans hresult)
    obtain ⟨rfl, rfl⟩ := List.cons.inj (Option.some.inj (hcsv.symm.trans hcsv'))
    obtain ⟨hrows, hrecords, -, -⟩ := reads_of_ok hresult
    have hnumbers : (((numberedRows rows).filter fun row => (rowRecord L header row).isSome)).map
        Prod.snd = ((numberedRows rows).filter fun row => HasData header row).map Prod.snd := by
      rw [← rowNumbers_of_filterMap, ← hrecords]
      exact hkeeps.numbers
    have hsome := map_snd_filter_congr (numberedRows_nodup rows) hnumbers
    have hdata := map_snd_filter_congr (numberedRows_nodup rows) hnumbers.symm
    -- a row with both cells has a record, which carries what the names say
    have hrecord : ∀ row ∈ numberedRows rows, cellText "DATE" header row.1 ≠ [] →
        ∃ r ∈ records, bankRateRow L header row = .ok (some r) := by
      intro row hrow hdate
      obtain ⟨x, hx⟩ := hrows row hrow
      cases x with
      | none => exact absurd (bankRateRow_none.mp hx).1 hdate
      | some r =>
        refine ⟨r, ?_, hx⟩
        rw [hrecords]
        exact List.mem_filterMap.mpr ⟨row, hrow, rowRecord_eq_some.mpr hx⟩
    intro row hrow
    constructor
    · intro hdate hrate hHas
      have := hdata row hrow (decide_eq_true hHas)
      rw [rowRecord, bankRateRow_none.mpr ⟨hdate, hrate⟩] at this
      exact nomatch this
    · intro hdate _
      obtain ⟨r, -, hr⟩ := hrecord row hrow hdate
      apply of_decide_eq_true
      exact hsome row hrow (by rw [rowRecord_eq_some.mpr hr]; rfl)
    · intro hdate _
      obtain ⟨r, hmem, hr⟩ := hrecord row hrow hdate
      obtain ⟨-, -, hdate', -, hnumber, -⟩ := bankRateRow_some hr
      rw [(hkeeps.carries r hmem row hrow hnumber).1, hdate']
    · intro hdate _
      obtain ⟨r, hmem, hr⟩ := hrecord row hrow hdate
      obtain ⟨-, -, -, hrate', hnumber, -⟩ := bankRateRow_some hr
      exact ⟨_, hrate', (hkeeps.carries r hmem row hrow hnumber).2⟩

theorem keepsEveryRow_of_ok {rows : List (List String)}
    (h : bankRateRows L header [] (numberedRows rows) = .ok records)
    (hnamed : ∀ row ∈ numberedRows rows, ReadsAsNamed L header row) :
    KeepsEveryRow L header (numberedRows rows) records := by
  obtain ⟨hrows, hrecords, hnodup, -⟩ := reads_of_ok h
  have hsome : ∀ row ∈ numberedRows rows,
      ((rowRecord L header row).isSome = true ↔ HasData header row) := by
    intro row hrow
    obtain ⟨x, hx⟩ := hrows row hrow
    cases x with
    | none =>
      obtain ⟨hdate, hrate⟩ := bankRateRow_none.mp hx
      rw [rowRecord, hx]
      exact ⟨nofun, fun hdata => absurd hdata ((hnamed row hrow).blank hdate hrate)⟩
    | some r =>
      obtain ⟨hdate, hrate, -⟩ := bankRateRow_some hx
      rw [rowRecord_eq_some.mpr hx]
      exact ⟨fun _ => (hnamed row hrow).data hdate hrate, fun _ => rfl⟩
  constructor
  · rw [hrecords, rowNumbers_of_filterMap]
    congr 1
    apply List.filter_congr
    intro row hrow
    rw [Bool.eq_iff_iff, decide_eq_true_iff]
    exact hsome row hrow
  · intro r hr row hrow hnumber
    rw [hrecords] at hr
    obtain ⟨row', hrow', hr'⟩ := List.mem_filterMap.mp hr
    obtain ⟨hdate, hrate, hdate', hrate', hnumber', -⟩ := bankRateRow_some (rowRecord_eq_some.mp hr')
    obtain rfl := eq_of_number (numberedRows_nodup rows) hrow' hrow (hnumber'.symm.trans hnumber)
    obtain ⟨t, ht, hsame⟩ := (hnamed row' hrow').rate hdate hrate
    obtain rfl := Except.ok.inj (ht.symm.trans hrate')
    exact ⟨((hnamed row' hrow').date hdate hrate).trans hdate', hsame⟩
  · have hkeys : records.map BankRateRecord.recordKey =
        (records.map BankRateRecord.effectiveDate).map fun date => ("IUDBEDR", date) := by
      rw [List.map_map]
      apply List.map_congr_left
      intro r hr
      rw [hrecords] at hr
      obtain ⟨row, -, hrow⟩ := List.mem_filterMap.mp hr
      have hseries := (bankRateRow_some (rowRecord_eq_some.mp hrow)).2.2.2.2.2
      rw [BankRateRecord.recordKey, hseries, Function.comp_apply]
    rw [hkeys] at hnodup
    exact hnodup.of_map _

theorem RowsRead.losesNoRow {payload : List UInt8} (h : RowsRead L payload) : LosesNoRow L payload := by
  have hread : ∀ {header rows}, L.csvRows payload = some (header :: rows) → HasColumns header →
      parseBankRateCsv L payload = bankRateRows L header [] (numberedRows rows) :=
    fun hcsv hcolumns => by
      rw [parseBankRateCsv, hcsv]
      exact if_pos hcolumns
  have hcases : (∃ message, parseBankRateCsv L payload = .error (.parse message)) ∨
      ∃ header rows, L.csvRows payload = some (header :: rows) ∧ HasColumns header := by
    rcases hcsv : L.csvRows payload with _ | _ | ⟨header, rows⟩
    · left
      rw [parseBankRateCsv, hcsv]
      exact ⟨_, rfl⟩
    · left
      rw [parseBankRateCsv, hcsv]
      exact ⟨_, rfl⟩
    · by_cases hcolumns : HasColumns header
      · exact .inr ⟨header, rows, rfl, hcolumns⟩
      · left
        rw [parseBankRateCsv, hcsv]
        exact ⟨_, if_neg hcolumns⟩
  rcases hcases with ⟨message, hmessage⟩ | ⟨header, rows, hcsv, hcolumns⟩
  · refine ⟨fun records hrecords => (nomatch hmessage.symm.trans hrecords), fun e he => ?_⟩
    exact ⟨message, Except.error.inj (he.symm.trans hmessage)⟩
  · rcases h header rows hcsv hcolumns with hstopped | hnamed
    · obtain ⟨message, hmessage⟩ := error_of_stopped hstopped
      have hparse := (hread hcsv hcolumns).trans hmessage
      refine ⟨fun records hrecords => (nomatch hparse.symm.trans hrecords), fun e he => ?_⟩
      exact ⟨message, Except.error.inj (he.symm.trans hparse)⟩
    · constructor
      · intro records hrecords
        rw [hread hcsv hcolumns] at hrecords
        exact ⟨header, rows, hcsv, keepsEveryRow_of_ok hrecords hnamed⟩
      · intro e he
        rw [hread hcsv hcolumns] at he
        cases e with
        | parse message => exact ⟨message, rfl⟩
        | overflow =>
          obtain ⟨row, hrow, hoverflows⟩ := overflows_of_error he
          obtain ⟨hdate, hrate, hoverflow⟩ := bankRateRow_overflow hoverflows
          obtain ⟨t, ht, -⟩ := (hnamed row hrow).rate hdate hrate
          exact nomatch ht.symm.trans hoverflow

theorem namedCell_of_plain {name : String} {cells : List String}
    (h : ∀ column ∈ header, stripName column = name ↔ column = name) :
    namedCell name header cells = cellText name header cells := by
  rw [namedCell, cellText, rowGet_map h, cellText]

/-- Under a header without padded names no row is lost if each rate keeps its number. -/
theorem losesNoRow_of_plain {payload : List UInt8} {rows : List (List String)}
    (hcsv : L.csvRows payload = some (header :: rows))
    (hdate : ∀ column ∈ header, stripName column = "DATE" ↔ column = "DATE")
    (hrate : ∀ column ∈ header, stripName column = "IUDBEDR" ↔ column = "IUDBEDR")
    (hkept : ∀ row ∈ rows,
      Kept L.toNumberLibrary (PyText.ofChars (cellText "IUDBEDR" header row))) :
    LosesNoRow L payload := by
  apply RowsRead.losesNoRow
  intro header' rows' hcsv' hcolumns
  obtain ⟨rfl, rfl⟩ := List.cons.inj (Option.some.inj (hcsv.symm.trans hcsv'))
  have hstored : ∀ row ∈ numberedRows rows, StoredExactly L.toNumberLibrary
      (bankRateDecimalText L.toNumberLibrary) (PyText.ofChars (cellText "IUDBEDR" header row.1)) := by
    intro row hrow
    have hmem : row.1 ∈ rows := by
      have hfirst : row.1 ∈ (numberedRows rows).map Prod.fst := List.mem_map_of_mem hrow
      rw [numberedRows, List.zipIdx_map_fst] at hfirst
      exact (List.mem_filter.mp hfirst).1
    exact storing_bankRate.storedExactly (hkept row.1 hmem)
  have hoverflows : ∀ row ∈ numberedRows rows, ¬ Overflows L header row := fun row hrow hoverflows => by
    obtain ⟨message, heq⟩ := (hstored row hrow).raises _ (bankRateRow_overflow hoverflows).2.2
    exact nomatch heq
  refine or_iff_not_imp_left.mpr fun hstopped row hrow => ?_
  have hdata : cellText "DATE" header row.1 ≠ [] → ∃ r, bankRateRow L header row = .ok (some r) := by
    intro hdate
    cases hresult : bankRateRow L header row with
    | error e =>
      cases e with
      | overflow => exact absurd hresult (hoverflows row hrow)
      | parse message =>
        -- a row that is refused stops the loop
        obtain ⟨before, after, heq⟩ := List.append_of_mem hrow
        refine absurd ⟨before, row, after, heq, fun b hb => hoverflows b ?_, .inl ⟨message, hresult⟩⟩
          hstopped
        rw [heq]
        exact List.mem_append_left _ hb
    | ok x =>
      cases x with
      | none => exact absurd (bankRateRow_none.mp hresult).1 hdate
      | some r => exact ⟨r, rfl⟩
  have hnamedDate : namedCell "DATE" header row.1 = cellText "DATE" header row.1 :=
    namedCell_of_plain hdate
  have hnamedRate : namedCell "IUDBEDR" header row.1 = cellText "IUDBEDR" header row.1 :=
    namedCell_of_plain hrate
  constructor
  · intro hd hr
    rw [HasData, hnamedDate, hnamedRate, not_or, not_not, not_not]
    exact ⟨hd, hr⟩
  · intro hd _
    rw [HasData, hnamedDate]
    exact .inl hd
  · intro _ _
    rw [hnamedDate]
  · intro hd _
    obtain ⟨r, hr⟩ := hdata hd
    have htext := (bankRateRow_some hr).2.2.2.1
    obtain ⟨q, hs, ht⟩ := (hstored row hrow).exact _ htext
    rw [hnamedRate]
    exact ⟨_, htext, q, hs, ht⟩

/-! ## A header with padding -/

/-- A header that pads both names, and one row. -/
def paddedPayload : List UInt8 := PyText.utf8Encode " DATE, IUDBEDR\n01 Jan 2025,4.75\n".toList

def paddedRows : List (List String) := [[" DATE", " IUDBEDR"], ["01 Jan 2025", "4.75"]]

def paddedLibrary : BankRateLibrary where
  toNumberLibrary := asciiNumbers
  strptime text pattern :=
    if text = "01 Jan 2025".toList ∧ pattern = "%d %b %Y" then CalendarDate.ofYmd? 2025 1 1 else none
  csvRows payload := if payload = paddedPayload then some paddedRows else none

end NanFung
