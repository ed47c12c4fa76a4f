import NanFung.Time

/-!
# Calendar dates

`date`, `date.fromisoformat` and the texts that form. The reader accepts the calendar forms
`YYYY-MM-DD` and `YYYYMMDD` and the week forms `YYYY-Www`, `YYYYWww`, `YYYY-Www-D` and `YYYYWwwD`; it
checks the length of the text first, so without separators a text of ten bytes may end in anything.
-/

namespace NanFung

open Calendar FixedWidth

/-- Days of a month. -/
def daysInMonth (year month : Nat) : Nat :=
  daysBeforeMonth (isLeap (year - 1)) (month + 1) - daysBeforeMonth (isLeap (year - 1)) month

/-- The day exists and `date` can hold it. -/
structure IsDate (year month day : Nat) : Prop where
  year_range : 1 ≤ year ∧ year ≤ 9999
  month_range : 1 ≤ month ∧ month ≤ 12
  day_range : 1 ≤ day ∧ day ≤ daysInMonth year month

instance (year month day : Nat) : Decidable (IsDate year month day) :=
  decidable_of_iff ((1 ≤ year ∧ year ≤ 9999) ∧ (1 ≤ month ∧ month ≤ 12) ∧
    1 ≤ day ∧ day ≤ daysInMonth year month)
    ⟨fun h => ⟨h.1, h.2.1, h.2.2⟩, fun h => ⟨h.year_range, h.month_range, h.day_range⟩⟩

/-- `date`. -/
structure CalendarDate where
  year : Nat
  month : Nat
  day : Nat
  exists_ : IsDate year month day
  deriving DecidableEq

namespace CalendarDate

/-- `date(year, month, day)`. -/
def ofYmd? (year month day : Nat) : Option CalendarDate :=
  if h : IsDate year month day then some ⟨year, month, day, h⟩ else none

@[simp] theorem isSome_ofYmd? {year month day : Nat} :
    (ofYmd? year month day).isSome ↔ IsDate year month day := by
  unfold ofYmd?
  split <;> simp [*]

/-- Days since 1 January of year 1. -/
def ordinal (d : CalendarDate) : Nat :=
  daysBeforeYear (d.year - 1) + daysBeforeMonth (isLeap (d.year - 1)) d.month + (d.day - 1)

/-- `datetime.combine(date, datetime.min.time(), UTC)`. -/
def midnight (d : CalendarDate) : Time := Time.ofMicros (d.ordinal * dayMicros)

/-- The date of a day number. -/
def ofOrdinal? (n : Nat) : Option CalendarDate := ofYmd? (yearOf n + 1) (monthOf n) (dayOf n)

/-- The Monday of the first ISO week of a year: the week that holds its first Thursday. -/
def isoWeek1Monday (year : Nat) : Nat :=
  let first := daysBeforeYear (year - 1)
  first - first % 7 + if 3 < first % 7 then 7 else 0

/-- The date of a day of an ISO week; week 53 exists in years that start on a Thursday, or on the
Wednesday of a leap year. -/
def ofIsoWeek? (year week day : Nat) : Option CalendarDate :=
  let first := daysBeforeYear (year - 1) % 7
  if (1 ≤ year ∧ year ≤ 9999) ∧ 1 ≤ week ∧
      (week < 53 ∨ week = 53 ∧ (first = 3 ∨ first = 2 ∧ isLeap (year - 1) = true)) ∧
      1 ≤ day ∧ day ≤ 7 then
    ofOrdinal? (isoWeek1Monday year + (week - 1) * 7 + (day - 1))
  else none

end CalendarDate

/-! ## `date.fromisoformat` -/

/-- The length of a text in UTF-8. -/
def utf8Length (s : List Char) : Nat := (s.map Char.utf8Size).sum

/-- The part of a week date after `W`. -/
def scanWeek (year : Nat) (separated : Bool) (cs : List Char) : Option CalendarDate := do
  let (week, cs) ← scanDigits 2 0 cs
  match separated, cs with
  | _, [] => CalendarDate.ofIsoWeek? year week 1
  | true, '-' :: cs => do
    let (day, _) ← scanDigits 1 0 cs
    CalendarDate.ofIsoWeek? year week day
  | true, _ => none
  | false, cs => do
    let (day, _) ← scanDigits 1 0 cs
    CalendarDate.ofIsoWeek? year week day

/-- The part of a calendar date after the year. -/
def scanMonth (year : Nat) (separated : Bool) (cs : List Char) : Option CalendarDate := do
  let (month, cs) ← scanDigits 2 0 cs
  let cs ← match separated, cs with
    | true, '-' :: cs => some cs
    | true, _ => none
    | false, cs => some cs
  let (day, _) ← scanDigits 2 0 cs
  CalendarDate.ofYmd? year month day

/-- `date.fromisoformat`; `none` is its `ValueError`. -/
def dateFromIsoformat (s : List Char) : Option CalendarDate :=
  if utf8Length s ∈ [7, 8, 10] then do
    let (year, cs) ← scanDigits 4 0 s
    let (separated, cs) := match cs with
      | '-' :: cs => (true, cs)
      | cs => (false, cs)
    match cs with
    | 'W' :: cs => scanWeek year separated cs
    | cs => scanMonth year separated cs
  else none

example : (dateFromIsoformat "2024-02-29".toList).map (·.day) = some 29 := by decide
example : dateFromIsoformat "2026-07-21T23:00:00.000Z".toList = none := by decide

/-! ## Dates as texts -/

/-- `YYYY-MM-DD`. -/
def isoDate (year month day : Nat) : List Char :=
  digits 4 year ++ '-' :: (digits 2 month ++ '-' :: digits 2 day)

@[simp] theorem utf8Length_append (s t : List Char) :
    utf8Length (s ++ t) = utf8Length s + utf8Length t := by
  simp [utf8Length]

theorem utf8Size_digitChar {d : Nat} (h : d < 10) : (digitChar d).utf8Size = 1 := by
  interval_cases d <;> rfl

@[simp] theorem utf8Length_digits (w n : Nat) : utf8Length (digits w n) = w := by
  induction w with
  | zero => rfl
  | succ w ih =>
    have hd : n / 10 ^ w % 10 < 10 := Nat.mod_lt _ (by norm_num)
    have hcons : utf8Length (digits (w + 1) n) = 1 + utf8Length (digits w n) := by
      simp [utf8Length, digits, utf8Size_digitChar hd]
    rw [hcons, ih]
    omega

theorem utf8Length_isoDate (year month day : Nat) : utf8Length (isoDate year month day) = 10 := by
  have hcons : ∀ s, utf8Length ('-' :: s) = 1 + utf8Length s := fun s => by
    simp [utf8Length, show ('-' : Char).utf8Size = 1 from rfl]
  simp [isoDate, hcons]

/-- A digit starts no week. -/
theorem digitChar_ne_W {d : Nat} (h : d < 10) : digitChar d ≠ 'W' := by
  interval_cases d <;> decide

/-- Reading a date inverts writing it, if there is such a date. -/
theorem dateFromIsoformat_isoDate {year month day : Nat} (hy : year < 10 ^ 4) (hm : month < 10 ^ 2)
    (hd : day < 10 ^ 2) :
    dateFromIsoformat (isoDate year month day) = CalendarDate.ofYmd? year month day := by
  have hyear : scanDigits 4 0 (isoDate year month day) =
      some (year, '-' :: (digits 2 month ++ '-' :: digits 2 day)) := by
    rw [isoDate, scanDigits_digits, Nat.mod_eq_of_lt hy, Nat.zero_mul, Nat.zero_add]
  have hmonth : scanMonth year true (digits 2 month ++ '-' :: digits 2 day) =
      CalendarDate.ofYmd? year month day := by
    have hday := scanDigits_digits 2 day 0 []
    rw [List.append_nil, Nat.mod_eq_of_lt hd, Nat.zero_mul, Nat.zero_add] at hday
    rw [scanMonth, scanDigits_digits, Nat.mod_eq_of_lt hm, Nat.zero_mul, Nat.zero_add]
    simp only [Option.bind_eq_bind, Option.bind_some, hday]
  unfold dateFromIsoformat
  rw [if_pos (by simp [utf8Length_isoDate]), hyear]
  simp only [Option.bind_eq_bind, Option.bind_some]
  split
  · next cs hcs =>
    -- the month starts with a digit
    have hhead : digitChar (month / 10 ^ 1 % 10) = 'W' := (List.cons.inj hcs).1
    exact absurd hhead (digitChar_ne_W (Nat.mod_lt _ (by norm_num)))
  · exact hmonth

/-! ## Years without padding -/

theorem length_le_utf8Length (s : List Char) : s.length ≤ utf8Length s := by
  induction s with
  | nil => exact le_rfl
  | cons c s ih =>
    have hcons : utf8Length (c :: s) = c.utf8Size + utf8Length s := by simp [utf8Length]
    have hpos := c.utf8Size_pos
    rw [hcons, List.length_cons]
    omega

/-- Too few characters come before a separator. -/
theorem scanDigits_eq_none {w acc : Nat} {s rest : List Char} (h : s.length < w) :
    scanDigits w acc (s ++ '-' :: rest) = none := by
  induction s generalizing w acc with
  | nil =>
    cases w with
    | zero => exact absurd h (Nat.not_lt_zero _)
    | succ w => rfl
  | cons c s ih =>
    cases w with
    | zero => exact absurd h (Nat.not_lt_zero _)
    | succ w =>
      rw [List.cons_append, scanDigits]
      split
      · exact ih (Nat.lt_of_succ_lt_succ h)
      · rfl

theorem natDigitChar_eq {d : Nat} (h : d < 10) : Nat.digitChar d = digitChar d := by
  interval_cases d <;> rfl

/-- A year of four digits is written as it is. -/
theorem toDigits_eq_digits {n : Nat} (h : 1000 ≤ n) (h' : n < 10000) :
    Nat.toDigits 10 n = digits 4 n := by
  rw [Nat.toDigits_of_base_le (by norm_num) (by omega),
    Nat.toDigits_of_base_le (by norm_num) (by omega),
    Nat.toDigits_of_base_le (by norm_num) (by omega), Nat.toDigits_of_lt_base (by omega)]
  simp only [digits, List.cons_append, List.nil_append]
  rw [natDigitChar_eq (by omega), natDigitChar_eq (by omega), natDigitChar_eq (by omega),
    natDigitChar_eq (by omega)]
  have h₃ : n / 10 / 10 / 10 = n / 10 ^ 3 % 10 := by omega
  have h₂ : n / 10 / 10 % 10 = n / 10 ^ 2 % 10 := by omega
  have h₁ : n / 10 % 10 = n / 10 ^ 1 % 10 := by omega
  have h₀ : n % 10 = n / 10 ^ 0 % 10 := by omega
  rw [h₃, h₂, h₁, h₀]

/-- `f"{year}-MM-DD"` is a date if the year has four digits and the day exists. -/
theorem isSome_dateFromIsoformat_year (year : Int) {month day : Nat} (hm : month < 10 ^ 2)
    (hd : day < 10 ^ 2) (hvalid : ∀ y, 1 ≤ y → y ≤ 9999 → IsDate y month day) :
    (dateFromIsoformat ((toString year).toList ++ '-' :: (digits 2 month ++ '-' :: digits 2 day))).isSome ↔
      1000 ≤ year ∧ year ≤ 9999 := by
  have hnone : ∀ {s : List Char}, s.length ≠ 4 ∨ scanDigits 4 0 (s ++ '-' :: (digits 2 month ++ '-' ::
      digits 2 day)) = none → dateFromIsoformat (s ++ '-' :: (digits 2 month ++ '-' :: digits 2 day)) = none := by
    intro s hs
    unfold dateFromIsoformat
    split
    · next hlength =>
      have hscan : scanDigits 4 0 (s ++ '-' :: (digits 2 month ++ '-' :: digits 2 day)) = none := by
        refine hs.elim (fun hne => scanDigits_eq_none ?_) id
        have hcons : ∀ u, utf8Length ('-' :: u) = 1 + utf8Length u := fun u => by
          simp [utf8Length, show ('-' : Char).utf8Size = 1 from rfl]
        have hle := length_le_utf8Length s
        simp only [utf8Length_append, hcons, utf8Length_digits, List.mem_cons, List.not_mem_nil,
          or_false] at hlength
        omega
      rw [hscan]
      rfl
    · rfl
  cases year with
  | ofNat n =>
    have htext : (toString (Int.ofNat n)).toList = Nat.toDigits 10 n := Nat.toList_repr
    rw [htext]
    by_cases hn : 1000 ≤ n ∧ n < 10000
    · have hdate : dateFromIsoformat (isoDate n _ _) = CalendarDate.ofYmd? n _ _ :=
        dateFromIsoformat_isoDate (by omega) hm hd
      rw [isoDate] at hdate
      rw [toDigits_eq_digits hn.1 hn.2, hdate, CalendarDate.isSome_ofYmd?]
      refine iff_of_true (hvalid n (by omega) (by omega)) ⟨?_, ?_⟩
      · exact Int.ofNat_le.mpr hn.1
      · exact Int.ofNat_le.mpr (Nat.le_of_lt_succ hn.2)
    · have hfour : (Nat.toDigits 10 n).length ≠ 4 := by
        have h₃ := Nat.length_toDigits_le_iff (n := n) (k := 3) (b := 10) (by norm_num) (by norm_num)
        have h₄ := Nat.length_toDigits_le_iff (n := n) (k := 4) (b := 10) (by norm_num) (by norm_num)
        omega
      rw [hnone (Or.inl hfour)]
      refine iff_of_false (fun h => by cases h) fun h => hn ?_
      simp only [Int.ofNat_eq_natCast] at h
      omega
  | negSucc n =>
    have hsign : (toString (Int.negSucc n)).toList = '-' :: Nat.toDigits 10 (n + 1) := by
      rw [← Nat.toList_repr]
      exact String.toList_append
    rw [hsign, hnone (Or.inr rfl)]
    refine iff_of_false (fun h => by cases h) fun h => ?_
    have hneg := Int.negSucc_lt_zero n
    omega

/-- A month of at most 28 days has every day up to it. -/
theorem IsDate.of_le {year month day : Nat} (hy : 1 ≤ year ∧ year ≤ 9999)
    (hm : 1 ≤ month ∧ month ≤ 12) (hd : 1 ≤ day ∧ day ≤ 28) : IsDate year month day := by
  refine ⟨hy, hm, hd.1, hd.2.trans ?_⟩
  obtain ⟨h₁, h₂⟩ := hm
  unfold daysInMonth
  cases isLeap (year - 1) <;> interval_cases month <;> decide

end NanFung
