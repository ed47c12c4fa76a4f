import NanFung.Lib.FixedWidth

/-!
# Instants and persisted timestamps

An aware UTC `datetime` is its number of microseconds since `0001-01-01T00:00:00Z`, at most
`datetime.max`. `isoformat` is the persisted form `_timestamp` writes
(`YYYY-MM-DDTHH:MM:SS.ffffffZ`), `fromIsoformat` reads that form back. The store compares
timestamps as TEXT in SQL and as `datetime` in Python; `isoformat_lt_iff` is why the model may
compare instants for both, and `fromIsoformat_isoformat` is why a persisted instant survives a
round trip through JSON.
-/

namespace NanFung

/-- `datetime.max` in microseconds since the first instant of year 1. -/
def maxMicros : Nat := 315537897599999999

abbrev Time := {t : Nat // t ≤ maxMicros}

instance Time.instMax : Max Time := inferInstance

namespace Time

/-- The instant `n` microseconds after the epoch, capped at `datetime.max`. -/
def ofMicros (n : Nat) : Time := ⟨min n maxMicros, Nat.min_le_right _ _⟩

/-- `datetime + timedelta`; the sum leaves the range of `datetime` as an `OverflowError`. -/
def add? (t : Time) (micros : Nat) : Option Time :=
  if h : t.val + micros ≤ maxMicros then some ⟨t.val + micros, h⟩ else none

/-- Microseconds in a second. -/
def second : Nat := 1000000

theorem le_of_add?_eq_some {t u : Time} {d : Nat} (h : t.add? d = some u) : t ≤ u := by
  unfold add? at h
  split at h
  · cases h
    exact Subtype.mk_le_mk.mpr (Nat.le_add_right _ _)
  · cases h

end Time

/-! ## The proleptic Gregorian calendar -/

namespace Calendar

/-- Days before the year with zero-based index `y`. -/
def daysBeforeYear (y : Nat) : Nat := 365 * y + y / 4 - y / 100 + y / 400

/-- Zero-based index of the year that holds day `n`. -/
def yearOf (n : Nat) : Nat :=
  let e := n * 400 / 146097
  if daysBeforeYear (e + 1) ≤ n then e + 1 else if daysBeforeYear e ≤ n then e else e - 1

def isLeap (y : Nat) : Bool := (y + 1) % 4 = 0 ∧ ((y + 1) % 100 ≠ 0 ∨ (y + 1) % 400 = 0)

/-- Days of a common year before month `m` (1-based; 13 is the next January). -/
def commonDaysBefore : Nat → Nat
  | 0 | 1 => 0
  | 2 => 31
  | 3 => 59
  | 4 => 90
  | 5 => 120
  | 6 => 151
  | 7 => 181
  | 8 => 212
  | 9 => 243
  | 10 => 273
  | 11 => 304
  | 12 => 334
  | _ => 365

def daysBeforeMonth (leap : Bool) (m : Nat) : Nat :=
  commonDaysBefore m + if leap ∧ 2 < m then 1 else 0

/-- The last month not above `m` that starts on or before day `r` of the year. -/
def monthFrom (leap : Bool) (r : Nat) : Nat → Nat
  | 0 => 1
  | m + 1 => if daysBeforeMonth leap (m + 1) ≤ r then m + 1 else monthFrom leap r m

theorem yearOf_spec (n : Nat) :
    daysBeforeYear (yearOf n) ≤ n ∧ n < daysBeforeYear (yearOf n + 1) := by
  unfold yearOf
  simp only
  split
  · next h =>
    refine ⟨h, ?_⟩
    simp only [daysBeforeYear] at h ⊢
    omega
  · next h =>
    split
    · next h' => exact ⟨h', by omega⟩
    · next h' =>
      simp only [daysBeforeYear] at h h' ⊢
      omega

theorem daysBeforeYear_mono {y z : Nat} (h : y ≤ z) : daysBeforeYear y ≤ daysBeforeYear z := by
  refine monotone_nat_of_le_succ (fun n => ?_) h
  simp only [daysBeforeYear]
  omega

/-- A leap year is one day longer than a common one. -/
theorem daysBeforeYear_succ (y : Nat) :
    daysBeforeYear (y + 1) = daysBeforeYear y + daysBeforeMonth (isLeap y) 13 := by
  have h4 := Nat.succ_div (a := y) (b := 4)
  have h100 := Nat.succ_div (a := y) (b := 100)
  have h400 := Nat.succ_div (a := y) (b := 400)
  have hle : y / 100 ≤ y / 4 := Nat.div_le_div_left (by norm_num) (by norm_num)
  have d100 : 100 ∣ y + 1 → 4 ∣ y + 1 := (Dvd.intro 25 rfl : (4 : Nat) ∣ 100).trans
  have d400 : 400 ∣ y + 1 → 100 ∣ y + 1 := (Dvd.intro 4 rfl : (100 : Nat) ∣ 400).trans
  have hleap : isLeap y = decide (4 ∣ y + 1 ∧ (¬ 100 ∣ y + 1 ∨ 400 ∣ y + 1)) := by
    simp only [isLeap, Nat.dvd_iff_mod_eq_zero, ne_eq]
  simp only [daysBeforeMonth, commonDaysBefore, hleap, decide_eq_true_eq, daysBeforeYear, h4, h100,
    h400]
  by_cases a : 4 ∣ y + 1
  · by_cases b : 100 ∣ y + 1
    · by_cases c : 400 ∣ y + 1
      · simp [a, b, c]
        omega
      · simp [a, b, c]
        omega
    · have c : ¬ 400 ∣ y + 1 := fun h => b (d400 h)
      simp [a, b, c]
      omega
  · have b : ¬ 100 ∣ y + 1 := fun h => a (d100 h)
    have c : ¬ 400 ∣ y + 1 := fun h => b (d400 h)
    simp [a, b, c]
    omega

theorem yearOf_mono {n m : Nat} (h : n ≤ m) : yearOf n ≤ yearOf m := by
  have hn := (yearOf_spec n).1
  have hm := (yearOf_spec m).2
  by_contra hlt
  have := daysBeforeYear_mono (show yearOf m + 1 ≤ yearOf n by omega)
  omega

theorem monthFrom_spec {leap : Bool} {r : Nat} :
    ∀ m : Nat, 1 ≤ m → r < daysBeforeMonth leap (m + 1) →
      1 ≤ monthFrom leap r m ∧ monthFrom leap r m ≤ m ∧
        daysBeforeMonth leap (monthFrom leap r m) ≤ r ∧
        r < daysBeforeMonth leap (monthFrom leap r m + 1)
  | 0, h, _ => by omega
  | m + 1, _, hr => by
    unfold monthFrom
    split
    · next hle => exact ⟨by omega, le_rfl, hle, hr⟩
    · next hlt =>
      cases m with
      | zero => simp [daysBeforeMonth, commonDaysBefore] at hlt
      | succ m =>
        obtain ⟨h1, h2, h3, h4⟩ := monthFrom_spec (m + 1) (by omega) (not_le.mp hlt)
        exact ⟨h1, by omega, h3, h4⟩

theorem daysBeforeMonth_mono {leap : Bool} {a b : Nat} (h : a ≤ b) (hb : b ≤ 13) :
    daysBeforeMonth leap a ≤ daysBeforeMonth leap b := by
  cases leap <;> interval_cases b <;> interval_cases a <;> decide

end Calendar

/-! ## Calendar fields of an instant -/

open Calendar

/-- Day of the year, zero-based. -/
def dayOfYear (n : Nat) : Nat := n - daysBeforeYear (yearOf n)

def monthOf (n : Nat) : Nat := monthFrom (isLeap (yearOf n)) (dayOfYear n) 12

/-- Day of the month, 1-based. -/
def dayOf (n : Nat) : Nat := dayOfYear n - daysBeforeMonth (isLeap (yearOf n)) (monthOf n) + 1

/-- Microseconds in a day. -/
def dayMicros : Nat := 86400000000

/-- Year, month, day, hour, minute, second, microsecond. -/
def fields (t : Nat) : List Nat :=
  let n := t / dayMicros
  let r := t % dayMicros
  [yearOf n + 1, monthOf n, dayOf n,
    r / 3600000000, r / 60000000 % 60, r / 1000000 % 60, r % 1000000]

theorem dayOfYear_lt (n : Nat) : dayOfYear n < daysBeforeMonth (isLeap (yearOf n)) 13 := by
  have h := yearOf_spec n
  rw [daysBeforeYear_succ] at h
  unfold dayOfYear
  omega

theorem monthOf_spec (n : Nat) :
    1 ≤ monthOf n ∧ monthOf n ≤ 12 ∧
      daysBeforeMonth (isLeap (yearOf n)) (monthOf n) ≤ dayOfYear n ∧
      dayOfYear n < daysBeforeMonth (isLeap (yearOf n)) (monthOf n + 1) :=
  monthFrom_spec 12 (by norm_num) (dayOfYear_lt n)

/-- The day ordinal is recovered from year, month and day. -/
theorem ordinal_eq (n : Nat) :
    daysBeforeYear (yearOf n) + daysBeforeMonth (isLeap (yearOf n)) (monthOf n) + (dayOf n - 1)
      = n := by
  have hy := (yearOf_spec n).1
  have hm := (monthOf_spec n).2.2.1
  unfold dayOf
  simp only [dayOfYear] at hm ⊢
  omega

theorem dayOf_le (n : Nat) : dayOf n ≤ 31 := by
  obtain ⟨h1, h12, _, hlt⟩ := monthOf_spec n
  have hstep : ∀ leap m, 1 ≤ m → m ≤ 12 →
      daysBeforeMonth leap (m + 1) ≤ daysBeforeMonth leap m + 31 := by
    intro leap m hm hm'
    cases leap <;> interval_cases m <;> decide
  have := hstep (isLeap (yearOf n)) (monthOf n) h1 h12
  unfold dayOf
  omega

/-- Later days have lexicographically later dates. -/
theorem date_lt {n m : Nat} (h : n < m) :
    yearOf n < yearOf m ∨ yearOf n = yearOf m ∧
      (monthOf n < monthOf m ∨ monthOf n = monthOf m ∧ dayOf n < dayOf m) := by
  rcases (yearOf_mono h.le).lt_or_eq with hy | hy
  · exact Or.inl hy
  · refine Or.inr ⟨hy, ?_⟩
    have hn := ordinal_eq n
    have hm := ordinal_eq m
    obtain ⟨_, hn12, _, hnlt⟩ := monthOf_spec n
    obtain ⟨_, _, hmle, _⟩ := monthOf_spec m
    rw [hy] at hn hnlt
    have hday : dayOfYear n < dayOfYear m := by
      have := (yearOf_spec n).1
      unfold dayOfYear
      rw [hy] at *
      omega
    rcases lt_trichotomy (monthOf n) (monthOf m) with hmo | hmo | hmo
    · exact Or.inl hmo
    · refine Or.inr ⟨hmo, ?_⟩
      rw [hmo] at hn
      unfold dayOf at hn hm ⊢
      omega
    · have hle : daysBeforeMonth (isLeap (yearOf m)) (monthOf m + 1) ≤
          daysBeforeMonth (isLeap (yearOf m)) (monthOf n) :=
        daysBeforeMonth_mono (by omega) (by omega)
      have hm' := (monthOf_spec m).2.2.2
      have hn' := (monthOf_spec n).2.2.1
      rw [hy] at hn'
      omega

theorem fields_lt {s t : Nat} (h : s < t) : fields s < fields t := by
  have hday : s / dayMicros ≤ t / dayMicros := Nat.div_le_div_right h.le
  simp only [fields, List.cons_lt_cons_iff]
  rcases hday.lt_or_eq with hd | hd
  · have hdate := date_lt hd
    omega
  · rw [hd]
    simp only [dayMicros] at hd ⊢
    simp only [lt_irrefl, false_or, true_and]
    omega

theorem fields_lt_iff {s t : Nat} : fields s < fields t ↔ s < t :=
  (StrictMono.lt_iff_lt (f := fields) fun _ _ => fields_lt)

/-! ## The persisted form -/

/-- `%04d-%02d-%02dT%02d:%02d:%02d.%06dZ`. -/
def isoLayout : FixedWidth.Layout :=
  [(4, '-'), (2, '-'), (2, 'T'), (2, ':'), (2, ':'), (2, '.'), (6, 'Z')]

/-- `_timestamp`: `isoformat(timespec="microseconds")` with `Z` for the zero offset. -/
def isoformat (t : Time) : String := String.ofList (FixedWidth.render isoLayout (fields t.val))

/-- The instant with the given fields, if they are those of an instant. -/
def ofFields : List Nat → Option Time
  | [year, month, day, hour, minute, sec, micro] =>
    let y := year - 1
    let n := daysBeforeYear y + daysBeforeMonth (isLeap y) month + (day - 1)
    let t := n * dayMicros + hour * 3600000000 + minute * 60000000 + sec * 1000000 + micro
    if h : t ≤ maxMicros ∧ fields t = [year, month, day, hour, minute, sec, micro]
    then some ⟨t, h.1⟩ else none
  | _ => none

/-- `_parse_timestamp` on the persisted form. -/
def fromIsoformat (s : String) : Option Time := FixedWidth.scan isoLayout s.toList >>= ofFields

theorem fields_fits (t : Time) : FixedWidth.Fits isoLayout (fields t.val) := by
  obtain ⟨t, ht⟩ := t
  have hn : t / dayMicros < 3652059 := by
    simp only [dayMicros, maxMicros] at *
    omega
  have hy : yearOf (t / dayMicros) < 9999 := by
    have h := (yearOf_spec (t / dayMicros)).1
    by_contra hge
    have := daysBeforeYear_mono (show 9999 ≤ yearOf (t / dayMicros) by omega)
    simp only [daysBeforeYear] at this h
    omega
  have hm := (monthOf_spec (t / dayMicros)).2.1
  have hd := dayOf_le (t / dayMicros)
  have hr : t % dayMicros < 86400000000 := Nat.mod_lt _ (by decide)
  simp only [isoLayout, fields, FixedWidth.Fits]
  refine ⟨?_, ?_, ?_, ?_, ?_, ?_, ?_, trivial⟩ <;> omega

/-- Timestamps compare as text exactly as the instants they denote. -/
theorem isoformat_lt_iff {s t : Time} : isoformat s < isoformat t ↔ s < t := by
  rw [String.lt_iff_toList_lt, isoformat, isoformat, String.toList_ofList, String.toList_ofList,
    FixedWidth.render_lt_iff (fields_fits s) (fields_fits t), fields_lt_iff]
  exact Iff.rfl

theorem isoformat_injective : Function.Injective isoformat :=
  StrictMono.injective fun _ _ => isoformat_lt_iff.mpr

theorem ofFields_fields (t : Time) : ofFields (fields t.val) = some t := by
  obtain ⟨t, ht⟩ := t
  have hord := ordinal_eq (t / dayMicros)
  have hsum : (daysBeforeYear (yearOf (t / dayMicros)) +
        daysBeforeMonth (isLeap (yearOf (t / dayMicros))) (monthOf (t / dayMicros)) +
        (dayOf (t / dayMicros) - 1)) * dayMicros +
      t % dayMicros / 3600000000 * 3600000000 + t % dayMicros / 60000000 % 60 * 60000000 +
      t % dayMicros / 1000000 % 60 * 1000000 + t % dayMicros % 1000000 = t := by
    rw [hord]
    simp only [dayMicros]
    omega
  simp only [fields, ofFields, Nat.add_sub_cancel]
  rw [dif_pos]
  · exact congrArg some (Subtype.ext hsum)
  · rw [hsum]
    exact ⟨ht, rfl⟩

/-- A persisted timestamp reads back as the instant that was written. -/
theorem fromIsoformat_isoformat (t : Time) : fromIsoformat (isoformat t) = some t := by
  rw [fromIsoformat, isoformat, String.toList_ofList, FixedWidth.scan_render (fields_fits t),
    Option.bind_eq_bind, Option.bind_some, ofFields_fields]

end NanFung
