import NanFung.Recurrence
import NanFung.Lib.Search

/-!
# The slots of a recurrence

A schedule by the wall clock has a slot on a local day where its hour and minute exist, at their first
reading. `next_after` returns the least slot after an instant, unless its search bound ends or a
conversion leaves the range of `datetime`.
-/

namespace NanFung

open Calendar Recurrence

/-! ## Zones -/

/-- What is known of a `ZoneInfo`: offsets are less than a day, `fold=0` gives the earlier reading of a
wall time, and a clock that is set back repeats times that it has shown. -/
structure Zone.Lawful (zone : Zone) : Prop where
  wall_le : ∀ {t w}, zone.toLocal t = some w → w ≤ maxMicros
  local_offset : ∀ {t w}, zone.toLocal t = some w → w < t.val + dayMicros ∧ t.val < w + dayMicros
  utc_offset : ∀ {t w}, zone.toUtc w = some t → w < t.val + dayMicros ∧ t.val < w + dayMicros
  local_range : ∀ {t}, zone.toLocal t = none → t.val < dayMicros ∨ maxMicros < t.val + dayMicros
  utc_range : ∀ {w}, zone.toUtc w = none → w < dayMicros ∨ maxMicros < w + dayMicros
  earlier : ∀ {t w}, zone.toLocal t = some w → ∃ u, zone.toUtc w = some u ∧
    zone.toLocal u = some w ∧ u ≤ t
  repeats : ∀ {v t l w}, zone.toLocal v = some l → zone.toLocal t = some w → w < l →
    ∃ u ≤ v, zone.toLocal u = some w

/-- The clock shows the wall time at `t` for the first time. -/
def Zone.FirstReads (zone : Zone) (w : Nat) (t : Time) : Prop :=
  zone.toLocal t = some w ∧ ∀ u, zone.toLocal u = some w → t ≤ u

namespace Zone

variable {zone : Zone} {w w' l : Nat} {t t' v : Time}

theorem FirstReads.unique (h : zone.FirstReads w t) (h' : zone.FirstReads w t') : t = t' :=
  le_antisymm (h.2 t' h'.1) (h'.2 t h.1)

/-- A wall time that the clock has passed was shown before. -/
theorem Lawful.before (hz : zone.Lawful) (h : zone.FirstReads w t) (hv : zone.toLocal v = some l)
    (hlt : w < l) : t < v := by
  obtain ⟨u, hu, hread⟩ := hz.repeats hv h.1 hlt
  refine lt_of_le_of_ne ((h.2 u hread).trans hu) fun heq => ?_
  have hwl : some w = some l := (heq ▸ h.1).symm.trans hv
  exact absurd (Option.some.inj hwl) (Nat.ne_of_lt hlt)

/-- First readings come in the order of the wall times. -/
theorem Lawful.ordered (hz : zone.Lawful) (h : zone.FirstReads w t) (h' : zone.FirstReads w' t')
    (hlt : w < w') : t < t' :=
  hz.before h h'.1 hlt

end Zone

namespace Recurrence

open Zone

variable {zone : Zone} {hour minute day w : Nat} {months : List Nat} {localDay : Nat → Nat → Option Nat}
  {t u v : Time} {o : Option Time}

/-- The slot of a wall time is its first reading. -/
theorem wallSlot_iff (hz : zone.Lawful) (h : wallSlot zone w = .ok o) :
    u ∈ o ↔ zone.FirstReads w u := by
  simp only [wallSlot, bind_ok, orThrow_ok, Except.ok.injEq] at h
  obtain ⟨t, ht, back, hback, rfl⟩ := h
  split
  · next heq =>
    subst heq
    have hfirst : zone.FirstReads back t := by
      refine ⟨hback, fun u hu => ?_⟩
      obtain ⟨t', ht', -, hle⟩ := hz.earlier hu
      exact Option.some.inj (ht.symm.trans ht') ▸ hle
    rw [Option.mem_some_iff]
    exact ⟨fun hu => hu ▸ hfirst, fun hu => hfirst.unique hu⟩
  · next hne =>
    refine iff_of_false (fun hu => by cases hu) fun hu => hne ?_
    obtain ⟨t', ht', hread, -⟩ := hz.earlier hu.1
    rw [← Option.some.inj (ht.symm.trans ht'), hback] at hread
    exact Option.some.inj hread

/-- A wall time has no conversion only near an end of the range of `datetime`. -/
theorem wallSlot_error (hz : zone.Lawful) {e : StoreError} (h : wallSlot zone w = .error e) :
    e = .overflow ∧ (w < 2 * dayMicros ∨ maxMicros < w + 2 * dayMicros) := by
  rcases bind_error h with h | ⟨t, ht, h⟩
  · obtain ⟨hnone, rfl⟩ := orThrow_error h
    refine ⟨rfl, ?_⟩
    have := hz.utc_range hnone
    omega
  · rcases bind_error h with h | ⟨back, -, h⟩
    · obtain ⟨hnone, rfl⟩ := orThrow_error h
      refine ⟨rfl, ?_⟩
      have hutc := hz.utc_offset (orThrow_ok.mp ht)
      have := hz.local_range hnone
      omega
    · exact nomatch h

/-! ## Days -/

theorem yearOf_unique {y n : Nat} (h : daysBeforeYear y ≤ n) (h' : n < daysBeforeYear (y + 1)) :
    yearOf n = y := by
  obtain ⟨hle, hlt⟩ := yearOf_spec n
  by_contra hne
  rcases Nat.lt_or_gt_of_ne hne with hy | hy
  · have := daysBeforeYear_mono (show yearOf n + 1 ≤ y by omega)
    omega
  · have := daysBeforeYear_mono (show y + 1 ≤ yearOf n by omega)
    omega

theorem monthOf_unique {m n : Nat} (hm : 1 ≤ m ∧ m ≤ 12)
    (h : daysBeforeMonth (isLeap (yearOf n)) m ≤ dayOfYear n)
    (h' : dayOfYear n < daysBeforeMonth (isLeap (yearOf n)) (m + 1)) : monthOf n = m := by
  obtain ⟨-, h12, hle, hlt⟩ := monthOf_spec n
  by_contra hne
  rcases Nat.lt_or_gt_of_ne hne with hmo | hmo
  · have := @daysBeforeMonth_mono (isLeap (yearOf n)) (monthOf n + 1) m (by omega) (by omega)
    omega
  · have := @daysBeforeMonth_mono (isLeap (yearOf n)) (m + 1) (monthOf n) (by omega) (by omega)
    omega

/-- The days of a month are those from its first one on. -/
theorem mem_month_iff {y m k n : Nat} (hm : 1 ≤ m ∧ m ≤ 12) :
    (k < daysInMonth y m ∧ n = monthStart y m + k) ↔
      yearOf n = y ∧ monthOf n = m ∧ dayOf n = k + 1 := by
  constructor
  · rintro ⟨hk, rfl⟩
    have hsucc := daysBeforeYear_succ y
    have hend := @daysBeforeMonth_mono (isLeap y) (m + 1) 13 (by omega) le_rfl
    simp only [daysInMonth] at hk
    have hyear : yearOf (monthStart y m + k) = y := by
      refine yearOf_unique ?_ ?_ <;> simp only [monthStart] <;> omega
    have hday : dayOfYear (monthStart y m + k) = daysBeforeMonth (isLeap y) m + k := by
      rw [dayOfYear, hyear, monthStart]
      omega
    have hmonth : monthOf (monthStart y m + k) = m := by
      refine monthOf_unique hm ?_ ?_ <;> rw [hyear, hday] <;> omega
    refine ⟨hyear, hmonth, ?_⟩
    simp only [dayOf, hyear, hmonth, hday]
    omega
  · rintro ⟨rfl, rfl, hday⟩
    have hord := ordinal_eq n
    have hspec := monthOf_spec n
    simp only [dayOf] at hday hord
    simp only [daysInMonth, monthStart]
    omega

/-- The number of a day's month. -/
def monthIndex (n : Nat) : Nat := yearOf n * 12 + (monthOf n - 1)

theorem monthIndex_mono {n n' : Nat} (h : n ≤ n') : monthIndex n ≤ monthIndex n' := by
  rcases h.lt_or_eq with h | rfl
  · have hn := monthOf_spec n
    have hn' := monthOf_spec n'
    have := date_lt h
    simp only [monthIndex]
    omega
  · exact le_rfl

theorem monthIndex_div (n : Nat) : monthIndex n / 12 = yearOf n ∧ monthIndex n % 12 + 1 = monthOf n := by
  have := monthOf_spec n
  simp only [monthIndex]
  omega

theorem localDayOfMonth_iff {y m d n : Nat} (hm : 1 ≤ m ∧ m ≤ 12) (hd : 1 ≤ d) :
    localDayOfMonth d y m = some n ↔ yearOf n = y ∧ monthOf n = m ∧ dayOf n = d := by
  have hiff := @mem_month_iff y m (d - 1) n hm
  rw [Nat.sub_add_cancel hd] at hiff
  rw [← hiff, localDayOfMonth]
  split
  · rw [Option.some.injEq]
    omega
  · simp only [reduceCtorEq, false_iff]
    omega

theorem localDayOfWeekday_iff {y m weekday week n : Nat} (hm : 1 ≤ m ∧ m ≤ 12) (hwd : weekday < 7)
    (hweek : 1 ≤ week) :
    localDayOfWeekday weekday week y m = some n ↔
      yearOf n = y ∧ monthOf n = m ∧ n % 7 = weekday ∧ (dayOf n - 1) / 7 + 1 = week := by
  have hiff : ∀ k, (k < daysInMonth y m ∧ n = monthStart y m + k) ↔
      yearOf n = y ∧ monthOf n = m ∧ dayOf n = k + 1 := fun k => mem_month_iff hm
  simp only [localDayOfWeekday]
  constructor
  · intro h
    split at h
    · obtain rfl := Option.some.inj h
      obtain ⟨hy, hmo, hday⟩ := (hiff _).mp ⟨by omega, rfl⟩
      refine ⟨hy, hmo, ?_, ?_⟩
      · omega
      · rw [hday]
        omega
    · exact nomatch h
  · rintro ⟨hy, hmo, hmod, hnth⟩
    have hpos : 1 ≤ dayOf n := by
      simp only [dayOf]
      omega
    obtain ⟨hlt, hn⟩ := (hiff (dayOf n - 1)).mpr ⟨hy, hmo, by omega⟩
    have hoffset : (weekday + 7 - monthStart y m % 7) % 7 + (week - 1) * 7 = dayOf n - 1 := by
      omega
    rw [hoffset, if_pos (by omega)]
    exact congrArg some hn.symm

/-! ## Slots -/

/-- The checks of the constructors. -/
def Valid : Recurrence → Prop
  | .interval .. => True
  | .calendar hour minute weekdays _ =>
    hour ≤ 23 ∧ minute ≤ 59 ∧ weekdays ≠ [] ∧ ∀ d ∈ weekdays, d < 7
  | .monthDay hour minute day months _ =>
    hour ≤ 23 ∧ minute ≤ 59 ∧ (1 ≤ day ∧ day ≤ 31) ∧ months ≠ [] ∧ ∀ m ∈ months, 1 ≤ m ∧ m ≤ 12
  | .monthWeekday hour minute weekday week months _ =>
    hour ≤ 23 ∧ minute ≤ 59 ∧ weekday < 7 ∧ (1 ≤ week ∧ week ≤ 5) ∧ months ≠ [] ∧
      ∀ m ∈ months, 1 ≤ m ∧ m ≤ 12

/-- The zone of the schedule, if it has one, is as `ZoneInfo` documents. -/
def ZoneLawful : Recurrence → Prop
  | .interval .. => True
  | .calendar _ _ _ zone | .monthDay _ _ _ _ zone | .monthWeekday _ _ _ _ _ zone => zone.Lawful

/-- A slot of a schedule by the wall clock, on one of the days it allows. -/
def WallScheduled (zone : Zone) (hour minute : Nat) (allows : Nat → Prop) (t : Time) : Prop :=
  ∃ day, allows day ∧ zone.FirstReads (wallTime day hour minute) t

/-- The slots of a schedule. -/
def IsScheduled (t : Time) : Recurrence → Prop
  | .interval anchorAt period _ => ∃ k, t.val = anchorAt.val + period * k
  | .calendar hour minute weekdays zone =>
    WallScheduled zone hour minute (fun day => day % 7 ∈ weekdays) t
  | .monthDay hour minute dayOfMonth months zone =>
    WallScheduled zone hour minute (fun day => monthOf day ∈ months ∧ dayOf day = dayOfMonth) t
  | .monthWeekday hour minute weekday week months zone =>
    WallScheduled zone hour minute
      (fun day => monthOf day ∈ months ∧ day % 7 = weekday ∧ (dayOf day - 1) / 7 + 1 = week) t

/-- The local days of two instants, counted in days or in months, are less than `bound` apart. -/
def WithinBound (v u : Time) : Recurrence → Prop
  | .interval .. => True
  | .calendar _ _ _ zone =>
    ∃ l w, zone.toLocal v = some l ∧ zone.toLocal u = some w ∧ w / dayMicros < l / dayMicros + 4000
  | .monthDay _ _ _ _ zone | .monthWeekday _ _ _ _ _ zone =>
    ∃ l w, zone.toLocal v = some l ∧ zone.toLocal u = some w ∧
      monthIndex (w / dayMicros) < monthIndex (l / dayMicros) + 1200

theorem wallTime_div (hh : hour ≤ 23) (hm : minute ≤ 59) :
    wallTime day hour minute / dayMicros = day := by
  simp only [wallTime, dayMicros]
  omega

theorem wallTime_lt {day' : Nat} (h : day < day') :
    wallTime day hour minute < wallTime day' hour minute := by
  simp only [wallTime, dayMicros]
  omega

/-- Days are looked for at places: the days themselves, or their months. -/
structure Placed (zone : Zone) (hour minute : Nat) (allows : Nat → Prop) (place : Nat → Nat)
    (slotAt : Nat → Except StoreError (Option Time)) : Prop where
  hour_le : hour ≤ 23
  minute_le : minute ≤ 59
  mono : ∀ {d d'}, d ≤ d' → place d ≤ place d'
  early : ∀ {d}, place d ≤ place 1 → d < 31
  single : ∀ {d d'}, allows d → allows d' → place d = place d' → d = d'
  found : ∀ {k o}, slotAt k = .ok o → ∀ u, u ∈ o ↔
    ∃ day, (allows day ∧ place day = k) ∧ zone.FirstReads (wallTime day hour minute) u
  failed : ∀ {k e}, slotAt k = .error e → ∃ day, place day = k ∧
    (∀ d, allows d → place d = k → d = day) ∧ (∀ message, e ≠ .job message) ∧
    (dayLimit ≤ day ∨ wallSlot zone (wallTime day hour minute) = .error e)

namespace Placed

variable {allows : Nat → Prop} {place : Nat → Nat} {slotAt : Nat → Except StoreError (Option Time)}
  {l : Nat}

/-- The slot of a place. -/
def Holds (zone : Zone) (hour minute : Nat) (allows : Nat → Prop) (place : Nat → Nat) (k : Nat)
    (u : Time) : Prop :=
  ∃ day, (allows day ∧ place day = k) ∧ zone.FirstReads (wallTime day hour minute) u

theorem wallScheduled_iff : WallScheduled zone hour minute allows u ↔
    ∃ k, Holds zone hour minute allows place k u :=
  ⟨fun ⟨day, hday, hu⟩ => ⟨_, day, ⟨hday, rfl⟩, hu⟩, fun ⟨_, day, ⟨hday, _⟩, hu⟩ => ⟨day, hday, hu⟩⟩

/-- The search may start at the local day of an instant. -/
theorem enumerates (hp : Placed zone hour minute allows place slotAt) (hz : zone.Lawful)
    (hl : zone.toLocal v = some l) :
    Search.Enumerates slotAt (Holds zone hour minute allows place) v (place (l / dayMicros)) where
  ordered := by
    rintro k k' u w ⟨d, ⟨-, rfl⟩, hu⟩ ⟨d', ⟨-, rfl⟩, hw⟩ hlt
    have hdd : d < d' := by
      by_contra hge
      have := hp.mono (not_lt.mp hge)
      omega
    exact hz.ordered hu hw (wallTime_lt hdd)
  single := by
    rintro k u w ⟨d, ⟨hd, hk⟩, hu⟩ ⟨d', ⟨hd', hk'⟩, hw⟩
    obtain rfl := hp.single hd hd' (hk.trans hk'.symm)
    exact hu.unique hw
  found hk := hp.found hk _
  behind := by
    rintro k u ⟨d, ⟨-, rfl⟩, hu⟩ hlt
    refine hp.mono ?_
    by_contra hday
    -- a slot on an earlier day was read before
    have hwall : wallTime d hour minute < l := by
      have hdiv := @wallTime_div hour minute d hp.hour_le hp.minute_le
      have hle := Nat.div_add_mod l dayMicros
      have hlt' := Nat.div_add_mod (wallTime d hour minute) dayMicros
      have hmod := Nat.mod_lt (wallTime d hour minute) (show 0 < dayMicros by decide)
      rw [hdiv] at hlt'
      simp only [dayMicros] at *
      omega
    exact absurd (hz.before hu hl hwall) (not_lt.mpr hlt.le)

/-- Where the search fails, it is near an end of the range of `datetime`. -/
theorem near_end (hp : Placed zone hour minute allows place slotAt) (hz : zone.Lawful)
    (hl : zone.toLocal v = some l) {k : Nat} {e : StoreError} (hstart : place (l / dayMicros) ≤ k)
    (hk : slotAt k = .error e)
    (hlater : ∀ {k' u}, Holds zone hour minute allows place k' u → v < u → k ≤ k') :
    v.val < 32 * dayMicros ∨
      ∀ u, WallScheduled zone hour minute allows u → v < u → maxMicros < u.val + 3 * dayMicros := by
  obtain ⟨day, rfl, hsingle, -, hfail⟩ := hp.failed hk
  have hafter : ∀ d u, allows d → zone.FirstReads (wallTime d hour minute) u → v < u → day ≤ d := by
    intro d u hd hu hlt
    have hplace := hlater ⟨d, ⟨hd, rfl⟩, hu⟩ hlt
    by_contra hday
    have hmono := hp.mono (not_le.mp hday).le
    have := hsingle d hd (le_antisymm hmono hplace)
    omega
  rcases hfail with hlimit | hfail
  · refine Or.inr fun u ⟨d, hd, hu⟩ hlt => ?_
    have hday := hafter d u hd hu hlt
    have hwall := hz.wall_le hu.1
    simp only [wallTime, dayLimit, dayMicros, maxMicros] at *
    omega
  · rcases (wallSlot_error hz hfail).2 with hlow | hhigh
    · left
      have hday : day ≤ 1 := by
        simp only [wallTime, dayMicros] at hlow
        omega
      have hlday := hp.early (hstart.trans (hp.mono hday))
      have hoffset := hz.local_offset hl
      simp only [dayMicros] at *
      omega
    · refine Or.inr fun u ⟨d, hd, hu⟩ hlt => ?_
      have hday := hafter d u hd hu hlt
      have hoffset := hz.local_offset hu.1
      simp only [wallTime, dayMicros] at *
      omega

end Placed

/-- What a search for the least slot after `v` may end with. -/
def Found (v : Time) (scheduled within : Time → Prop) : Except StoreError Time → Prop
  | .ok t => IsLeast {u | scheduled u ∧ v < u} t
  | .error (.job _) => ∀ u, scheduled u → v < u → ¬ within u
  | .error _ =>
    v.val < 32 * dayMicros ∨ ∀ u, scheduled u → v < u → maxMicros < u.val + 3 * dayMicros

theorem found_error {scheduled within : Time → Prop} {e : StoreError} (he : ∀ message, e ≠ .job message)
    (h : v.val < 32 * dayMicros ∨ ∀ u, scheduled u → v < u → maxMicros < u.val + 3 * dayMicros) :
    Found v scheduled within (.error e) := by
  cases e with
  | job message => exact absurd rfl (he message)
  | _ => exact h

/-- The search of a schedule by the wall clock, from the local day of an instant on. -/
theorem found_search {allows : Nat → Prop} {place : Nat → Nat}
    {slotAt : Nat → Except StoreError (Option Time)} {fuel : Nat} {message : String}
    (hp : Placed zone hour minute allows place slotAt) (hz : zone.Lawful) :
    Found v (WallScheduled zone hour minute allows)
      (fun u => ∃ l w, zone.toLocal v = some l ∧ zone.toLocal u = some w ∧
        place (w / dayMicros) < place (l / dayMicros) + fuel)
      (do
        let wall ← orThrow (zone.toLocal v) .overflow
        Search.firstAfter slotAt (.job message) v fuel (place (wall / dayMicros))) := by
  cases hl : zone.toLocal v with
  | none =>
    show v.val < 32 * dayMicros ∨ _
    have hrange := hz.local_range hl
    simp only [dayMicros] at *
    refine hrange.imp (fun h => by omega) fun h u _ hlt => ?_
    have hval : v.val < u.val := hlt
    omega
  | some l =>
    have hs := hp.enumerates hz hl
    show Found _ _ _ (Search.firstAfter slotAt (.job message) v fuel (place (l / dayMicros)))
    cases hsearch : Search.firstAfter slotAt (.job message) v fuel (place (l / dayMicros)) with
    | ok t =>
      have hleast := Search.firstAfter_isLeast hs hsearch
      simp only [← Placed.wallScheduled_iff] at hleast
      exact hleast
    | error e =>
      rcases Search.firstAfter_error hsearch with ⟨rfl, hall⟩ | ⟨k, hk, hall, herr⟩
      · rintro u ⟨day, hday, hu⟩ hlt ⟨l', w, hl', hw, hwithin⟩
        obtain rfl : l = l' := Option.some.inj hl'
        obtain rfl : wallTime day hour minute = w := Option.some.inj (hu.1.symm.trans hw)
        have hplace := hall.later hs ⟨day, ⟨hday, rfl⟩, hu⟩ hlt
        rw [wallTime_div hp.hour_le hp.minute_le] at hwithin
        omega
      · obtain ⟨-, -, -, he, -⟩ := hp.failed herr
        exact found_error he (hp.near_end hz hl hk herr fun hu hlt => hall.later hs hu hlt)

/-! ## The three schedules -/

theorem calendarNext_eq {weekdays : List Nat} {now : Time} {fuel : Nat} :
    calendarNext hour minute weekdays zone now fuel day =
      Search.firstAfter (calendarSlot hour minute weekdays zone)
        (.job "could not materialize calendar slot") now fuel day := by
  refine Search.eq_firstAfter (fun _ => rfl) ?_ ?_ ?_
  · intro fuel i e he
    rw [calendarNext, he]
    rfl
  · intro fuel i t ht hlt
    rw [calendarNext, ht]
    exact if_pos hlt
  · intro fuel i o ho hle
    rw [calendarNext, ho]
    cases o with
    | none => rfl
    | some t => exact if_neg (not_lt.mpr (hle t rfl))

/-- Months are searched by their numbers. -/
theorem monthNext_eq {now : Time} {fuel n : Nat} :
    monthNext localDay hour minute months zone now fuel (n / 12) (n % 12 + 1) =
      Search.firstAfter (fun n => monthSlot localDay hour minute months zone (n / 12) (n % 12 + 1))
        (.job "could not materialize monthly slot") now fuel n := by
  have hnext : ∀ n, (if n % 12 + 1 = 12 then (n / 12 + 1, 1) else (n / 12, n % 12 + 1 + 1)) =
      ((n + 1) / 12, (n + 1) % 12 + 1) := by
    intro n
    split <;> simp only [Prod.mk.injEq] <;> omega
  refine @Search.eq_firstAfter _ _ _ _ _ _ _ _
    (fun fuel n => monthNext localDay hour minute months zone now fuel (n / 12) (n % 12 + 1))
    (fun _ => rfl) ?_ ?_ ?_
  · intro fuel n e he
    rw [monthNext, he]
    rfl
  · intro fuel n t ht hlt
    rw [monthNext, ht]
    exact if_pos hlt
  · intro fuel n o ho hle
    rw [monthNext, ho, hnext]
    cases o with
    | none => rfl
    | some t => exact if_neg (not_lt.mpr (hle t rfl))

theorem placed_calendar {weekdays : List Nat} (hz : zone.Lawful) (hh : hour ≤ 23) (hm : minute ≤ 59) :
    Placed zone hour minute (fun day => day % 7 ∈ weekdays) id
      (calendarSlot hour minute weekdays zone) where
  hour_le := hh
  minute_le := hm
  mono h := h
  early h := lt_of_le_of_lt h (by decide)
  single _ _ h := h
  found := by
    intro k o h u
    simp only [calendarSlot, bind_ok, require_ok] at h
    obtain ⟨-, -, h⟩ := h
    split at h
    · next hday =>
      rw [wallSlot_iff hz h]
      refine ⟨fun hu => ⟨k, ⟨hday, rfl⟩, hu⟩, ?_⟩
      rintro ⟨_, ⟨_, heq⟩, hu⟩
      exact heq ▸ hu
    · next hday =>
      cases h
      refine iff_of_false (fun hu => by cases hu) ?_
      rintro ⟨_, ⟨hmem, rfl⟩, -⟩
      exact hday hmem
  failed := by
    intro k e h
    refine ⟨k, rfl, fun _ _ hd => hd, ?_⟩
    rcases bind_error h with h | ⟨_, -, h⟩
    · obtain ⟨hlimit, rfl⟩ := require_error h
      exact ⟨fun _ he => (by cases he), Or.inl (not_lt.mp hlimit)⟩
    · split at h
      · exact ⟨(wallSlot_error hz h).1 ▸ fun _ he => (by cases he), Or.inr h⟩
      · cases h

/-- A month has at most one of the days. -/
theorem placed_months {allows : Nat → Nat → Prop} (hz : zone.Lawful) (hh : hour ≤ 23)
    (hm : minute ≤ 59) (hmonths : ∀ m ∈ months, 1 ≤ m ∧ m ≤ 12)
    (hlocal : ∀ y m n, 1 ≤ m ∧ m ≤ 12 →
      (localDay y m = some n ↔ yearOf n = y ∧ monthOf n = m ∧ allows m n)) :
    Placed zone hour minute (fun day => monthOf day ∈ months ∧ allows (monthOf day) day) monthIndex
      (fun n => monthSlot localDay hour minute months zone (n / 12) (n % 12 + 1)) where
  hour_le := hh
  minute_le := hm
  mono := monthIndex_mono
  early := by
    intro d h
    have hone : monthIndex 1 = 0 := by decide
    have hspec := monthOf_spec d
    have hord := ordinal_eq d
    have hday := dayOf_le d
    rw [hone] at h
    simp only [monthIndex] at h
    have hy : yearOf d = 0 := by omega
    have hmo : monthOf d = 1 := by omega
    rw [hy, hmo] at hord
    simp only [daysBeforeYear, daysBeforeMonth, commonDaysBefore] at hord
    simp at hord
    omega
  single := by
    rintro d d' ⟨hd, hallow⟩ ⟨hd', hallow'⟩ heq
    have hdiv := monthIndex_div d
    have hdiv' := monthIndex_div d'
    have h := (hlocal _ _ d (hmonths _ hd)).mpr ⟨rfl, rfl, hallow⟩
    have h' := (hlocal _ _ d' (hmonths _ hd')).mpr ⟨rfl, rfl, hallow'⟩
    rw [← hdiv.1, ← hdiv.2, heq, hdiv'.1, hdiv'.2] at h
    exact Option.some.inj (h.symm.trans h')
  found := by
    intro k o h u
    have hplace : ∀ day, allows (monthOf day) day → monthIndex day = k →
        localDay (k / 12) (k % 12 + 1) = some day := by
      rintro day hallow rfl
      obtain ⟨hy, hmo⟩ := monthIndex_div day
      have hspec := monthOf_spec day
      rw [hy, hmo]
      exact (hlocal _ _ day ⟨hspec.1, hspec.2.1⟩).mpr ⟨rfl, rfl, hallow⟩
    have hindex : ∀ day, localDay (k / 12) (k % 12 + 1) = some day →
        monthIndex day = k ∧ monthOf day = k % 12 + 1 ∧ allows (monthOf day) day := by
      intro day hday
      obtain ⟨hy, hmo, hallow⟩ := (hlocal _ _ day (by omega)).mp hday
      refine ⟨?_, hmo, hmo.symm ▸ hallow⟩
      simp only [monthIndex, hy, hmo]
      omega
    unfold monthSlot at h
    split at h
    · next hmonth =>
      cases h
      refine iff_of_false (fun hu => by cases hu) ?_
      rintro ⟨day, ⟨⟨hmem, hallow⟩, hk⟩, -⟩
      rw [(hindex day (hplace day hallow hk)).2.1] at hmem
      exact hmonth hmem
    · next hmonth =>
      split at h
      · next hnone =>
        cases h
        refine iff_of_false (fun hu => by cases hu) ?_
        rintro ⟨day, ⟨⟨-, hallow⟩, hk⟩, -⟩
        cases (hplace day hallow hk).symm.trans hnone
      · next day hday =>
        simp only [bind_ok, require_ok] at h
        obtain ⟨-, -, h⟩ := h
        rw [wallSlot_iff hz h]
        constructor
        · intro hu
          obtain ⟨hk, hmo, hallow⟩ := hindex day hday
          exact ⟨day, ⟨⟨hmo.symm ▸ not_not.mp hmonth, hallow⟩, hk⟩, hu⟩
        · rintro ⟨day', ⟨⟨-, hallow⟩, hk⟩, hu⟩
          exact Option.some.inj ((hplace day' hallow hk).symm.trans hday) ▸ hu
  failed := by
    intro k e h
    unfold monthSlot at h
    split at h
    · cases h
    · split at h
      · cases h
      · next day hday =>
        obtain ⟨hy, hmo, hallow⟩ := (hlocal _ _ day (by omega)).mp hday
        refine ⟨day, ?_, ?_, ?_⟩
        · simp only [monthIndex, hy, hmo]
          omega
        · rintro d ⟨-, hd⟩ rfl
          obtain ⟨hy', hmo'⟩ := monthIndex_div d
          have hspec := monthOf_spec d
          have hlocal' := (hlocal _ _ d ⟨hspec.1, hspec.2.1⟩).mpr ⟨rfl, rfl, hd⟩
          rw [hy', hmo', hlocal'] at hday
          exact Option.some.inj hday
        · rcases bind_error h with h | ⟨_, -, h⟩
          · obtain ⟨hlimit, rfl⟩ := require_error h
            exact ⟨fun _ he => (by cases he), Or.inl (not_lt.mp hlimit)⟩
          · exact ⟨(wallSlot_error hz h).1 ▸ fun _ he => (by cases he), Or.inr h⟩

theorem found_interval {anchorAt : Time} {period : Nat} (positive : 0 < period) :
    Found v (fun u => ∃ k, u.val = anchorAt.val + period * k) (fun _ => True)
      ((Recurrence.interval anchorAt period positive).nextAfter v) := by
  by_cases hlt : v < anchorAt
  · rw [nextAfter, if_pos hlt]
    refine ⟨⟨⟨0, by simp⟩, hlt⟩, ?_⟩
    rintro u ⟨⟨k, hu⟩, -⟩
    show anchorAt.val ≤ u.val
    omega
  · rw [nextAfter, if_neg hlt]
    have hle : anchorAt.val ≤ v.val := not_lt.mp hlt
    have hnext := Nat.lt_mul_div_succ (v.val - anchorAt.val) positive
    -- a later slot has a later number than the last one up to `v`
    have hleast : ∀ u : Time, (∃ k, u.val = anchorAt.val + period * k) → v < u →
        anchorAt.val + period * ((v.val - anchorAt.val) / period + 1) ≤ u.val := by
      rintro u ⟨k, hu⟩ hvu
      have hvu : v.val < u.val := hvu
      have hk : (v.val - anchorAt.val) / period < k := by
        rw [Nat.div_lt_iff_lt_mul positive, Nat.mul_comm]
        omega
      have := Nat.mul_le_mul_left period hk
      rw [hu]
      exact Nat.add_le_add_left this _
    rw [Time.add?]
    split
    · refine ⟨⟨⟨_, rfl⟩, ?_⟩, fun u hu => hleast u hu.1 hu.2⟩
      show v.val < anchorAt.val + period * ((v.val - anchorAt.val) / period + 1)
      omega
    · next hrange =>
      refine Or.inr fun u hu hvu => ?_
      have := hleast u hu hvu
      have := u.property
      omega

theorem nextAfter_found {r : Recurrence} (hvalid : r.Valid) (hzone : r.ZoneLawful) (v : Time) :
    Found v (fun u => r.IsScheduled u) (fun u => r.WithinBound v u) (r.nextAfter v) := by
  cases r with
  | interval anchorAt period positive => exact found_interval positive
  | calendar hour minute weekdays zone =>
    obtain ⟨hh, hm, -⟩ := hvalid
    simp only [nextAfter, calendarNext_eq]
    exact found_search (placed_calendar hzone hh hm) hzone
  | monthDay hour minute day months zone =>
    obtain ⟨hh, hm, hday, -, hmonths⟩ := hvalid
    have hplaced := placed_months hzone hh hm hmonths fun y m n h => localDayOfMonth_iff h hday.1
    simp only [nextAfter, monthlyNextAfter, ← monthIndex_div, monthNext_eq]
    exact found_search hplaced hzone
  | monthWeekday hour minute weekday week months zone =>
    obtain ⟨hh, hm, hwd, hweek, -, hmonths⟩ := hvalid
    have hplaced := placed_months hzone hh hm hmonths fun y m n h =>
      localDayOfWeekday_iff h hwd hweek.1
    simp only [nextAfter, monthlyNextAfter, ← monthIndex_div, monthNext_eq]
    exact found_search hplaced hzone

/-! ## Schedules from rules -/

theorem valid_calendarSchedule {P : Platform} {zoneInfo : String → Option Zone} {hour minute : Int}
    {weekdays : List Int} {timezone : String} {r : Recurrence}
    (h : calendarSchedule P zoneInfo hour minute weekdays timezone = .ok r) : r.Valid := by
  simp only [calendarSchedule, checkedTime, bind_ok, require_ok, Except.ok.injEq] at h
  obtain ⟨_, ⟨-, htime, rfl⟩, -, ⟨hne, hdays⟩, zone, -, rfl⟩ := h
  refine ⟨by omega, by omega, by simpa using hne, fun d hd => ?_⟩
  obtain ⟨i, hi, rfl⟩ := List.mem_map.mp hd
  have := hdays i hi
  omega

theorem valid_monthlySchedule {P : Platform} {zoneInfo : String → Option Zone} {hour minute : Int}
    {day weekday week : Option Int} {months : List Int} {timezone : String} {r : Recurrence}
    (h : monthlySchedule P zoneInfo hour minute day weekday week months timezone = .ok r) :
    r.Valid := by
  simp only [monthlySchedule, checkedTime, bind_ok, require_ok, Except.ok.injEq] at h
  obtain ⟨_, ⟨-, htime, rfl⟩, -, hone, -, hday, -, hweekday, -, hweek, -, ⟨hne, hmonths⟩, zone, -, h⟩ := h
  have hall : ∀ m ∈ months.map Int.toNat, 1 ≤ m ∧ m ≤ 12 := by
    intro m hm
    obtain ⟨i, hi, rfl⟩ := List.mem_map.mp hm
    have := hmonths i hi
    omega
  have hne' : months.map Int.toNat ≠ [] := by simpa using hne
  cases day with
  | some d =>
    cases h
    have := hday d rfl
    exact ⟨by omega, by omega, by omega, hne', hall⟩
  | none =>
    cases weekday with
    | none => exact absurd rfl hone
    | some wd =>
      cases h
      obtain ⟨w, hw, hrange⟩ := hweek rfl
      have := hweekday wd rfl
      obtain rfl : week = some w := hw
      refine ⟨by omega, by omega, ?_, ?_, hne', hall⟩
      · show wd.toNat < 7
        omega
      · show 1 ≤ w.toNat ∧ w.toNat ≤ 5
        omega

/-- A schedule from a rule has passed the checks of its constructor. -/
theorem valid_of_rule {P : Platform} {zoneInfo : String → Option Zone} {rule : Json}
    {timezone : String} {anchorAt : Time} {r : Recurrence}
    (h : recurrenceFromRule P zoneInfo rule timezone anchorAt = .ok r) : r.Valid := by
  unfold recurrenceFromRule at h
  split at h
  · simp only [bind_ok] at h
    obtain ⟨_, -, -, -, h⟩ := h
    split at h
    · cases h
      trivial
    · exact nomatch h
  · simp only [bind_ok] at h
    obtain ⟨_, -, _, -, h⟩ := h
    exact valid_calendarSchedule h
  · simp only [bind_ok] at h
    obtain ⟨_, -, _, -, _, -, h⟩ := h
    exact valid_calendarSchedule h
  · simp only [bind_ok] at h
    obtain ⟨_, -, _, -, _, -, _, -, _, -, _, -, h⟩ := h
    exact valid_monthlySchedule h
  · exact nomatch h
  · exact nomatch h

end Recurrence

/-- `next_after` returns the least later slot; where it gives up, the search bound has no later slot,
and any other exception is near an end of the range of `datetime`. -/
theorem slots_enumerated {r : Recurrence} (hvalid : r.Valid) (hzone : r.ZoneLawful) (v : Time) :
    (∀ t, r.nextAfter v = .ok t → IsLeast {u | r.IsScheduled u ∧ v < u} t) ∧
    (∀ message, r.nextAfter v = .error (.job message) →
      ∀ u, r.IsScheduled u → v < u → ¬ r.WithinBound v u) ∧
    ∀ e, r.nextAfter v = .error e → (∀ message, e ≠ .job message) →
      v.val < 32 * dayMicros ∨ ∀ u, r.IsScheduled u → v < u → maxMicros < u.val + 3 * dayMicros := by
  have hfound := Recurrence.nextAfter_found hvalid hzone v
  refine ⟨?_, ?_, ?_⟩
  · intro t h
    rw [h] at hfound
    exact hfound
  · intro message h
    rw [h] at hfound
    exact hfound
  · intro e h he
    rw [h] at hfound
    cases e with
    | job message => exact absurd rfl (he message)
    | _ => exact hfound

/-! ## A summer -/

namespace Sample

/-- A clock that is ahead by `offset` from `start` to `finish`. -/
def summer (start finish offset : Nat) : Zone where
  toLocal t := some (if start ≤ t.val ∧ t.val < finish then t.val + offset else t.val)
  toUtc w :=
    let t := if start + offset ≤ w ∧ w < finish + offset then w - offset else w
    if h : t ≤ maxMicros then some ⟨t, h⟩ else none

section

variable {start finish offset w : Nat} {t : Time}

theorem summer_toLocal : (summer start finish offset).toLocal t = some w ↔
    (start ≤ t.val ∧ t.val < finish) ∧ t.val + offset = w ∨
      ¬(start ≤ t.val ∧ t.val < finish) ∧ t.val = w := by
  simp only [summer, Option.some.injEq]
  split <;> simp [*]

theorem summer_toUtc : (summer start finish offset).toUtc w = some t ↔
    (start + offset ≤ w ∧ w < finish + offset) ∧ w - offset = t.val ∨
      ¬(start + offset ≤ w ∧ w < finish + offset) ∧ w = t.val := by
  have ht := t.property
  simp only [summer, Option.dite_none_right_eq_some, Option.some.injEq, Subtype.ext_iff]
  split <;> simp only [*, true_and, not_true_eq_false, false_and, or_false, not_false_eq_true,
    false_or, exists_prop, and_iff_right_iff_imp] <;> omega

/-- The reading before the clock is set back. -/
def before (offset : Nat) (t : Time) : Time := ⟨t.val - offset, (Nat.sub_le _ _).trans t.property⟩

theorem summer_lawful (hday : offset < dayMicros) (hstart : start + offset ≤ finish)
    (hfinish : finish + offset ≤ maxMicros) : (summer start finish offset).Lawful where
  wall_le {t w} h := by
    have ht := t.property
    have := summer_toLocal.mp h
    omega
  local_offset {t w} h := by
    have := summer_toLocal.mp h
    omega
  utc_offset {t w} h := by
    have := summer_toUtc.mp h
    omega
  local_range h := nomatch h
  utc_range {w} h := by
    simp only [summer, dite_eq_right_iff, reduceCtorEq, imp_false] at h
    split at h <;> omega
  earlier {t w} h := by
    have hread := summer_toLocal.mp h
    by_cases hfold : finish ≤ t.val ∧ t.val < finish + offset
    · -- both readings of a time that was shown twice
      refine ⟨before offset t, summer_toUtc.mpr (Or.inl ?_), summer_toLocal.mpr (Or.inl ?_),
        Nat.sub_le _ _⟩ <;> simp only [before] <;> omega
    · refine ⟨t, summer_toUtc.mpr ?_, h, le_rfl⟩
      omega
  repeats {v t l w} hl hw hlt := by
    by_cases hle : t ≤ v
    · exact ⟨t, hle, hw⟩
    · have hvt : v.val < t.val := not_le.mp hle
      have hread := summer_toLocal.mp hw
      have hlocal := summer_toLocal.mp hl
      refine ⟨before offset t, ?_, summer_toLocal.mpr (Or.inl ?_)⟩
      · show t.val - offset ≤ v.val
        omega
      · simp only [before]
        omega

end

/-- A daily slot at half past one, where summer time is from 29 March to 25 October 2026, 01:00. -/
def halfPastOne : Recurrence :=
  .calendar 1 30 [0, 1, 2, 3, 4, 5, 6]
    (summer (wallTime 739703 1 0) (wallTime 739913 1 0) (wallTime 0 1 0))

theorem halfPastOne_valid : halfPastOne.Valid := ⟨by decide, by decide, by decide, by decide⟩

theorem halfPastOne_lawful : halfPastOne.ZoneLawful :=
  summer_lawful (by decide) (by decide) (by decide)

end Sample

open Sample in
/-- The slot after that of 28 March is that of 30 March. -/
theorem slots_enumerated_halfPastOne :
    IsLeast {u | halfPastOne.IsScheduled u ∧ Time.ofMicros (wallTime 739702 1 30) < u}
      (Time.ofMicros (wallTime 739704 0 30)) :=
  (slots_enumerated halfPastOne_valid halfPastOne_lawful _).1 _ (by decide +kernel)

open Sample in
/-- After the last instant there is no slot, and no `JobError`. -/
theorem not_slots_enumerated : ¬ ∀ r : Recurrence, r.Valid → r.ZoneLawful → ∀ v : Time,
    (∃ t, r.nextAfter v = .ok t) ∨ ∃ message, r.nextAfter v = .error (.job message) := by
  intro hall
  have hend : halfPastOne.nextAfter ⟨maxMicros, le_rfl⟩ = .error .overflow := by decide +kernel
  rcases hall halfPastOne halfPastOne_valid halfPastOne_lawful ⟨maxMicros, le_rfl⟩ with ⟨t, ht⟩ | ⟨message, hm⟩
  · exact nomatch hend.symm.trans ht
  · exact nomatch hend.symm.trans hm

end NanFung
