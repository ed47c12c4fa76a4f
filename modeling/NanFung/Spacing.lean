import NanFung.Slots
import NanFung.Lib.Successive
import NanFung.Read.Records

/-!
# How far apart slots are

The freshness module reads a cadence off the fields of a rule: its seconds, the longest gap between
its weekdays, 31 days for each month of the longest gap between its months. The scheduler takes its
slots from the local calendar. A recurrence keeps a pace when the days on which it has a slot are close
enough; three times its own cadence is such a pace where every month has the day that the rule names.
-/

namespace NanFung

open Calendar Successive

/-! ## Cycles -/

/-- The values between bounds that occur in a list, in ascending order. -/
def cycle (low high : Nat) (values : List Nat) : List Nat :=
  (List.range (high + 1)).filter fun n => low ≤ n ∧ n ∈ values

theorem mem_cycle {low high n : Nat} {values : List Nat} :
    n ∈ cycle low high values ↔ (low ≤ n ∧ n ≤ high) ∧ n ∈ values := by
  simp only [cycle, List.mem_filter, List.mem_range, decide_eq_true_eq, Nat.lt_succ_iff]
  tauto

theorem le_foldl_max {l : List Nat} {a b : Nat} (h : b ≤ a ∨ b ∈ l) : b ≤ l.foldl max a := by
  induction l generalizing a with
  | nil => simpa using h
  | cons x l ih =>
    rw [List.foldl_cons]
    apply ih
    rcases h with h | h
    · exact Or.inl (h.trans (le_max_left a x))
    · rcases List.mem_cons.mp h with rfl | h
      · exact Or.inl (le_max_right a b)
      · exact Or.inr h

/-- Going round a cycle, the longest gap leads past one of its values. -/
theorem exists_le_longestGap {period v : Nat} {values : List Nat} (hv : v ∈ values)
    (hle : ∀ x ∈ values, x ≤ period) (hpos : 0 < period) :
    ∃ x ∈ values, ∃ j, 1 ≤ j ∧ j ≤ longestGap period values ∧ (v + j) % period = x % period := by
  obtain ⟨i, hi, rfl⟩ := List.getElem_of_mem hv
  have hi' : i < (values.rotate 1).length := by simpa using hi
  have hzip : i < (values.zip (values.rotate 1)).length := by simpa using hi
  have hpair : (values[i], (values.rotate 1)[i]) ∈ values.zip (values.rotate 1) := by
    rw [← List.getElem_zip (h := hzip)]
    exact List.getElem_mem hzip
  have hx : (values.rotate 1)[i] ∈ values := List.mem_rotate.mp (List.getElem_mem hi')
  -- what the source adds to a value to come to the next one, up to the period
  have hsum : (values[i] + ((values.rotate 1)[i] + period - values[i])) % period =
      (values.rotate 1)[i] % period := by
    have := hle _ hv
    rw [show values[i] + ((values.rotate 1)[i] + period - values[i]) =
      (values.rotate 1)[i] + period by omega, Nat.add_mod_right]
  refine ⟨_, hx, if ((values.rotate 1)[i] + period - values[i]) % period = 0 then period
    else ((values.rotate 1)[i] + period - values[i]) % period, ?_, ?_, ?_⟩
  · split <;> omega
  · refine le_foldl_max (Or.inr ?_)
    exact List.mem_map.mpr ⟨_, hpair, rfl⟩
  · split
    · next hzero =>
      rw [← hsum, Nat.add_mod_right, Nat.add_mod values[i], hzero, Nat.add_zero, Nat.mod_mod]
    · rw [Nat.add_mod_mod, hsum]

namespace Recurrence

/-! ## Months -/

/-- Day number of the first day of the month with a number. -/
def startOf (k : Nat) : Nat := monthStart (k / 12) (k % 12 + 1)

theorem daysInMonth_bounds {y m : Nat} (hm : 1 ≤ m ∧ m ≤ 12) :
    28 ≤ daysInMonth y m ∧ daysInMonth y m ≤ 31 := by
  obtain ⟨h1, h12⟩ := hm
  have hall : ∀ leap, 28 ≤ daysBeforeMonth leap (m + 1) - daysBeforeMonth leap m ∧
      daysBeforeMonth leap (m + 1) - daysBeforeMonth leap m ≤ 31 := by
    intro leap
    cases leap <;> interval_cases m <;> decide
  exact hall (isLeap y)

theorem startOf_succ (k : Nat) :
    startOf (k + 1) = startOf k + daysInMonth (k / 12) (k % 12 + 1) := by
  have hmono := @daysBeforeMonth_mono (isLeap (k / 12)) (k % 12 + 1) (k % 12 + 1 + 1) (by omega)
    (by omega)
  by_cases hlast : k % 12 = 11
  · have hy : (k + 1) / 12 = k / 12 + 1 := by omega
    have hm : (k + 1) % 12 = 0 := by omega
    have hyear := daysBeforeYear_succ (k / 12)
    have hfirst : ∀ leap, daysBeforeMonth leap (0 + 1) = 0 := by decide
    simp only [startOf, monthStart, daysInMonth, hy, hm, hlast, hfirst, Nat.reduceAdd] at hmono ⊢
    omega
  · have hy : (k + 1) / 12 = k / 12 := by omega
    have hm : (k + 1) % 12 = k % 12 + 1 := by omega
    simp only [startOf, monthStart, daysInMonth, hy, hm]
    omega

/-- Months that are `j` apart start between 28 and 31 days apart for each month. -/
theorem startOf_add (k j : Nat) :
    startOf k + 28 * j ≤ startOf (k + j) ∧ startOf (k + j) ≤ startOf k + 31 * j := by
  induction j with
  | zero => exact ⟨le_rfl, le_rfl⟩
  | succ j ih =>
    have hnext := startOf_succ (k + j)
    have hdays := @daysInMonth_bounds ((k + j) / 12) ((k + j) % 12 + 1) (by omega)
    rw [← Nat.add_assoc]
    omega

/-- A day of a month, counted from the month's start. -/
theorem mem_month_index {k i day : Nat} :
    (i < daysInMonth (k / 12) (k % 12 + 1) ∧ day = startOf k + i) ↔
      monthIndex day = k ∧ dayOf day = i + 1 := by
  have hiff := @mem_month_iff (k / 12) (k % 12 + 1) i day (by omega)
  have hdiv := monthIndex_div day
  have hspec := monthOf_spec day
  simp only [startOf, hiff]
  constructor
  · rintro ⟨hy, hm, hd⟩
    omega
  · rintro ⟨rfl, hd⟩
    exact ⟨hdiv.1.symm, hdiv.2.symm, hd⟩

/-- The months, numbered from the first one, that a rule names. -/
def NamedMonths (months : List Nat) : Set Nat := {k | k % 12 + 1 ∈ months}

theorem mem_namedMonths {months : List Nat} {day : Nat} :
    monthIndex day ∈ NamedMonths months ↔ monthOf day ∈ months := by
  show monthIndex day % 12 + 1 ∈ months ↔ _
  rw [(monthIndex_div day).2]

/-- The longest gap between the months of a rule. -/
def monthGap (months : List Nat) : Nat := longestGap 12 (cycle 1 12 months)

theorem stride_months {months : List Nat} : Stride (NamedMonths months) (monthGap months) := by
  intro k hk
  have hv : k % 12 + 1 ∈ cycle 1 12 months := mem_cycle.mpr ⟨by omega, hk⟩
  have hle : ∀ x ∈ cycle 1 12 months, x ≤ 12 := fun x hx => (mem_cycle.mp hx).1.2
  obtain ⟨x, hx, j, hj, hgap, hmod⟩ := exists_le_longestGap hv hle (by decide)
  obtain ⟨hrange, hmem⟩ := mem_cycle.mp hx
  have hmonth : (k + j) % 12 + 1 = x := by omega
  refine ⟨k + j, ?_, by omega, ?_⟩
  · show (k + j) % 12 + 1 ∈ months
    exact hmonth ▸ hmem
  · exact Nat.add_le_add_left hgap k

/-! ## The days of a rule -/

/-- The longest gap between the weekdays of a rule. -/
def weekGap (weekdays : List Nat) : Nat := longestGap 7 (cycle 0 6 weekdays)

theorem stride_weekdays {weekdays : List Nat} :
    Stride {day | day % 7 ∈ weekdays} (weekGap weekdays) := by
  intro day hday
  have hv : day % 7 ∈ cycle 0 6 weekdays := mem_cycle.mpr ⟨by omega, hday⟩
  have hle : ∀ x ∈ cycle 0 6 weekdays, x ≤ 7 := fun x hx =>
    (mem_cycle.mp hx).1.2.trans (by decide)
  obtain ⟨x, hx, j, hj, hgap, hmod⟩ := exists_le_longestGap hv hle (by decide)
  obtain ⟨hrange, hmem⟩ := mem_cycle.mp hx
  have hweekday : (day + j) % 7 = x := by omega
  refine ⟨day + j, ?_, by omega, ?_⟩
  · show (day + j) % 7 ∈ weekdays
    exact hweekday ▸ hmem
  · exact Nat.add_le_add_left hgap day

/-- Every month has a 28th. -/
theorem stride_monthDay {months : List Nat} {dayOfMonth : Nat}
    (hday : 1 ≤ dayOfMonth ∧ dayOfMonth ≤ 28) :
    Stride {day | monthOf day ∈ months ∧ dayOf day = dayOfMonth} (31 * monthGap months) := by
  rintro day ⟨hmonth, hdayOf⟩
  obtain ⟨-, heq⟩ := (@mem_month_index (monthIndex day) (dayOfMonth - 1) day).mpr ⟨rfl, by omega⟩
  obtain ⟨k, hk, hlt, hle⟩ := stride_months _ (mem_namedMonths.mpr hmonth)
  obtain ⟨j, rfl⟩ := Nat.exists_eq_add_of_le hlt.le
  have hstart := startOf_add (monthIndex day) j
  have hdays := @daysInMonth_bounds ((monthIndex day + j) / 12) ((monthIndex day + j) % 12 + 1)
    (by omega)
  obtain ⟨hindex, hdayOf'⟩ := (@mem_month_index (monthIndex day + j) (dayOfMonth - 1) _).mp
    ⟨by omega, rfl⟩
  refine ⟨startOf (monthIndex day + j) + (dayOfMonth - 1), ⟨?_, ?_⟩, ?_, ?_⟩
  · exact mem_namedMonths.mp (hindex.symm ▸ hk)
  · omega
  · omega
  · omega

/-- Every month has a fourth occurrence of a weekday. -/
theorem stride_monthWeekday {months : List Nat} {weekday week : Nat} (hwd : weekday < 7)
    (hweek : 1 ≤ week ∧ week ≤ 4) :
    Stride {day | monthOf day ∈ months ∧ day % 7 = weekday ∧ (dayOf day - 1) / 7 + 1 = week}
      (31 * monthGap months + 6) := by
  rintro day ⟨hmonth, hweekday, hnth⟩
  have hpos : 1 ≤ dayOf day := by
    simp only [dayOf]
    omega
  obtain ⟨-, heq⟩ := (@mem_month_index (monthIndex day) (dayOf day - 1) day).mpr ⟨rfl, by omega⟩
  obtain ⟨k, hk, hlt, hle⟩ := stride_months _ (mem_namedMonths.mpr hmonth)
  obtain ⟨j, rfl⟩ := Nat.exists_eq_add_of_le hlt.le
  have hstart := startOf_add (monthIndex day) j
  have hdays := @daysInMonth_bounds ((monthIndex day + j) / 12) ((monthIndex day + j) % 12 + 1)
    (by omega)
  -- the same week of a later month
  obtain ⟨i, hi⟩ : ∃ i, i = (weekday + 7 - startOf (monthIndex day + j) % 7) % 7 + (week - 1) * 7 :=
    ⟨_, rfl⟩
  obtain ⟨hindex, hdayOf⟩ := (@mem_month_index (monthIndex day + j) i _).mp ⟨by omega, rfl⟩
  refine ⟨startOf (monthIndex day + j) + i, ⟨?_, ?_, ?_⟩, ?_, ?_⟩
  · exact mem_namedMonths.mp (hindex.symm ▸ hk)
  · omega
  · omega
  · omega
  · omega

end Recurrence

/-! ## Clocks -/

namespace Zone

/-- `utcoffset` of an instant, in microseconds. -/
def offset (zone : Zone) (t : Time) : Int := ((zone.toLocal t).getD 0 : Nat) - (t.val : Int)

/-- How far the clock is set back from an instant to another one, less how far it is set forward. -/
def setBack (zone : Zone) (t t' : Time) : Int := zone.offset t - zone.offset t'

/-- From an instant to a later one the clock is set back by at most `micros`. -/
def SetBackAtMost (zone : Zone) (micros : Nat) : Prop :=
  ∀ t t', t ≤ t' → zone.toLocal t ≠ none → zone.toLocal t' ≠ none → zone.setBack t t' ≤ micros

end Zone

namespace Recurrence

section Wall

variable {zone : Zone} {hour minute : Nat} {allows : Set Nat} {d d' limit n : Nat} {t t' : Time}

/-- The days that a rule allows on which the clock shows its time. -/
def SlotDays (zone : Zone) (hour minute : Nat) (allows : Set Nat) : Set Nat :=
  {day | day ∈ allows ∧ ∃ t, zone.FirstReads (wallTime day hour minute) t}

/-- The days from a day with a slot to the next one, and what the clock is set back meanwhile, are
within a limit. -/
def WallPace (zone : Zone) (hour minute : Nat) (allows : Set Nat) (limit : Nat) : Prop :=
  ∀ d d' t t', Next (SlotDays zone hour minute allows) d d' →
    zone.FirstReads (wallTime d hour minute) t → zone.FirstReads (wallTime d' hour minute) t' →
      ((d' - d) * dayMicros : Nat) + zone.setBack t t' ≤ limit

/-- Slots come in the order of their days. -/
theorem slot_lt_iff (hz : zone.Lawful) (h : zone.FirstReads (wallTime d hour minute) t)
    (h' : zone.FirstReads (wallTime d' hour minute) t') : d < d' ↔ t < t' := by
  constructor
  · intro hlt
    exact hz.ordered h h' (wallTime_lt hlt)
  · intro hlt
    by_contra hle
    rcases (not_lt.mp hle).lt_or_eq with hd | rfl
    · exact absurd (hz.ordered h' h (wallTime_lt hd)) hlt.asymm
    · exact absurd hlt (h.unique h' ▸ lt_irrefl t)

/-- Successive slots are on successive days with a slot. -/
theorem next_days (hz : zone.Lawful)
    (h : Next {u | WallScheduled zone hour minute (· ∈ allows) u} t t') :
    ∃ d d', Next (SlotDays zone hour minute allows) d d' ∧
      zone.FirstReads (wallTime d hour minute) t ∧ zone.FirstReads (wallTime d' hour minute) t' := by
  obtain ⟨d, hd, hread⟩ := h.mem
  obtain ⟨d', hd', hread'⟩ := h.mem_next
  refine ⟨d, d', ?_, hread, hread'⟩
  refine @Next.transfer _ _ _ _ _ _ _ _
    (fun u day => zone.FirstReads (wallTime day hour minute) u) _ _ ?_ ?_ h hread hread'
    ⟨hd, t, hread⟩ ⟨hd', t', hread'⟩
  · intro u u' e e' hu hu'
    exact (slot_lt_iff hz hu hu').symm
  · rintro e ⟨he, u, hu⟩
    exact ⟨u, ⟨e, he, hu⟩, hu⟩

/-- The slots of successive days with a slot are successive. -/
theorem next_slots (hz : zone.Lawful) (h : Next (SlotDays zone hour minute allows) d d')
    (hread : zone.FirstReads (wallTime d hour minute) t)
    (hread' : zone.FirstReads (wallTime d' hour minute) t') :
    Next {u | WallScheduled zone hour minute (· ∈ allows) u} t t' := by
  refine @Next.transfer _ _ _ _ _ _ _ _
    (fun day u => zone.FirstReads (wallTime day hour minute) u) _ _ ?_ ?_ h hread hread'
    ⟨d, h.mem.1, hread⟩ ⟨d', h.mem_next.1, hread'⟩
  · intro e e' u u' hu hu'
    exact slot_lt_iff hz hu hu'
  · rintro u ⟨e, he, hu⟩
    exact ⟨e, ⟨he, u, hu⟩, hu⟩

theorem wallTime_sub (hlt : d < d') :
    wallTime d' hour minute = wallTime d hour minute + (d' - d) * dayMicros := by
  simp only [wallTime, dayMicros]
  omega

/-- The time between readings on two days. -/
theorem sub_eq_setBack (hlt : d < d') (h : zone.FirstReads (wallTime d hour minute) t)
    (h' : zone.FirstReads (wallTime d' hour minute) t') :
    (t'.val : Int) - t.val = ((d' - d) * dayMicros : Nat) + zone.setBack t t' := by
  rw [Zone.setBack, Zone.offset, Zone.offset, h.1, h'.1, Option.getD_some, Option.getD_some,
    wallTime_sub hlt, Nat.cast_add]
  ring

/-- A pace is kept exactly if the slots are within its limit of each other. -/
theorem wallPace_iff (hz : zone.Lawful) : WallPace zone hour minute allows limit ↔
    ∀ t t', Next {u | WallScheduled zone hour minute (· ∈ allows) u} t t' →
      t'.val ≤ t.val + limit := by
  constructor
  · intro h t t' hn
    obtain ⟨d, d', hd, hread, hread'⟩ := next_days hz hn
    have hlimit := h d d' t t' hd hread hread'
    have hsub := sub_eq_setBack hd.lt hread hread'
    omega
  · intro h d d' t t' hd hread hread'
    have hlimit := h t t' (next_slots hz hd hread hread')
    have hsub := sub_eq_setBack hd.lt hread hread'
    omega

/-- The clock is set back a day at most, and does not skip the time on two allowed days in a row. -/
def WallPunctual (zone : Zone) (hour minute : Nat) (allows : Set Nat) : Prop :=
  zone.SetBackAtMost dayMicros ∧ MissesNoTwo allows (SlotDays zone hour minute allows)

/-- Two strides and a day. -/
theorem wallPace_of_stride (hz : zone.Lawful) (hstride : Stride allows n)
    (hp : WallPunctual zone hour minute allows) (hle : (2 * n + 1) * dayMicros ≤ limit) :
    WallPace zone hour minute allows limit := by
  intro d d' t t' hd hread hread'
  have htwo := hstride.two (fun _ h => h.1) hp.2 hd
  have hback : zone.setBack t t' ≤ dayMicros := by
    apply hp.1 t t' ((slot_lt_iff hz hread hread').mp hd.lt).le
    · rw [hread.1]
      exact nofun
    · rw [hread'.1]
      exact nofun
  simp only [dayMicros] at *
  omega

end Wall

/-! ## Schedules -/

/-- The time between slots that the fields of a schedule state, in microseconds. -/
def cadence : Recurrence → Nat
  | .interval _ period _ => period
  | .calendar _ _ weekdays _ => weekGap weekdays * dayMicros
  | .monthDay _ _ _ months _ | .monthWeekday _ _ _ _ months _ => 31 * monthGap months * dayMicros

/-- The days with a slot, or the interval, are within a limit of each other. -/
def KeepsPace (limit : Nat) : Recurrence → Prop
  | .interval _ period _ => period ≤ limit
  | .calendar hour minute weekdays zone =>
    WallPace zone hour minute {day | day % 7 ∈ weekdays} limit
  | .monthDay hour minute dayOfMonth months zone =>
    WallPace zone hour minute {day | monthOf day ∈ months ∧ dayOf day = dayOfMonth} limit
  | .monthWeekday hour minute weekday week months zone =>
    WallPace zone hour minute
      {day | monthOf day ∈ months ∧ day % 7 = weekday ∧ (dayOf day - 1) / 7 + 1 = week} limit

/-- Each month has the day that the schedule names, if it names one. -/
def EveryMonth : Recurrence → Prop
  | .interval .. | .calendar .. => True
  | .monthDay _ _ dayOfMonth _ _ => dayOfMonth ≤ 28
  | .monthWeekday _ _ _ week _ _ => week ≤ 4

/-- The schedule's clock, if it has one, hardly ever skips its time. -/
def Punctual : Recurrence → Prop
  | .interval .. => True
  | .calendar hour minute weekdays zone =>
    WallPunctual zone hour minute {day | day % 7 ∈ weekdays}
  | .monthDay hour minute dayOfMonth months zone =>
    WallPunctual zone hour minute {day | monthOf day ∈ months ∧ dayOf day = dayOfMonth}
  | .monthWeekday hour minute weekday week months zone =>
    WallPunctual zone hour minute
      {day | monthOf day ∈ months ∧ day % 7 = weekday ∧ (dayOf day - 1) / 7 + 1 = week}

section Pace

variable {r : Recurrence} {limit : Nat} {t t' : Time}

theorem interval_le_add {anchorAt : Time} {period : Nat}
    (hn : Next {u : Time | ∃ k, u.val = anchorAt.val + period * k} t t') :
    t'.val ≤ t.val + period := by
  obtain ⟨k, hk⟩ := hn.mem
  obtain ⟨k', hk'⟩ := hn.mem_next
  have hlt : t.val < t'.val := hn.lt
  by_contra hfar
  have hrange : t.val + period ≤ maxMicros := by
    have := t'.property
    omega
  have hpos : 0 < period := by
    by_contra hzero
    have : period = 0 := by omega
    subst this
    omega
  -- the slot after `t` would come before `t'`
  have hle : t'.val ≤ t.val + period := hn.le_of_mem (c := ⟨t.val + period, hrange⟩)
    ⟨k + 1, by rw [Nat.mul_succ, ← Nat.add_assoc, ← hk]⟩ (show t.val < t.val + period by omega)
  exact hfar hle

/-- Successive slots of a schedule that keeps a pace are within its limit. -/
theorem KeepsPace.le_add (hz : r.ZoneLawful) (h : r.KeepsPace limit)
    (hn : Next {u | r.IsScheduled u} t t') : t'.val ≤ t.val + limit := by
  cases r with
  | interval anchorAt period positive =>
    exact (interval_le_add hn).trans (Nat.add_le_add_left h _)
  | calendar hour minute weekdays zone => exact (wallPace_iff hz).mp h t t' hn
  | monthDay hour minute day months zone => exact (wallPace_iff hz).mp h t t' hn
  | monthWeekday hour minute weekday week months zone => exact (wallPace_iff hz).mp h t t' hn

theorem KeepsPace.mono {limit' : Nat} (hle : limit ≤ limit') (h : r.KeepsPace limit) :
    r.KeepsPace limit' := by
  have hcast : (limit : Int) ≤ limit' := Int.ofNat_le.mpr hle
  cases r with
  | interval anchorAt period positive => exact le_trans h hle
  | calendar hour minute weekdays zone =>
    exact fun d d' t t' hd ht ht' => (h d d' t t' hd ht ht').trans hcast
  | monthDay hour minute day months zone =>
    exact fun d d' t t' hd ht ht' => (h d d' t t' hd ht ht').trans hcast
  | monthWeekday hour minute weekday week months zone =>
    exact fun d d' t t' hd ht ht' => (h d d' t t' hd ht ht').trans hcast

theorem weekGap_pos {weekdays : List Nat} (hne : weekdays ≠ []) (hlt : ∀ d ∈ weekdays, d < 7) :
    0 < weekGap weekdays := by
  obtain ⟨d, hd⟩ := List.exists_mem_of_ne_nil _ hne
  have hmem : d ∈ {day | day % 7 ∈ weekdays} := by
    show d % 7 ∈ weekdays
    rwa [Nat.mod_eq_of_lt (hlt d hd)]
  obtain ⟨b, -, hb⟩ := stride_weekdays d hmem
  omega

theorem monthGap_pos {months : List Nat} (hne : months ≠ []) (hm : ∀ m ∈ months, 1 ≤ m ∧ m ≤ 12) :
    0 < monthGap months := by
  obtain ⟨m, hmem⟩ := List.exists_mem_of_ne_nil _ hne
  have hnamed : m - 1 ∈ NamedMonths months := by
    show (m - 1) % 12 + 1 ∈ months
    have hrange := hm m hmem
    rwa [show (m - 1) % 12 + 1 = m by omega]
  obtain ⟨b, -, hb⟩ := stride_months _ hnamed
  omega

/-- Three times the cadence leaves room for two strides and a day. -/
theorem keepsPace_of_everyMonth (hvalid : r.Valid) (hz : r.ZoneLawful) (he : r.EveryMonth)
    (hp : r.Punctual) : r.KeepsPace (3 * r.cadence + 1) := by
  cases r with
  | interval anchorAt period positive =>
    show period ≤ 3 * period + 1
    omega
  | calendar hour minute weekdays zone =>
    obtain ⟨-, -, hne, hlt⟩ := hvalid
    have hpos := weekGap_pos hne hlt
    refine wallPace_of_stride hz stride_weekdays hp (Nat.le_succ_of_le ?_)
    rw [cadence, ← Nat.mul_assoc 3]
    exact Nat.mul_le_mul_right _ (by omega)
  | monthDay hour minute day months zone =>
    obtain ⟨-, -, hday, hne, hmonths⟩ := hvalid
    have hpos := monthGap_pos hne hmonths
    refine wallPace_of_stride hz (stride_monthDay ⟨hday.1, he⟩) hp (Nat.le_succ_of_le ?_)
    rw [cadence, ← Nat.mul_assoc 3]
    exact Nat.mul_le_mul_right _ (by omega)
  | monthWeekday hour minute weekday week months zone =>
    obtain ⟨-, -, hwd, hweek, hne, hmonths⟩ := hvalid
    have hpos := monthGap_pos hne hmonths
    refine wallPace_of_stride hz (stride_monthWeekday hwd ⟨hweek.1, he⟩) hp (Nat.le_succ_of_le ?_)
    rw [cadence, ← Nat.mul_assoc 3]
    exact Nat.mul_le_mul_right _ (by omega)

/-- Slots within three times the cadence are all that the pace asks for. -/
theorem keepsPace_of_le (hz : r.ZoneLawful)
    (h : ∀ t t', Next {u | r.IsScheduled u} t t' → t'.val ≤ t.val + (3 * r.cadence + 1)) :
    r.KeepsPace (3 * r.cadence + 1) := by
  cases r with
  | interval anchorAt period positive =>
    show period ≤ 3 * period + 1
    omega
  | calendar hour minute weekdays zone => exact (wallPace_iff hz).mpr h
  | monthDay hour minute day months zone => exact (wallPace_iff hz).mpr h
  | monthWeekday hour minute weekday week months zone => exact (wallPace_iff hz).mpr h

end Pace

end Recurrence

end NanFung
