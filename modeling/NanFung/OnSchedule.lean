import NanFung.Sample
import NanFung.Spacing
import Mathlib.Data.List.ReduceOption

/-!
# Sources collected on schedule

`_freshness_for` calls a retrieval stale after three times the interval that `_schedule_interval`
reads off the definition. A source that is retrieved at every slot of its schedules stays clear of that
as long as one of the schedules keeps the pace of every rule that states an interval.
-/

namespace NanFung

open Recurrence Successive

/-! ## The snapshot of the schedules -/

/-- The text of a catch-up policy. -/
def CatchupPolicy.name : CatchupPolicy → String
  | .latestOnly => "latest_only"
  | .windowed => "windowed"
  | .allSlots => "all_slots"
  | .manual => "manual"

/-- `ScheduleDescriptor.as_json`. -/
def ScheduleDescriptor.asJson (s : ScheduleDescriptor) : Json :=
  .obj [("name", .str s.name), ("rule", s.rule), ("timezone", .str s.timezone),
    ("catchup_policy", .str s.catchupPolicy.name), ("max_catchup_jobs", .int s.maxCatchupJobs),
    ("max_catchup_horizon_seconds", .int s.maxCatchupHorizonSeconds), ("enabled", .bool s.enabled)]

/-- A definition with a `configured` freshness policy, without explicit windows, and the snapshot of
its schedules. -/
structure Configured (definition : Json) (schedules : List ScheduleDescriptor) : Prop where
  policy : ∃ members, definition.get? "freshness_policy" = some (.obj members) ∧
    (Json.obj members).get? "status" = some (.str "configured") ∧
    explicitFreshnessWindows (.obj members) = .ok none
  snapshot : definition.get? "schedules" = some (.arr (schedules.map ScheduleDescriptor.asJson))

/-! ## The interval of a rule -/

section Interval

variable {P : Platform} {zoneInfo : String → Option Zone} {rule : Json} {timezone : String}
  {anchorAt : Time} {r : Recurrence} {i : Nat}

theorem delta_ok {micros d : Nat} : delta micros = .ok d ↔ micros ≤ maxDelta ∧ micros = d := by
  simp [delta, bind_ok]

theorem mem_intItems {items : List Json} {values : List Int} {message : String} {n : Int}
    (h : intItems items message = .ok values) : n ∈ values ↔ ∃ v ∈ items, v.asInt? = some n := by
  have hrel := mapM_ok.mp h
  constructor
  · intro hn
    obtain ⟨v, hv, heq⟩ := exists_of_mem_right hrel hn
    exact ⟨v, hv, orThrow_ok.mp heq⟩
  · rintro ⟨v, hv, hint⟩
    obtain ⟨m, hm, heq⟩ := exists_of_mem_right (R := flip _) (List.Forall₂.flip hrel) hv
    have hm' : some m = some n := (orThrow_ok.mp heq).symm.trans hint
    exact Option.some.inj hm' ▸ hm

/-- The freshness module reads the values of a rule that the scheduler accepts. -/
theorem cycleValues_eq {low high : Nat} {items : List Json} {values : List Int} {message : String}
    (h : intItems items message = .ok values) (hpos : ∀ n ∈ values, 0 ≤ n) :
    cycleValues low high items = cycle low high (values.map Int.toNat) := by
  refine List.filter_congr fun n _ => ?_
  rw [decide_eq_decide]
  refine and_congr_right fun _ => ?_
  rw [← mem_intItems h, List.mem_map]
  constructor
  · intro hn
    exact ⟨n, hn, Int.toNat_natCast n⟩
  · rintro ⟨m, hm, rfl⟩
    rwa [Int.toNat_of_nonneg (hpos m hm)]

theorem cycle_ne_nil {low high : Nat} {values : List Int} (hne : values ≠ [])
    (hrange : ∀ n ∈ values, (low : Int) ≤ n ∧ n ≤ high) :
    cycle low high (values.map Int.toNat) ≠ [] := by
  obtain ⟨n, hn⟩ := List.exists_mem_of_ne_nil _ hne
  have := hrange n hn
  exact List.ne_nil_of_mem (mem_cycle.mpr ⟨by omega, List.mem_map_of_mem hn⟩)

theorem calendarSchedule_cadence {hour minute : Int} {weekdays : List Int}
    (h : calendarSchedule P zoneInfo hour minute weekdays timezone = .ok r) :
    (weekdays ≠ [] ∧ ∀ d ∈ weekdays, 0 ≤ d ∧ d < 7) ∧
      r.cadence = weekGap (weekdays.map Int.toNat) * dayMicros := by
  simp only [calendarSchedule, checkedTime, bind_ok, require_ok, Except.ok.injEq] at h
  obtain ⟨_, ⟨-, -, rfl⟩, -, hdays, zone, -, rfl⟩ := h
  exact ⟨hdays, rfl⟩

theorem monthlySchedule_cadence {hour minute : Int} {day weekday week : Option Int}
    {months : List Int}
    (h : monthlySchedule P zoneInfo hour minute day weekday week months timezone = .ok r) :
    (months ≠ [] ∧ ∀ m ∈ months, 1 ≤ m ∧ m ≤ 12) ∧
      r.cadence = 31 * monthGap (months.map Int.toNat) * dayMicros := by
  simp only [monthlySchedule, checkedTime, bind_ok, require_ok, Except.ok.injEq] at h
  obtain ⟨_, ⟨-, -, rfl⟩, -, -, -, -, -, -, -, -, -, hmonths, zone, -, h⟩ := h
  cases day with
  | some d =>
    cases h
    exact ⟨hmonths, rfl⟩
  | none =>
    cases h
    exact ⟨hmonths, rfl⟩

theorem weekGap_singleton {d : Nat} (h : d < 7) : weekGap [d] = 7 := by
  interval_cases d <;> decide

/-- `_rule_interval` of an accepted rule is the cadence of its schedule. -/
theorem ruleInterval_of_rule (h : recurrenceFromRule P zoneInfo rule timezone anchorAt = .ok r) :
    ruleInterval rule = .ok (some r.cadence) := by
  unfold recurrenceFromRule at h
  split at h
  · next hkind =>
    simp only [ruleInt, bind_ok, orThrow_ok, require_ok] at h
    obtain ⟨seconds, hseconds, -, hrange, h⟩ := h
    split at h
    · next hpos =>
      cases h
      have hpos' : 0 < seconds := by
        by_contra hle
        rw [Int.toNat_of_nonpos (not_lt.mp hle), Nat.zero_mul] at hpos
        exact Nat.lt_irrefl 0 hpos
      simp only [ruleInterval, hkind, hseconds, if_pos hpos', bind_ok, delta_ok]
      refine ⟨_, ⟨?_, rfl⟩, rfl⟩
      simp only [Time.second, maxDelta, dayMicros]
      omega
    · cases h
  · next hkind =>
    simp only [bind_ok] at h
    obtain ⟨_, -, _, -, h⟩ := h
    rw [(calendarSchedule_cadence h).2]
    simp only [ruleInterval, hkind]
    decide
  · next hkind =>
    simp only [bind_ok] at h
    obtain ⟨_, -, _, -, weekdays, hweekdays, h⟩ := h
    obtain ⟨⟨hne, hrange⟩, hcadence⟩ := calendarSchedule_cadence h
    rw [hcadence]
    simp only [ruleInterval, hkind]
    unfold ruleWeekdays at hweekdays
    split at hweekdays
    · next hnone =>
      obtain ⟨d, rest, -, hrest, rfl⟩ := List.forall₂_cons_left_iff.mp (mapM_ok.mp hweekdays)
      obtain rfl := List.forall₂_nil_left_iff.mp hrest
      have hd := hrange d List.mem_cons_self
      rw [hnone, List.map_singleton, weekGap_singleton (by omega)]
    · next items hitems =>
      have hcycle := @cycle_ne_nil 0 6 _ hne fun d hd => by
        have := hrange d hd
        omega
      rw [hitems]
      simp only [cycleValues_eq hweekdays fun d hd => (hrange d hd).1]
      rfl
    · cases hweekdays
  · next hkind =>
    simp only [bind_ok] at h
    obtain ⟨_, -, _, -, months, hmonths, _, -, _, -, _, -, h⟩ := h
    obtain ⟨⟨hne, hrange⟩, hcadence⟩ := monthlySchedule_cadence h
    rw [hcadence]
    simp only [ruleInterval, hkind]
    unfold ruleMonths at hmonths
    split at hmonths
    · next hnone =>
      obtain rfl := Except.ok.inj hmonths
      rw [hnone]
      decide
    · next items hitems =>
      have hcycle := @cycle_ne_nil 1 12 _ hne fun m hm => by
        have := hrange m hm
        omega
      rw [hitems]
      simp only [cycleValues_eq hmonths fun m hm => by
        have := hrange m hm
        omega]
      rfl
    · cases hmonths
  · cases h
  · cases h

/-- The rules whose interval does not depend on whether the scheduler accepts them. -/
def calendarKinds : List String := ["daily", "weekly", "monthly"]

/-- A rule that states an interval is accepted, unless it is a refused rule by the calendar. -/
theorem rule_of_ruleInterval (h : ruleInterval rule = .ok (some i))
    (hcalendar : ∀ kind ∈ calendarKinds, rule.get? "kind" = some (.str kind) →
      ∃ r, recurrenceFromRule P zoneInfo rule timezone anchorAt = .ok r) :
    ∃ r, recurrenceFromRule P zoneInfo rule timezone anchorAt = .ok r ∧ r.cadence = i := by
  have haccepted : (∃ r, recurrenceFromRule P zoneInfo rule timezone anchorAt = .ok r) →
      ∃ r, recurrenceFromRule P zoneInfo rule timezone anchorAt = .ok r ∧ r.cadence = i := by
    rintro ⟨r, hr⟩
    have heq := (ruleInterval_of_rule hr).symm.trans h
    exact ⟨r, hr, Option.some.inj (Except.ok.inj heq)⟩
  apply haccepted
  unfold ruleInterval at h
  split at h
  · next seconds hkind hseconds =>
    split at h
    · next hpos =>
      simp only [bind_ok, delta_ok] at h
      obtain ⟨_, ⟨hrange, -⟩, -⟩ := h
      have hpos' : 0 < seconds.toNat * Time.second := by
        simp only [Time.second]
        omega
      refine ⟨.interval anchorAt _ hpos', ?_⟩
      simp only [recurrenceFromRule, hkind, ruleInt, bind_ok, orThrow_ok, require_ok]
      refine ⟨seconds, hseconds, (), ?_, ?_⟩
      · simp only [Time.second, maxDelta, dayMicros] at hrange
        omega
      · rw [dif_pos hpos']
    · cases h
  · next hkind => exact hcalendar _ (by decide) hkind
  · next hkind => exact hcalendar _ (by decide) hkind
  · next hkind => exact hcalendar _ (by decide) hkind
  · cases h

end Interval

/-! ## The interval of a definition -/

section Definition

variable {definition : Json} {schedules : List ScheduleDescriptor} {t a : Time} {i : Nat}

theorem asJson_rule (s : ScheduleDescriptor) : (s.asJson.get? "rule").getD .null = s.rule := by
  simp [ScheduleDescriptor.asJson, Json.get?, Json.lookup]

theorem Configured.scheduleInterval_eq (h : Configured definition schedules) :
    scheduleInterval definition = (do
      let intervals ← schedules.mapM fun s => ruleInterval s.rule
      .ok intervals.reduceOption.min?) := by
  have hobjects : (schedules.map ScheduleDescriptor.asJson).filter isObject =
      schedules.map ScheduleDescriptor.asJson := by
    refine List.filter_eq_self.mpr fun item hitem => ?_
    obtain ⟨s, -, rfl⟩ := List.mem_map.mp hitem
    rfl
  unfold scheduleInterval
  rw [h.snapshot]
  simp only [hobjects, List.mapM_map, Function.comp_def, asJson_rule]

theorem Configured.freshnessWindows_eq (h : Configured definition schedules) :
    freshnessWindows definition = (do
      let scheduled ← scheduleInterval definition
      let tripled ← delta (scheduled.getD
        (if definition.get? "automation_mode" = some (.str "on_demand") then dayMicros
          else 30 * dayMicros) * 3)
      .ok (some (tripled / 2, tripled))) := by
  obtain ⟨members, hpolicy, hstatus, hexplicit⟩ := h.policy
  have hne : ¬ (some (Json.str "configured") = some (Json.str "not_applicable")) := by decide
  unfold freshnessWindows
  rw [hpolicy]
  simp only [hstatus, if_neg hne, hexplicit]
  rfl

/-- A stale retrieval is older than three times the interval of one of the rules. -/
theorem Configured.exists_of_stale (h : Configured definition schedules)
    (hsome : ∃ s ∈ schedules, ∃ i, ruleInterval s.rule = .ok (some i))
    (hstale : freshnessFor (some t) definition a = .ok .stale) :
    ∃ s ∈ schedules, ∃ i, ruleInterval s.rule = .ok (some i) ∧ t.val + 3 * i < a.val := by
  simp only [freshnessFor, h.freshnessWindows_eq, h.scheduleInterval_eq, bind_ok, delta_ok,
    Except.ok.injEq] at hstale
  obtain ⟨_, ⟨_, ⟨intervals, hintervals, rfl⟩, _, ⟨-, rfl⟩, rfl⟩, hlabel⟩ := hstale
  have hrel := mapM_ok.mp hintervals
  obtain ⟨least, hleast⟩ : ∃ least, intervals.reduceOption.min? = some least := by
    obtain ⟨s, hs, i, hi⟩ := hsome
    obtain ⟨o, ho, hoi⟩ := exists_of_mem_right (R := flip _) (List.Forall₂.flip hrel) hs
    obtain rfl : some i = o := Except.ok.inj (hi.symm.trans hoi)
    have hmem : i ∈ intervals.reduceOption := List.reduceOption_mem_iff.mpr ho
    exact Option.isSome_iff_exists.mp (List.isSome_min?_of_mem hmem)
  obtain ⟨s, hs, hi⟩ := exists_of_mem_right hrel
    (List.reduceOption_mem_iff.mp (List.min?_mem hleast))
  refine ⟨s, hs, least, hi, ?_⟩
  rw [hleast] at hlabel
  simp only [Option.getD_some] at hlabel
  split at hlabel
  · cases hlabel
  · split at hlabel
    · cases hlabel
    · omega

/-- With one rule, a retrieval that is older than three times its interval is stale. -/
theorem Configured.le_of_fresh {s : ScheduleDescriptor} (h : Configured definition [s])
    (hi : ruleInterval s.rule = .ok (some i)) (hrange : i * 3 ≤ maxDelta)
    (hfresh : freshnessFor (some t) definition a ≠ .ok .stale) : a.val ≤ t.val + 3 * i := by
  by_contra hold
  apply hfresh
  simp only [freshnessFor, h.freshnessWindows_eq, h.scheduleInterval_eq, bind_ok, delta_ok]
  refine ⟨_, ⟨_, ⟨[some i], mapM_ok.mpr (.cons hi .nil), rfl⟩, _, ⟨hrange, rfl⟩, rfl⟩, ?_⟩
  have hold' : ¬ a.val - t.val ≤ i * 3 := by omega
  have hhalf : ¬ a.val - t.val ≤ i * 3 / 2 := by omega
  show Except.ok (if a.val - t.val ≤ i * 3 / 2 then Freshness.fresh
    else if a.val - t.val ≤ i * 3 then .aging else .stale) = .ok .stale
  rw [if_neg hhalf, if_neg hold']

end Definition

/-! ## Collected on schedule -/

section Slots

variable (P : Platform) (zoneInfo : String → Option Zone) (createdAt : String → Time)
  (schedules : List ScheduleDescriptor)

/-- `recurrence_from_rule` makes `r` of a schedule, from when its row was created. -/
def RecurrenceOf (s : ScheduleDescriptor) (r : Recurrence) : Prop :=
  recurrenceFromRule P zoneInfo s.rule s.timezone (createdAt s.name) = .ok r

/-- One of the schedules of a definition whose rules are accepted. -/
def Recurs (r : Recurrence) : Prop := ∃ s ∈ schedules, RecurrenceOf P zoneInfo createdAt s r

/-- The slots of all schedules. -/
def UnionSlots : Set Time := {t | ∃ r, Recurs P zoneInfo createdAt schedules r ∧ r.IsScheduled t}

/-- No rule by the calendar is refused. -/
def NoneRefused : Prop :=
  ∀ s ∈ schedules, ∀ kind ∈ calendarKinds, s.rule.get? "kind" = some (.str kind) →
    ∃ r, RecurrenceOf P zoneInfo createdAt s r

/-- The schedule has a slot up to an instant, and one after it. -/
def Recurrence.Underway (r : Recurrence) (t : Time) : Prop :=
  (∃ u, r.IsScheduled u ∧ u ≤ t) ∧ ∃ u, r.IsScheduled u ∧ t < u

/-- A schedule that is under way keeps the pace of all schedules: no slot is later than three times
any cadence, and the microsecond from the last anchor before it. -/
def KeptUp (t : Time) : Prop :=
  NoneRefused P zoneInfo createdAt schedules ∧
    ∃ r, Recurs P zoneInfo createdAt schedules r ∧ r.Underway t ∧
      ∀ q, Recurs P zoneInfo createdAt schedules q → r.KeepsPace (3 * q.cadence + 1)

/-- Retrieved at a slot, a source is not stale before the next slot. -/
def StaysFresh (definition : Json) (t : Time) : Prop :=
  ∀ u a, Next (UnionSlots P zoneInfo createdAt schedules) t u → a < u →
    freshnessFor (some t) definition a ≠ .ok .stale

variable {P zoneInfo createdAt schedules} {definition : Json} {t : Time} {r : Recurrence}

/-- `ZoneInfo` is as documented. -/
def ZonesLawful (zoneInfo : String → Option Zone) : Prop :=
  ∀ timezone zone, zoneInfo timezone = some zone → zone.Lawful

theorem zoneLawful_of_rule {rule : Json} {timezone : String} {anchorAt : Time}
    (hzones : ZonesLawful zoneInfo)
    (h : recurrenceFromRule P zoneInfo rule timezone anchorAt = .ok r) : r.ZoneLawful := by
  have hcalendar : ∀ {hour minute : Int} {weekdays : List Int},
      calendarSchedule P zoneInfo hour minute weekdays timezone = .ok r → r.ZoneLawful := by
    intro hour minute weekdays h
    simp only [calendarSchedule, checkedZone, bind_ok, orThrow_ok, Except.ok.injEq] at h
    obtain ⟨_, -, -, -, zone, hzone, rfl⟩ := h
    exact hzones _ _ hzone
  have hmonthly : ∀ {hour minute : Int} {day weekday week : Option Int} {months : List Int},
      monthlySchedule P zoneInfo hour minute day weekday week months timezone = .ok r →
        r.ZoneLawful := by
    intro hour minute day weekday week months h
    simp only [monthlySchedule, checkedZone, bind_ok, orThrow_ok] at h
    obtain ⟨_, -, -, -, -, -, -, -, -, -, -, -, zone, hzone, h⟩ := h
    cases day with
    | some d =>
      cases h
      exact hzones _ _ hzone
    | none =>
      cases h
      exact hzones _ _ hzone
  unfold recurrenceFromRule at h
  split at h
  · simp only [bind_ok] at h
    obtain ⟨_, -, -, -, h⟩ := h
    split at h
    · cases h
      trivial
    · cases h
  · simp only [bind_ok] at h
    obtain ⟨_, -, _, -, h⟩ := h
    exact hcalendar h
  · simp only [bind_ok] at h
    obtain ⟨_, -, _, -, _, -, h⟩ := h
    exact hcalendar h
  · simp only [bind_ok] at h
    obtain ⟨_, -, _, -, _, -, _, -, _, -, _, -, h⟩ := h
    exact hmonthly h
  · cases h
  · cases h

theorem staysFresh_of_keptUp (hzones : ZonesLawful zoneInfo) (hd : Configured definition schedules)
    (h : KeptUp P zoneInfo createdAt schedules t) :
    StaysFresh P zoneInfo createdAt schedules definition t := by
  intro u a hn ha hstale
  obtain ⟨haccepted, r, ⟨s, hs, hr⟩, ⟨⟨v, hv, hvt⟩, w, hw, htw⟩, hpace⟩ := h
  obtain ⟨s', hs', i, hi, hold⟩ :=
    hd.exists_of_stale ⟨s, hs, _, ruleInterval_of_rule hr⟩ hstale
  obtain ⟨q, hq, rfl⟩ := rule_of_ruleInterval hi (haccepted s' hs')
  -- the slots of `r` around `t` lie outside the step of the union
  have hsub : {u : Time | r.IsScheduled u} ⊆ UnionSlots P zoneInfo createdAt schedules :=
    fun _ hu => ⟨r, ⟨s, hs, hr⟩, hu⟩
  obtain ⟨c, d, hstep, hct, hud⟩ := hn.within hsub ⟨v, hv, hvt⟩ ⟨w, hw, htw⟩
  have hgap := (hpace q ⟨s', hs', hq⟩).le_add (zoneLawful_of_rule hzones hr) hstep
  have hct : c.val ≤ t.val := hct
  have hud : u.val ≤ d.val := hud
  have ha : a.val < u.val := ha
  omega

theorem keepsPace_of_staysFresh {s : ScheduleDescriptor} (hzones : ZonesLawful zoneInfo)
    (hd : Configured definition [s]) (hr : RecurrenceOf P zoneInfo createdAt s r)
    (h : ∀ t, StaysFresh P zoneInfo createdAt [s] definition t) :
    r.KeepsPace (3 * r.cadence + 1) := by
  apply keepsPace_of_le (zoneLawful_of_rule hzones hr)
  intro t u hn
  have hslots : UnionSlots P zoneInfo createdAt [s] = {v | r.IsScheduled v} := by
    ext v
    constructor
    · rintro ⟨q, ⟨s', hs', hq⟩, hv⟩
      obtain rfl := List.mem_singleton.mp hs'
      exact Except.ok.inj (hr.symm.trans hq) ▸ hv
    · intro hv
      exact ⟨r, ⟨s, List.mem_singleton_self s, hr⟩, hv⟩
  have hlt : t.val < u.val := hn.lt
  by_cases hrange : r.cadence * 3 ≤ maxDelta
  · -- the last anchor before the next slot
    have hlast := hd.le_of_fresh (ruleInterval_of_rule hr) hrange
      (h t u ⟨u.val - 1, (Nat.sub_le _ _).trans u.property⟩ (hslots ▸ hn)
        (show u.val - 1 < u.val by omega))
    simp only at hlast
    omega
  · have hmax : maxMicros ≤ maxDelta := by decide
    have := u.property
    omega

end Slots

/-- Retrieved at each slot, a source is not stale where one of its schedules keeps the pace of all of
them. A schedule whose day is in every month keeps its own pace and every slower one, and the only
schedule of a definition has to keep its own. -/
theorem fresh_on_schedule {P : Platform} {zoneInfo : String → Option Zone}
    {createdAt : String → Time} {schedules : List ScheduleDescriptor} {definition : Json}
    (hzones : ZonesLawful zoneInfo) (hd : Configured definition schedules) :
    (∀ t, KeptUp P zoneInfo createdAt schedules t →
      StaysFresh P zoneInfo createdAt schedules definition t) ∧
    (∀ r q : Recurrence, Recurs P zoneInfo createdAt schedules r → r.EveryMonth → r.Punctual →
      r.cadence ≤ q.cadence → r.KeepsPace (3 * q.cadence + 1)) ∧
    ∀ s r, schedules = [s] → RecurrenceOf P zoneInfo createdAt s r →
      ((∀ t, StaysFresh P zoneInfo createdAt schedules definition t) ↔
        r.KeepsPace (3 * r.cadence + 1)) := by
  refine ⟨fun t h => staysFresh_of_keptUp hzones hd h, ?_, ?_⟩
  · rintro r q ⟨s, -, hr⟩ hmonth hpunctual hle
    have hown := keepsPace_of_everyMonth (valid_of_rule hr) (zoneLawful_of_rule hzones hr) hmonth
      hpunctual
    exact hown.mono (by omega)
  · rintro s r rfl hr
    refine ⟨keepsPace_of_staysFresh hzones hd hr, fun hpace t u a hn ha => ?_⟩
    have honly : ∀ q, Recurs P zoneInfo createdAt [s] q → q = r := by
      rintro q ⟨s', hs', hq⟩
      obtain rfl := List.mem_singleton.mp hs'
      exact Except.ok.inj (hq.symm.trans hr)
    obtain ⟨q, hq, ht⟩ := hn.mem
    obtain ⟨q', hq', hu⟩ := hn.mem_next
    obtain rfl := honly q hq
    obtain rfl := honly q' hq'
    refine staysFresh_of_keptUp hzones hd ⟨?_, q', hq', ?_, ?_⟩ u a hn ha
    · intro s' hs' _ _ _
      obtain rfl := List.mem_singleton.mp hs'
      exact ⟨q', hr⟩
    · exact ⟨⟨t, ht, le_rfl⟩, u, hu, hn.lt⟩
    · intro q hq
      rw [honly q hq]
      exact hpace

/-! ## A quarterly check and a fifth Monday -/

namespace Sample

/-- A monthly schedule. -/
def monthly (timezone : String) (rule : List (String × Json)) : ScheduleDescriptor where
  name := "monthly"
  rule := .obj (("kind", .str "monthly") :: rule)
  timezone := timezone
  catchupPolicy := .latestOnly
  maxCatchupJobs := 1
  maxCatchupHorizonSeconds := 0
  enabled := true
  jobs_pos := oneJob_pos
  jobs_le := oneJob_le

/-- The snapshot of a definition with one schedule. -/
def configured (s : ScheduleDescriptor) : Json :=
  .obj [("automation_mode", .str "automatic"), ("schedules", .arr [s.asJson]),
    ("freshness_policy", .obj [("status", .str "configured")])]

theorem configured_configured (s : ScheduleDescriptor) : Configured (configured s) [s] where
  policy := ⟨_, rfl, rfl, rfl⟩
  snapshot := rfl

/-- London, where the only summer time is that of 2026. -/
def london : Zone := summer (wallTime 739703 1 0) (wallTime 739913 1 0) (wallTime 0 1 0)

def zones (timezone : String) : Option Zone :=
  if timezone = "Europe/London" then some london else if timezone = "UTC" then some utc else none

theorem london_lawful : london.Lawful := summer_lawful (by decide) (by decide) (by decide)

theorem utc_lawful : utc.Lawful where
  wall_le {t _} h := Option.some.inj h ▸ t.property
  local_offset h := by
    obtain rfl := Option.some.inj h
    simp only [dayMicros]
    omega
  utc_offset h := by
    simp only [utc, Option.dite_none_right_eq_some, Option.some.injEq] at h
    obtain ⟨-, rfl⟩ := h
    simp only [dayMicros]
    omega
  local_range h := nomatch h
  utc_range {w} h := by
    simp only [utc, dite_eq_right_iff, reduceCtorEq, imp_false] at h
    omega
  earlier {t w} h := by
    obtain rfl := Option.some.inj h
    exact ⟨t, dif_pos t.property, rfl, le_rfl⟩
  repeats {v t l w} hl hw hlt := by
    obtain rfl := Option.some.inj hl
    obtain rfl := Option.some.inj hw
    exact ⟨t, le_of_lt hlt, rfl⟩

theorem zones_lawful : ZonesLawful zones := by
  intro timezone zone h
  unfold zones at h
  split at h
  · exact Option.some.inj h ▸ london_lawful
  · split at h
    · exact Option.some.inj h ▸ utc_lawful
    · exact nomatch h

/-! ### Once a quarter -/

section

variable {start finish offset w : Nat} {t t' : Time}

theorem summer_offset : (summer start finish offset).offset t =
    if start ≤ t.val ∧ t.val < finish then (offset : Int) else 0 := by
  simp only [Zone.offset, summer, Option.getD_some]
  split <;> omega

theorem summer_setBack : (summer start finish offset).SetBackAtMost offset := by
  intro t t' _ _ _
  simp only [Zone.setBack, summer_offset]
  split <;> split <;> omega

/-- A summer skips the times of one stretch only. -/
theorem summer_firstReads (hz : (summer start finish offset).Lawful) (hw : w ≤ maxMicros)
    (hskip : w < start ∨ start + offset ≤ w) :
    ∃ t, (summer start finish offset).FirstReads w t := by
  obtain ⟨t, ht⟩ : ∃ t, (summer start finish offset).toLocal t = some w := by
    by_cases hsummer : start + offset ≤ w ∧ w < finish + offset
    · refine ⟨⟨w - offset, (Nat.sub_le _ _).trans hw⟩, summer_toLocal.mpr (Or.inl ?_)⟩
      simp only
      omega
    · refine ⟨⟨w, hw⟩, summer_toLocal.mpr (Or.inr ⟨?_, rfl⟩)⟩
      rintro ⟨hlow, hhigh⟩
      simp only at hlow hhigh
      omega
  obtain ⟨u, hu, hread, -⟩ := hz.earlier ht
  refine ⟨u, hread, fun v hv => ?_⟩
  obtain ⟨u', hu', -, hle⟩ := hz.earlier hv
  exact Option.some.inj (hu.symm.trans hu') ▸ hle

end

/-- The fifteenth of a month at ten, once a quarter. -/
def quarterly : ScheduleDescriptor :=
  monthly "Europe/London" [("months", .arr [.int 1, .int 4, .int 7, .int 10]), ("day", .int 15),
    ("hour", .int 10), ("minute", .int 0)]

def fifteenth : Recurrence := .monthDay 10 0 15 [1, 4, 7, 10] london

theorem quarterly_recurrence (createdAt : String → Time) :
    RecurrenceOf platform zones createdAt quarterly fifteenth := rfl

/-- London never skips ten o'clock. -/
theorem fifteenth_punctual : fifteenth.Punctual := by
  refine ⟨fun t t' hle ht ht' => (summer_setBack t t' hle ht ht').trans (by decide), ?_⟩
  intro a b c hab hbc hc
  refine Or.inl ⟨hab.mem, summer_firstReads london_lawful ?_ ?_⟩
  · obtain ⟨-, t, ht⟩ := hc
    have hwall := london_lawful.wall_le ht.1
    have hac := @wallTime_lt 10 0 a c (hab.lt.trans hbc)
    omega
  · simp only [wallTime, dayMicros]
    omega

end Sample

open Sample in
/-- The quarterly check of the VOA stock. -/
theorem fresh_on_schedule_quarterly : fifteenth.KeepsPace (279 * dayMicros + 1) ∧
    ∀ t, StaysFresh platform zones (fun _ => Time.ofMicros 0) [quarterly] (configured quarterly)
      t := by
  have hall := @fresh_on_schedule platform zones (fun _ => Time.ofMicros 0) [quarterly] _
    zones_lawful (configured_configured quarterly)
  have hpace := hall.2.1 fifteenth fifteenth
    ⟨quarterly, List.mem_singleton_self _, quarterly_recurrence _⟩ (show 15 ≤ 28 by decide)
    fifteenth_punctual le_rfl
  refine ⟨hpace, ?_⟩
  exact (hall.2.2 quarterly fifteenth rfl (quarterly_recurrence _)).mpr hpace

/-! ### The fifth Monday -/

namespace Sample

/-- The fifth Monday of a month at half past three. -/
def fifthMonday : ScheduleDescriptor :=
  monthly "UTC" [("weekday", .int 0), ("week", .int 5), ("hour", .int 3), ("minute", .int 30)]

def fifthMondays : Recurrence :=
  .monthWeekday 3 30 0 5 [1, 2, 3, 4, 5, 6, 7, 8, 9, 10, 11, 12] utc

theorem fifthMonday_recurrence (createdAt : String → Time) :
    RecurrenceOf platform zones createdAt fifthMonday fifthMondays := rfl

theorem fifthMondays_next {v u : Time} (h : fifthMondays.nextAfter v = .ok u) :
    IsLeast {w | fifthMondays.IsScheduled w ∧ v < w} u := by
  have hrule := fifthMonday_recurrence fun _ => v
  have hfound := nextAfter_found (valid_of_rule hrule) (zoneLawful_of_rule zones_lawful hrule) v
  rw [h] at hfound
  exact hfound

end Sample

open Sample in
/-- After 30 November 2026 the next fifth Monday is 29 March 2027. -/
theorem not_fresh_on_schedule : ¬ ∀ (P : Platform) (zoneInfo : String → Option Zone)
    (createdAt : String → Time) (schedules : List ScheduleDescriptor) (definition : Json),
    ZonesLawful zoneInfo → Configured definition schedules →
      (∃ r, Recurs P zoneInfo createdAt schedules r) →
        ∀ t, StaysFresh P zoneInfo createdAt schedules definition t := by
  intro hall
  -- the schedule is its definition's only one
  have honly : ∀ r, Recurs platform zones (fun _ => Time.ofMicros 0) [fifthMonday] r →
      r = fifthMondays := by
    rintro r ⟨s, hs, hr⟩
    obtain rfl := List.mem_singleton.mp hs
    exact Except.ok.inj (hr.symm.trans (fifthMonday_recurrence fun _ => Time.ofMicros 0))
  have hrecurs : Recurs platform zones (fun _ => Time.ofMicros 0) [fifthMonday] fifthMondays :=
    ⟨fifthMonday, List.mem_singleton_self _, fifthMonday_recurrence _⟩
  have hnovember := @fifthMondays_next (Time.ofMicros (wallTime 739858 3 30))
    (Time.ofMicros (wallTime 739949 3 30)) (by decide +kernel)
  have hmarch := @fifthMondays_next (Time.ofMicros (wallTime 739949 3 30))
    (Time.ofMicros (wallTime 740068 3 30)) (by decide +kernel)
  refine hall platform zones (fun _ => Time.ofMicros 0) [fifthMonday] (configured fifthMonday)
    zones_lawful (configured_configured _) ⟨_, hrecurs⟩ (Time.ofMicros (wallTime 739949 3 30))
    (Time.ofMicros (wallTime 740068 3 30)) (Time.ofMicros (wallTime 740068 3 30 - 1)) ?_
    (by decide) (by decide +kernel)
  refine ⟨⟨_, hrecurs, hnovember.1.1⟩, ⟨⟨_, hrecurs, hmarch.1.1⟩, hmarch.1.2⟩, ?_⟩
  rintro w ⟨⟨r, hr, hw⟩, hlt⟩
  exact hmarch.2 ⟨honly r hr ▸ hw, hlt⟩

end NanFung
