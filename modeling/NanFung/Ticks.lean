import NanFung.Catchup
import NanFung.Slots
import NanFung.Lib.Enumeration

/-!
# Catching up over ticks

`materialize_due_slots` over a sequence of ticks, each with the cursor that the last one returned, for
any recurrence whose `next_after` returns the least later slot. The slots that some tick has inside its
horizon are the ones that all ticks together return, unless the policy leaves some out.
-/

namespace NanFung

open Enumeration

/-! ## One call -/

/-- `max(cursor, now - horizon)`; a `timedelta` may be negative. -/
def startOf (cursor now : Time) : Option Int → Except StoreError Time
  | none => .ok cursor
  | some horizon =>
    if h : 0 ≤ now.val - horizon ∧ now.val - horizon ≤ maxMicros then
      .ok (max cursor ⟨(now.val - horizon).toNat, Int.toNat_le.mpr h.2⟩)
    else .error .overflow

/-- What the policy takes of the due slots. -/
def chosen (policy : CatchupPolicy) (maxCatchupJobs : Nat) (cursor : Time) (slots : List Time) :
    ScheduleMaterialization :=
  match slots.getLast? with
  | none => ⟨[], some cursor, 0⟩
  | some last =>
    match policy with
    | .latestOnly => ⟨[last], some last, slots.length - 1⟩
    | .allSlots => ⟨slots, some last, 0⟩
    | _ =>
      let selected := slots.take maxCatchupJobs
      ⟨selected, selected.getLast?, slots.length - selected.length⟩

/-- `materialize_due_slots` with a cursor, for any recurrence. -/
def materialize (next : Time → Except StoreError Time) (policy : CatchupPolicy) (maxCatchupJobs : Nat)
    (maxCatchupHorizon : Option Int) (cursorAt now : Time) :
    Except StoreError ScheduleMaterialization := do
  require (1 ≤ maxCatchupJobs) (.job "max_catchup_jobs must be positive")
  if policy = .manual then .ok ⟨[], some cursorAt, 0⟩
  else
    let start ← startOf cursorAt now maxCatchupHorizon
    let first ← next start
    let slots ← upTo next (.job "schedule materialization exceeded safety limit") now 100000 first
    .ok (chosen policy maxCatchupJobs cursorAt slots)

theorem upTo_eq_dueSlots (r : Recurrence) (now candidate : Time) (fuel : Nat) :
    upTo r.nextAfter (.job "schedule materialization exceeded safety limit") now fuel candidate =
      dueSlots r now fuel candidate := by
  induction fuel generalizing candidate with
  | zero =>
    unfold upTo dueSlots
    rfl
  | succ fuel ih =>
    unfold upTo dueSlots
    by_cases hlt : now < candidate
    · rw [if_pos hlt, if_pos hlt]
    · rw [if_neg hlt, if_neg hlt]
      simp only [ih]

theorem startOf_natCast (cursor now : Time) (horizon : Option Nat) :
    startOf cursor now (horizon.map Int.ofNat) = horizonCursor cursor now horizon := by
  cases horizon with
  | none => rfl
  | some horizon =>
    have hnow := now.property
    simp only [startOf, horizonCursor, Option.map_some, Int.ofNat_eq_natCast]
    by_cases hle : horizon ≤ now.val
    · rw [dif_pos (by omega), if_pos hle]
      refine congrArg (fun t => Except.ok (max cursor t)) (Subtype.ext ?_)
      show ((now.val : Int) - horizon).toNat = now.val - horizon
      omega
    · rw [dif_neg (by omega), if_neg hle]

/-- The scheduler's call is the one for the recurrence of its schedule. -/
theorem materializeDueSlots_eq (r : Recurrence) (cursor now : Time) (policy : CatchupPolicy)
    (maxJobs : Nat) (horizon : Option Nat) :
    materializeDueSlots r cursor now policy maxJobs horizon =
      materialize r.nextAfter policy maxJobs (horizon.map Int.ofNat) cursor now := by
  rw [materializeDueSlots, materialize, startOf_natCast]
  refine bind_congr fun _ => ?_
  by_cases hmanual : policy = .manual
  · rw [if_pos hmanual, if_pos hmanual]
  · rw [if_neg hmanual, if_neg hmanual]
    refine bind_congr fun start => bind_congr fun first => ?_
    rw [upTo_eq_dueSlots]
    refine bind_congr fun slots => ?_
    unfold chosen
    cases slots.getLast? with
    | none => rfl
    | some last => cases policy <;> rfl

variable {next : Time → Except StoreError Time} {marked : Time → Prop} {policy : CatchupPolicy}
  {maxJobs : Nat} {horizon : Option Int} {cursor now t : Time} {slots : List Time}
  {due : ScheduleMaterialization}

/-- The instant is later than the horizon of a call. -/
def Inside (horizon : Option Int) (now t : Time) : Prop := ∀ h ∈ horizon, (now.val : Int) - h < t.val

/-- What a later call has inside its horizon, an earlier one had. -/
theorem Inside.earlier {now' : Time} (h : Inside horizon now' t) (hle : now ≤ now') :
    Inside horizon now t := by
  intro d hd
  have := h d hd
  have : now.val ≤ now'.val := hle
  omega

theorem startOf_lt_iff {start : Time} (h : startOf cursor now horizon = .ok start) :
    start < t ↔ cursor < t ∧ Inside horizon now t := by
  cases horizon with
  | none =>
    obtain rfl := Except.ok.inj h
    simp [Inside]
  | some d =>
    simp only [startOf] at h
    split at h
    · obtain rfl := Except.ok.inj h
      simp only [Inside, Option.mem_some_iff, forall_eq', max_lt_iff]
      refine and_congr_right fun _ => ?_
      show ((now.val : Int) - d).toNat < t.val ↔ _
      omega
    · exact nomatch h

/-- A call that returns has chosen from its due slots. -/
theorem materialize_ok (hnext : Enumerates next marked)
    (h : materialize next policy maxJobs horizon cursor now = .ok due) :
    policy = .manual ∧ due = ⟨[], some cursor, 0⟩ ∨ policy ≠ .manual ∧ 1 ≤ maxJobs ∧
      ∃ start slots, (∀ t, start < t ↔ cursor < t ∧ Inside horizon now t) ∧
        Lists marked start now slots ∧ due = chosen policy maxJobs cursor slots := by
  simp only [materialize, bind_ok, require_ok] at h
  obtain ⟨-, hpos, h⟩ := h
  split at h
  · next hmanual => exact Or.inl ⟨hmanual, (Except.ok.inj h).symm⟩
  · next hmanual =>
    simp only [bind_ok, Except.ok.injEq] at h
    obtain ⟨start, hstart, first, hfirst, slots, hslots, rfl⟩ := h
    refine Or.inr ⟨hmanual, hpos, start, slots, fun t => startOf_lt_iff hstart, ?_, rfl⟩
    exact upTo_lists hnext (hnext _ _ hfirst) hslots

/-- What is due at a call: the slots after its cursor, inside the horizon and not in the future. -/
def DueAt (marked : Time → Prop) (horizon : Option Int) (cursor now t : Time) : Prop :=
  marked t ∧ cursor < t ∧ Inside horizon now t ∧ t ≤ now

/-- The due slots, and what was chosen of them. -/
structure MaterializeCall (marked : Time → Prop) (policy : CatchupPolicy) (maxJobs : Nat)
    (horizon : Option Int) (cursor now : Time) (slots : List Time)
    (due : ScheduleMaterialization) : Prop where
  positive : 1 ≤ maxJobs
  sorted : slots.Pairwise (· < ·)
  mem_iff : ∀ t, t ∈ slots ↔ DueAt marked horizon cursor now t
  chosen_eq : due = chosen policy maxJobs cursor slots

/-- The cursor that the next call gets. -/
def cursorAfter (cursor : Time) (due : ScheduleMaterialization) : Time :=
  due.nextCursorAt.getD cursor

theorem call_of_ok (hnext : Enumerates next marked) (hmanual : policy ≠ .manual)
    (h : materialize next policy maxJobs horizon cursor now = .ok due) :
    ∃ slots, MaterializeCall marked policy maxJobs horizon cursor now slots due := by
  rcases materialize_ok hnext h with ⟨hm, -⟩ | ⟨-, hpos, start, slots, hstart, hlists, rfl⟩
  · exact absurd hm hmanual
  · refine ⟨slots, hpos, hlists.sorted, fun t => ?_, rfl⟩
    rw [hlists.mem_iff, hstart, DueAt]
    tauto

namespace MaterializeCall

/-- The chosen slots are the first ones up to the new cursor, or the last one only. -/
theorem cases (h : MaterializeCall marked policy maxJobs horizon cursor now slots due)
    (hmanual : policy ≠ .manual) :
    slots = [] ∧ due.slots = [] ∧ due.skippedSlots = 0 ∧ cursorAfter cursor due = cursor ∨
    ∃ last, due.slots.getLast? = some last ∧ cursorAfter cursor due = last ∧
      (policy = .latestOnly ∧ due.slots = [last] ∧ slots.getLast? = some last ∧
          due.skippedSlots = slots.length - 1 ∨
        policy = .allSlots ∧ due.slots = slots ∨
        policy = .windowed ∧ due.slots = slots.take maxJobs) := by
  obtain ⟨hpos, -, -, rfl⟩ := h
  unfold chosen cursorAfter
  cases hlast : slots.getLast? with
  | none => exact Or.inl ⟨List.getLast?_eq_none_iff.mp hlast, rfl, rfl, rfl⟩
  | some last =>
    right
    cases policy with
    | latestOnly => exact ⟨last, rfl, rfl, Or.inl ⟨rfl, rfl, rfl, rfl⟩⟩
    | allSlots => exact ⟨last, hlast, rfl, Or.inr (Or.inl ⟨rfl, rfl⟩)⟩
    | manual => exact absurd rfl hmanual
    | windowed =>
      have hne : slots.take maxJobs ≠ [] := by
        intro hnil
        rcases List.take_eq_nil_iff.mp hnil with hzero | hnil
        · omega
        · rw [hnil] at hlast
          exact nomatch hlast
      refine ⟨_, List.getLast?_eq_some_getLast hne, ?_, Or.inr (Or.inr ⟨rfl, rfl⟩)⟩
      show ((slots.take maxJobs).getLast?).getD cursor = _
      rw [List.getLast?_eq_some_getLast hne, Option.getD_some]

/-- The chosen slots are due ones, in order. -/
theorem sublist (h : MaterializeCall marked policy maxJobs horizon cursor now slots due)
    (hmanual : policy ≠ .manual) : due.slots.Sublist slots := by
  rcases h.cases hmanual with ⟨-, hnil, -⟩ | ⟨last, -, -, ⟨-, hone, hlast, -⟩ | ⟨-, hall⟩ | ⟨-, hwindow⟩⟩
  · exact hnil ▸ List.nil_sublist _
  · exact hone ▸ List.singleton_sublist.mpr (List.mem_of_getLast? hlast)
  · exact hall ▸ List.Sublist.refl _
  · exact hwindow ▸ List.take_sublist _ _

theorem chosen_due (h : MaterializeCall marked policy maxJobs horizon cursor now slots due)
    (hmanual : policy ≠ .manual) (ht : t ∈ due.slots) : DueAt marked horizon cursor now t :=
  (h.mem_iff t).mp ((h.sublist hmanual).subset ht)

/-- The new cursor is the last chosen slot. -/
theorem le_cursorAfter (h : MaterializeCall marked policy maxJobs horizon cursor now slots due)
    (hmanual : policy ≠ .manual) :
    cursor ≤ cursorAfter cursor due ∧ ∀ t ∈ due.slots, t ≤ cursorAfter cursor due := by
  rcases h.cases hmanual with ⟨-, hnil, -, hcursor⟩ | ⟨last, hlast, hcursor, -⟩
  · exact ⟨hcursor.ge, fun t ht => by rw [hnil] at ht; exact nomatch ht⟩
  · rw [hcursor]
    refine ⟨(h.chosen_due hmanual (List.mem_of_getLast? hlast)).2.1.le, fun t ht => ?_⟩
    have hsorted := h.sorted.sublist (h.sublist hmanual)
    obtain ⟨before, hbefore⟩ := List.getLast?_eq_some_iff.mp hlast
    rw [hbefore] at ht hsorted
    rcases List.mem_append.mp ht with ht | ht
    · exact ((List.pairwise_append.mp hsorted).2.2 t ht last (List.mem_singleton_self last)).le
    · exact (List.mem_singleton.mp ht).le

/-- Except under `latest_only`, no due slot up to the new cursor is left out. -/
theorem mem_of_le (h : MaterializeCall marked policy maxJobs horizon cursor now slots due)
    (hmanual : policy ≠ .manual) (hlatest : policy ≠ .latestOnly)
    (ht : DueAt marked horizon cursor now t) (hle : t ≤ cursorAfter cursor due) : t ∈ due.slots := by
  have hmem := (h.mem_iff t).mpr ht
  rcases h.cases hmanual with ⟨hnil, -⟩ | ⟨last, hlast, hcursor, ⟨hl, -⟩ | ⟨-, hall⟩ | ⟨-, hwindow⟩⟩
  · rw [hnil] at hmem
    exact nomatch hmem
  · exact absurd hl hlatest
  · exact hall ▸ hmem
  · -- a slot after the window is later than its last one
    rw [hwindow]
    have hsorted := h.sorted
    rw [← List.take_append_drop maxJobs slots] at hmem hsorted
    rcases List.mem_append.mp hmem with hmem | hmem
    · exact hmem
    · have hlt := (List.pairwise_append.mp hsorted).2.2 last
        (hwindow ▸ List.mem_of_getLast? hlast) t hmem
      exact absurd (hcursor ▸ hle) (not_le.mpr hlt)

/-- Under `all_slots` nothing is left out. -/
theorem mem_of_all (h : MaterializeCall marked .allSlots maxJobs horizon cursor now slots due)
    (ht : DueAt marked horizon cursor now t) : t ∈ due.slots := by
  have hmem := (h.mem_iff t).mpr ht
  rcases h.cases nofun with ⟨hnil, -⟩ | ⟨last, -, -, ⟨hl, -⟩ | ⟨-, hall⟩ | ⟨hw, -⟩⟩
  · rw [hnil] at hmem
    exact nomatch hmem
  · exact nomatch hl
  · exact hall ▸ hmem
  · exact nomatch hw

theorem cursorAfter_le (h : MaterializeCall marked policy maxJobs horizon cursor now slots due)
    (hmanual : policy ≠ .manual) : cursorAfter cursor due = cursor ∨ cursorAfter cursor due ≤ now := by
  rcases h.cases hmanual with ⟨-, -, -, hcursor⟩ | ⟨last, hlast, hcursor, -⟩
  · exact Or.inl hcursor
  · exact Or.inr (hcursor ▸ (h.chosen_due hmanual (List.mem_of_getLast? hlast)).2.2.2)

end MaterializeCall

/-! ## A sequence of calls -/

/-- A call with its cursor and its clock. -/
structure SlotTick where
  cursor : Time
  now : Time
  due : ScheduleMaterialization

/-- Each call gets the cursor that the last one returned. -/
def runTicks (call : Time → Time → Except StoreError ScheduleMaterialization) :
    Time → List Time → Except StoreError (List SlotTick)
  | _, [] => .ok []
  | cursor, now :: ticks => do
    let due ← call cursor now
    let rest ← runTicks call (cursorAfter cursor due) ticks
    .ok (⟨cursor, now, due⟩ :: rest)

/-- The slots of all ticks together. -/
def returned (run : List SlotTick) : List Time := run.flatMap fun tick => tick.due.slots

variable {ticks : List Time} {run before after : List SlotTick} {tick : SlotTick}

@[simp] theorem returned_nil : returned [] = [] := rfl

@[simp] theorem returned_cons : returned (tick :: run) = tick.due.slots ++ returned run := rfl

@[simp] theorem returned_append : returned (before ++ after) = returned before ++ returned after :=
  List.flatMap_append

/-- What the calls of a run satisfy. -/
inductive Runs (marked : Time → Prop) (policy : CatchupPolicy) (maxJobs : Nat) (horizon : Option Int) :
    Time → List Time → List SlotTick → Prop
  | nil {cursor : Time} : Runs marked policy maxJobs horizon cursor [] []
  | cons {cursor now : Time} {ticks : List Time} {due : ScheduleMaterialization} {slots : List Time}
      {run : List SlotTick}
      (call : MaterializeCall marked policy maxJobs horizon cursor now slots due)
      (rest : Runs marked policy maxJobs horizon (cursorAfter cursor due) ticks run) :
      Runs marked policy maxJobs horizon cursor (now :: ticks) (⟨cursor, now, due⟩ :: run)

theorem runs_of_ok (hnext : Enumerates next marked) (hmanual : policy ≠ .manual)
    (h : runTicks (materialize next policy maxJobs horizon) cursor ticks = .ok run) :
    Runs marked policy maxJobs horizon cursor ticks run := by
  induction ticks generalizing cursor run with
  | nil =>
    cases h
    exact .nil
  | cons now ticks ih =>
    simp only [runTicks, bind_ok, Except.ok.injEq] at h
    obtain ⟨due, hdue, rest, hrest, rfl⟩ := h
    obtain ⟨slots, hcall⟩ := call_of_ok hnext hmanual hdue
    exact .cons hcall (ih hrest)

theorem returned_manual
    (h : runTicks (materialize next .manual maxJobs horizon) cursor ticks = .ok run) :
    returned run = [] := by
  induction ticks generalizing cursor run with
  | nil =>
    cases h
    rfl
  | cons now ticks ih =>
    simp only [runTicks, materialize, bind_ok, if_true, Except.ok.injEq] at h
    obtain ⟨due, ⟨-, -, rfl⟩, rest, hrest, rfl⟩ := h
    rw [returned_cons, ih hrest]
    rfl

namespace Runs

variable (hr : Runs marked policy maxJobs horizon cursor ticks run) (hmanual : policy ≠ .manual)

include hr hmanual

/-- Every slot is returned by a tick that has it inside its horizon. -/
theorem returned_due (ht : t ∈ returned run) :
    marked t ∧ cursor < t ∧ ∃ now ∈ ticks, Inside horizon now t ∧ t ≤ now := by
  induction hr with
  | nil => exact nomatch ht
  | cons call rest ih =>
    rcases List.mem_append.mp ht with ht | ht
    · obtain ⟨hmarked, hlt, hinside, hle⟩ := call.chosen_due hmanual ht
      exact ⟨hmarked, hlt, _, List.mem_cons_self, hinside, hle⟩
    · obtain ⟨hmarked, hlt, now, hnow, hrest⟩ := ih ht
      exact ⟨hmarked, (call.le_cursorAfter hmanual).1.trans_lt hlt, now,
        List.mem_cons_of_mem _ hnow, hrest⟩

theorem returned_sorted : (returned run).Pairwise (· < ·) := by
  induction hr with
  | nil => exact .nil
  | cons call rest ih =>
    refine List.pairwise_append.mpr ⟨call.sorted.sublist (call.sublist hmanual), ih, ?_⟩
    intro a ha b hb
    exact ((call.le_cursorAfter hmanual).2 a ha).trans_lt (rest.returned_due hmanual hb).2.1

theorem le_cursor (ht : tick ∈ run) : cursor ≤ tick.cursor := by
  induction hr with
  | nil => exact nomatch ht
  | cons call rest ih =>
    rcases List.mem_cons.mp ht with rfl | ht
    · exact le_rfl
    · exact (call.le_cursorAfter hmanual).1.trans (ih ht)

omit hmanual in
theorem now_mem (ht : tick ∈ run) : tick.now ∈ ticks := by
  induction hr with
  | nil => exact nomatch ht
  | cons call rest ih =>
    rcases List.mem_cons.mp ht with rfl | ht
    · exact List.mem_cons_self
    · exact List.mem_cons_of_mem _ (ih ht)

omit hmanual in
theorem exists_tick (ht : now ∈ ticks) : ∃ tick ∈ run, tick.now = now := by
  induction hr with
  | nil => exact nomatch ht
  | cons call rest ih =>
    rcases List.mem_cons.mp ht with rfl | ht
    · exact ⟨_, List.mem_cons_self, rfl⟩
    · obtain ⟨tick, htick, hnow⟩ := ih ht
      exact ⟨tick, List.mem_cons_of_mem _ htick, hnow⟩

omit hmanual in
theorem call_of_mem (ht : tick ∈ run) :
    ∃ slots, MaterializeCall marked policy maxJobs horizon tick.cursor tick.now slots tick.due := by
  induction hr with
  | nil => exact nomatch ht
  | cons call rest ih =>
    rcases List.mem_cons.mp ht with rfl | ht
    · exact ⟨_, call⟩
    · exact ih ht

/-- What a tick has inside its horizon was returned before exactly if the cursor has passed it. -/
theorem returned_before_iff (hlatest : policy ≠ .latestOnly) (hticks : ticks.Pairwise (· ≤ ·))
    (hrun : run = before ++ tick :: after) (hmarked : marked t) (hlt : cursor < t)
    (hinside : Inside horizon tick.now t) : t ∈ returned before ↔ t ≤ tick.cursor := by
  induction hr generalizing before with
  | nil => simp at hrun
  | @cons cursor now ticks due slots run call rest ih =>
    cases before with
    | nil =>
      obtain ⟨rfl, -⟩ := List.cons.inj hrun
      exact iff_of_false (fun ht => nomatch ht) (not_le.mpr hlt)
    | cons first before =>
      obtain ⟨rfl, hrest⟩ := List.cons.inj hrun
      obtain ⟨hnow, hticks⟩ := List.pairwise_cons.mp hticks
      have htick : tick ∈ run := by
        rw [hrest]
        exact List.mem_append_right _ List.mem_cons_self
      rw [returned_cons, List.mem_append]
      by_cases hle : t ≤ cursorAfter cursor due
      · -- the first call has returned it
        have hdue : DueAt marked horizon cursor now t := by
          refine ⟨hmarked, hlt, hinside.earlier (hnow _ (rest.now_mem htick)), ?_⟩
          rcases call.cursorAfter_le hmanual with hcursor | hcursor
          · exact absurd (hcursor ▸ hle) (not_le.mpr hlt)
          · exact hle.trans hcursor
        exact iff_of_true (Or.inl (call.mem_of_le hmanual hlatest hdue hle))
          (hle.trans (rest.le_cursor hmanual htick))
      · have hnot : t ∉ due.slots := fun ht => hle ((call.le_cursorAfter hmanual).2 t ht)
        rw [or_iff_right hnot]
        exact ih hticks hrest (not_le.mp hle)

end Runs

/-! ## What all ticks return -/

/-- The first slot of a call, under `windowed`, and how many there are. -/
def Resumes (marked : Time → Prop) (maxJobs : Nat) (horizon : Option Int) (cursor : Time)
    (before : List SlotTick) (tick : SlotTick) : Prop :=
  tick.due.slots.length ≤ maxJobs ∧ ∀ first, tick.due.slots.head? = some first ↔
    IsLeast {t | marked t ∧ cursor < t ∧ t ∉ returned before ∧ Inside horizon tick.now t ∧
      t ≤ tick.now} first

/-- What is due at a tick, the slot that is returned for all of them, and how many there are. -/
def TakesLatest (marked : Time → Prop) (horizon : Option Int) (tick : SlotTick) : Prop :=
  (∀ t, t ∈ tick.due.slots ↔ IsGreatest {u | DueAt marked horizon tick.cursor tick.now u} t) ∧
    tick.due.slots.length + tick.due.skippedSlots =
      {u | DueAt marked horizon tick.cursor tick.now u}.ncard

/-- Nothing is lost or repeated by the ticks up to `last`. -/
structure CatchesUp (marked : Time → Prop) (policy : CatchupPolicy) (maxJobs : Nat)
    (horizon : Option Int) (cursor last : Time) (run : List SlotTick) : Prop where
  increasing : (returned run).Pairwise (· < ·)
  within : ∀ t ∈ returned run, cursor < t ∧ t ≤ last
  all : policy = .allSlots → ∀ t, t ∈ returned run ↔ marked t ∧ cursor < t ∧ t ≤ last
  window : policy = .windowed → ∀ before tick after, run = before ++ tick :: after →
    Resumes marked maxJobs horizon cursor before tick
  latest : policy = .latestOnly → ∀ tick ∈ run, TakesLatest marked horizon tick

/-- Every slot has a tick, not before it, that still has it inside its horizon. -/
def SlotsCovered (marked : Time → Prop) (horizon : Option Int) (cursor last : Time)
    (ticks : List Time) : Prop :=
  ∀ t, marked t → cursor < t → t ≤ last → ∃ now ∈ ticks, Inside horizon now t ∧ t ≤ now

namespace Runs

/-- Under `all_slots` the slots that some tick has inside its horizon are returned. -/
theorem mem_returned_iff (hr : Runs marked .allSlots maxJobs horizon cursor ticks run)
    (hticks : ticks.Pairwise (· ≤ ·)) :
    t ∈ returned run ↔ marked t ∧ cursor < t ∧ ∃ now ∈ ticks, Inside horizon now t ∧ t ≤ now := by
  refine ⟨hr.returned_due nofun, ?_⟩
  rintro ⟨hmarked, hlt, now, hnow, hinside, hle⟩
  obtain ⟨tick, htick, rfl⟩ := hr.exists_tick hnow
  obtain ⟨before, after, hrun⟩ := List.append_of_mem htick
  obtain ⟨slots, call⟩ := hr.call_of_mem htick
  rw [hrun, returned_append, returned_cons, List.mem_append, List.mem_append]
  by_cases hcursor : t ≤ tick.cursor
  · exact Or.inl ((hr.returned_before_iff nofun nofun hticks hrun hmarked hlt hinside).mpr hcursor)
  · exact Or.inr (Or.inl (call.mem_of_all ⟨hmarked, not_le.mp hcursor, hinside, hle⟩))

theorem resumes (hr : Runs marked .windowed maxJobs horizon cursor ticks run)
    (hticks : ticks.Pairwise (· ≤ ·)) (hrun : run = before ++ tick :: after) :
    Resumes marked maxJobs horizon cursor before tick := by
  have htick : tick ∈ run := by
    rw [hrun]
    exact List.mem_append_right _ List.mem_cons_self
  obtain ⟨slots, call⟩ := hr.call_of_mem htick
  -- what the earlier calls have not returned is what is after this call's cursor
  have hset : {t | marked t ∧ cursor < t ∧ t ∉ returned before ∧ Inside horizon tick.now t ∧
      t ≤ tick.now} = {t | t ∈ slots} := by
    ext t
    simp only [Set.mem_ofPred_eq, call.mem_iff, DueAt]
    constructor
    · rintro ⟨hmarked, hlt, hnot, hinside, hle⟩
      rw [hr.returned_before_iff nofun nofun hticks hrun hmarked hlt hinside] at hnot
      exact ⟨hmarked, not_le.mp hnot, hinside, hle⟩
    · rintro ⟨hmarked, hlt, hinside, hle⟩
      have hafter := (hr.le_cursor nofun htick).trans_lt hlt
      refine ⟨hmarked, hafter, ?_, hinside, hle⟩
      rw [hr.returned_before_iff nofun nofun hticks hrun hmarked hafter hinside]
      exact not_le.mpr hlt
  have hslots : tick.due.slots = slots.take maxJobs := by
    rcases call.cases nofun with ⟨hnil, hslots, -⟩ | ⟨last, -, -, ⟨hl, -⟩ | ⟨ha, -⟩ | ⟨-, hwindow⟩⟩
    · rw [hslots, hnil, List.take_nil]
    · exact nomatch hl
    · exact nomatch ha
    · exact hwindow
  refine ⟨hslots ▸ List.length_take_le _ _, fun first => ?_⟩
  rw [hset, hslots, List.head?_take, if_neg (Nat.pos_iff_ne_zero.mp call.positive)]
  exact head?_eq_iff_isLeast call.sorted

theorem takesLatest (hr : Runs marked .latestOnly maxJobs horizon cursor ticks run)
    (htick : tick ∈ run) : TakesLatest marked horizon tick := by
  obtain ⟨slots, call⟩ := hr.call_of_mem htick
  have hset : {u | DueAt marked horizon tick.cursor tick.now u} = {u | u ∈ slots} :=
    Set.ext fun u => (call.mem_iff u).symm
  have hcard : {u | u ∈ slots}.ncard = slots.length := ncard_of_increasing call.sorted
  rw [TakesLatest, hset, hcard]
  rcases call.cases nofun with ⟨hnil, hslots, hskipped, -⟩ |
    ⟨last, -, -, ⟨-, hone, hlast, hskipped⟩ | ⟨ha, -⟩ | ⟨hw, -⟩⟩
  · rw [hnil, hslots, hskipped]
    exact ⟨fun t => iff_of_false (fun ht => nomatch ht) (fun ht => nomatch ht.1), rfl⟩
  · rw [hone, hskipped]
    refine ⟨fun t => ?_, ?_⟩
    · rw [List.mem_singleton, ← getLast?_eq_iff_isGreatest call.sorted, hlast, Option.some_inj]
      exact eq_comm
    · have hpos := List.length_pos_of_mem (List.mem_of_getLast? hlast)
      rw [List.length_singleton]
      omega
  · exact nomatch ha
  · exact nomatch hw

end Runs

/-- The ticks lose and repeat nothing exactly if, under `all_slots`, some tick sees each slot inside its
horizon. -/
theorem catchesUp_iff {earlier : List Time} {last : Time} (hnext : Enumerates next marked)
    (hticks : (earlier ++ [last]).Pairwise (· ≤ ·))
    (h : runTicks (materialize next policy maxJobs horizon) cursor (earlier ++ [last]) = .ok run) :
    CatchesUp marked policy maxJobs horizon cursor last run ↔
      (policy = .allSlots → SlotsCovered marked horizon cursor last (earlier ++ [last])) := by
  have hlast : ∀ now ∈ earlier ++ [last], now ≤ last := by
    intro now hnow
    rcases List.mem_append.mp hnow with hnow | hnow
    · exact (List.pairwise_append.mp hticks).2.2 now hnow last (List.mem_singleton_self last)
    · exact (List.mem_singleton.mp hnow).le
  by_cases hmanual : policy = .manual
  · subst hmanual
    have hnil := returned_manual h
    refine iff_of_true ⟨?_, ?_, nofun, nofun, nofun⟩ nofun
    · rw [hnil]
      exact .nil
    · rw [hnil]
      exact fun t ht => nomatch ht
  · have hr := runs_of_ok hnext hmanual h
    constructor
    · rintro hcatches rfl t hmarked hlt hle
      exact (hr.returned_due hmanual ((hcatches.all rfl t).mpr ⟨hmarked, hlt, hle⟩)).2.2
    · intro hcovered
      refine ⟨hr.returned_sorted hmanual, ?_, ?_, ?_, ?_⟩
      · intro t ht
        obtain ⟨-, hlt, now, hnow, -, hle⟩ := hr.returned_due hmanual ht
        exact ⟨hlt, hle.trans (hlast now hnow)⟩
      · rintro rfl t
        rw [hr.mem_returned_iff hticks]
        constructor
        · rintro ⟨hmarked, hlt, now, hnow, -, hle⟩
          exact ⟨hmarked, hlt, hle.trans (hlast now hnow)⟩
        · rintro ⟨hmarked, hlt, hle⟩
          exact ⟨hmarked, hlt, hcovered rfl t hmarked hlt hle⟩
      · rintro rfl before tick after hrun
        exact hr.resumes hticks hrun
      · rintro rfl tick htick
        exact hr.takesLatest htick

/-- Without a horizon the last tick has every slot. -/
theorem covered_none {earlier : List Time} {last : Time} :
    SlotsCovered marked none cursor last (earlier ++ [last]) := by
  intro t _ _ hle
  exact ⟨last, List.mem_append_right _ (List.mem_singleton_self last), nofun, hle⟩

/-- The recurrences of the scheduler are such. -/
theorem enumerates_nextAfter {r : Recurrence} (hvalid : r.Valid) (hzone : r.ZoneLawful) :
    Enumerates r.nextAfter fun t => r.IsScheduled t := by
  intro v t ht
  have hfound := Recurrence.nextAfter_found hvalid hzone v
  rw [ht] at hfound
  exact hfound

namespace Sample

/-- An instant of 29 March 2026. -/
def secondOfDay (n : Nat) : Time := Time.ofMicros (739703 * dayMicros + n * Time.second)

/-- A slot each second. -/
def everySecond : Recurrence := .interval (secondOfDay 0) Time.second (by decide)

/-- The calls for its schedule. -/
def catchUp (horizon : Option Int) :
    Time → Time → Except StoreError ScheduleMaterialization :=
  materialize everySecond.nextAfter .allSlots 1 horizon

theorem enumerates_everySecond : Enumerates everySecond.nextAfter fun t => everySecond.IsScheduled t :=
  enumerates_nextAfter trivial trivial

/-- A call with a horizon of five seconds, five seconds after the last. -/
def fiveSeconds (cursor now : Nat) (slots : List Nat) : SlotTick :=
  ⟨secondOfDay cursor, secondOfDay now, ⟨slots.map secondOfDay, some (secondOfDay now), 0⟩⟩

theorem secondOfDay_val : ∃ day, ∀ n ≤ 86400, (secondOfDay n).val = day + n * 1000000 := by
  refine ⟨739703 * dayMicros, fun n h => min_eq_left ?_⟩
  simp only [dayMicros, maxMicros, Time.second]
  omega

end Sample

open Sample in
/-- With a tick each five seconds nothing is lost. -/
theorem catchesUp_iff_everySecond :
    CatchesUp (fun t => everySecond.IsScheduled t) .allSlots 1 (some 5000000) (secondOfDay 0)
      (secondOfDay 10) [fiveSeconds 0 5 [1, 2, 3, 4, 5], fiveSeconds 5 10 [6, 7, 8, 9, 10]] := by
  have hticks : ([secondOfDay 5] ++ [secondOfDay 10]).Pairwise (· ≤ ·) := by decide
  have hrun : runTicks (catchUp (some 5000000)) (secondOfDay 0) ([secondOfDay 5] ++ [secondOfDay 10]) =
      .ok [fiveSeconds 0 5 [1, 2, 3, 4, 5], fiveSeconds 5 10 [6, 7, 8, 9, 10]] := rfl
  refine (catchesUp_iff enumerates_everySecond hticks hrun).mpr fun _ t _ hafter hle => ?_
  have inside : ∀ n, (secondOfDay n).val < t.val + 5000000 →
      Inside (some 5000000) (secondOfDay n) t := by
    intro n hlt d hd
    obtain rfl := Option.mem_some_iff.mp hd
    omega
  obtain ⟨day, hval⟩ := secondOfDay_val
  have hafter : (secondOfDay 0).val < t.val := hafter
  by_cases hfive : t ≤ secondOfDay 5
  · refine ⟨secondOfDay 5, List.mem_cons_self, inside 5 ?_, hfive⟩
    rw [hval _ (by decide)] at hafter ⊢
    omega
  · refine ⟨secondOfDay 10, by simp, inside 10 ?_, hle⟩
    have hfive : (secondOfDay 5).val < t.val := not_le.mp hfive
    rw [hval _ (by decide)] at hfive ⊢
    omega

open Sample in
/-- A tick ten seconds after the cursor, with a horizon of five, loses the slot of the first second. -/
theorem not_catchesUp : ¬ ∀ (next : Time → Except StoreError Time) (marked : Time → Prop)
    (policy : CatchupPolicy) (maxJobs : Nat) (horizon : Option Int) (cursor last : Time)
    (earlier : List Time) (run : List SlotTick), Enumerates next marked →
    (earlier ++ [last]).Pairwise (· ≤ ·) →
    runTicks (materialize next policy maxJobs horizon) cursor (earlier ++ [last]) = .ok run →
    CatchesUp marked policy maxJobs horizon cursor last run := by
  intro hall
  have hrun : runTicks (catchUp (some 5000000)) (secondOfDay 0) ([] ++ [secondOfDay 10]) =
      .ok [fiveSeconds 0 10 [6, 7, 8, 9, 10]] := rfl
  have hcatches := hall _ _ _ _ _ _ _ _ _ enumerates_everySecond (List.pairwise_singleton _ _) hrun
  have hlost : secondOfDay 1 ∉ [secondOfDay 6, secondOfDay 7, secondOfDay 8, secondOfDay 9,
      secondOfDay 10] := by
    decide
  exact hlost ((hcatches.all rfl (secondOfDay 1)).mpr ⟨⟨1, rfl⟩, by decide, by decide⟩)

end NanFung
