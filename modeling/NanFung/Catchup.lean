import NanFung.Recurrence

/-!
# What is due

Facts about `materialize_due_slots`: it returns slots of the recurrence between the cursor and the
clock, the cursor it proposes is not behind, and from there nothing more is due at the same time,
unless a window has cut the slots off.
-/

namespace NanFung

namespace Recurrence

variable {r : Recurrence} {now candidate : Time} {fuel : Nat} {slots : List Time}

theorem dueSlots_of_lt (h : now < candidate) : dueSlots r now fuel candidate = .ok [] := by
  unfold dueSlots
  rw [if_pos h]

/-- Unless the first candidate is in the future, it is the first slot. -/
theorem dueSlots_cons (h : dueSlots r now fuel candidate = .ok slots) (hle : candidate ≤ now) :
    ∃ fuel' next rest, r.nextAfter candidate = .ok next ∧ dueSlots r now fuel' next = .ok rest ∧
      slots = candidate :: rest := by
  unfold dueSlots at h
  rw [if_neg (not_lt.mpr hle)] at h
  cases fuel with
  | zero => exact nomatch h
  | succ fuel =>
    simp only [bind_ok, Except.ok.injEq] at h
    obtain ⟨next, hnext, rest, hrest, rfl⟩ := h
    exact ⟨fuel, next, rest, hnext, hrest, rfl⟩

theorem dueSlots_spec (h : dueSlots r now fuel candidate = .ok slots) (hslot : r.IsSlot candidate) :
    ∀ t ∈ slots, r.IsSlot t ∧ candidate ≤ t ∧ t ≤ now := by
  induction slots generalizing fuel candidate with
  | nil => exact fun t ht => nomatch ht
  | cons t slots ih =>
    have hle : candidate ≤ now := by
      by_contra hlt
      rw [dueSlots_of_lt (not_le.mp hlt)] at h
      exact nomatch h
    obtain ⟨fuel', next, rest, hnext, hrest, heq⟩ := dueSlots_cons h hle
    obtain ⟨rfl, rfl⟩ := List.cons.inj heq
    intro u hu
    rcases List.mem_cons.mp hu with rfl | hu
    · exact ⟨hslot, le_rfl, hle⟩
    · obtain ⟨hu, hnextu, hnow⟩ := ih hrest ⟨t, hnext⟩ u hu
      exact ⟨hu, (lt_of_nextAfter hnext).le.trans hnextu, hnow⟩

/-- The slot after the last one that is due is in the future. -/
theorem dueSlots_getLast {last : Time} (h : dueSlots r now fuel candidate = .ok slots)
    (hlast : slots.getLast? = some last) : ∃ next, r.nextAfter last = .ok next ∧ now < next := by
  induction slots generalizing fuel candidate with
  | nil => exact nomatch hlast
  | cons t slots ih =>
    have hle : candidate ≤ now := by
      by_contra hlt
      rw [dueSlots_of_lt (not_le.mp hlt)] at h
      exact nomatch h
    obtain ⟨fuel', next, rest, hnext, hrest, heq⟩ := dueSlots_cons h hle
    obtain ⟨rfl, rfl⟩ := List.cons.inj heq
    cases slots with
    | nil =>
      obtain rfl : t = last := Option.some.inj hlast
      refine ⟨next, hnext, ?_⟩
      by_contra hlt
      obtain ⟨_, _, _, -, -, hnil⟩ := dueSlots_cons hrest (not_lt.mp hlt)
      exact nomatch hnil
    | cons u slots => exact ih hrest hlast

end Recurrence

open Recurrence

variable {r : Recurrence} {cursor now : Time} {policy : CatchupPolicy} {maxJobs : Nat}
  {horizon : Option Nat} {due due' : ScheduleMaterialization}

theorem le_horizonCursor {c : Time} (h : horizonCursor cursor now horizon = .ok c) : cursor ≤ c := by
  cases horizon with
  | none => exact (Except.ok.inj h).le
  | some seconds =>
    simp only [horizonCursor] at h
    split at h
    · exact (le_max_left _ _).trans (Except.ok.inj h).le
    · exact nomatch h

/-- From a cursor within the horizon, the horizon plays no part. -/
theorem horizonCursor_of_lt {c last c' : Time} (h : horizonCursor cursor now horizon = .ok c)
    (hlast : c < last) (h' : horizonCursor last now horizon = .ok c') : c' = last := by
  cases horizon with
  | none => exact (Except.ok.inj h').symm
  | some seconds =>
    simp only [horizonCursor] at h h'
    split at h
    · next hle =>
      rw [if_pos hle] at h'
      rw [← Except.ok.inj h']
      exact max_eq_left (((le_max_right _ _).trans (Except.ok.inj h).le).trans hlast.le)
    · exact nomatch h

/-- What was found due: nothing, or the slots from a first one up to a last one. -/
inductive Due (r : Recurrence) (cursor now : Time) (policy : CatchupPolicy) (maxJobs : Nat)
    (horizon : Option Nat) (due : ScheduleMaterialization) : Prop where
  | nothing (slots : due.slots = []) (stays : due.nextCursorAt = some cursor)
  | found {start last : Time} {slots : List Time} (automatic : policy ≠ .manual)
      (begins : horizonCursor cursor now horizon = .ok start)
      (is_due : ∀ t ∈ slots, r.IsSlot t ∧ start < t ∧ t ≤ now) (ends : slots.getLast? = some last)
      (future : ∃ next, r.nextAfter last = .ok next ∧ now < next)
      (chosen : ∀ t ∈ due.slots, t ∈ slots)
      (moves : ∃ t ∈ slots, due.nextCursorAt = some t)
      (reaches : (policy = .windowed → due.skippedSlots = 0) → due.nextCursorAt = some last)

theorem materializeDueSlots_due
    (h : materializeDueSlots r cursor now policy maxJobs horizon = .ok due) :
    Due r cursor now policy maxJobs horizon due := by
  simp only [materializeDueSlots, bind_ok, require_ok] at h
  obtain ⟨-, hpos, h⟩ := h
  split at h
  · cases h
    exact .nothing rfl rfl
  next hmanual =>
  simp only [bind_ok] at h
  obtain ⟨start, hstart, first, hfirst, slots, hslots, h⟩ := h
  have hdue : ∀ t ∈ slots, r.IsSlot t ∧ start < t ∧ t ≤ now := fun t ht =>
    have hspec := dueSlots_spec hslots ⟨start, hfirst⟩ t ht
    ⟨hspec.1, (lt_of_nextAfter hfirst).trans_le hspec.2.1, hspec.2.2⟩
  split at h
  · cases h
    exact .nothing rfl rfl
  · next last hlast =>
    have hfuture := dueSlots_getLast hslots hlast
    have hmem : last ∈ slots := List.mem_of_getLast? hlast
    split at h
    · cases h
      refine .found hmanual hstart hdue hlast hfuture ?_ ⟨last, hmem, rfl⟩ fun _ => rfl
      exact fun t ht => List.mem_singleton.mp ht ▸ hmem
    · cases h
      exact .found hmanual hstart hdue hlast hfuture (fun t ht => ht) ⟨last, hmem, rfl⟩ fun _ => rfl
    · next hlatest hall =>
      cases h
      have hwindowed : policy = .windowed := by
        cases policy with
        | windowed => rfl
        | latestOnly => exact absurd rfl hlatest
        | allSlots => exact absurd rfl hall
        | manual => exact absurd rfl hmanual
      have hne : slots.take maxJobs ≠ [] := by
        intro hnil
        rcases List.take_eq_nil_iff.mp hnil with hzero | hnil
        · omega
        · rw [hnil] at hlast
          cases hlast
      refine .found hmanual hstart hdue hlast hfuture (fun t ht => List.mem_of_mem_take ht) ?_ ?_
      · exact ⟨_, List.mem_of_mem_take (List.getLast_mem hne), List.getLast?_eq_some_getLast hne⟩
      · intro hcap
        have hskipped := hcap hwindowed
        have htake : slots.take maxJobs = slots := by
          refine List.take_of_length_le ?_
          simp only [List.length_take] at hskipped
          omega
        show (slots.take maxJobs).getLast? = some last
        rw [htake, hlast]

namespace Due

theorem slots_spec (h : Due r cursor now policy maxJobs horizon due) :
    ∀ t ∈ due.slots, r.IsSlot t ∧ cursor < t ∧ t ≤ now := by
  cases h with
  | nothing slots => exact fun t ht => by rw [slots] at ht; exact nomatch ht
  | found _ begins is_due _ _ chosen =>
    intro t ht
    obtain ⟨hslot, hlt, hle⟩ := is_due t (chosen t ht)
    exact ⟨hslot, (le_horizonCursor begins).trans_lt hlt, hle⟩

theorem le_cursor (h : Due r cursor now policy maxJobs horizon due) :
    cursor ≤ due.nextCursorAt.getD cursor := by
  cases h with
  | nothing _ stays => rw [stays, Option.getD_some]
  | found _ begins is_due _ _ _ moves =>
    obtain ⟨t, ht, hmoves⟩ := moves
    rw [hmoves, Option.getD_some]
    exact (le_horizonCursor begins).trans (is_due t ht).2.1.le

end Due

/-- From the cursor it proposes, nothing more is due at the same time, unless a window cut it off. -/
theorem materializeDueSlots_again
    (h : materializeDueSlots r cursor now policy maxJobs horizon = .ok due)
    (hcap : policy = .windowed → due.skippedSlots = 0)
    (h' : materializeDueSlots r (due.nextCursorAt.getD cursor) now policy maxJobs horizon =
      .ok due') : due'.slots = [] := by
  cases materializeDueSlots_due h with
  | nothing slots stays =>
    rw [stays, Option.getD_some] at h'
    rw [← Except.ok.inj (h.symm.trans h')]
    exact slots
  | @found start last slots automatic begins is_due ends future chosen moves reaches =>
    obtain ⟨next, hnext, hlt⟩ := future
    rw [reaches hcap, Option.getD_some] at h'
    have hlast := (is_due last (List.mem_of_getLast? ends)).2.1
    simp only [materializeDueSlots, bind_ok, require_ok, if_neg automatic] at h'
    obtain ⟨-, -, start', hstart', first, hfirst, slots', hslots', h'⟩ := h'
    obtain rfl := horizonCursor_of_lt begins hlast hstart'
    obtain rfl : next = first := Except.ok.inj (hnext.symm.trans hfirst)
    rw [dueSlots_of_lt hlt] at hslots'
    obtain rfl := Except.ok.inj hslots'
    cases h'
    rfl

end NanFung
