import Mathlib.Data.List.DropRight
import Mathlib.Data.List.Infix

/-!
# Occurrences of a pattern

The places where a pattern occurs in a list, and the matches of a scan that goes on after each match. A
pattern that does not overlap itself has as many matches as places. What a longer list adds is seen in
a window that keeps the end of the shorter one.
-/

namespace NanFung.Occurrences

variable {α : Type} [DecidableEq α] {pattern s : List α} {n : Nat}

/-- The number of places where the pattern occurs. -/
def occurrences (pattern : List α) : List α → Nat
  | [] => 0
  | a :: s => (if pattern <+: a :: s then 1 else 0) + occurrences pattern s

/-- The number of matches from the left, once `used` elements are passed over; a match uses its own. -/
def scan (pattern : List α) : Nat → List α → Nat
  | _, [] => 0
  | used + 1, _ :: s => scan pattern used s
  | 0, a :: s =>
    if pattern <+: a :: s then 1 + scan pattern (pattern.length - 1) s else scan pattern 0 s

/-- No end of the pattern, other than all of it, begins the pattern. -/
def Unbordered (pattern : List α) : Prop :=
  pattern ≠ [] ∧ ∀ k < pattern.length, 0 < k → ¬ pattern.drop k <+: pattern

instance : Decidable (Unbordered pattern) := inferInstanceAs (Decidable (_ ∧ _))

theorem scan_drop : scan pattern n s = scan pattern 0 (s.drop n) := by
  induction s generalizing n with
  | nil => cases n <;> simp [scan]
  | cons a s ih =>
    cases n with
    | zero => rfl
    | succ n =>
      rw [scan, List.drop_succ_cons]
      exact ih

/-- Places where the pattern does not occur may be dropped. -/
theorem occurrences_drop (h : ∀ k < n, ¬ pattern <+: s.drop k) :
    occurrences pattern (s.drop n) = occurrences pattern s := by
  induction n generalizing s with
  | zero => rfl
  | succ n ih =>
    cases s with
    | nil => rfl
    | cons a s =>
      have hfirst : ¬ pattern <+: a :: s := h 0 (Nat.succ_pos n)
      rw [List.drop_succ_cons, occurrences, if_neg hfirst, Nat.zero_add]
      refine ih fun k hk => ?_
      rw [← List.drop_succ_cons]
      exact h (k + 1) (Nat.succ_lt_succ hk)

omit [DecidableEq α] in
/-- After an occurrence the next one is past its end. -/
theorem Unbordered.not_prefix_drop (hp : Unbordered pattern) (hs : pattern <+: s) {k : Nat}
    (hpos : 0 < k) (hk : k < pattern.length) : ¬ pattern <+: s.drop k := by
  intro hk'
  obtain ⟨rest, rfl⟩ := hs
  rw [List.drop_append_of_le_length hk.le] at hk'
  refine hp.2 k hk hpos (List.prefix_of_prefix_length_le (List.prefix_append _ rest) hk' ?_)
  rw [List.length_drop]
  omega

theorem scan_eq_occurrences (hp : Unbordered pattern) :
    scan pattern 0 s = occurrences pattern s := by
  induction hlen : s.length using Nat.strong_induction_on generalizing s with
  | _ len ih =>
    cases s with
    | nil => rfl
    | cons a s =>
      rw [List.length_cons] at hlen
      rw [scan, occurrences]
      split
      · next hstart =>
        -- the places inside the match are no occurrences
        have hdrop : occurrences pattern (s.drop (pattern.length - 1)) = occurrences pattern s := by
          refine occurrences_drop fun k hk => ?_
          rw [← List.drop_succ_cons]
          exact hp.not_prefix_drop hstart (Nat.succ_pos k) (by omega)
        rw [scan_drop, ih _ (by rw [List.length_drop]; omega) rfl, hdrop]
      · rw [Nat.zero_add]
        exact ih _ (by omega) rfl

/-- No place is counted exactly if the pattern is no part of the list. -/
theorem occurrences_eq_zero (h : pattern ≠ []) : occurrences pattern s = 0 ↔ ¬ pattern <:+: s := by
  induction s with
  | nil =>
    rw [List.infix_nil]
    exact iff_of_true rfl h
  | cons a s ih =>
    rw [occurrences, Nat.add_eq_zero_iff, ih, List.infix_cons_iff, not_or]
    refine and_congr_left fun _ => ?_
    split
    · next hp => exact iff_of_false Nat.one_ne_zero (fun hn => hn hp)
    · next hp => exact iff_of_true rfl hp

/-! ## Windows -/

omit [DecidableEq α] in
theorem prefix_append_iff {rest : List α} (h : pattern.length ≤ s.length) :
    pattern <+: s ++ rest ↔ pattern <+: s := by
  constructor
  · intro hp
    exact List.prefix_of_prefix_length_le hp (List.prefix_append s rest) h
  · intro hp
    exact hp.trans (List.prefix_append s rest)

/-- What is before a window that is as long as the pattern but one does not see what follows it. -/
theorem occurrences_append (before window rest : List α) (h : pattern.length ≤ window.length + 1) :
    occurrences pattern (before ++ window ++ rest) + occurrences pattern window =
      occurrences pattern (before ++ window) + occurrences pattern (window ++ rest) := by
  induction before with
  | nil =>
    rw [List.nil_append]
    exact Nat.add_comm _ _
  | cons a before ih =>
    have hlen : pattern.length ≤ (a :: (before ++ window)).length := by
      rw [List.length_cons, List.length_append]
      omega
    have hsame : pattern <+: a :: (before ++ window ++ rest) ↔ pattern <+: a :: (before ++ window) :=
      prefix_append_iff hlen
    rw [List.cons_append, List.cons_append, occurrences, occurrences]
    simp only [hsame]
    omega

/-- The window keeps as many elements as the pattern has but one. -/
theorem occurrences_window (s rest : List α) (h : pattern.length ≤ n + 1) :
    occurrences pattern (s ++ rest) + occurrences pattern (s.rtake n) =
      occurrences pattern s + occurrences pattern (s.rtake n ++ rest) := by
  by_cases hn : n ≤ s.length
  · have hlen : (s.rtake n).length = n := by
      rw [List.rtake, List.length_drop]
      omega
    have hwindow : pattern.length ≤ (s.rtake n).length + 1 := by omega
    have hsplit := occurrences_append (s.take (s.length - n)) (s.rtake n) rest hwindow
    have hs : s.take (s.length - n) ++ s.rtake n = s := List.take_append_drop _ s
    rwa [hs] at hsplit
  · -- nothing has left the window
    have hall : s.rtake n = s := by
      rw [List.rtake, Nat.sub_eq_zero_of_le (by omega), List.drop_zero]
    rw [hall]
    exact Nat.add_comm _ _

omit [DecidableEq α] in
theorem rtake_rtake_append (s rest : List α) : (s.rtake n ++ rest).rtake n = (s ++ rest).rtake n := by
  rw [List.rtake, List.rtake, List.rtake, List.length_append, List.length_append, List.length_drop,
    List.drop_append, List.drop_append, List.drop_drop, List.length_drop]
  congr 2 <;> omega

end NanFung.Occurrences
