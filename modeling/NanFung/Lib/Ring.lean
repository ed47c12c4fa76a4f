import Mathlib.Data.List.Infix
import Mathlib.Data.List.TakeWhile
import Mathlib.Algebra.BigOperators.Group.List.Basic
import Mathlib.Algebra.GroupWithZero.Nat

/-!
# Buffers with two limits

A buffer keeps the newest entries of a log, as long as neither their number nor their total size is
over its limit: `evict` drops the oldest entries until the rest fits. What is left is the longest suffix
that fits (`suffix_evict`), so it does not matter whether entries were dropped one append at a time or
all at the end (`evict_evict_append`): a buffer is a function of the log.
-/

namespace NanFung

namespace Ring

variable {α : Type} (size : α → Nat) (maxCount maxSize : Nat)

/-- What the entries take up together. -/
def total (l : List α) : Nat := (l.map size).sum

@[simp] theorem total_nil : total size [] = 0 := rfl

@[simp] theorem total_cons (x : α) (l : List α) : total size (x :: l) = size x + total size l := by
  simp [total]

@[simp] theorem total_append (l l' : List α) :
    total size (l ++ l') = total size l + total size l' := by
  simp [total]

/-- Neither limit is exceeded. -/
def Fits (l : List α) : Prop := l.length ≤ maxCount ∧ total size l ≤ maxSize

instance (l : List α) : Decidable (Fits size maxCount maxSize l) := by
  unfold Fits
  infer_instance

/-- Drop the oldest entries until the rest fits. -/
def evict : List α → List α
  | [] => []
  | x :: l => if Fits size maxCount maxSize (x :: l) then x :: l else evict l

variable {size maxCount maxSize} {l l' s : List α}

theorem Fits.nil : Fits size maxCount maxSize [] := ⟨Nat.zero_le _, Nat.zero_le _⟩

theorem Fits.suffix (h : Fits size maxCount maxSize l) (hs : s <:+ l) :
    Fits size maxCount maxSize s := by
  obtain ⟨d, rfl⟩ := hs
  obtain ⟨hcount, hsize⟩ := h
  rw [List.length_append] at hcount
  rw [total_append] at hsize
  constructor <;> omega

theorem Fits.of_start (h : Fits size maxCount maxSize l) (hs : s <+: l) :
    Fits size maxCount maxSize s := by
  obtain ⟨d, rfl⟩ := hs
  obtain ⟨hcount, hsize⟩ := h
  rw [List.length_append] at hcount
  rw [total_append] at hsize
  constructor <;> omega

theorem evict_suffix (l : List α) : evict size maxCount maxSize l <:+ l := by
  induction l with
  | nil => exact List.suffix_rfl
  | cons x l ih =>
    unfold evict
    split
    · exact List.suffix_rfl
    · exact ih.trans (List.suffix_cons x l)

theorem evict_fits (l : List α) : Fits size maxCount maxSize (evict size maxCount maxSize l) := by
  induction l with
  | nil => exact .nil
  | cons x l ih =>
    unfold evict
    split
    · assumption
    · exact ih

theorem evict_of_fits (h : Fits size maxCount maxSize l) : evict size maxCount maxSize l = l := by
  cases l with
  | nil => rfl
  | cons x l => rw [evict, if_pos h]

/-- What is left is the longest suffix that fits. -/
theorem suffix_evict (hs : s <:+ l) (h : Fits size maxCount maxSize s) :
    s <:+ evict size maxCount maxSize l := by
  induction l with
  | nil => exact hs
  | cons x l ih =>
    unfold evict
    split
    · exact hs
    · next hfits =>
      rcases List.suffix_cons_iff.mp hs with rfl | hs
      · exact absurd h hfits
      · exact ih hs

/-- Entries that were dropped before an append would have been dropped after it. -/
theorem evict_evict_append (l : List α) (x : α) :
    evict size maxCount maxSize (evict size maxCount maxSize l ++ [x]) =
      evict size maxCount maxSize (l ++ [x]) := by
  have hle : evict size maxCount maxSize (evict size maxCount maxSize l ++ [x]) <:+
      evict size maxCount maxSize (l ++ [x]) := by
    apply suffix_evict
    · exact (evict_suffix _).trans (List.suffix_append_self_iff.mpr (evict_suffix l))
    · exact evict_fits _
  have hge : evict size maxCount maxSize (l ++ [x]) <:+
      evict size maxCount maxSize (evict size maxCount maxSize l ++ [x]) := by
    have hfits := @evict_fits α size maxCount maxSize (l ++ [x])
    apply suffix_evict _ hfits
    rcases List.suffix_concat_iff.mp (@evict_suffix _ size _ _ (l ++ [x])) with hnil | ⟨t, ht, hs⟩
    · rw [hnil]
      exact List.nil_suffix
    · rw [ht] at hfits ⊢
      exact List.suffix_append_self_iff.mpr (suffix_evict hs (hfits.of_start (List.prefix_append t [x])))
  exact hle.eq_of_length_le hge.length_le

/-- The entries of one kind are all still there exactly if everything since the first of them fits. -/
theorem filter_evict_iff (p : α → Bool) (l : List α) :
    (evict size maxCount maxSize l).filter p = l.filter p ↔
      Fits size maxCount maxSize (l.dropWhile (!p ·)) := by
  constructor
  · intro h
    obtain ⟨d, hd⟩ := @evict_suffix α size maxCount maxSize l
    -- what was dropped is of another kind, so the first of this kind is still there
    have hnone : d.filter p = [] := by
      have hl : l.filter p = d.filter p ++ l.filter p := by
        conv_lhs => rw [← hd, List.filter_append, h]
      exact List.self_eq_append_left.mp hl
    have hother : ∀ x ∈ d, (!p x) = true := fun x hx => by
      simpa using List.filter_eq_nil_iff.mp hnone x hx
    have hfits := @evict_fits α size maxCount maxSize l
    rw [← hd, List.dropWhile_append_of_pos hother]
    exact hfits.suffix (List.dropWhile_suffix _)
  · intro h
    -- the entries before the first of this kind do not count
    have hfirst : (l.dropWhile (!p ·)).filter p = l.filter p := by
      have hnone : (l.takeWhile (!p ·)).filter p = [] :=
        List.filter_eq_nil_iff.mpr fun x hx => by simpa using List.mem_takeWhile_imp hx
      conv_rhs => rw [← @List.takeWhile_append_dropWhile _ (!p ·) l, List.filter_append, hnone]
      rfl
    apply List.Sublist.antisymm
    · exact (evict_suffix l).sublist.filter p
    · rw [← hfirst]
      exact (suffix_evict (List.dropWhile_suffix _) h).sublist.filter p

/-- A buffer of converted entries is the converted buffer. -/
theorem evict_map {β : Type} (f : β → α) (l : List β) :
    evict size maxCount maxSize (l.map f) = (evict (size ∘ f) maxCount maxSize l).map f := by
  induction l with
  | nil => rfl
  | cons x l ih =>
    have hfits : Fits size maxCount maxSize (f x :: l.map f) ↔
        Fits (size ∘ f) maxCount maxSize (x :: l) := by simp [Fits, total]
    rw [List.map_cons, evict, evict, ih]
    by_cases h : Fits (size ∘ f) maxCount maxSize (x :: l)
    · rw [if_pos h, if_pos (hfits.mpr h), List.map_cons]
    · rw [if_neg h, if_neg fun h' => h (hfits.mp h')]

end Ring

end NanFung
