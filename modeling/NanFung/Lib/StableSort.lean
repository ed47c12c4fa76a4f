import Mathlib.Data.List.Sort

/-!
# Stable sorting by a total preorder

A stable sort keeps the order of elements that the preorder ties. So the result is determined by the
order inside each class of tied elements, and two lists are sorted to the same list exactly when
their classes stand in the same order.
-/

namespace NanFung.StableSort

open List

variable {α : Type*} (le : α → α → Prop) [DecidableRel le]

/-- Two elements that the order does not tell apart. -/
def tied (a b : α) : Bool := decide (le a b ∧ le b a)

variable {le} {l l' : List α}

theorem tied_iff {a b : α} : tied le a b = true ↔ le a b ∧ le b a := decide_eq_true_iff

/-- A class of tied elements is left in its order. -/
theorem filter_tied_insertionSort [IsTrans α le] (a : α) (l : List α) :
    (l.insertionSort le).filter (tied le a) = l.filter (tied le a) := by
  have hclass : (l.filter (tied le a)).Pairwise le := by
    apply pairwise_of_forall_mem_list
    intro b hb c hc
    have hab := tied_iff.mp (mem_filter.mp hb).2
    have hac := tied_iff.mp (mem_filter.mp hc).2
    exact IsTrans.trans b a c hab.2 hac.1
  have hsub : l.filter (tied le a) <+ (l.insertionSort le).filter (tied le a) := by
    have := (sublist_insertionSort hclass filter_sublist).filter (tied le a)
    rwa [filter_filter, funext fun b => Bool.and_self (tied le a b)] at this
  exact (hsub.eq_of_length ((perm_insertionSort le l).filter _).length_eq.symm).symm

section Total

variable [Std.Total le]

theorem tied_self (a : α) : tied le a a = true := by
  have h : le a a := (Std.Total.total a a).elim id id
  exact tied_iff.mpr ⟨h, h⟩

/-- The head of a sorted list is below every element whose class the list shares. -/
theorem head_le_of_filter_tied {x y : α} (hx : x ∈ l) (hl' : (y :: l').Pairwise le)
    (h : l.filter (tied le x) = (y :: l').filter (tied le x)) : le y x := by
  have hmem : x ∈ (y :: l').filter (tied le x) := by
    rw [← h]
    exact mem_filter.mpr ⟨hx, tied_self x⟩
  cases mem_cons.mp (mem_filter.mp hmem).1 with
  | inl hxy => exact hxy ▸ (tied_iff.mp (tied_self x)).1
  | inr hx => exact (pairwise_cons.mp hl').1 x hx

/-- Sorted lists whose classes are the same lists are equal. -/
theorem eq_of_filter_tied (hl : l.Pairwise le) (hl' : l'.Pairwise le)
    (h : ∀ a, l.filter (tied le a) = l'.filter (tied le a)) : l = l' := by
  induction l generalizing l' with
  | nil =>
    cases l' with
    | nil => rfl
    | cons y l' =>
      have := h y
      rw [filter_nil, filter_cons_of_pos (tied_self y)] at this
      exact nomatch this
  | cons x l ih =>
    cases l' with
    | nil =>
      have := h x
      rw [filter_nil, filter_cons_of_pos (tied_self x)] at this
      exact nomatch this
    | cons y l' =>
      -- the heads are tied, so each is the first element of one and the same class
      have hyx : le y x := head_le_of_filter_tied mem_cons_self hl' (h x)
      have hxy : le x y := head_le_of_filter_tied mem_cons_self hl (h y).symm
      have hhead : x = y := by
        have := h x
        rw [filter_cons_of_pos (tied_self x), filter_cons_of_pos (tied_iff.mpr ⟨hxy, hyx⟩)] at this
        exact (List.cons.inj this).1
      subst hhead
      refine congrArg (x :: ·) (ih (pairwise_cons.mp hl).2 (pairwise_cons.mp hl').2 ?_)
      intro a
      have := h a
      rw [filter_cons, filter_cons] at this
      split at this
      · exact (List.cons.inj this).2
      · exact this

/-- What is kept of a stable sort is the stable sort of what is kept. -/
theorem filter_insertionSort [IsTrans α le] (p : α → Bool) (l : List α) :
    (l.insertionSort le).filter p = (l.filter p).insertionSort le := by
  apply eq_of_filter_tied ((pairwise_insertionSort le l).sublist filter_sublist)
    (pairwise_insertionSort le (l.filter p))
  intro a
  rw [filter_tied_insertionSort, filter_comm, filter_tied_insertionSort, filter_comm]

/-- A prefix of a sorted list meets a union of classes exactly when fewer elements than it is long
precede all of them. -/
theorem filter_take_ne_nil {p : α → Bool} (hl : l.Pairwise le)
    (hclass : ∀ a ∈ l, ∀ b ∈ l, p a = true → le a b → le b a → p b = true) (hne : l.filter p ≠ []) (n : Nat) :
    (l.take n).filter p ≠ [] ↔
      (l.filter fun x => decide (∀ a ∈ l.filter p, ¬ le a x)).length < n := by
  induction l generalizing n with
  | nil => exact absurd rfl hne
  | cons a l ih =>
    obtain ⟨hle, hl⟩ := pairwise_cons.mp hl
    cases hp : p a with
    | true =>
      have hnone : ((a :: l).filter fun x => decide (∀ b ∈ (a :: l).filter p, ¬ le b x)) = [] := by
        rw [filter_eq_nil_iff]
        intro x hx hall
        have hax : le a x := by
          cases mem_cons.mp hx with
          | inl hxa => exact hxa.symm ▸ (tied_iff.mp (tied_self a)).1
          | inr hx => exact hle x hx
        exact of_decide_eq_true hall a (mem_filter.mpr ⟨mem_cons_self, hp⟩) hax
      rw [hnone]
      cases n with
      | zero => exact iff_of_false (fun h => h rfl) (lt_irrefl 0)
      | succ n =>
        refine iff_of_true ?_ (Nat.succ_pos n)
        rw [take_succ_cons, filter_cons_of_pos hp]
        exact cons_ne_nil _ _
    | false =>
      have hskip : (a :: l).filter p = l.filter p := filter_cons_of_neg (by rw [hp]; exact nofun)
      have habove : decide (∀ b ∈ l.filter p, ¬ le b a) = true := by
        apply decide_eq_true
        intro b hb hba
        obtain ⟨hmem, hpb⟩ := mem_filter.mp hb
        rw [hclass b (mem_cons_of_mem a hmem) a mem_cons_self hpb hba (hle b hmem)] at hp
        exact nomatch hp
      have hcons : ((a :: l).filter fun x => decide (∀ b ∈ l.filter p, ¬ le b x)) =
          a :: l.filter fun x => decide (∀ b ∈ l.filter p, ¬ le b x) := filter_cons_of_pos habove
      rw [hskip] at hne ⊢
      rw [hcons, length_cons]
      cases n with
      | zero => exact iff_of_false (fun h => h rfl) (Nat.not_lt_zero _)
      | succ n =>
        rw [take_succ_cons, filter_cons_of_neg (by rw [hp]; exact nofun), ih hl
          (fun b hb c hc => hclass b (mem_cons_of_mem a hb) c (mem_cons_of_mem a hc)) hne n]
        exact Nat.succ_lt_succ_iff.symm

/-- Where it meets them, it holds the first. -/
theorem head?_filter_take {p : α → Bool} {n : Nat} (h : (l.take n).filter p ≠ []) :
    ((l.take n).filter p).head? = (l.filter p).head? := by
  have hsplit := congrArg (filter p) (take_append_drop n l)
  rw [filter_append] at hsplit
  rw [← hsplit]
  exact (head?_append_of_ne_nil _ h).symm

/-- Two lists have the same stable sort exactly when their classes stand in the same order. -/
theorem insertionSort_eq_iff [IsTrans α le] (l l' : List α) :
    l.insertionSort le = l'.insertionSort le ↔
      ∀ a, l.filter (tied le a) = l'.filter (tied le a) := by
  constructor
  · intro h a
    rw [← filter_tied_insertionSort a l, h, filter_tied_insertionSort a l']
  · intro h
    apply eq_of_filter_tied (pairwise_insertionSort le l) (pairwise_insertionSort le l')
    intro a
    rw [filter_tied_insertionSort, filter_tied_insertionSort, h a]

end Total

end NanFung.StableSort
