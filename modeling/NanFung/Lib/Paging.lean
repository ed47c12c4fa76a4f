import Mathlib.Data.List.Sort

/-!
# Pages that continue after a key

A sorted list is read in pages of at most `limit` elements. A page is asked for by the key of the last
element of the page before, and holds elements whose key is smaller. Where two elements of one key stand
on either side of a page boundary, the later one is on no page; otherwise the pages are the list.
-/

namespace NanFung.Paging

variable {α κ : Type} [LinearOrder κ] (key : α → κ) (limit : Nat)

/-- The elements after a key. -/
def rest (l : List α) : Option κ → List α
  | none => l
  | some k => l.filter fun a => key a < k

/-- The page after a key. -/
def page (l : List α) (after : Option κ) : List α := (rest key l after).take limit

/-- The key to go on with, if elements are left. -/
def next (l : List α) (after : Option κ) : Option κ :=
  ((page key limit l after).getLast?.filter fun _ =>
    (page key limit l after).length < (rest key l after).length).map key

/-- The pages that a reader gets from a key on, in at most so many requests. -/
def follow (l : List α) : Nat → Option κ → List (List α)
  | 0, _ => []
  | fuel + 1, after => page key limit l after ::
    match next key limit l after with
    | none => []
    | some k => follow l fuel (some k)

/-- No key stands on both sides of a page boundary. -/
def Separated (l : List α) : Prop :=
  ∀ i a b, l[i]? = some a → l[i + 1]? = some b → limit ∣ i + 1 → key b < key a

/-- Larger keys come first. -/
def Descending (l : List α) : Prop := l.Pairwise fun a b => key b ≤ key a

variable {key limit} {l : List α} {after : Option κ} {k : κ} {fuel : Nat}

/-! ## One page -/

theorem rest_rest {k' : κ} (h : k' ≤ k) : rest key (rest key l (some k)) (some k') =
    rest key l (some k') := by
  simp only [rest, List.filter_filter]
  apply List.filter_congr
  intro a _
  by_cases ha : key a < k'
  · simp [ha, ha.trans_le h]
  · simp [ha]

theorem Descending.rest (h : Descending key l) : Descending key (rest key l after) := by
  cases after with
  | none => exact h
  | some k => exact h.filter _

theorem next_eq_some : next key limit l after = some k ↔
    limit < (rest key l after).length ∧ ∃ a, (page key limit l after).getLast? = some a ∧
      key a = k := by
  have hlength : (page key limit l after).length < (rest key l after).length ↔
      limit < (rest key l after).length := by
    rw [page, List.length_take]
    omega
  simp only [next, hlength, Option.map_eq_some_iff, Option.filter_eq_some_iff, decide_eq_true_iff]
  constructor
  · rintro ⟨a, ⟨ha, h⟩, hk⟩
    exact ⟨h, a, ha, hk⟩
  · rintro ⟨h, a, ha, hk⟩
    exact ⟨a, ⟨ha, h⟩, hk⟩

theorem next_eq_none (hlimit : 0 < limit) :
    next key limit l after = none ↔ (rest key l after).length ≤ limit := by
  constructor
  · intro h
    by_contra hlt
    have hne : page key limit l after ≠ [] := by
      intro hnil
      have hlength := congrArg List.length hnil
      rw [page, List.length_take, List.length_nil] at hlength
      omega
    have hsome : next key limit l after = some (key ((page key limit l after).getLast hne)) :=
      next_eq_some.mpr ⟨by omega, _, List.getLast?_eq_some_getLast hne, rfl⟩
    rw [h] at hsome
    cases hsome
  · intro h
    by_contra hne
    obtain ⟨k, hk⟩ := Option.ne_none_iff_exists'.mp hne
    have := (next_eq_some.mp hk).1
    omega

/-- The last element of a page is the one before its boundary. -/
theorem next_eq_some_iff_getElem? (hlimit : 0 < limit) : next key limit l after = some k ↔
    limit < (rest key l after).length ∧ ∃ a, (rest key l after)[limit - 1]? = some a ∧
      key a = k := by
  rw [next_eq_some]
  refine and_congr_right fun h => ?_
  have hlast : (page key limit l after).getLast? = (rest key l after)[limit - 1]? := by
    rw [page, List.getLast?_eq_getElem?, List.length_take, Nat.min_eq_left h.le,
      List.getElem?_take_of_lt (by omega)]
  rw [hlast]

/-- Keys that a reader goes on with fall. -/
theorem lt_of_next (h : next key limit l (some k) = some k') : k' < k := by
  obtain ⟨-, a, ha, rfl⟩ := next_eq_some.mp h
  have hmem : a ∈ rest key l (some k) := List.mem_of_mem_take (List.mem_of_getLast? ha)
  exact of_decide_eq_true (List.mem_filter.mp hmem).2

/-- What is left after a page that has a next one. -/
theorem rest_of_next (hl : Descending key l) (h : next key limit l none = some k) :
    rest key l (some k) = (l.drop limit).filter fun a => key a < k := by
  obtain ⟨-, last, hlast, rfl⟩ := next_eq_some.mp h
  have htake : (l.take limit).filter (fun a => key a < key last) = [] := by
    apply List.filter_eq_nil_iff.mpr
    intro a ha hlt
    have hsorted : (l.take limit).Pairwise fun a b => key b ≤ key a := List.Pairwise.sublist
      (List.take_sublist _ _) hl
    have hle : key last ≤ key a := by
      obtain ⟨front, hfront⟩ := List.getLast?_eq_some_iff.mp hlast
      have hpage : l.take limit = front ++ [last] := hfront
      rw [hpage] at hsorted ha
      rcases List.mem_append.mp ha with ha | ha
      · exact (List.pairwise_append.mp hsorted).2.2 a ha last (List.mem_singleton.mpr rfl)
      · rw [List.mem_singleton.mp ha]
    exact absurd (of_decide_eq_true hlt) (not_lt.mpr hle)
  conv_lhs => rw [rest, ← List.take_append_drop limit l]
  rw [List.filter_append, htake, List.nil_append]

/-! ## All pages -/

/-- A reader that goes on after a key sees the pages of the elements after it. -/
theorem follow_rest (l : List α) : ∀ (fuel : Nat) (k : κ),
    follow key limit l fuel (some k) = follow key limit (rest key l (some k)) fuel none := by
  intro fuel
  induction fuel generalizing l with
  | zero => exact fun _ => rfl
  | succ fuel ih =>
    intro k
    have hpage : page key limit l (some k) = page key limit (rest key l (some k)) none := rfl
    have hnext : next key limit l (some k) = next key limit (rest key l (some k)) none := rfl
    rw [follow, follow, ← hpage, ← hnext]
    cases hk' : next key limit l (some k) with
    | none => rfl
    | some k' =>
      dsimp only
      rw [ih l k', ih (rest key l (some k)) k', rest_rest (lt_of_next hk').le]

theorem follow_succ (l : List α) (fuel : Nat) : follow key limit l (fuel + 1) none =
    l.take limit ::
      match next key limit l none with
      | none => []
      | some k => follow key limit (rest key l (some k)) fuel none := by
  rw [follow]
  cases next key limit l none with
  | none => rfl
  | some k => exact congrArg _ (follow_rest l fuel k)

/-- Nothing is on two pages, and the order is kept. -/
theorem flatten_follow_sublist (hl : Descending key l) :
    (follow key limit l fuel none).flatten.Sublist l := by
  induction fuel generalizing l with
  | zero => exact List.nil_sublist _
  | succ fuel ih =>
    rw [follow_succ]
    cases hk : next key limit l none with
    | none =>
      rw [List.flatten_cons, List.flatten_nil, List.append_nil]
      exact List.take_sublist _ _
    | some k =>
      rw [List.flatten_cons]
      have hrest : (follow key limit (rest key l (some k)) fuel none).flatten.Sublist
          (l.drop limit) := by
        apply (ih hl.rest).trans
        rw [rest_of_next hl hk]
        exact List.filter_sublist
      have := (List.Sublist.refl (l.take limit)).append hrest
      rwa [List.take_append_drop] at this

theorem separated_of_length_le (h : l.length ≤ limit) : Separated key limit l := by
  intro i a b _ hb hdvd
  have hi : i + 1 < l.length := (List.getElem?_eq_some_iff.mp hb).1
  exact absurd (Nat.le_of_dvd (Nat.succ_pos i) hdvd) (by omega)

/-- The first boundary and the others. -/
theorem separated_iff (hlimit : 0 < limit) : Separated key limit l ↔
    (∀ a b, l[limit - 1]? = some a → l[limit]? = some b → key b < key a) ∧
      Separated key limit (l.drop limit) := by
  constructor
  · intro h
    refine ⟨fun a b ha hb => ?_, fun i a b ha hb hdvd => ?_⟩
    · apply h (limit - 1) a b ha
      · rwa [Nat.sub_add_cancel hlimit]
      · exact ⟨1, by omega⟩
    · rw [List.getElem?_drop] at ha hb
      apply h (limit + i) a b ha hb
      rw [Nat.add_assoc]
      exact Nat.dvd_add_self_left.mpr hdvd
  · rintro ⟨hfirst, hrest⟩ i a b ha hb hdvd
    by_cases hi : i + 1 = limit
    · apply hfirst a b
      · rwa [← hi, Nat.add_sub_cancel]
      · rwa [← hi]
    · -- a later boundary is one of what is left
      have hle : limit ≤ i := by
        have := Nat.le_of_dvd (Nat.succ_pos i) hdvd
        omega
      obtain ⟨j, rfl⟩ := Nat.exists_eq_add_of_le hle
      apply hrest j a b
      · rwa [List.getElem?_drop]
      · rwa [List.getElem?_drop, ← Nat.add_assoc]
      · rw [Nat.add_assoc] at hdvd
        exact Nat.dvd_add_self_left.mp hdvd

/-- Nothing is dropped at a boundary that separates its keys. -/
theorem filter_drop_eq_self_iff (hl : Descending key l) (a : α) :
    ((l.drop limit).filter fun b => key b < key a) = l.drop limit ↔
      ∀ b, l[limit]? = some b → key b < key a := by
  rw [List.filter_eq_self]
  constructor
  · intro h b hb
    have hmem : b ∈ l.drop limit := by
      apply List.mem_of_getElem? (i := 0)
      rwa [List.getElem?_drop]
    exact of_decide_eq_true (h b hmem)
  · intro h b hb
    cases hdrop : l.drop limit with
    | nil => simp [hdrop] at hb
    | cons c t =>
      have hc : l[limit]? = some c := by
        have := congrArg (·[0]?) hdrop
        simpa [List.getElem?_drop] using this
      have hsorted : (c :: t).Pairwise fun a b => key b ≤ key a :=
        hdrop ▸ List.Pairwise.sublist (List.drop_sublist _ _) hl
      rw [hdrop] at hb
      apply decide_eq_true
      rcases List.mem_cons.mp hb with rfl | hb
      · exact h b hc
      · exact ((List.pairwise_cons.mp hsorted).1 b hb).trans_lt (h c hc)

/-- The pages are the list exactly if no boundary has one key on both sides. -/
theorem flatten_follow_eq_iff (hlimit : 0 < limit) (hl : Descending key l)
    (hfuel : l.length < fuel) :
    (follow key limit l fuel none).flatten = l ↔ Separated key limit l := by
  induction fuel generalizing l with
  | zero => omega
  | succ fuel ih =>
    rw [follow_succ]
    cases hk : next key limit l none with
    | none =>
      have hle : l.length ≤ limit := (next_eq_none hlimit).mp hk
      rw [List.flatten_cons, List.flatten_nil, List.append_nil, List.take_of_length_le hle]
      exact iff_of_true rfl (separated_of_length_le hle)
    | some k =>
      obtain ⟨hlt, a, ha, rfl⟩ := (next_eq_some_iff_getElem? hlimit).mp hk
      change limit < l.length at hlt
      change l[limit - 1]? = some a at ha
      have hrest : rest key l (some (key a)) = (l.drop limit).filter fun b => key b < key a :=
        rest_of_next hl hk
      have hboundary : ((l.drop limit).filter fun b => key b < key a) = l.drop limit ↔
          ∀ b, l[limit]? = some b → key b < key a := filter_drop_eq_self_iff hl a
      rw [List.flatten_cons, separated_iff hlimit]
      have hshort : (rest key l (some (key a))).length ≤ l.length - limit := by
        rw [hrest, ← List.length_drop]
        exact List.length_filter_le _ _
      constructor
      · intro h
        -- what follows the first page is all that is left, so nothing was dropped
        have htail : (follow key limit (rest key l (some (key a))) fuel none).flatten =
            l.drop limit := by
          have happend : l.take limit ++ _ = l.take limit ++ l.drop limit :=
            h.trans (List.take_append_drop limit l).symm
          exact List.append_cancel_left happend
        have hall : rest key l (some (key a)) = l.drop limit := by
          have hsub : (l.drop limit).Sublist (rest key l (some (key a))) := by
            rw [← htail]
            exact flatten_follow_sublist hl.rest
          have hle : (rest key l (some (key a))).Sublist (l.drop limit) := by
            rw [hrest]
            exact List.filter_sublist
          exact hle.antisymm hsub
        refine ⟨fun a' b ha' hb => ?_, ?_⟩
        · rw [ha] at ha'
          obtain rfl := Option.some.inj ha'
          exact hboundary.mp (hrest ▸ hall) b hb
        · rw [← hall]
          apply (ih hl.rest (by omega)).mp
          rw [htail, hall]
      · rintro ⟨hfirst, hlater⟩
        have hall : rest key l (some (key a)) = l.drop limit := by
          rw [hrest]
          exact hboundary.mpr fun b hb => hfirst a b ha hb
        have hdrop : (follow key limit (l.drop limit) fuel none).flatten = l.drop limit := by
          apply (ih (hall ▸ hl.rest) (by rw [List.length_drop]; omega)).mpr hlater
        dsimp only
        rw [hall, hdrop, List.take_append_drop]

/-- A list whose keys differ is read whole. -/
theorem separated_of_strict (hl : l.Pairwise fun a b => key b < key a) : Separated key limit l := by
  intro i a b ha hb _
  obtain ⟨hi, rfl⟩ := List.getElem?_eq_some_iff.mp ha
  obtain ⟨hj, rfl⟩ := List.getElem?_eq_some_iff.mp hb
  exact List.pairwise_iff_getElem.mp hl i (i + 1) hi hj (Nat.lt_succ_self i)

end NanFung.Paging
