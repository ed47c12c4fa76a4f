import Mathlib.Tactic
import Mathlib.Data.List.Nodup

/-!
# Dictionaries in insertion order

A dictionary is the list of its entries, oldest key first: setting a key that is there keeps its
place. `ofList` sets the entries of a list one after the other, as a program that fills a map in a
loop does. Keys stay distinct, so an entry is what a lookup of its key returns.
-/

namespace NanFung

abbrev Dict (κ ν : Type) := List (κ × ν)

namespace Dict

variable {κ ν μ : Type} [DecidableEq κ] {d : Dict κ ν} {k l : κ} {v w : ν}

/-- `map.get(key)`. -/
def get? (k : κ) : Dict κ ν → Option ν
  | [] => none
  | e :: d => if e.1 = k then some e.2 else get? k d

/-- `map.set(key, value)`. -/
def set (k : κ) (v : ν) : Dict κ ν → Dict κ ν
  | [] => [(k, v)]
  | e :: d => if e.1 = k then (k, v) :: d else e :: set k v d

/-- `map.delete(key)`. -/
def erase (k : κ) (d : Dict κ ν) : Dict κ ν := d.filter fun e => e.1 ≠ k

def keys (d : Dict κ ν) : List κ := d.map Prod.fst

/-- The entries set in turn, starting from a dictionary. -/
def setAll (d : Dict κ ν) (es : List (κ × ν)) : Dict κ ν := es.foldl (fun d e => d.set e.1 e.2) d

/-! ## One key -/

@[simp] theorem get?_nil : get? k ([] : Dict κ ν) = none := rfl

theorem get?_cons (e : κ × ν) : get? k (e :: d) = if e.1 = k then some e.2 else get? k d := rfl

@[simp] theorem get?_set_self : (d.set k v).get? k = some v := by
  induction d with
  | nil => simp [set, get?]
  | cons e d ih =>
    unfold set
    split
    · simp [get?]
    · next h => rw [get?_cons, if_neg h, ih]

theorem get?_set_of_ne (h : l ≠ k) : (d.set k v).get? l = d.get? l := by
  induction d with
  | nil => simp [set, get?, h.symm]
  | cons e d ih =>
    unfold set
    split
    · next he => rw [get?_cons, get?_cons, he, if_neg h.symm, if_neg h.symm]
    · rw [get?_cons, get?_cons, ih]

theorem get?_set : (d.set k v).get? l = if k = l then some v else d.get? l := by
  split
  · next h => rw [← h, get?_set_self]
  · next h => exact get?_set_of_ne (Ne.symm h)

theorem mem_of_get? (h : d.get? k = some v) : (k, v) ∈ d := by
  induction d with
  | nil => exact nomatch h
  | cons e d ih =>
    rw [get?_cons] at h
    split at h
    · next he =>
      cases h
      rw [← he]
      exact List.mem_cons_self
    · exact List.mem_cons_of_mem _ (ih h)

theorem mem_set {e : κ × ν} (h : e ∈ d.set k v) : e = (k, v) ∨ e ∈ d := by
  induction d with
  | nil => exact Or.inl (List.mem_singleton.mp h)
  | cons f d ih =>
    unfold set at h
    split at h
    · exact (List.mem_cons.mp h).imp id (List.mem_cons_of_mem _)
    · cases List.mem_cons.mp h with
      | inl he => exact Or.inr (he ▸ List.mem_cons_self)
      | inr h => exact (ih h).imp id (List.mem_cons_of_mem _)

theorem get?_isSome_iff : (d.get? k).isSome ↔ k ∈ d.keys := by
  induction d with
  | nil => simp [keys]
  | cons e d ih =>
    rw [get?_cons, keys, List.map_cons, List.mem_cons]
    split
    · next he => simp [he]
    · next he => exact ih.trans ⟨Or.inr, fun h => h.resolve_left (Ne.symm he)⟩

theorem get?_eq_none_iff : d.get? k = none ↔ k ∉ d.keys := by
  rw [← get?_isSome_iff, Option.not_isSome_iff_eq_none]

theorem get?_of_mem (hd : d.keys.Nodup) (h : (k, v) ∈ d) : d.get? k = some v := by
  induction d with
  | nil => exact nomatch h
  | cons e d ih =>
    obtain ⟨hnew, hd⟩ := List.nodup_cons.mp hd
    rw [get?_cons]
    cases List.mem_cons.mp h with
    | inl he => rw [← he, if_pos rfl]
    | inr h =>
      have hne : e.1 ≠ k := fun he => hnew (he ▸ List.mem_map_of_mem h)
      rw [if_neg hne, ih hd h]

theorem get?_filter (hd : d.keys.Nodup) {p : κ × ν → Bool} :
    get? k (d.filter p) = some v ↔ d.get? k = some v ∧ p (k, v) = true := by
  have hsub : (keys (d.filter p)).Nodup := hd.sublist (List.filter_sublist.map _)
  constructor
  · intro h
    obtain ⟨hmem, hp⟩ := List.mem_filter.mp (mem_of_get? h)
    exact ⟨get?_of_mem hd hmem, hp⟩
  · intro ⟨h, hp⟩
    exact get?_of_mem hsub (List.mem_filter.mpr ⟨mem_of_get? h, hp⟩)

theorem get?_erase_self : (d.erase k).get? k = none := by
  rw [get?_eq_none_iff, keys, List.mem_map]
  intro ⟨e, he, hk⟩
  exact of_decide_eq_true (List.mem_filter.mp he).2 hk

theorem get?_erase (hd : d.keys.Nodup) :
    (d.erase k).get? l = some v ↔ d.get? l = some v ∧ l ≠ k := by
  rw [erase, get?_filter hd, decide_eq_true_iff]

/-! ## Keys -/

theorem set_of_new (h : k ∉ d.keys) : d.set k v = d ++ [(k, v)] := by
  induction d with
  | nil => rfl
  | cons e d ih =>
    rw [keys, List.map_cons, List.mem_cons, not_or] at h
    rw [set, if_neg (Ne.symm h.1), ih h.2, List.cons_append]

theorem keys_set_of_mem (h : k ∈ d.keys) : (d.set k v).keys = d.keys := by
  induction d with
  | nil => exact nomatch h
  | cons e d ih =>
    unfold set
    split
    · next he => rw [keys, List.map_cons, keys, List.map_cons, he]
    · next he =>
      rw [keys, List.map_cons, List.mem_cons] at h
      have := ih (h.resolve_left (Ne.symm he))
      rw [keys, List.map_cons, keys, List.map_cons]
      exact congrArg _ this

theorem mem_keys_set : l ∈ (d.set k v).keys ↔ l = k ∨ l ∈ d.keys := by
  by_cases h : k ∈ d.keys
  · rw [keys_set_of_mem h]
    exact ⟨Or.inr, fun hl => hl.elim (fun he => he ▸ h) id⟩
  · rw [set_of_new h, keys, List.map_append, List.mem_append, or_comm]
    exact or_congr_left (by simp)

theorem keys_set_nodup (h : d.keys.Nodup) : (d.set k v).keys.Nodup := by
  by_cases hk : k ∈ d.keys
  · rwa [keys_set_of_mem hk]
  · rw [set_of_new hk, keys, List.map_append]
    exact List.Nodup.append h (List.nodup_singleton _)
      (List.disjoint_singleton.mpr hk)

theorem length_set_of_mem (h : k ∈ d.keys) : (d.set k v).length = d.length := by
  have hlength := congrArg List.length (keys_set_of_mem (v := v) h)
  rwa [keys, keys, List.length_map, List.length_map] at hlength

theorem length_set_le : (d.set k v).length ≤ d.length + 1 := by
  by_cases h : k ∈ d.keys
  · rw [length_set_of_mem h]
    exact Nat.le_succ _
  · rw [set_of_new h, List.length_append]
    exact le_refl _

/-! ## Many keys -/

@[simp] theorem setAll_nil : d.setAll [] = d := rfl

@[simp] theorem setAll_cons (e : κ × ν) (es : List (κ × ν)) :
    d.setAll (e :: es) = (d.set e.1 e.2).setAll es := rfl

theorem mem_keys_setAll {es : List (κ × ν)} :
    k ∈ (d.setAll es).keys ↔ k ∈ d.keys ∨ k ∈ es.map Prod.fst := by
  induction es generalizing d with
  | nil => simp
  | cons e es ih =>
    rw [setAll_cons, ih, mem_keys_set, List.map_cons, List.mem_cons, or_comm (a := k = e.1),
      or_assoc]

theorem keys_setAll_nodup {es : List (κ × ν)} (h : d.keys.Nodup) : (d.setAll es).keys.Nodup := by
  induction es generalizing d with
  | nil => exact h
  | cons e es ih => exact ih (keys_set_nodup h)

/-- New keys, each set once, are appended in order. -/
theorem setAll_of_nodup {es : List (κ × ν)} (h : (d.keys ++ es.map Prod.fst).Nodup) :
    d.setAll es = d ++ es := by
  induction es generalizing d with
  | nil => simp
  | cons e es ih =>
    have hnew : e.1 ∉ d.keys := fun hd =>
      List.disjoint_of_nodup_append h hd (List.mem_map_of_mem List.mem_cons_self)
    rw [setAll_cons, set_of_new hnew, ih, List.append_assoc, List.singleton_append]
    rw [keys, List.map_append, List.append_assoc]
    exact h

theorem mem_setAll {es : List (κ × ν)} {e : κ × ν} (h : e ∈ d.setAll es) : e ∈ d ∨ e ∈ es := by
  induction es generalizing d with
  | nil => exact Or.inl h
  | cons f es ih =>
    cases ih h with
    | inl h => exact (mem_set h).elim (fun he => Or.inr (he ▸ List.mem_cons_self)) Or.inl
    | inr h => exact Or.inr (List.mem_cons_of_mem _ h)

end Dict

end NanFung
