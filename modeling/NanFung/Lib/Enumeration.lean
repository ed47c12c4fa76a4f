import NanFung.Lib.Proc

/-!
# Enumerating by a successor function

A fallible function that returns the least marked value after a given one enumerates the marked values.
The loop that follows it up to a limit returns all of them, in order.
-/

namespace NanFung.Enumeration

variable {ε α : Type} [LinearOrder α]

/-- What `next` returns is the least marked value after its argument. -/
def Enumerates (next : α → Except ε α) (marked : α → Prop) : Prop :=
  ∀ v t, next v = .ok t → IsLeast {u | marked u ∧ v < u} t

/-- The values from `candidate` up to `limit`, at most `fuel` of them. -/
def upTo (next : α → Except ε α) (tooMany : ε) (limit : α) : Nat → α → Except ε (List α)
  | fuel, candidate =>
    if limit < candidate then .ok []
    else match fuel with
      | 0 => .error tooMany
      | fuel + 1 => do
        let following ← next candidate
        let rest ← upTo next tooMany limit fuel following
        .ok (candidate :: rest)

/-- The list has exactly the marked values after `start` up to `limit`, in order. -/
structure Lists (marked : α → Prop) (start limit : α) (values : List α) : Prop where
  sorted : values.Pairwise (· < ·)
  mem_iff : ∀ t, t ∈ values ↔ marked t ∧ start < t ∧ t ≤ limit

variable {next : α → Except ε α} {marked : α → Prop} {tooMany : ε} {start limit candidate : α}
  {fuel : Nat} {values : List α}

theorem upTo_lists (hnext : Enumerates next marked)
    (hstart : IsLeast {u | marked u ∧ start < u} candidate)
    (h : upTo next tooMany limit fuel candidate = .ok values) : Lists marked start limit values := by
  induction values generalizing start fuel candidate with
  | nil =>
    unfold upTo at h
    split at h
    · next hlt =>
      refine ⟨.nil, fun t => iff_of_false (fun ht => by cases ht) ?_⟩
      rintro ⟨hmarked, hafter, hle⟩
      exact absurd ((hstart.2 ⟨hmarked, hafter⟩).trans hle) (not_le.mpr hlt)
    · split at h
      · cases h
      · simp only [bind_ok, Except.ok.injEq, reduceCtorEq, and_false, exists_false] at h
  | cons t values ih =>
    unfold upTo at h
    split at h
    · cases h
    · next hle =>
      split at h
      · cases h
      · simp only [bind_ok, Except.ok.injEq, List.cons.injEq] at h
        obtain ⟨following, hfollowing, rest, hrest, rfl, rfl⟩ := h
        have hlists := ih (hnext _ _ hfollowing) hrest
        refine ⟨List.pairwise_cons.mpr ⟨fun u hu => ((hlists.mem_iff u).mp hu).2.1, hlists.sorted⟩, ?_⟩
        intro u
        rw [List.mem_cons, hlists.mem_iff]
        constructor
        · rintro (rfl | ⟨hmarked, hafter, hlimit⟩)
          · exact ⟨hstart.1.1, hstart.1.2, not_lt.mp hle⟩
          · exact ⟨hmarked, hstart.1.2.trans hafter, hlimit⟩
        · rintro ⟨hmarked, hafter, hlimit⟩
          rcases (hstart.2 ⟨hmarked, hafter⟩).lt_or_eq with hlt | heq
          · exact Or.inr ⟨hmarked, hlt, hlimit⟩
          · exact Or.inl heq.symm

section Increasing

variable {value : α} (h : values.Pairwise (· < ·))

include h

/-- The first of increasing values is the least. -/
theorem head?_eq_iff_isLeast : values.head? = some value ↔ IsLeast {t | t ∈ values} value := by
  have hleast : ∀ v, values.head? = some v → IsLeast {t | t ∈ values} v := by
    intro v hv
    obtain ⟨rest, rfl⟩ := List.head?_eq_some_iff.mp hv
    refine ⟨List.mem_cons_self, fun t ht => ?_⟩
    rcases List.mem_cons.mp ht with rfl | ht
    · exact le_rfl
    · exact ((List.pairwise_cons.mp h).1 t ht).le
  refine ⟨hleast value, fun hv => ?_⟩
  have hhead := List.head?_eq_some_head (List.ne_nil_of_mem hv.1)
  rw [hhead, (hleast _ hhead).unique hv]

/-- The last of increasing values is the greatest. -/
theorem getLast?_eq_iff_isGreatest :
    values.getLast? = some value ↔ IsGreatest {t | t ∈ values} value := by
  have hgreatest : ∀ v, values.getLast? = some v → IsGreatest {t | t ∈ values} v := by
    intro v hv
    obtain ⟨before, rfl⟩ := List.getLast?_eq_some_iff.mp hv
    refine ⟨List.mem_of_getLast? hv, fun t ht => ?_⟩
    rcases List.mem_append.mp ht with ht | ht
    · exact ((List.pairwise_append.mp h).2.2 t ht v (List.mem_singleton_self v)).le
    · exact (List.mem_singleton.mp ht).le
  refine ⟨hgreatest value, fun hv => ?_⟩
  have hlast := List.getLast?_eq_some_getLast (List.ne_nil_of_mem hv.1)
  rw [hlast, (hgreatest _ hlast).unique hv]

theorem ncard_of_increasing : {t | t ∈ values}.ncard = values.length := by
  have hset : {t | t ∈ values} = ↑values.toFinset := by
    ext t
    simp
  rw [hset, Set.ncard_coe_finset, List.toFinset_card_of_nodup (h.imp fun hlt => hlt.ne)]

end Increasing

end NanFung.Enumeration
