import Mathlib.Tactic
import Mathlib.Order.Bounds.Basic
import Mathlib.Order.Interval.Finset.Defs
import Mathlib.Order.Interval.Set.Infinite

/-!
# Successive members of a set

Which member of a set comes next after one of its members, where only finitely many values lie below
any other. A step of a set is within one step of each of its subsets, and a subset that leaves out no
two successive members takes steps of at most twice the stride of the set.
-/

namespace NanFung.Successive

variable {α : Type} [LinearOrder α] {s t : Set α} {a b c : α}

/-- `b` is the next member after the member `a`. -/
structure Next (s : Set α) (a b : α) : Prop where
  mem : a ∈ s
  least : IsLeast {c | c ∈ s ∧ a < c} b

namespace Next

theorem lt (h : Next s a b) : a < b := h.least.1.2

theorem mem_next (h : Next s a b) : b ∈ s := h.least.1.1

theorem unique (h : Next s a b) (h' : Next s a c) : b = c := h.least.unique h'.least

/-- A member after `a` is not before the next one. -/
theorem le_of_mem (h : Next s a b) (hc : c ∈ s) (hlt : a < c) : b ≤ c := h.least.2 ⟨hc, hlt⟩

/-- Where one set stands in the order of another, its steps are those of the other. -/
theorem transfer {β : Type} [LinearOrder β] {u : Set β} {R : α → β → Prop} {x y : β}
    (hord : ∀ {a b x y}, R a x → R b y → (a < b ↔ x < y)) (hback : ∀ x ∈ u, ∃ a ∈ s, R a x)
    (h : Next s a b) (hx : R a x) (hy : R b y) (hxu : x ∈ u) (hyu : y ∈ u) : Next u x y := by
  refine ⟨hxu, ⟨hyu, (hord hx hy).mp h.lt⟩, ?_⟩
  rintro z ⟨hz, hxz⟩
  obtain ⟨c, hc, hcz⟩ := hback z hz
  have hle : b ≤ c := h.le_of_mem hc ((hord hx hcz).mpr hxz)
  exact not_lt.mp fun hzy => absurd ((hord hcz hy).mpr hzy) (not_lt.mpr hle)

end Next

section Finite

variable [LocallyFiniteOrderBot α]

/-- A member that another one follows has a next member. -/
theorem exists_next (ha : a ∈ s) (hb : b ∈ s) (hab : a < b) : ∃ c ≤ b, Next s a c := by
  have hfin : {c | c ∈ s ∧ a < c ∧ c ≤ b}.Finite := (Set.finite_Iic b).subset fun c hc => hc.2.2
  obtain ⟨c, ⟨hc, hac, hcb⟩, hmin⟩ := Set.exists_min_image _ id hfin ⟨b, hb, hab, le_rfl⟩
  refine ⟨c, hcb, ha, ⟨hc, hac⟩, ?_⟩
  rintro d ⟨hd, had⟩
  rcases le_total d b with hdb | hbd
  · exact hmin d ⟨hd, had, hdb⟩
  · exact hcb.trans hbd

/-- Between a member up to `a` and one after it there is a step over `a`. -/
theorem exists_step (hbefore : ∃ c ∈ s, c ≤ a) (hafter : ∃ c ∈ s, a < c) :
    ∃ c d, Next s c d ∧ c ≤ a ∧ a < d := by
  obtain ⟨b, hb, hba⟩ := hbefore
  obtain ⟨e, he, hae⟩ := hafter
  have hfin : {c | c ∈ s ∧ c ≤ a}.Finite := (Set.finite_Iic a).subset fun c hc => hc.2
  obtain ⟨c, ⟨hc, hca⟩, hmax⟩ := Set.exists_max_image _ id hfin ⟨b, hb, hba⟩
  obtain ⟨d, -, hd⟩ := exists_next hc he (hca.trans_lt hae)
  refine ⟨c, d, hd, hca, ?_⟩
  by_contra hda
  have hle : d ≤ c := hmax d ⟨hd.mem_next, not_lt.mp hda⟩
  exact absurd hd.lt (not_lt.mpr hle)

/-- The steps of a larger set lie within those of a subset that reaches around them. -/
theorem Next.within (hts : t ⊆ s) (h : Next s a b) (hbefore : ∃ c ∈ t, c ≤ a)
    (hafter : ∃ c ∈ t, a < c) : ∃ c d, Next t c d ∧ c ≤ a ∧ b ≤ d := by
  obtain ⟨c, d, hd, hca, had⟩ := exists_step hbefore hafter
  exact ⟨c, d, hd, hca, h.le_of_mem (hts hd.mem_next) had⟩

end Finite

/-! ## Strides -/

/-- From each member another one is at most `n` further on. -/
def Stride (s : Set Nat) (n : Nat) : Prop := ∀ a ∈ s, ∃ b ∈ s, a < b ∧ b ≤ a + n

/-- Of two successive members before a member of `t` one belongs to `t`. -/
def MissesNoTwo (s t : Set Nat) : Prop :=
  ∀ a b c, Next s a b → b < c → c ∈ t → a ∈ t ∨ b ∈ t

variable {s t : Set Nat} {a b n : Nat}

theorem Stride.le_add (h : Stride s n) (hn : Next s a b) : b ≤ a + n := by
  obtain ⟨c, hc, hac, hle⟩ := h a hn.mem
  exact (hn.le_of_mem hc hac).trans hle

theorem Stride.exists_next (h : Stride s n) (ha : a ∈ s) : ∃ b ≤ a + n, Next s a b := by
  obtain ⟨c, hc, hac, hle⟩ := h a ha
  obtain ⟨b, hbc, hb⟩ := Successive.exists_next ha hc hac
  exact ⟨b, hbc.trans hle, hb⟩

/-- Where no two successive members are missed, a step is at most two strides. -/
theorem Stride.two (h : Stride s n) (hts : t ⊆ s) (hmiss : MissesNoTwo s t) (hn : Next t a b) :
    b ≤ a + 2 * n := by
  obtain ⟨c, hc, hnextc⟩ := h.exists_next (hts hn.mem)
  obtain ⟨d, hd, hnextd⟩ := h.exists_next hnextc.mem_next
  by_contra hfar
  -- a step longer than two strides passes over `c` and `d`, one of which is a member
  rcases hmiss c d b hnextd (by omega) hn.mem_next with hmem | hmem
  · have := hn.le_of_mem hmem hnextc.lt
    omega
  · have := hn.le_of_mem hmem (hnextc.lt.trans hnextd.lt)
    omega

end NanFung.Successive
