import Mathlib.Data.List.Sort

/-!
# Ledgers of replayed items

A package is a list of items of ascending rank, a ledger the list of what the items that were run look
like. A package continues a ledger if the ledger is what a prefix of the package looks like
(`split_iff`), and the state behind the ledger is then carried on by the rest of the package alone
(`replayed_append`).
-/

namespace NanFung.Ledger

variable {α ν κ σ : Type} [LinearOrder κ]

/-! ## Replaying -/

section Replay

variable (exec : α → σ → Option σ)

/-- What the items make of a state when they are run in order. -/
def replayed (s : σ) (items : List α) : Option σ := items.foldlM (fun s a => exec a s) s

@[simp] theorem replayed_nil (s : σ) : replayed exec s [] = some s := rfl

@[simp] theorem replayed_cons (s : σ) (a : α) (items : List α) :
    replayed exec s (a :: items) = (exec a s).bind fun t => replayed exec t items := rfl

theorem replayed_append (s : σ) (done rest : List α) :
    replayed exec s (done ++ rest) = (replayed exec s done).bind fun t => replayed exec t rest :=
  List.foldlM_append

end Replay

/-! ## Ascending lists -/

variable {rank : ν → κ} {view : α → ν} {log : List ν} {items : List α}

/-- The ranks strictly increase along the list. -/
def Ascending (rank : ν → κ) (log : List ν) : Prop := log.Pairwise fun a b => rank a < rank b

theorem ascending_map :
    Ascending rank (items.map view) ↔ Ascending (fun a => rank (view a)) items :=
  List.pairwise_map

theorem Ascending.eq_of_rank {a b : ν} (h : Ascending rank log) (ha : a ∈ log) (hb : b ∈ log)
    (hab : rank a = rank b) : a = b := by
  by_contra hne
  have hlt : rank a < rank b ∨ rank b < rank a :=
    List.Pairwise.forall_of_forall_of_flip (R := fun a b => a ≠ b → rank a < rank b ∨ rank b < rank a)
      (fun x _ hx => absurd rfl hx) (h.imp fun hlt _ => Or.inl hlt) (h.imp fun hlt _ => Or.inr hlt)
      ha hb hne
  rcases hlt with hlt | hlt
  · exact absurd hab hlt.ne
  · exact absurd hab hlt.ne'

/-- Two ascending lists with the same members are the same. -/
theorem Ascending.eq_of_mem_iff {log' : List ν} (h : Ascending rank log) (h' : Ascending rank log')
    (hmem : ∀ e, e ∈ log ↔ e ∈ log') : log = log' := by
  have : Std.Irrefl fun a b : ν => rank a < rank b := ⟨fun a => lt_irrefl (rank a)⟩
  exact List.Pairwise.eq_of_mem_iff h h' hmem

/-- A list splits into the items that satisfy a condition and those that do not, if the former come
first. -/
theorem eq_filter_append {p : α → Bool} {f : α → κ} (h : Ascending f items)
    (hbelow : ∀ a ∈ items, ∀ b ∈ items, p a → p b = false → f a < f b) :
    items = items.filter p ++ items.filter fun a => !p a := by
  apply Ascending.eq_of_mem_iff h
  · apply List.pairwise_append.mpr
    refine ⟨h.sublist List.filter_sublist, h.sublist List.filter_sublist, ?_⟩
    intro a ha b hb
    rw [List.mem_filter] at ha hb
    exact hbelow a ha.1 b hb.1 ha.2 (by simpa using hb.2)
  · intro a
    simp only [List.mem_append, List.mem_filter]
    cases p a <;> simp

/-! ## Continuing a ledger -/

/-- The items whose rank is not in the ledger. -/
def pending (rank : ν → κ) (view : α → ν) (log : List ν) (items : List α) : List α :=
  items.filter fun a => rank (view a) ∉ log.map rank

theorem mem_pending {a : α} :
    a ∈ pending rank view log items ↔ a ∈ items ∧ rank (view a) ∉ log.map rank := by
  rw [pending, List.mem_filter, decide_eq_true_iff]

/-- A ledger is what a prefix of the package looks like, and the rest is what is pending, if every entry
is of the package and what is pending ranks above all entries. -/
theorem split_iff (hlog : Ascending rank log) (hitems : Ascending (fun a => rank (view a)) items) :
    ((∀ e ∈ log, e ∈ items.map view) ∧
        ∀ a ∈ pending rank view log items, ∀ e ∈ log, rank e < rank (view a)) ↔
      ∃ done, items = done ++ pending rank view log items ∧ done.map view = log := by
  constructor
  · intro h
    obtain ⟨hall, habove⟩ := h
    refine ⟨items.filter fun a => rank (view a) ∈ log.map rank, ?_, ?_⟩
    · simp only [pending, decide_not]
      apply eq_filter_append hitems
      intro a ha b hb hpa hpb
      obtain ⟨e, he, hrank⟩ := List.mem_map.mp (of_decide_eq_true hpa)
      rw [← hrank]
      exact habove b (mem_pending.mpr ⟨hb, of_decide_eq_false hpb⟩) e he
    · have hasc : Ascending (fun a => rank (view a))
          (items.filter fun a => rank (view a) ∈ log.map rank) := hitems.sublist List.filter_sublist
      apply Ascending.eq_of_mem_iff (ascending_map.mpr hasc) hlog
      intro e
      simp only [List.mem_map, List.mem_filter, decide_eq_true_eq]
      constructor
      · intro h
        obtain ⟨a, ⟨ha, e', he', hrank⟩, hview⟩ := h
        obtain ⟨a', ha', hview'⟩ := List.mem_map.mp (hall e' he')
        have hsame : a = a' := hitems.eq_of_rank ha ha' (by rw [hview', hrank])
        rw [← hview, hsame, hview']
        exact he'
      · intro he
        obtain ⟨a, ha, hview⟩ := List.mem_map.mp (hall e he)
        exact ⟨a, ⟨ha, e, he, by rw [hview]⟩, hview⟩
  · intro h
    obtain ⟨done, hsplit, hdone⟩ := h
    rw [← hdone]
    constructor
    · intro e he
      rw [hsplit, List.map_append]
      exact List.mem_append_left _ he
    · intro a ha e he
      obtain ⟨d, hd, hview⟩ := List.mem_map.mp he
      have hpair : Ascending (fun a => rank (view a)) (done ++ pending rank view log items) :=
        hsplit ▸ hitems
      rw [← hview]
      apply (List.pairwise_append.mp hpair).2.2 d hd a
      rw [hdone] at ha
      exact ha

end NanFung.Ledger
