import NanFung.Lib.Proc
import Mathlib.Data.List.Forall2

/-!
# Loops that may throw

What the normal end of a loop says about its items: `mapM` relates each item to its result, `forM`
passes every item, and an invariant of the body is one of `foldlM`.
-/

namespace NanFung

variable {ε α β σ : Type}

theorem mapM_ok {f : α → Except ε β} {l : List α} {l' : List β} :
    l.mapM f = .ok l' ↔ List.Forall₂ (fun a b => f a = .ok b) l l' := by
  induction l generalizing l' with
  | nil =>
    rw [List.mapM_nil, pure_ok, List.forall₂_nil_left_iff]
    exact eq_comm
  | cons a l ih =>
    rw [List.mapM_cons, List.forall₂_cons_left_iff]
    simp only [bind_ok, pure_ok, ih]
    constructor
    · rintro ⟨b, hb, bs, hbs, rfl⟩
      exact ⟨b, bs, hb, hbs, rfl⟩
    · rintro ⟨b, bs, hb, hbs, rfl⟩
      exact ⟨b, hb, bs, hbs, rfl⟩

/-- A result of related lists comes from an item. -/
theorem exists_of_mem_right {R : α → β → Prop} {l : List α} {l' : List β}
    (h : List.Forall₂ R l l') {b : β} (hb : b ∈ l') : ∃ a ∈ l, R a b := by
  induction h with
  | nil => exact nomatch hb
  | cons hd _ ih =>
    cases List.mem_cons.mp hb with
    | inl he => exact ⟨_, List.mem_cons_self, he ▸ hd⟩
    | inr hb =>
      obtain ⟨a, ha, hR⟩ := ih hb
      exact ⟨a, List.mem_cons_of_mem _ ha, hR⟩

theorem forM_ok {f : α → Except ε Unit} {l : List α} {u : Unit} :
    l.forM f = .ok u ↔ ∀ a ∈ l, f a = .ok u := by
  induction l with
  | nil => exact ⟨fun _ a ha => (nomatch ha), fun _ => rfl⟩
  | cons a l ih =>
    have hcons : (a :: l).forM f = (f a >>= fun _ => l.forM f) := rfl
    rw [hcons, bind_ok]
    constructor
    · rintro ⟨v, ha, hl⟩ b hb
      cases List.mem_cons.mp hb with
      | inl he => exact he ▸ ha
      | inr hb => exact ih.mp hl b hb
    · intro h
      exact ⟨u, h a List.mem_cons_self, ih.mpr fun b hb => h b (List.mem_cons_of_mem _ hb)⟩

/-- The state after a loop satisfies what every step keeps. -/
theorem foldlM_ok {P : σ → Prop} {f : σ → α → Except ε σ} {l : List α} {s t : σ} (hs : P s)
    (hstep : ∀ a ∈ l, ∀ s t, P s → f s a = .ok t → P t) (h : l.foldlM f s = .ok t) : P t := by
  induction l generalizing s with
  | nil =>
    rw [List.foldlM_nil, pure_ok] at h
    rwa [← h]
  | cons a l ih =>
    rw [List.foldlM_cons, bind_ok] at h
    obtain ⟨u, hu, h⟩ := h
    exact ih (hstep a List.mem_cons_self s u hs hu)
      (fun b hb => hstep b (List.mem_cons_of_mem _ hb)) h

/-- Every item of a loop that ends has had its step. -/
theorem foldlM_ok_mem {f : σ → α → Except ε σ} {l : List α} {s t : σ} (h : l.foldlM f s = .ok t)
    {a : α} (ha : a ∈ l) : ∃ u v, f u a = .ok v := by
  induction l generalizing s with
  | nil => exact nomatch ha
  | cons b l ih =>
    rw [List.foldlM_cons, bind_ok] at h
    obtain ⟨u, hu, h⟩ := h
    cases List.mem_cons.mp ha with
    | inl he => exact ⟨s, u, he ▸ hu⟩
    | inr ha => exact ih h ha

end NanFung
