import NanFung.Lib.Proc

/-!
# Loops with a guard

A loop that collects what it makes of its items, and one that throws at the first item that a guard
refuses: it does what the loop over the items before that one does.
-/

namespace NanFung.Proc

variable {σ ε α β : Type}

/-- Run a procedure for each item in turn and collect the results. -/
def collect (f : α → Proc σ ε β) : List α → Proc σ ε (List β)
  | [] => pure []
  | a :: l => do
    let b ← f a
    let bs ← collect f l
    pure (b :: bs)

/-- Throw unless the guard admits the item. -/
def guarded (p : α → Prop) [DecidablePred p] (e : ε) (f : α → Proc σ ε β) (a : α) : Proc σ ε β :=
  if p a then f a else throw e

variable {f : α → Proc σ ε β} {p : α → Prop} [DecidablePred p] {e : ε} {l : List α} {s s' : σ}
  {bs : List β}

theorem run_of_fst {q : Proc σ ε α} {x : Except ε α} (h : (q.run s).1 = x) :
    q.run s = (x, (q.run s).2) := Prod.ext h rfl

/-- A normal end of a sequence. -/
theorem run_bind_ok {q : Proc σ ε α} {g : α → Proc σ ε β} {b : β} : (q >>= g).run s = (.ok b, s') ↔
    ∃ a s₁, q.run s = (.ok a, s₁) ∧ (g a).run s₁ = (.ok b, s') := by
  rw [run_bind]
  rcases hq : q.run s with ⟨e | a, s₁⟩
  · exact ⟨fun h => (nomatch h), fun ⟨_, _, h, _⟩ => (nomatch h)⟩
  · constructor
    · exact fun h => ⟨a, s₁, rfl, h⟩
    · rintro ⟨a', s₁', ha, h⟩
      obtain ⟨hok, rfl⟩ := Prod.mk.inj ha
      obtain rfl := Except.ok.inj hok
      exact h

/-- A normal end of a loop, by its first item. -/
theorem collect_cons_ok {a : α} : (collect f (a :: l)).run s = (.ok bs, s') ↔
    ∃ b s₁ bs', (f a).run s = (.ok b, s₁) ∧ (collect f l).run s₁ = (.ok bs', s') ∧ bs = b :: bs' := by
  simp only [collect, run_bind_ok]
  constructor
  · rintro ⟨b, s₁, hb, bs', s₂, hbs, h⟩
    obtain ⟨hok, rfl⟩ := Prod.mk.inj h
    exact ⟨b, s₁, bs', hb, hbs, (Except.ok.inj hok).symm⟩
  · rintro ⟨b, s₁, bs', hb, hbs, rfl⟩
    exact ⟨b, s₁, hb, bs', s', hbs, rfl⟩

/-- A loop that ends normally has passed its prefixes. -/
theorem collect_append_ok {l' : List α} (h : (collect f (l ++ l')).run s = (.ok bs, s')) :
    ∃ bs₁ bs₂ s₁, (collect f l).run s = (.ok bs₁, s₁) ∧ (collect f l').run s₁ = (.ok bs₂, s') := by
  induction l generalizing s bs with
  | nil => exact ⟨[], bs, s, rfl, h⟩
  | cons a l ih =>
    rw [List.cons_append, collect_cons_ok] at h
    obtain ⟨b, s₁, bs', hb, hbs, rfl⟩ := h
    obtain ⟨bs₁, bs₂, s₂, hl, hl'⟩ := ih hbs
    exact ⟨b :: bs₁, bs₂, s₂, collect_cons_ok.mpr ⟨b, s₁, bs₁, hb, hl, rfl⟩, hl'⟩

/-- A guard that admits every item is not noticed. -/
theorem collect_guarded (h : ∀ a ∈ l, p a) : collect (guarded p e f) l = collect f l := by
  induction l with
  | nil => rfl
  | cons a l ih =>
    rw [collect, collect, guarded, if_pos (h a List.mem_cons_self),
      ih fun b hb => h b (List.mem_cons_of_mem a hb)]

/-- A guard that refuses an item stops the loop there. -/
theorem run_collect_guarded (h : ¬ ∀ a ∈ l, p a) (s : σ) :
    (collect (guarded p e f) l).run s = (collect f (l.takeWhile p) >>= fun _ => throw e).run s := by
  induction l generalizing s with
  | nil => exact absurd (List.forall_mem_nil p) h
  | cons a l ih =>
    by_cases ha : p a
    · have hl : ¬ ∀ b ∈ l, p b := fun hl => h (List.forall_mem_cons.mpr ⟨ha, hl⟩)
      have hhead : guarded p e f a = f a := if_pos ha
      rw [List.takeWhile_cons_of_pos (by simpa using ha), collect, collect, hhead, run_bind, run_bind,
        run_bind]
      rcases (f a).run s with ⟨e' | b, s₁⟩
      · rfl
      · dsimp only
        rw [run_bind, run_bind, ih hl, run_bind]
        rcases (collect f (l.takeWhile p)).run s₁ with ⟨e' | bs, s₂⟩ <;> rfl
    · have hhead : guarded p e f a = throw e := if_neg ha
      rw [List.takeWhile_cons_of_neg (by simpa using ha), collect, collect, hhead]
      rfl

/-- What every item keeps, the loop keeps. -/
theorem Spec.collect {R : σ → σ → Prop} [Std.Refl R] [IsTrans σ R] {I : σ → Prop}
    (h : ∀ a ∈ l, Spec R I (f a) fun _ => I) : Spec R I (Proc.collect f l) fun _ => I := by
  induction l with
  | nil => exact Spec.pure [] fun _ hs => hs
  | cons a l ih =>
    refine Spec.bind (h a List.mem_cons_self) fun b => ?_
    refine Spec.bind (ih fun c hc => h c (List.mem_cons_of_mem a hc)) fun bs => ?_
    exact Spec.pure _ fun _ hs => hs

end NanFung.Proc
