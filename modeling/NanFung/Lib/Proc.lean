import Mathlib.Tactic
import Mathlib.Logic.Relation

/-!
# Procedures over a transactional state

A `Proc σ ε α` runs on a state and returns a result or an exception together with the state it
leaves behind: unlike `StateT σ (Except ε)`, what was written before an exception stays written.
`atomically` embeds a transaction, whose writes are discarded when it fails. `Spec` is the partial
correctness judgement the development uses for code made of several transactions: from a
precondition, the final state is related to the initial one by `R` (on every exit), and a normal
exit satisfies the postcondition.
-/

namespace NanFung

/-! ## Guards and sequencing in `Except` -/

/-- Continue only if the condition holds. -/
def require {ε : Type} (c : Prop) [Decidable c] (e : ε) : Except ε Unit :=
  if c then .ok () else .error e

/-- The value of an option, or the error. -/
def orThrow {ε α : Type} (o : Option α) (e : ε) : Except ε α :=
  match o with
  | some a => .ok a
  | none => .error e

/-- What all characters of a text are asked is decided along the text. -/
@[reducible] def decidableChars {p : Char → Prop} [DecidablePred p] (text : List Char) :
    Decidable (∀ c ∈ text, p c) := List.decidableBAll p text

section Except

variable {ε α β : Type}

@[simp] theorem require_ok {c : Prop} [Decidable c] {e : ε} {u : Unit} :
    require c e = .ok u ↔ c := by
  unfold require
  split <;> simp [*]

@[simp] theorem orThrow_ok {o : Option α} {e : ε} {a : α} :
    orThrow o e = .ok a ↔ o = some a := by
  cases o <;> simp [orThrow]

@[simp] theorem bind_ok {x : Except ε α} {f : α → Except ε β} {b : β} :
    (x >>= f) = .ok b ↔ ∃ a, x = .ok a ∧ f a = .ok b := by
  cases x with
  | error e => exact ⟨fun h => (nomatch h), fun ⟨_, h, _⟩ => (nomatch h)⟩
  | ok a => exact ⟨fun h => ⟨a, rfl, h⟩, fun ⟨_, h, hf⟩ => by cases h; exact hf⟩

@[simp] theorem pure_ok {a b : α} : (pure a : Except ε α) = .ok b ↔ a = b :=
  ⟨fun h => Except.ok.inj h, fun h => congrArg _ h⟩

@[simp] theorem throw_ok {e : ε} {b : α} : (throw e : Except ε α) = .ok b ↔ False :=
  ⟨fun h => (nomatch h), False.elim⟩

theorem ok_of_isOk {x : Except ε α} (h : x.isOk = true) : ∃ a, x = .ok a := by
  cases x with
  | error e => exact nomatch h
  | ok a => exact ⟨a, rfl⟩

theorem ok_of_toOption {x : Except ε α} {a : α} (h : x.toOption = some a) : x = .ok a := by
  cases x with
  | error e => exact nomatch h
  | ok b => exact congrArg Except.ok (Option.some.inj h)

theorem ok_of_toOption_isSome {x : Except ε α} (h : x.toOption.isSome) : ∃ a, x = .ok a :=
  (Option.isSome_iff_exists.mp h).imp fun _ => ok_of_toOption

/-! An exception a sequence does not raise is one that none of its parts raises. -/

theorem require_ne {c : Prop} [Decidable c] {e e' : ε} (h : c ∨ e ≠ e') :
    require c e ≠ .error e' := by
  unfold require
  split
  · exact fun h => nomatch h
  · next hc => exact fun he => (h.resolve_left hc) (Except.error.inj he)

theorem orThrow_ne {o : Option α} {e e' : ε} (h : e ≠ e') : orThrow o e ≠ .error e' := by
  cases o with
  | none => exact fun he => h (Except.error.inj he)
  | some a => exact fun he => nomatch he

theorem bind_ne {x : Except ε α} {f : α → Except ε β} {e : ε} (hx : x ≠ .error e)
    (hf : ∀ a, x = .ok a → f a ≠ .error e) : (x >>= f) ≠ .error e := by
  cases x with
  | error e' => exact fun h => hx (congrArg _ (Except.error.inj h))
  | ok a => exact hf a rfl

/-! Where the exception of a sequence came from. -/

theorem require_error {c : Prop} [Decidable c] {e e' : ε} (h : require c e = .error e') :
    ¬c ∧ e = e' := by
  unfold require at h
  split at h
  · exact nomatch h
  · next hc => exact ⟨hc, Except.error.inj h⟩

theorem orThrow_error {o : Option α} {e e' : ε} (h : orThrow o e = .error e') : o = none ∧ e = e' := by
  cases o with
  | none => exact ⟨rfl, Except.error.inj h⟩
  | some a => exact nomatch h

theorem bind_error {x : Except ε α} {f : α → Except ε β} {e : ε} (h : (x >>= f) = .error e) :
    x = .error e ∨ ∃ a, x = .ok a ∧ f a = .error e := by
  cases x with
  | error e' =>
    have he : (.error e' : Except ε β) = .error e := h
    exact Or.inl (congrArg Except.error (Except.error.inj he))
  | ok a => exact Or.inr ⟨a, rfl, h⟩

theorem bind_of_error {x : Except ε α} {f : α → Except ε β} {e : ε} (h : x = .error e) :
    (x >>= f) = .error e := by
  rw [h]
  rfl

/-- A fold of fallible steps: what one step relates and maintains, the whole fold does. -/
theorem foldlM_ok_rel {σ : Type} {R : σ → σ → Prop} [Std.Refl R] [IsTrans σ R] {I : σ → Prop}
    {f : σ → α → Except ε σ} {l : List α} {s s' : σ}
    (hstep : ∀ a ∈ l, ∀ s s', I s → f s a = .ok s' → R s s' ∧ I s')
    (hI : I s) (h : l.foldlM f s = .ok s') : R s s' ∧ I s' := by
  induction l generalizing s with
  | nil =>
    simp only [List.foldlM_nil, pure_ok] at h
    subst h
    exact ⟨Std.Refl.refl s, hI⟩
  | cons a l ih =>
    simp only [List.foldlM_cons, bind_ok] at h
    obtain ⟨u, hu, h⟩ := h
    obtain ⟨hRu, hIu⟩ := hstep a (by simp) s u hI hu
    obtain ⟨hRs, hIs⟩ := ih (fun b hb => hstep b (by simp [hb])) hIu h
    exact ⟨IsTrans.trans _ _ _ hRu hRs, hIs⟩

end Except

/-! ## Procedures -/

/-- A procedure: a result or an exception, and in both cases the state left behind. -/
def Proc (σ ε α : Type) : Type := σ → Except ε α × σ

namespace Proc

variable {σ ε α β : Type}

def run (p : Proc σ ε α) (s : σ) : Except ε α × σ := p s

instance : Monad (Proc σ ε) where
  pure a := fun s => (.ok a, s)
  bind p f := fun s =>
    match p s with
    | (.ok a, s') => f a s'
    | (.error e, s') => (.error e, s')

instance : MonadExceptOf ε (Proc σ ε) where
  throw e := fun s => (.error e, s)
  tryCatch p h := fun s =>
    match p s with
    | (.ok a, s') => (.ok a, s')
    | (.error e, s') => h e s'

/-- Run a transaction: commit its writes, or roll all of them back when it fails. -/
def atomically (t : σ → Except ε (α × σ)) : Proc σ ε α := fun s =>
  match t s with
  | .ok (a, s') => (.ok a, s')
  | .error e => (.error e, s)

/-- Read the state without writing. -/
def query (f : σ → Except ε α) : Proc σ ε α := fun s => (f s, s)

@[simp] theorem run_pure (a : α) (s : σ) : (pure a : Proc σ ε α).run s = (.ok a, s) := rfl

@[simp] theorem run_throw (e : ε) (s : σ) : (throw e : Proc σ ε α).run s = (.error e, s) := rfl

theorem run_bind (p : Proc σ ε α) (f : α → Proc σ ε β) (s : σ) :
    (p >>= f).run s =
      match p.run s with
      | (.ok a, s') => (f a).run s'
      | (.error e, s') => (.error e, s') := rfl

theorem run_bind_of_ok {p : Proc σ ε α} {f : α → Proc σ ε β} {s s' : σ} {a : α}
    (h : p.run s = (.ok a, s')) : (p >>= f).run s = (f a).run s' := by
  rw [run_bind, h]

theorem run_bind_of_error {p : Proc σ ε α} {f : α → Proc σ ε β} {s s' : σ} {e : ε}
    (h : p.run s = (.error e, s')) : (p >>= f).run s = (.error e, s') := by
  rw [run_bind, h]

theorem run_tryCatch (p : Proc σ ε α) (h : ε → Proc σ ε α) (s : σ) :
    (tryCatch p h : Proc σ ε α).run s =
      match p.run s with
      | (.ok a, s') => (.ok a, s')
      | (.error e, s') => (h e).run s' := rfl

theorem run_atomically (t : σ → Except ε (α × σ)) (s : σ) :
    (atomically t).run s =
      match t s with
      | .ok (a, s') => (.ok a, s')
      | .error e => (.error e, s) := rfl

theorem run_atomically_of_ok {t : σ → Except ε (α × σ)} {s s' : σ} {a : α}
    (h : t s = .ok (a, s')) : (atomically t).run s = (.ok a, s') := by
  rw [run_atomically, h]

theorem run_atomically_of_error {t : σ → Except ε (α × σ)} {s : σ} {e : ε}
    (h : t s = .error e) : (atomically t).run s = (.error e, s) := by
  rw [run_atomically, h]

@[simp] theorem run_query (f : σ → Except ε α) (s : σ) :
    (query f : Proc σ ε α).run s = (f s, s) := rfl

/-! ## The judgement -/

/-- From `P`, every exit is `R`-related to the start and a normal exit satisfies `Q`. -/
def Spec (R : σ → σ → Prop) (P : σ → Prop) (p : Proc σ ε α) (Q : α → σ → Prop) : Prop :=
  ∀ s, P s → R s (p.run s).2 ∧ ∀ a, (p.run s).1 = .ok a → Q a (p.run s).2

section Rules

variable {R : σ → σ → Prop} {P P' : σ → Prop} {Q Q' : α → σ → Prop}

theorem Spec.weaken {p : Proc σ ε α} (h : Spec R P p Q) (hP : ∀ s, P' s → P s)
    (hQ : ∀ a s, Q a s → Q' a s) : Spec R P' p Q' := fun s hs =>
  ⟨(h s (hP s hs)).1, fun a ha => hQ a _ ((h s (hP s hs)).2 a ha)⟩

theorem Spec.pure [Std.Refl R] (a : α) (hQ : ∀ s, P s → Q a s) :
    Spec R P (Pure.pure a : Proc σ ε α) Q := fun s hs =>
  ⟨Std.Refl.refl s, fun b hb => by cases hb; exact hQ s hs⟩

theorem Spec.throw [Std.Refl R] (e : ε) : Spec R P (throw e : Proc σ ε α) Q := fun s _ =>
  ⟨Std.Refl.refl s, fun _ h => by cases h⟩

theorem Spec.query [Std.Refl R] {f : σ → Except ε α} (hQ : ∀ s a, P s → f s = .ok a → Q a s) :
    Spec R P (Proc.query f) Q := fun s hs =>
  ⟨Std.Refl.refl s, fun a ha => hQ s a hs ha⟩

/-- A transaction: only a commit has to be related and to establish the postcondition. -/
theorem Spec.atomically [Std.Refl R] {t : σ → Except ε (α × σ)}
    (h : ∀ s a s', P s → t s = .ok (a, s') → R s s' ∧ Q a s') : Spec R P (Proc.atomically t) Q := by
  intro s hs
  rw [run_atomically]
  cases ht : t s with
  | error e => exact ⟨Std.Refl.refl s, fun _ h => by cases h⟩
  | ok r =>
    obtain ⟨a, s'⟩ := r
    obtain ⟨hR, hQ⟩ := h s a s' hs ht
    exact ⟨hR, fun b hb => by cases hb; exact hQ⟩

theorem Spec.bind [IsTrans σ R] {p : Proc σ ε α} {f : α → Proc σ ε β} {Q'' : β → σ → Prop}
    (hp : Spec R P p Q) (hf : ∀ a, Spec R (Q a) (f a) Q'') : Spec R P (p >>= f) Q'' := by
  intro s hs
  obtain ⟨hR, hQ⟩ := hp s hs
  rw [run_bind]
  rcases hrun : p.run s with ⟨_ | a, s'⟩
  · rw [hrun] at hR
    exact ⟨hR, fun _ h => by cases h⟩
  · rw [hrun] at hR hQ
    obtain ⟨hR', hQ'⟩ := hf a s' (hQ a rfl)
    exact ⟨IsTrans.trans _ _ _ hR hR', hQ'⟩

/-- Handling an exception: the handler starts from whatever the failed body left. -/
theorem Spec.tryCatch [IsTrans σ R] {p : Proc σ ε α} {h : ε → Proc σ ε α} (hp : Spec R P p Q)
    (hP : ∀ s s', P s → R s s' → P' s') (hh : ∀ e, Spec R P' (h e) Q) :
    Spec R P (tryCatch p h : Proc σ ε α) Q := by
  intro s hs
  obtain ⟨hR, hQ⟩ := hp s hs
  rw [run_tryCatch]
  rcases hrun : p.run s with ⟨e | a, s'⟩
  · rw [hrun] at hR
    obtain ⟨hR', hQ'⟩ := hh e s' (hP s s' hs hR)
    exact ⟨IsTrans.trans _ _ _ hR hR', hQ'⟩
  · rw [hrun] at hR hQ
    exact ⟨hR, hQ⟩

/-- A loop whose body keeps an invariant keeps it. -/
theorem Spec.foldlM {I : σ → Prop} [Std.Refl R] [IsTrans σ R] {f : β → α → Proc σ ε β} {l : List α}
    (hf : ∀ b, ∀ a ∈ l, Spec R I (f b a) fun _ => I) (b : β) :
    Spec R I (l.foldlM f b) fun _ => I := by
  induction l generalizing b with
  | nil => exact Spec.pure b fun _ hs => hs
  | cons a l ih =>
    rw [List.foldlM_cons]
    exact Spec.bind (hf b a (by simp)) fun b' => ih (fun c d hd => hf c d (by simp [hd])) b'

/-- What a result says by itself may be added to a postcondition. -/
theorem Spec.and_result {p : Proc σ ε α} {F : α → Prop} (h : Spec R P p Q)
    (hF : ∀ s a, (p.run s).1 = .ok a → F a) : Spec R P p fun a s => Q a s ∧ F a := fun s hs =>
  ⟨(h s hs).1, fun a ha => ⟨(h s hs).2 a ha, hF s a ha⟩⟩

/-- What the relation guarantees of the final state may be added to a postcondition. -/
theorem Spec.and_rel {p : Proc σ ε α} {I : σ → Prop} (h : Spec R P p Q)
    (hI : ∀ s s', P s → R s s' → I s') : Spec R P p fun a s => Q a s ∧ I s := fun s hs =>
  ⟨(h s hs).1, fun a ha => ⟨(h s hs).2 a ha, hI s _ hs (h s hs).1⟩⟩

end Rules

end Proc

end NanFung
