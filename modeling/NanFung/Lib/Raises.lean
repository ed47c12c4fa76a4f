import NanFung.Lib.Proc

/-!
# What may be raised

`Raises p x`: an exception that `x` ends with is one of `p`. A sequence raises what its parts raise.
-/

namespace NanFung

variable {ε α β : Type} {p : ε → Prop}

theorem ok_bind {a : α} {f : α → Except ε β} : ((.ok a : Except ε α) >>= f) = f a := rfl

theorem orThrow_some_bind {a : α} {e : ε} {f : α → Except ε β} :
    (orThrow (some a) e >>= f) = f a := rfl

def Raises (p : ε → Prop) (x : Except ε α) : Prop := ∀ e, x = .error e → p e

theorem Raises.ok (a : α) : Raises p (.ok a : Except ε α) := fun _ h => nomatch h

theorem Raises.error {e : ε} (h : p e) : Raises p (.error e : Except ε α) := fun _ he =>
  Except.error.inj he ▸ h

theorem Raises.require {c : Prop} [Decidable c] {e : ε} (h : p e) : Raises p (NanFung.require c e) :=
  fun _ he => (require_error he).2 ▸ h

theorem Raises.orThrow {o : Option α} {e : ε} (h : p e) : Raises p (NanFung.orThrow o e) :=
  fun _ he => (orThrow_error he).2 ▸ h

theorem Raises.bind {x : Except ε α} {f : α → Except ε β} (hx : Raises p x)
    (hf : ∀ a, x = .ok a → Raises p (f a)) : Raises p (x >>= f) := by
  intro e h
  rcases bind_error h with h | ⟨a, ha, h⟩
  · exact hx e h
  · exact hf a ha e h

/-- A sequence of which the first part raises nothing else, whatever it returns. -/
theorem Raises.andThen {x : Except ε α} {f : α → Except ε β} (hx : Raises p x)
    (hf : ∀ a, Raises p (f a)) : Raises p (x >>= f) := hx.bind fun a _ => hf a

theorem Raises.mono {q : ε → Prop} {x : Except ε α} (h : Raises p x) (hpq : ∀ e, p e → q e) :
    Raises q x := fun e he => hpq e (h e he)

/-- What raises nothing returns. -/
theorem Raises.exists_ok {x : Except ε α} (h : Raises (fun _ => False) x) : ∃ a, x = .ok a := by
  cases x with
  | error e => exact (h e rfl).elim
  | ok a => exact ⟨a, rfl⟩

/-- What raises something does not end with an exception of another kind. -/
theorem Raises.not {x : Except ε α} {e : ε} (h : x = .error e) (he : ¬ p e) : ¬ Raises p x :=
  fun hx => he (hx e h)

end NanFung
