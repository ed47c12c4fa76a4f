import NanFung.Lib.Proc

/-!
# Procedures that ask the outside

A `Proc` whose state is the log of what it has asked. What is outside answers by the log, so that a
strategy of any kind may stand for it. `Along` says of every entry that it may come after the entries
before it, which is how a safety property of a log is kept from one question to the next.
-/

namespace NanFung

variable {α β ε : Type}

/-! ## Logs -/

/-- Every entry may come after the ones before it. -/
def Along (allowed : List α → α → Prop) (log : List α) : Prop :=
  ∀ before a after, log = before ++ a :: after → allowed before a

variable {allowed allowed' : List α → α → Prop} {log : List α} {a : α}

namespace Along

theorem nil : Along allowed [] := fun _ _ _ h => absurd h (by simp)

/-- One more entry. -/
theorem append (h : Along allowed log) (ha : allowed log a) : Along allowed (log ++ [a]) := by
  intro before b after heq
  rcases List.eq_nil_or_concat after with rfl | ⟨after, c, rfl⟩
  · obtain ⟨rfl, hb⟩ := List.append_inj' heq rfl
    obtain rfl := List.singleton_inj.mp hb
    exact ha
  · rw [List.concat_eq_append, ← List.cons_append, ← List.append_assoc] at heq
    obtain ⟨hlog, -⟩ := List.append_inj' heq rfl
    exact h before b after hlog

/-- A shorter log. -/
theorem of_append {more : List α} (h : Along allowed (log ++ more)) : Along allowed log :=
  fun before a after heq => h before a (after ++ more) (by rw [heq, List.append_assoc, List.cons_append])

theorem last (h : Along allowed (log ++ [a])) : allowed log a := h log a [] rfl

theorem mono (hle : ∀ before a, allowed before a → allowed' before a) (h : Along allowed log) :
    Along allowed' log := fun before a after heq => hle before a (h before a after heq)

/-- Entries of which each comes after at most `n` others are at most `n + 1`. -/
theorem countP_le {p : α → Bool} {n : Nat} (h : Along (fun before a => p a → before.countP p ≤ n) log) :
    log.countP p ≤ n + 1 := by
  induction log using List.reverseRecOn with
  | nil => exact Nat.zero_le _
  | append_singleton log a ih =>
    rw [List.countP_append, List.countP_singleton]
    split
    · next ha =>
      have := h.last ha
      omega
    · exact ih h.of_append

end Along

/-! ## Questions -/

namespace Proc

/-- Ask what is outside, and log the question with its answer. -/
def ask (answer : List α → β) (entry : β → α) : Proc (List α) ε β := fun log =>
  (.ok (answer log), log ++ [entry (answer log)])

@[simp] theorem run_ask (answer : List α → β) (entry : β → α) :
    (ask answer entry : Proc (List α) ε β).run log = (.ok (answer log), log ++ [entry (answer log)]) :=
  rfl

/-- What a procedure leaves of an invariant, on every exit. -/
def Keeps (I : List α → Prop) (log log' : List α) : Prop := I log → I log'

variable {I P : List α → Prop} {Q : β → List α → Prop}

instance : Std.Refl (Keeps I) := ⟨fun _ h => h⟩

instance : IsTrans (List α) (Keeps I) := ⟨fun _ _ _ h h' hI => h' (h hI)⟩

theorem Spec.ask {answer : List α → β} {entry : β → α}
    (hallowed : ∀ log, P log → allowed log (entry (answer log)))
    (hQ : ∀ log, P log → Q (answer log) (log ++ [entry (answer log)])) :
    Spec (Keeps (Along allowed)) P (Proc.ask answer entry : Proc (List α) ε β) Q := fun log hP =>
  ⟨fun h => h.append (hallowed log hP), fun b hb => by
    obtain rfl := Except.ok.inj hb
    exact hQ log hP⟩

/-- What a precondition says of no state may be used as a hypothesis. -/
theorem Spec.of_and {σ : Type} {R : σ → σ → Prop} {P : σ → Prop} {F : Prop} {p : Proc σ ε β}
    {Q : β → σ → Prop} (h : F → Spec R P p Q) : Spec R (fun s => P s ∧ F) p Q :=
  fun s hs => h hs.2 s hs.1

/-- The invariant of a log that a procedure starts. -/
theorem Spec.along {p : Proc (List α) ε β} (h : Spec (Keeps (Along allowed)) P p Q) (hP : P []) :
    Along allowed (p.run []).2 := (h [] hP).1 .nil

end Proc

end NanFung
