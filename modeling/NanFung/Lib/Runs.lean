import Mathlib.Logic.Basic

/-!
# Runs of a transition system

A system is a partial step function: `step s a = some t` if the action `a` is enabled in `s` and
leads to `t`. `Reached` collects the states a run of permitted actions leads to. An invariant is
proved by one case for each action (`Reached.invariant`), what an invariant says of the next step is
`Reached.step_invariant`, and a concrete run is replayed by evaluation (`Reached.replay`).
-/

namespace NanFung

variable {σ α : Type} {step : σ → α → Option σ} {permits permits' : σ → α → Prop} {start s t : σ}

/-- The states that runs of permitted actions reach from a state. -/
inductive Reached (step : σ → α → Option σ) (permits : σ → α → Prop) (start : σ) : σ → Prop
  | start : Reached step permits start start
  | next {s t : σ} {a : α} (before : Reached step permits start s) (permitted : permits s a)
      (taken : step s a = some t) : Reached step permits start t

/-- Every action is permitted. -/
def Anything (_ : σ) (_ : α) : Prop := True

namespace Reached

/-- What holds at the start and survives every permitted step holds in every state reached. -/
theorem invariant {I : σ → Prop} (hstart : I start)
    (hstep : ∀ s a t, I s → permits s a → step s a = some t → I t)
    (h : Reached step permits start s) : I s := by
  induction h with
  | start => exact hstart
  | next before permitted taken ih => exact hstep _ _ _ ih permitted taken

/-- An invariant proved with the help of another one. -/
theorem invariant_of {I J : σ → Prop} (hI : ∀ s, Reached step permits start s → I s)
    (hstart : J start) (hstep : ∀ s a t, I s → J s → permits s a → step s a = some t → J t)
    (h : Reached step permits start s) : J s := by
  induction h with
  | start => exact hstart
  | next before permitted taken ih => exact hstep _ _ _ (hI _ before) ih permitted taken

/-- With fewer actions permitted fewer states are reached. -/
theorem mono (hle : ∀ s a, permits s a → permits' s a) (h : Reached step permits start s) :
    Reached step permits' start s := by
  induction h with
  | start => exact .start
  | next before permitted taken ih => exact .next ih (hle _ _ permitted) taken

theorem anything (h : Reached step permits start s) : Reached step Anything start s :=
  h.mono fun _ _ _ => trivial

end Reached

/-- The state a list of actions leads to, if each is enabled when its turn comes. -/
def replay (step : σ → α → Option σ) (s : σ) : List α → Option σ
  | [] => some s
  | a :: as => (step s a).bind fun t => replay step t as

/-- Every action of the list is permitted when its turn comes. -/
def Permitted (step : σ → α → Option σ) (permits : σ → α → Prop) (s : σ) : List α → Prop
  | [] => True
  | a :: as => permits s a ∧ ∀ t, step s a = some t → Permitted step permits t as

instance Permitted.decidable [∀ s a, Decidable (permits s a)] :
    ∀ (s : σ) (as : List α), Decidable (Permitted step permits s as)
  | _, [] => isTrue trivial
  | s, a :: as =>
    match h : step s a with
    | none => decidable_of_iff (permits s a) (by simp [Permitted, h])
    | some t =>
      have := Permitted.decidable t as
      decidable_of_iff (permits s a ∧ Permitted step permits t as) (by simp [Permitted, h])

theorem permitted_anything (s : σ) (as : List α) : Permitted step Anything s as := by
  induction as generalizing s with
  | nil => exact trivial
  | cons a as ih => exact ⟨trivial, fun t _ => ih t⟩

theorem Reached.replay {s₀ : σ} {as : List α} (h : Reached step permits start s₀)
    (hpermitted : Permitted step permits s₀ as) (hrun : NanFung.replay step s₀ as = some t) :
    Reached step permits start t := by
  induction as generalizing s₀ with
  | nil =>
    cases hrun
    exact h
  | cons a as ih =>
    obtain ⟨u, hu, hrest⟩ := Option.bind_eq_some_iff.mp hrun
    exact ih (h.next hpermitted.1 hu) (hpermitted.2 u hu) hrest

end NanFung
