import Mathlib.Logic.Function.Basic
import NanFung.Lib.Runs

/-!
# Write-once registers

A family of registers, each empty until its first write. A write of another value than the one that a
register holds is refused. So all writes to one register that ever succeed agree, in any run; and a
system whose steps are runs of the registers inherits this (`Reached.simulate`).
-/

namespace NanFung

section Simulation

variable {σ τ α β : Type} {step : σ → α → Option σ} {permits : σ → α → Prop}
  {step' : τ → β → Option τ} {permits' : τ → β → Prop} {s t u : σ}

theorem Reached.trans (h : Reached step permits s t) (h' : Reached step permits t u) :
    Reached step permits s u := by
  induction h' with
  | start => exact h
  | next before permitted taken ih => exact ih.next permitted taken

/-- What each step simulates, a run simulates. -/
theorem Reached.simulate {abs : σ → τ} {I : σ → Prop} (hI : ∀ s a t, I s → permits s a →
      step s a = some t → I t)
    (hstep : ∀ s a t, I s → permits s a → step s a = some t →
      Reached step' permits' (abs s) (abs t)) (hs : I s)
    (h : Reached step permits s t) : Reached step' permits' (abs s) (abs t) := by
  have hboth : I t ∧ Reached step' permits' (abs s) (abs t) := by
    induction h with
    | start => exact ⟨hs, .start⟩
    | next before permitted taken ih =>
      exact ⟨hI _ _ _ ih.1 permitted taken, ih.2.trans (hstep _ _ _ ih.1 permitted taken)⟩
  exact hboth.2

end Simulation

namespace Register

variable {ι δ : Type} [DecidableEq ι] [DecidableEq δ] {r r₁ r₂ r₃ : ι → Option δ} {i : ι} {d d' : δ}

/-- A write of a value to a register, if it holds no other one. -/
def write (r : ι → Option δ) (w : ι × δ) : Option (ι → Option δ) :=
  if r w.1 = none ∨ r w.1 = some w.2 then some (Function.update r w.1 (some w.2)) else none

theorem write_eq_some : write r (i, d) = some r₁ ↔
    (r i = none ∨ r i = some d) ∧ Function.update r i (some d) = r₁ := by
  unfold write
  split
  · next h => simp [h]
  · next h => simp [h]

theorem write_fixes (h : write r (i, d) = some r₁) : r₁ i = some d := by
  obtain ⟨-, rfl⟩ := write_eq_some.mp h
  exact Function.update_self i (some d) r

/-- What a register holds it keeps. -/
theorem write_keeps {w : ι × δ} (h : write r w = some r₁) (hd : r i = some d) : r₁ i = some d := by
  obtain ⟨j, e⟩ := w
  obtain ⟨hfree, rfl⟩ := write_eq_some.mp h
  by_cases hij : i = j
  · subst hij
    have hde : e = d := by
      rcases hfree with hnone | hsome
      · rw [hnone] at hd
        cases hd
      · exact Option.some.inj (hsome.symm.trans hd)
    rw [Function.update_self, hde]
  · rwa [Function.update_of_ne hij]

theorem reached_keeps (h : Reached write Anything r r₁) (hd : r i = some d) : r₁ i = some d := by
  induction h with
  | start => exact hd
  | next before permitted taken ih => exact write_keeps taken ih

/-- All writes to one register that succeed agree. -/
theorem agree (h : write r (i, d) = some r₁) (hrun : Reached write Anything r₁ r₂)
    (h' : write r₂ (i, d') = some r₃) : d' = d := by
  have hheld : r₂ i = some d := reached_keeps hrun (write_fixes h)
  rcases (write_eq_some.mp h').1 with hnone | hsome
  · rw [hnone] at hheld
    cases hheld
  · exact Option.some.inj (hsome.symm.trans hheld)

end Register

end NanFung
