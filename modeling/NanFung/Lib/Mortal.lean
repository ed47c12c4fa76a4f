import Mathlib.Logic.Basic

/-!
# Procedures that may die

A `Mortal` acts on what outlives the process, and every action of it meets a fate: it is done, it fails
and raises, or the process dies before it. Fates are used up in order; when none is left nothing goes
wrong any more. `Keeps` is the judgement about every fate, with a postcondition for each way to end;
`Does` says besides that the procedure returns if nothing goes wrong.
-/

namespace NanFung

/-- What becomes of an action. -/
inductive Fate where
  | done
  | fails
  | dies
  deriving DecidableEq, Repr

/-- How a procedure ends. -/
inductive Exit (ε α : Type) where
  | returned (a : α)
  | raised (e : ε)
  | died
  deriving DecidableEq, Repr

/-- A procedure: from the fates to come and a state to its end, the fates left and the state left
behind. -/
def Mortal (σ ε α : Type) : Type := List Fate → σ → Exit ε α × List Fate × σ

namespace Mortal

variable {σ ε α β : Type}

def run (p : Mortal σ ε α) (fates : List Fate) (s : σ) : Exit ε α × List Fate × σ := p fates s

instance : Monad (Mortal σ ε) where
  pure a := fun fates s => (.returned a, fates, s)
  bind p f := fun fates s =>
    match p fates s with
    | (.returned a, fates', s') => f a fates' s'
    | (.raised e, fates', s') => (.raised e, fates', s')
    | (.died, fates', s') => (.died, fates', s')

/-- Nobody catches a death. -/
instance : MonadExceptOf ε (Mortal σ ε) where
  throw e := fun fates s => (.raised e, fates, s)
  tryCatch p h := fun fates s =>
    match p fates s with
    | (.returned a, fates', s') => (.returned a, fates', s')
    | (.raised e, fates', s') => h e fates' s'
    | (.died, fates', s') => (.died, fates', s')

/-- What ends with a value or an exception without an action. -/
def ofExcept (x : Except ε α) : Mortal σ ε α := fun fates s =>
  match x with
  | .ok a => (.returned a, fates, s)
  | .error e => (.raised e, fates, s)

/-- An action; `failure` is what it raises when it fails from outside. -/
def action (failure : ε) (f : σ → Except ε (α × σ)) : Mortal σ ε α := fun fates s =>
  match fates.head?.getD .done with
  | .done =>
    match f s with
    | .ok (a, s') => (.returned a, fates.tail, s')
    | .error e => (.raised e, fates.tail, s)
  | .fails => (.raised failure, fates.tail, s)
  | .dies => (.died, fates.tail, s)

/-- An action that only looks. -/
def look (failure : ε) (f : σ → Except ε α) : Mortal σ ε α :=
  action failure fun s => (f s).map fun a => (a, s)

theorem run_bind (p : Mortal σ ε α) (f : α → Mortal σ ε β) (fates : List Fate) (s : σ) :
    (p >>= f).run fates s =
      match p.run fates s with
      | (.returned a, fates', s') => (f a).run fates' s'
      | (.raised e, fates', s') => (.raised e, fates', s')
      | (.died, fates', s') => (.died, fates', s') := rfl

theorem run_tryCatch (p : Mortal σ ε α) (h : ε → Mortal σ ε α) (fates : List Fate) (s : σ) :
    (tryCatch p h : Mortal σ ε α).run fates s =
      match p.run fates s with
      | (.returned a, fates', s') => (.returned a, fates', s')
      | (.raised e, fates', s') => (h e).run fates' s'
      | (.died, fates', s') => (.died, fates', s') := rfl

theorem run_action (failure : ε) (f : σ → Except ε (α × σ)) (fates : List Fate) (s : σ) :
    (action failure f).run fates s =
      match fates.head?.getD .done with
      | .done =>
        match f s with
        | .ok (a, s') => (.returned a, fates.tail, s')
        | .error e => (.raised e, fates.tail, s)
      | .fails => (.raised failure, fates.tail, s)
      | .dies => (.died, fates.tail, s) := rfl

/-! ## Every fate -/

/-- `Q` if the procedure returned, `E` if it raised, `D` if it died. -/
def Ends (Q : α → σ → Prop) (E D : σ → Prop) (out : Exit ε α × List Fate × σ) : Prop :=
  match out.1 with
  | .returned a => Q a out.2.2
  | .raised _ => E out.2.2
  | .died => D out.2.2

/-- However a procedure that starts from `P` ends. -/
def Keeps (P : σ → Prop) (p : Mortal σ ε α) (Q : α → σ → Prop) (E D : σ → Prop) : Prop :=
  ∀ fates s, P s → Ends Q E D (p.run fates s)

section Keeps

variable {P P' : σ → Prop} {Q Q' : α → σ → Prop} {R : β → σ → Prop} {E E' D D' : σ → Prop}
  {p : Mortal σ ε α} {f : α → Mortal σ ε β}

theorem Keeps.weaken (h : Keeps P p Q E D) (hP : ∀ s, P' s → P s) (hQ : ∀ a s, Q a s → Q' a s)
    (hE : ∀ s, E s → E' s) (hD : ∀ s, D s → D' s) : Keeps P' p Q' E' D' := by
  intro fates s hs
  have hend := h fates s (hP s hs)
  rcases hrun : p.run fates s with ⟨a | e | _, fates', s'⟩
  · rw [hrun] at hend
    exact hQ a s' hend
  · rw [hrun] at hend
    exact hE s' hend
  · rw [hrun] at hend
    exact hD s' hend

theorem Keeps.pure (a : α) (hQ : ∀ s, P s → Q a s) : Keeps P (pure a : Mortal σ ε α) Q E D :=
  fun _ s hs => hQ s hs

theorem Keeps.throw (e : ε) (hE : ∀ s, P s → E s) : Keeps P (throw e : Mortal σ ε α) Q E D :=
  fun _ s hs => hE s hs

theorem Keeps.bind (hp : Keeps P p Q E D) (hf : ∀ a, Keeps (Q a) (f a) R E D) :
    Keeps P (p >>= f) R E D := by
  intro fates s hs
  have hend := hp fates s hs
  rw [run_bind]
  rcases hrun : p.run fates s with ⟨a | e | _, fates', s'⟩
  · rw [hrun] at hend
    exact hf a fates' s' hend
  · rw [hrun] at hend
    exact hend
  · rw [hrun] at hend
    exact hend

/-- What holds of the start apart from the state may be assumed. -/
theorem Keeps.assume {φ : Prop} (h : φ → Keeps P p Q E D) : Keeps (fun s => φ ∧ P s) p Q E D :=
  fun fates s hs => h hs.1 fates s hs.2

/-- A handler starts from what the body left behind when it raised. -/
theorem Keeps.tryCatch {h : ε → Mortal σ ε α} (hp : Keeps P p Q E' D)
    (hh : ∀ e, Keeps E' (h e) Q E D) : Keeps P (tryCatch p h : Mortal σ ε α) Q E D := by
  intro fates s hs
  have hend := hp fates s hs
  rw [run_tryCatch]
  rcases hrun : p.run fates s with ⟨a | e | _, fates', s'⟩
  · rw [hrun] at hend
    exact hend
  · rw [hrun] at hend
    exact hh e fates' s' hend
  · rw [hrun] at hend
    exact hend

theorem Keeps.ofExcept {x : Except ε α} (hQ : ∀ a, x = .ok a → ∀ s, P s → Q a s)
    (hE : ∀ s, P s → E s) : Keeps P (ofExcept x : Mortal σ ε α) Q E D := by
  intro fates s hs
  cases hx : x with
  | ok a => exact hQ a hx s hs
  | error e => exact hE s hs

/-- An action that is not done leaves the state as it was. -/
theorem Keeps.action {failure : ε} {g : σ → Except ε (α × σ)}
    (hQ : ∀ s a s', P s → g s = .ok (a, s') → Q a s') (hE : ∀ s, P s → E s) (hD : ∀ s, P s → D s) :
    Keeps P (action failure g) Q E D := by
  intro fates s hs
  rw [run_action]
  cases fates.head?.getD .done with
  | done =>
    cases hg : g s with
    | error e => exact hE s hs
    | ok out => exact hQ s out.1 out.2 hs hg
  | fails => exact hE s hs
  | dies => exact hD s hs

theorem Keeps.look {failure : ε} {g : σ → Except ε α} (hQ : ∀ s a, P s → g s = .ok a → Q a s)
    (hE : ∀ s, P s → E s) (hD : ∀ s, P s → D s) : Keeps P (look failure g) Q E D := by
  apply Keeps.action _ hE hD
  intro s a s' hs hg
  cases hgs : g s with
  | error e => simp [hgs, Except.map] at hg
  | ok b =>
    simp only [hgs, Except.map, Except.ok.injEq, Prod.mk.injEq] at hg
    obtain ⟨rfl, rfl⟩ := hg
    exact hQ s b hs hgs

/-- A loop whose body keeps an invariant, and leaves `E` and `D` behind where it ends early. -/
theorem Keeps.forM {γ : Type} {body : γ → Mortal σ ε Unit} {items : List γ} {I : List γ → σ → Prop}
    (hbody : ∀ done x rest, items = done ++ x :: rest →
      Keeps (I done) (body x) (fun _ => I (done ++ [x])) E D) :
    Keeps (I []) (items.forM body) (fun _ => I items) E D := by
  suffices h : ∀ rest done, items = done ++ rest →
      Keeps (I done) (rest.forM body) (fun _ => I items) E D from h items [] rfl
  intro rest
  induction rest with
  | nil =>
    intro done hdone
    rw [List.append_nil] at hdone
    rw [hdone]
    exact Keeps.pure () fun _ hs => hs
  | cons x rest ih =>
    intro done hdone
    show Keeps (I done) (body x >>= fun _ => rest.forM body) _ E D
    exact (hbody done x rest hdone).bind fun _ => ih (done ++ [x]) (by rw [hdone]; simp)

/-- A loop whose body keeps what is the same before each item. -/
theorem Keeps.forM_same {γ : Type} {body : γ → Mortal σ ε Unit} {items : List γ}
    (hbody : ∀ x, Keeps P (body x) (fun _ => P) E D) :
    Keeps P (items.forM body) (fun _ => P) E D :=
  Keeps.forM (I := fun _ => P) fun _ x _ _ => hbody x

end Keeps

/-! ## What is in the way is from outside -/

/-- However a procedure that starts from `P` ends, and that it returns if nothing goes wrong from
outside. -/
def Does (P : σ → Prop) (p : Mortal σ ε α) (Q : α → σ → Prop) (E D : σ → Prop) : Prop :=
  Keeps P p Q E D ∧ ∀ s, P s → ∃ a s', p.run [] s = (.returned a, [], s')

section Does

variable {P P' : σ → Prop} {Q Q' : α → σ → Prop} {R : β → σ → Prop} {E E' D D' : σ → Prop}
  {p : Mortal σ ε α} {f : α → Mortal σ ε β}

/-- Where the procedure returns to if nothing goes wrong. -/
theorem Does.returns (h : Does P p Q E D) {s : σ} (hs : P s) :
    ∃ a s', p.run [] s = (.returned a, [], s') ∧ Q a s' := by
  obtain ⟨a, s', hrun⟩ := h.2 s hs
  have hend := h.1 [] s hs
  rw [hrun] at hend
  exact ⟨a, s', hrun, hend⟩

theorem Does.weaken (h : Does P p Q E D) (hP : ∀ s, P' s → P s) (hQ : ∀ a s, Q a s → Q' a s)
    (hE : ∀ s, E s → E' s) (hD : ∀ s, D s → D' s) : Does P' p Q' E' D' :=
  ⟨h.1.weaken hP hQ hE hD, fun s hs => h.2 s (hP s hs)⟩

theorem Does.pure (a : α) (hQ : ∀ s, P s → Q a s) : Does P (pure a : Mortal σ ε α) Q E D :=
  ⟨Keeps.pure a hQ, fun s _ => ⟨a, s, rfl⟩⟩

theorem Does.bind (hp : Does P p Q E D) (hf : ∀ a, Does (Q a) (f a) R E D) :
    Does P (p >>= f) R E D := by
  refine ⟨hp.1.bind fun a => (hf a).1, ?_⟩
  intro s hs
  obtain ⟨a, s', hrun, hmid⟩ := hp.returns hs
  obtain ⟨b, s'', hrun'⟩ := (hf a).2 s' hmid
  refine ⟨b, s'', ?_⟩
  rw [run_bind, hrun]
  exact hrun'

theorem Does.assume {φ : Prop} (h : φ → Does P p Q E D) : Does (fun s => φ ∧ P s) p Q E D :=
  ⟨Keeps.assume fun hφ => (h hφ).1, fun s hs => (h hs.1).2 s hs.2⟩

theorem Does.tryCatch {h : ε → Mortal σ ε α} (hp : Does P p Q E' D)
    (hh : ∀ e, Keeps E' (h e) Q E D) : Does P (tryCatch p h : Mortal σ ε α) Q E D := by
  refine ⟨hp.1.tryCatch hh, ?_⟩
  intro s hs
  obtain ⟨a, s', hrun⟩ := hp.2 s hs
  refine ⟨a, s', ?_⟩
  rw [run_tryCatch, hrun]

theorem Does.ofExcept {x : Except ε α} {a : α} (hx : x = .ok a) (hQ : ∀ s, P s → Q a s) :
    Does P (ofExcept x : Mortal σ ε α) Q E D := by
  subst hx
  exact ⟨fun _ s hs => hQ s hs, fun s _ => ⟨a, s, rfl⟩⟩

theorem Does.action {failure : ε} {g : σ → Except ε (α × σ)}
    (h : ∀ s, P s → ∃ a s', g s = .ok (a, s') ∧ Q a s') (hE : ∀ s, P s → E s)
    (hD : ∀ s, P s → D s) : Does P (action failure g) Q E D := by
  constructor
  · apply Keeps.action _ hE hD
    intro s a s' hs hg
    obtain ⟨b, u, hg', hend⟩ := h s hs
    rw [hg] at hg'
    cases hg'
    exact hend
  · intro s hs
    obtain ⟨a, s', hg, -⟩ := h s hs
    refine ⟨a, s', ?_⟩
    show (match g s with
      | .ok (a, s') => (Exit.returned a, [], s')
      | .error e => (Exit.raised e, [], s)) = _
    rw [hg]

theorem Does.look {failure : ε} {g : σ → Except ε α} (h : ∀ s, P s → ∃ a, g s = .ok a ∧ Q a s)
    (hE : ∀ s, P s → E s) (hD : ∀ s, P s → D s) : Does P (look failure g) Q E D := by
  apply Does.action _ hE hD
  intro s hs
  obtain ⟨a, hg, hend⟩ := h s hs
  exact ⟨a, s, by rw [hg]; rfl, hend⟩

/-- A loop whose body moves an invariant on. -/
theorem Does.forM {γ : Type} {body : γ → Mortal σ ε Unit} {items : List γ} {I : List γ → σ → Prop}
    (hbody : ∀ done x rest, items = done ++ x :: rest →
      Does (I done) (body x) (fun _ => I (done ++ [x])) E D) :
    Does (I []) (items.forM body) (fun _ => I items) E D := by
  suffices h : ∀ rest done, items = done ++ rest →
      Does (I done) (rest.forM body) (fun _ => I items) E D from h items [] rfl
  intro rest
  induction rest with
  | nil =>
    intro done hdone
    rw [List.append_nil] at hdone
    rw [hdone]
    exact Does.pure () fun _ hs => hs
  | cons x rest ih =>
    intro done hdone
    show Does (I done) (body x >>= fun _ => rest.forM body) _ E D
    exact (hbody done x rest hdone).bind fun _ => ih (done ++ [x]) (by rw [hdone]; simp)

end Does

end Mortal

end NanFung
