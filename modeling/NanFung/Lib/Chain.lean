import Mathlib.Tactic
import Mathlib.Data.List.Chain

/-!
# Logs in which every entry continues the one before

A log grows at its end. `Chain starts follows` says that its first entry may start a log and that
every other one follows its predecessor; an append preserves it if the new entry follows the last
one, so a writer needs to look at nothing but the last entry.
-/

namespace NanFung

variable {α : Type} {starts : α → Prop} {follows : α → α → Prop} {log : List α}

/-- The first entry starts the log, every other one follows its predecessor. -/
structure Chain (starts : α → Prop) (follows : α → α → Prop) (log : List α) : Prop where
  first : ∀ a ∈ log.head?, starts a
  next : log.IsChain follows

/-- An entry that may come after the last one, if there is one. -/
def Continued (starts : α → Prop) (follows : α → α → Prop) (last : Option α) (a : α) : Prop :=
  match last with
  | none => starts a
  | some b => follows b a

namespace Chain

theorem nil : Chain starts follows [] := ⟨by simp, List.isChain_nil⟩

/-- One more entry. -/
theorem append (h : Chain starts follows log) {a : α}
    (ha : Continued starts follows log.getLast? a) : Chain starts follows (log ++ [a]) := by
  cases hlast : log.getLast? with
  | none =>
    obtain rfl : log = [] := List.getLast?_eq_none_iff.mp hlast
    rw [hlast] at ha
    exact ⟨by simpa [Continued] using ha, List.isChain_singleton a⟩
  | some b =>
    rw [hlast] at ha
    refine ⟨?_, List.isChain_append.mpr ⟨h.next, List.isChain_singleton a, ?_⟩⟩
    · cases log with
      | nil => exact nomatch hlast
      | cons c log => simpa using h.first
    · rw [hlast]
      simpa [Continued] using ha

/-- Neighbours follow each other. -/
theorem follows_of_get? (h : Chain starts follows log) {i : Nat} {a b : α} (ha : log[i]? = some a)
    (hb : log[i + 1]? = some b) : follows a b := by
  obtain ⟨hi, rfl⟩ := List.getElem?_eq_some_iff.mp ha
  obtain ⟨hi', rfl⟩ := List.getElem?_eq_some_iff.mp hb
  exact List.isChain_iff_getElem.mp h.next i hi'

/-- A number that starts at one and grows by one counts the entries. -/
theorem numbered (h : Chain starts follows log) {no : α → Nat} (hstarts : ∀ a, starts a → no a = 1)
    (hfollows : ∀ a b, follows a b → no b = no a + 1) :
    log.map no = List.range' 1 log.length := by
  have from_ : ∀ (log : List α), log.IsChain follows → ∀ n, (∀ a ∈ log.head?, no a = n) →
      log.map no = List.range' n log.length := by
    intro log
    induction log with
    | nil => exact fun _ _ _ => rfl
    | cons a log ih =>
      intro hchain n hfirst
      have hn : no a = n := hfirst a rfl
      rw [List.map_cons, List.length_cons, List.range'_succ, hn,
        ih hchain.tail (n + 1) fun b hb => ?_]
      rw [hfollows a b (List.isChain_cons.mp hchain |>.1 b hb), hn]
  exact from_ log h.next 1 fun a ha => hstarts a (h.first a ha)

end Chain

end NanFung
