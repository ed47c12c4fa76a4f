import Mathlib.Data.List.Infix
import Mathlib.Logic.Function.Basic

/-!
# Trees of files

What the paths of a file system lead to, a path being the list of its names. A tree is a function, so a
part of it is seen from its own root (`subtree`), and a directory that is moved takes all below it along.
-/

namespace NanFung

/-- What a path leads to: a regular file, a directory, or something else. -/
inductive Node (β : Type) where
  | file (content : β)
  | directory
  | other
  deriving DecidableEq, Repr

/-- What every path leads to. -/
abbrev FileTree (ν β : Type) := List ν → Option (Node β)

namespace FileTree

variable {ν β : Type}

/-- The content of a regular file. -/
def content? (t : FileTree ν β) (p : List ν) : Option β :=
  match t p with
  | some (.file content) => some content
  | _ => none

theorem content?_eq_some {t : FileTree ν β} {p : List ν} {content : β} :
    t.content? p = some content ↔ t p = some (.file content) := by
  unfold content?
  rcases t p with _ | _ | _ | _ <;> simp

/-- A part of a tree from its own root. -/
def subtree (root : List ν) (t : FileTree ν β) : FileTree ν β := fun q => t (root ++ q)

/-- Whatever there is lies in a directory. -/
def Closed (t : FileTree ν β) : Prop := ∀ p q, p <+: q → p ≠ q → t q ≠ none → t p = some .directory

theorem Closed.absent {t : FileTree ν β} (h : t.Closed) {p q : List ν} (hp : t p = none)
    (hpq : p <+: q) : t q = none := by
  by_contra hq
  by_cases heq : p = q
  · exact hq (heq ▸ hp)
  · rw [h p q hpq heq hq] at hp
    cases hp

/-- What exists is not below what does not. -/
theorem Closed.not_below {t : FileTree ν β} (h : t.Closed) {p q : List ν} (hp : t p = none)
    (hq : t q ≠ none) : ¬p <+: q := fun hpq => hq (h.absent hp hpq)

variable [DecidableEq ν]

/-- Let a path lead to a node. -/
def put (p : List ν) (node : Node β) (t : FileTree ν β) : FileTree ν β :=
  Function.update t p (some node)

/-- Let a path lead nowhere. -/
def remove (p : List ν) (t : FileTree ν β) : FileTree ν β := Function.update t p none

/-- Remove a path and all below it. -/
def removeTree (p : List ν) (t : FileTree ν β) : FileTree ν β := fun q => if p <+: q then none else t q

/-- Move a path and all below it to another path. -/
def moveTree (source target : List ν) (t : FileTree ν β) : FileTree ν β := fun q =>
  if target <+: q then t (source ++ q.drop target.length) else if source <+: q then none else t q

/-- A tree with the directories that lead to a path, itself included. -/
def directories (p : List ν) (t : FileTree ν β) : FileTree ν β := fun q =>
  if q <+: p then some .directory else t q

/-- Make the directories that lead to a path, if nothing else is in the way. -/
def makeDirectories [DecidableEq β] (p : List ν) (t : FileTree ν β) : Option (FileTree ν β) :=
  if ∀ q ∈ p.inits, t q = none ∨ t q = some .directory then some (t.directories p) else none

@[simp] theorem put_self (p : List ν) (node : Node β) (t : FileTree ν β) : t.put p node p = some node :=
  Function.update_self ..

theorem put_of_ne {p q : List ν} (h : q ≠ p) (node : Node β) (t : FileTree ν β) :
    t.put p node q = t q := Function.update_of_ne h ..

@[simp] theorem remove_self (p : List ν) (t : FileTree ν β) : t.remove p p = none :=
  Function.update_self ..

theorem remove_of_ne {p q : List ν} (h : q ≠ p) (t : FileTree ν β) : t.remove p q = t q :=
  Function.update_of_ne h ..

theorem removeTree_of_not {p q : List ν} (h : ¬p <+: q) (t : FileTree ν β) : t.removeTree p q = t q :=
  if_neg h

theorem moveTree_of_not {source target q : List ν} (hs : ¬source <+: q) (ht : ¬target <+: q)
    (t : FileTree ν β) : t.moveTree source target q = t q := by
  rw [moveTree, if_neg ht, if_neg hs]

/-- What was below the source is below the target. -/
@[simp] theorem subtree_moveTree (source target : List ν) (t : FileTree ν β) :
    (t.moveTree source target).subtree target = t.subtree source := by
  funext q
  rw [subtree, moveTree, if_pos (List.prefix_append target q), List.drop_left]
  rfl

theorem directories_above {p q : List ν} (h : q <+: p) (t : FileTree ν β) :
    t.directories p q = some .directory := if_pos h

theorem directories_of_not {p q : List ν} (h : ¬q <+: p) (t : FileTree ν β) :
    t.directories p q = t q := if_neg h

theorem makeDirectories_eq_some [DecidableEq β] {p : List ν} {t u : FileTree ν β} :
    t.makeDirectories p = some u ↔ (∀ q, q <+: p → t q = none ∨ t q = some .directory) ∧
      u = t.directories p := by
  have hinits : (∀ q ∈ p.inits, t q = none ∨ t q = some .directory) ↔
      ∀ q, q <+: p → t q = none ∨ t q = some .directory :=
    forall_congr' fun q => by rw [List.mem_inits]
  unfold makeDirectories
  split
  · next h => exact ⟨fun hu => ⟨hinits.mp h, (Option.some.inj hu).symm⟩,
      fun hu => congrArg some hu.2.symm⟩
  · next h =>
    constructor
    · intro hu
      cases hu
    · intro hu
      exact absurd (hinits.mpr hu.1) h

/-! ## Inside a directory -/

/-- Nothing but what is below a path has changed. -/
def SameOff (p : List ν) (t u : FileTree ν β) : Prop := ∀ q, ¬p <+: q → u q = t q

omit [DecidableEq ν] in
theorem SameOff.refl (p : List ν) (t : FileTree ν β) : SameOff p t t := fun _ _ => rfl

omit [DecidableEq ν] in
theorem SameOff.trans {p : List ν} {t u v : FileTree ν β} (h : SameOff p t u) (h' : SameOff p u v) :
    SameOff p t v := fun q hq => (h' q hq).trans (h q hq)

omit [DecidableEq ν] in
theorem below_ne {p q r : List ν} (hpq : p <+: q) (hr : ¬p <+: r) : r ≠ q := fun h => hr (h ▸ hpq)

theorem sameOff_put {p q : List ν} (h : p <+: q) (node : Node β) (t : FileTree ν β) :
    SameOff p t (t.put q node) := fun _ hr => put_of_ne (below_ne h hr) node t

theorem sameOff_remove {p q : List ν} (h : p <+: q) (t : FileTree ν β) : SameOff p t (t.remove q) :=
  fun _ hr => remove_of_ne (below_ne h hr) t

theorem sameOff_removeTree (p : List ν) (t : FileTree ν β) : SameOff p t (t.removeTree p) :=
  fun _ hr => removeTree_of_not hr t

theorem subtree_put (root p : List ν) (node : Node β) (t : FileTree ν β) :
    (t.put (root ++ p) node).subtree root = (t.subtree root).put p node := by
  funext q
  by_cases hq : q = p
  · rw [hq, put_self]
    exact put_self (root ++ p) node t
  · rw [put_of_ne hq]
    exact put_of_ne (fun h => hq (List.append_cancel_left h)) node t

theorem subtree_remove (root p : List ν) (t : FileTree ν β) :
    (t.remove (root ++ p)).subtree root = (t.subtree root).remove p := by
  funext q
  by_cases hq : q = p
  · rw [hq, remove_self]
    exact remove_self (root ++ p) t
  · rw [remove_of_ne hq]
    exact remove_of_ne (fun h => hq (List.append_cancel_left h)) t

/-- Directories that are made below a root, seen from there. -/
theorem subtree_directories (root p : List ν) (t : FileTree ν β) :
    (t.directories (root ++ p)).subtree root = (t.subtree root).directories p := by
  funext q
  show t.directories (root ++ p) (root ++ q) = (t.subtree root).directories p q
  by_cases hq : q <+: p
  · rw [directories_above hq, directories_above ((List.prefix_append_right_inj root).mpr hq)]
  · rw [directories_of_not hq,
      directories_of_not fun h => hq ((List.prefix_append_right_inj root).mp h)]
    rfl

end FileTree

end NanFung
