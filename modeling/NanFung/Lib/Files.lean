import Mathlib.Data.List.Basic
import Mathlib.Logic.Function.Basic

/-!
# Files behind names

A directory tree as far as links matter: inodes hold bytes, and names point at inodes. A hard link
is a second name of one inode, so writing through an open descriptor changes what every name of the
inode reads. Nothing is known about `κ` and `β` but that names can be compared.
-/

namespace NanFung

/-- Inodes in the order of their creation and the names that point at them. -/
structure Files (κ β : Type) where
  inodes : List (List β)
  entry : κ → Option Nat
  bounded : ∀ p i, entry p = some i → i < inodes.length

namespace Files

variable {κ β : Type}

/-- The tree without files. -/
def empty : Files κ β := ⟨[], fun _ => none, by simp⟩

/-- What a name reads. -/
def read (fs : Files κ β) (p : κ) : Option (List β) := (fs.entry p).bind fun i => fs.inodes[i]?

/-- Write at the end of an inode, through a descriptor. -/
def append (fs : Files κ β) (i : Nat) (bytes : List β) : Files κ β where
  inodes := fs.inodes.modify i (· ++ bytes)
  entry := fs.entry
  bounded p j h := by simpa using fs.bounded p j h

variable [DecidableEq κ]

/-- Create an empty file under a name. -/
def create (fs : Files κ β) (p : κ) : Files κ β where
  inodes := fs.inodes ++ [[]]
  entry := Function.update fs.entry p (some fs.inodes.length)
  bounded q i h := by
    by_cases hq : q = p
    · subst hq
      simp at h
      simp [← h]
    · rw [Function.update_of_ne hq] at h
      have := fs.bounded q i h
      simp
      omega

/-- Give the file of a name a second name. -/
def link (fs : Files κ β) (p q : κ) : Files κ β where
  inodes := fs.inodes
  entry := Function.update fs.entry q (fs.entry p)
  bounded r i h := by
    by_cases hr : r = q
    · subst hr
      exact fs.bounded p i (by simpa using h)
    · exact fs.bounded r i (by simpa [hr] using h)

/-- Remove a name. -/
def unlink (fs : Files κ β) (p : κ) : Files κ β where
  inodes := fs.inodes
  entry := Function.update fs.entry p none
  bounded q i h := by
    by_cases hq : q = p
    · subst hq
      simp at h
    · exact fs.bounded q i (by simpa [hq] using h)

/-- No name but `p` points at the inode. -/
def Private (fs : Files κ β) (i : Nat) (p : κ) : Prop := ∀ q, fs.entry q = some i → q = p

/-! ## Entries -/

omit [DecidableEq κ] in
@[simp] theorem entry_append (fs : Files κ β) (i : Nat) (bytes : List β) :
    (fs.append i bytes).entry = fs.entry := rfl

@[simp] theorem entry_create (fs : Files κ β) (p : κ) :
    (fs.create p).entry p = some fs.inodes.length := by
  simp [create]

theorem entry_create_ne (fs : Files κ β) {p q : κ} (h : q ≠ p) :
    (fs.create p).entry q = fs.entry q := by
  simp [create, h]

@[simp] theorem entry_link (fs : Files κ β) (p q : κ) : (fs.link p q).entry q = fs.entry p := by
  simp [link]

theorem entry_link_ne (fs : Files κ β) (p : κ) {q r : κ} (h : r ≠ q) :
    (fs.link p q).entry r = fs.entry r := by
  simp [link, h]

@[simp] theorem entry_unlink (fs : Files κ β) (p : κ) : (fs.unlink p).entry p = none := by
  simp [unlink]

theorem entry_unlink_ne (fs : Files κ β) {p q : κ} (h : q ≠ p) :
    (fs.unlink p).entry q = fs.entry q := by
  simp [unlink, h]

@[simp] theorem inodes_link (fs : Files κ β) (p q : κ) : (fs.link p q).inodes = fs.inodes := rfl

@[simp] theorem inodes_unlink (fs : Files κ β) (p : κ) : (fs.unlink p).inodes = fs.inodes := rfl

/-! ## Contents -/

omit [DecidableEq κ] in
theorem read_eq_some {fs : Files κ β} {p : κ} {bytes : List β} :
    fs.read p = some bytes ↔ ∃ i, fs.entry p = some i ∧ fs.inodes[i]? = some bytes := by
  simp [read, Option.bind_eq_some_iff]

omit [DecidableEq κ] in
/-- A name that points at an inode reads something. -/
theorem read_eq_none {fs : Files κ β} {p : κ} : fs.read p = none ↔ fs.entry p = none := by
  constructor
  · intro h
    cases he : fs.entry p with
    | none => rfl
    | some i =>
      have hi := fs.bounded p i he
      simp [read, he] at h
      omega
  · intro h
    simp [read, h]

omit [DecidableEq κ] in
/-- Writing through a descriptor lengthens its inode. -/
theorem inodes_append_self {fs : Files κ β} {i : Nat} {old : List β} (bytes : List β)
    (h : fs.inodes[i]? = some old) : (fs.append i bytes).inodes[i]? = some (old ++ bytes) := by
  simp [append, h]

omit [DecidableEq κ] in
/-- Writing through a descriptor leaves the other inodes alone. -/
theorem inodes_append_ne {fs : Files κ β} {i j : Nat} (bytes : List β) (h : i ≠ j) :
    (fs.append i bytes).inodes[j]? = fs.inodes[j]? := by
  simp [append, h]

omit [DecidableEq κ] in
theorem read_append_ne {fs : Files κ β} {i : Nat} {p : κ} (bytes : List β)
    (h : fs.entry p ≠ some i) : (fs.append i bytes).read p = fs.read p := by
  cases he : fs.entry p with
  | none => simp [read, he]
  | some j =>
    have hij : i ≠ j := fun hij => h (hij ▸ he)
    simp only [read, entry_append, he, Option.bind_some]
    exact inodes_append_ne bytes hij

/-- An inode that exists keeps its bytes when a file is created. -/
theorem inodes_create {fs : Files κ β} {i : Nat} {bytes : List β} (p : κ)
    (h : fs.inodes[i]? = some bytes) : (fs.create p).inodes[i]? = some bytes := by
  obtain ⟨hi, -⟩ := List.getElem?_eq_some_iff.1 h
  simp only [create]
  rw [List.getElem?_append_left hi]
  exact h

theorem read_create_ne {fs : Files κ β} {p q : κ} (h : q ≠ p) :
    (fs.create p).read q = fs.read q := by
  cases he : fs.entry q with
  | none => simp [read, entry_create_ne fs h, he]
  | some i =>
    have hi := fs.bounded q i he
    have hentry : (fs.create p).entry q = some i := by rw [entry_create_ne fs h, he]
    simp only [read, hentry, he, Option.bind_some]
    exact List.getElem?_append_left hi

theorem read_link_ne {fs : Files κ β} (p : κ) {q r : κ} (h : r ≠ q) :
    (fs.link p q).read r = fs.read r := by
  simp [read, entry_link_ne fs p h]

@[simp] theorem read_link (fs : Files κ β) (p q : κ) : (fs.link p q).read q = fs.read p := by
  simp [read]

theorem read_unlink_ne {fs : Files κ β} {p q : κ} (h : q ≠ p) :
    (fs.unlink p).read q = fs.read q := by
  simp [read, entry_unlink_ne fs h]

end Files

end NanFung
