import NanFung.Lib.Table

/-!
# Insertion under a unique key

Rows are numbered as they are made, and an insertion whose key the table already has does nothing.
Insertions that were made before may therefore be made again at any later time: only the first one
of a key counts.
-/

namespace NanFung.Table

variable {α κ : Type}

/-- A row to insert, for every number it may get; its key does not depend on the number. -/
structure Insertion (column : α → κ) where
  key : κ
  row : Nat → α
  column_row : ∀ n, column (row n) = key

/-- The rows of a table and the number of the next one. -/
abbrev Intake (α : Type) := List α × Nat

variable [DecidableEq κ] {column : α → κ}

/-- Insert a row unless its key is there. -/
def insertNew (t : Intake α) (i : Insertion column) : Intake α :=
  if ∃ r ∈ t.1, column r = i.key then t else (t.1 ++ [i.row t.2], t.2 + 1)

/-- Insert rows one after the other. -/
def insertAll (t : Intake α) (is : List (Insertion column)) : Intake α := is.foldl insertNew t

/-- The table has the key of an insertion. -/
def HasKey (column : α → κ) (t : List α) (k : κ) : Prop := ∃ r ∈ t, column r = k

variable {t : Intake α} {i : Insertion column} {is js : List (Insertion column)} {k : κ}

@[simp] theorem insertAll_nil : insertAll t ([] : List (Insertion column)) = t := rfl

@[simp] theorem insertAll_cons : insertAll t (i :: is) = insertAll (insertNew t i) is := rfl

theorem insertAll_append : insertAll t (is ++ js) = insertAll (insertAll t is) js :=
  List.foldl_append

theorem insertNew_of_hasKey (h : HasKey column t.1 i.key) : insertNew t i = t := if_pos h

theorem insertNew_of_new (h : ∀ r ∈ t.1, column r ≠ i.key) :
    insertNew t i = (t.1 ++ [i.row t.2], t.2 + 1) :=
  if_neg fun ⟨r, hr, hk⟩ => h r hr hk

theorem prefix_insertNew : t.1 <+: (insertNew t i).1 := by
  unfold insertNew
  split
  · exact List.prefix_rfl
  · exact List.prefix_append _ _

theorem prefix_insertAll : t.1 <+: (insertAll t is).1 := by
  induction is generalizing t with
  | nil => exact List.prefix_rfl
  | cons i is ih => exact prefix_insertNew.trans ih

theorem HasKey.insertAll (h : HasKey column t.1 k) : HasKey column (insertAll t is).1 k := by
  obtain ⟨r, hr, hk⟩ := h
  exact ⟨r, prefix_insertAll.mem hr, hk⟩

theorem hasKey_insertNew : HasKey column (insertNew t i).1 i.key := by
  unfold insertNew
  split
  · next h => exact h
  · exact ⟨i.row t.2, List.mem_append_right _ (List.mem_singleton_self _), i.column_row t.2⟩

/-- Every key that was inserted is there. -/
theorem hasKey_insertAll (h : i ∈ is) : HasKey column (insertAll t is).1 i.key := by
  induction is generalizing t with
  | nil => exact nomatch h
  | cons j is ih =>
    rcases List.mem_cons.mp h with rfl | h
    · exact hasKey_insertNew.insertAll
    · exact ih h

/-- Insertions whose keys are all there change nothing. -/
theorem insertAll_of_hasKey (h : ∀ i ∈ is, HasKey column t.1 i.key) : insertAll t is = t := by
  induction is with
  | nil => rfl
  | cons i is ih =>
    rw [insertAll_cons, insertNew_of_hasKey (h i (by simp))]
    exact ih fun j hj => h j (by simp [hj])

/-- A prefix of some insertions, made before all of them, does not matter. -/
theorem insertAll_of_prefix (h : js <+: is) : insertAll (insertAll t js) is = insertAll t is := by
  obtain ⟨rest, rfl⟩ := h
  rw [insertAll_append, insertAll_append, insertAll_of_hasKey fun i hi => hasKey_insertAll hi]

/-- A row that was not there before is the row of an insertion. -/
theorem mem_insertAll {r : α} (h : r ∈ (insertAll t is).1) :
    r ∈ t.1 ∨ ∃ i ∈ is, ∃ n, r = i.row n := by
  induction is generalizing t with
  | nil => exact Or.inl h
  | cons i is ih =>
    rcases ih h with h | ⟨j, hj, n, rfl⟩
    · unfold insertNew at h
      split at h
      · exact Or.inl h
      · rcases List.mem_append.mp h with h | h
        · exact Or.inl h
        · exact Or.inr ⟨i, by simp, t.2, List.mem_singleton.mp h⟩
    · exact Or.inr ⟨j, by simp [hj], n, rfl⟩

theorem Keyed.insertAll (h : Keyed column t.1) : Keyed column (insertAll t is).1 := by
  induction is generalizing t with
  | nil => exact h
  | cons i is ih =>
    refine ih ?_
    unfold insertNew
    split
    · exact h
    · next hnew =>
      refine h.append fun r hr hk => hnew ⟨r, hr, ?_⟩
      rw [hk, i.column_row]

end NanFung.Table
