import Mathlib.Tactic
import Mathlib.Data.List.Nodup

/-!
# Relational tables as lists of rows

A table is the list of its rows in insertion order. `updateWhere` is `UPDATE … SET … WHERE`,
`List.find?` is `SELECT … fetchone`, appending a row is `INSERT`. A PRIMARY KEY or UNIQUE column is
`Keyed`: no two rows share its value. The lemmas say how the three statements act on membership, on
keyed lookups and on keyedness, so that a proof about a store never looks inside a list.
-/

namespace NanFung.Table

variable {α κ : Type}

/-- `UPDATE t SET … WHERE p`, with the new row as a function of the old one. -/
def updateWhere (p : α → Bool) (f : α → α) (t : List α) : List α :=
  t.map fun r => if p r then f r else r

/-- PRIMARY KEY / UNIQUE: no two rows of the table have the same key. -/
def Keyed (key : α → κ) (t : List α) : Prop := (t.map key).Nodup

instance [DecidableEq κ] (key : α → κ) (t : List α) : Decidable (Keyed key t) :=
  inferInstanceAs (Decidable (t.map key).Nodup)

/-! ## Update -/

theorem mem_updateWhere {p : α → Bool} {f : α → α} {t : List α} {r : α} :
    r ∈ updateWhere p f t ↔ (∃ r₀ ∈ t, p r₀ = true ∧ r = f r₀) ∨ (r ∈ t ∧ p r = false) := by
  simp only [updateWhere, List.mem_map]
  constructor
  · rintro ⟨r₀, hr₀, rfl⟩
    cases hp : p r₀ with
    | true => exact Or.inl ⟨r₀, hr₀, hp, by simp⟩
    | false => exact Or.inr ⟨by simpa using hr₀, by simpa using hp⟩
  · rintro (⟨r₀, hr₀, hp, rfl⟩ | ⟨hr, hp⟩)
    · exact ⟨r₀, hr₀, by simp [hp]⟩
    · exact ⟨r, hr, by simp [hp]⟩

/-- Every old row has a row in its place. -/
theorem mem_updateWhere_of_mem {p : α → Bool} {f : α → α} {t : List α} {r : α} (h : r ∈ t) :
    (if p r then f r else r) ∈ updateWhere p f t :=
  List.mem_map.mpr ⟨r, h, rfl⟩

/-- An update that keeps a column keeps the list of its values. -/
theorem map_updateWhere {key : α → κ} {p : α → Bool} {f : α → α} (hf : ∀ r, key (f r) = key r)
    (t : List α) : (updateWhere p f t).map key = t.map key := by
  simp only [updateWhere, List.map_map]
  refine List.map_congr_left fun r _ => ?_
  simp only [Function.comp_apply]
  split
  · exact hf r
  · rfl

/-- An update that keeps two columns keeps what a condition on the one selects of the other. -/
theorem map_filter_updateWhere {ν : Type} {key : α → κ} {column : α → ν} {p : α → Bool}
    {f : α → α} (hkey : ∀ r, key (f r) = key r) (hcolumn : ∀ r, column (f r) = column r)
    (q : κ → Bool) (t : List α) :
    ((updateWhere p f t).filter fun r => q (key r)).map column =
      (t.filter fun r => q (key r)).map column := by
  induction t with
  | nil => rfl
  | cons r t ih =>
    have hk : key (if p r then f r else r) = key r := by
      split
      · exact hkey r
      · rfl
    have hc : column (if p r then f r else r) = column r := by
      split
      · exact hcolumn r
      · rfl
    simp only [updateWhere] at ih ⊢
    rw [List.map_cons, List.filter_cons, List.filter_cons, hk]
    cases q (key r) with
    | true => rw [if_pos rfl, if_pos rfl, List.map_cons, List.map_cons, hc, ih]
    | false => rw [if_neg (by simp), if_neg (by simp), ih]

theorem updateWhere_eq_self {p : α → Bool} {f : α → α} {t : List α} (h : ∀ r ∈ t, p r = false) :
    updateWhere p f t = t := by
  have : t.map (fun r => if p r then f r else r) = t.map id :=
    List.map_congr_left fun r hr => by simp [h r hr]
  simpa [updateWhere] using this

/-- Two updates by predicates that pick the same rows are the same update. -/
theorem updateWhere_congr {p q : α → Bool} {f : α → α} {t : List α} (h : ∀ r ∈ t, p r = q r) :
    updateWhere p f t = updateWhere q f t :=
  List.map_congr_left fun r hr => by simp only [h r hr]

@[simp] theorem updateWhere_append {p : α → Bool} {f : α → α} {t u : List α} :
    updateWhere p f (t ++ u) = updateWhere p f t ++ updateWhere p f u := by
  simp [updateWhere]

@[simp] theorem length_updateWhere {p : α → Bool} {f : α → α} {t : List α} :
    (updateWhere p f t).length = t.length := by
  simp [updateWhere]

/-- Updating the same rows twice composes the two settings, if the first keeps the selection. -/
theorem updateWhere_updateWhere {p : α → Bool} {f g : α → α} {t : List α}
    (h : ∀ r ∈ t, p r = true → p (f r) = true) :
    updateWhere p g (updateWhere p f t) = updateWhere p (fun r => g (f r)) t := by
  simp only [updateWhere, List.map_map]
  refine List.map_congr_left fun r hr => ?_
  by_cases hp : p r = true
  · simp [hp, h r hr hp]
  · simp [hp]

/-! ## Keys -/

theorem Keyed.eq_of_mem {key : α → κ} {t : List α} (h : Keyed key t) {r s : α} (hr : r ∈ t)
    (hs : s ∈ t) (hk : key r = key s) : r = s :=
  List.inj_on_of_nodup_map h hr hs hk

theorem Keyed.nodup {key : α → κ} {t : List α} (h : Keyed key t) : t.Nodup := List.Nodup.of_map _ h

theorem Keyed.updateWhere {key : α → κ} {p : α → Bool} {f : α → α} {t : List α} (h : Keyed key t)
    (hf : ∀ r, key (f r) = key r) : Keyed key (updateWhere p f t) := by
  unfold Keyed
  rw [map_updateWhere hf]
  exact h

theorem Keyed.append {key : α → κ} {t : List α} {r : α} (h : Keyed key t)
    (hr : ∀ s ∈ t, key s ≠ key r) : Keyed key (t ++ [r]) := by
  unfold Keyed
  rw [List.map_append, List.map_singleton]
  refine List.Nodup.append h (List.nodup_singleton _) ?_
  intro k hk hk'
  obtain ⟨s, hs, rfl⟩ := List.mem_map.mp hk
  exact hr s hs (List.mem_singleton.mp hk')

@[simp] theorem keyed_nil (key : α → κ) : Keyed key ([] : List α) := by
  unfold Keyed
  exact List.nodup_nil

/-- Updating by a key replaces exactly the row that has it. -/
theorem Keyed.mem_updateWhere_key [DecidableEq κ] {key : α → κ} {t : List α} (h : Keyed key t)
    {f : α → α} {r s : α} (hr : r ∈ t) :
    s ∈ Table.updateWhere (fun x => key x = key r) f t ↔ s = f r ∨ (s ∈ t ∧ key s ≠ key r) := by
  rw [mem_updateWhere]
  refine or_congr ⟨?_, ?_⟩ (and_congr_right fun _ => by simp)
  · rintro ⟨r₀, hr₀, hk, rfl⟩
    rw [h.eq_of_mem hr₀ hr (by simpa using hk)]
  · rintro rfl
    exact ⟨r, hr, by simp, rfl⟩

/-- An update whose condition implies the key of a row it selects is the update by that key; the two
settings need to agree on that row only. -/
theorem Keyed.updateWhere_eq_key [DecidableEq κ] {key : α → κ} {t : List α} (h : Keyed key t)
    {p : α → Bool} {f g : α → α} {r : α} (hr : r ∈ t) (hp : p r = true)
    (hkey : ∀ s, p s = true → key s = key r) (hfg : f r = g r) :
    Table.updateWhere p f t = Table.updateWhere (fun s => key s = key r) g t := by
  refine List.map_congr_left fun s hs => ?_
  by_cases hk : key s = key r
  · rw [h.eq_of_mem hs hr hk]
    simp [hp, hfg]
  · have : p s ≠ true := fun hps => hk (hkey s hps)
    simp [hk, this]

/-- An update whose condition implies the key of a row it selects is the update by that key. -/
theorem Keyed.updateWhere_by_key [DecidableEq κ] {key : α → κ} {t : List α} (h : Keyed key t)
    {p : α → Bool} (f : α → α) {r : α} (hr : r ∈ t) (hp : p r = true)
    (hkey : ∀ s, p s = true → key s = key r) :
    Table.updateWhere p f t = Table.updateWhere (fun s => key s = key r) f t :=
  h.updateWhere_eq_key hr hp hkey rfl

/-- A keyed filter with one match is that one row. -/
theorem Keyed.filter_eq_singleton {key : α → κ} {t : List α} (h : Keyed key t) {p : α → Bool}
    {r : α} (hr : r ∈ t) (hp : p r = true) (huniq : ∀ s ∈ t, p s = true → s = r) :
    t.filter p = [r] := by
  have hperm : (t.filter p).Perm [r] := by
    refine (List.perm_ext_iff_of_nodup (h.nodup.filter p) (List.nodup_singleton r)).mpr fun s => ?_
    simp only [List.mem_filter, List.mem_singleton]
    exact ⟨fun hs => huniq s hs.1 hs.2, fun hs => hs ▸ ⟨hr, hp⟩⟩
  exact List.perm_singleton.mp hperm

/-! ## Keyed lookup -/

section Lookup

variable [DecidableEq κ]

theorem Keyed.find?_eq_some {key : α → κ} {t : List α} (h : Keyed key t) {k : κ} {r : α} :
    t.find? (fun s => key s = k) = some r ↔ r ∈ t ∧ key r = k := by
  constructor
  · intro hf
    exact ⟨List.mem_of_find?_eq_some hf, by simpa using List.find?_some hf⟩
  · rintro ⟨hr, rfl⟩
    cases hf : t.find? (fun s => key s = key r) with
    | none =>
      have := List.find?_eq_none.mp hf r hr
      simp at this
    | some s =>
      have hs : key s = key r := by simpa using List.find?_some hf
      rw [h.eq_of_mem (List.mem_of_find?_eq_some hf) hr hs]

theorem find?_key_eq_none {key : α → κ} {t : List α} {k : κ} :
    t.find? (fun s => key s = k) = none ↔ ∀ r ∈ t, key r ≠ k := by
  simp [List.find?_eq_none]

/-- A lookup that already succeeds is not disturbed by an insert. -/
theorem find?_append_of_mem {p : α → Bool} {t u : List α} (h : ∃ r ∈ t, p r = true) :
    (t ++ u).find? p = t.find? p := by
  have hsome : (t.find? p).isSome := List.find?_isSome.mpr h
  rw [List.find?_append, Option.or_of_isSome hsome]

/-- A key-preserving update acts on the result of a keyed lookup. -/
theorem find?_updateWhere {key : α → κ} {p : α → Bool} {f : α → α}
    (hf : ∀ r, p r = true → key (f r) = key r) (t : List α) (k : κ) :
    (updateWhere p f t).find? (fun s => key s = k) =
      (t.find? (fun s => key s = k)).map fun r => if p r then f r else r := by
  induction t with
  | nil => rfl
  | cons r t ih =>
    have hk : key (if p r then f r else r) = key r := by
      split
      · next hp => exact hf r hp
      · rfl
    simp only [updateWhere] at ih ⊢
    rw [List.map_cons, List.find?_cons, List.find?_cons, hk]
    by_cases hr : key r = k
    · simp [hr]
    · simp [hr, ih]

/-- A keyed lookup after an insert of a key that is not there. -/
theorem find?_append_new {key : α → κ} {t : List α} {r : α} (hnew : ∀ s ∈ t, key s ≠ key r) (k : κ) :
    (t ++ [r]).find? (fun s => key s = k) =
      if key r = k then some r else t.find? fun s => key s = k := by
  rw [List.find?_append]
  by_cases hk : key r = k
  · subst hk
    rw [find?_key_eq_none.mpr hnew, if_pos rfl]
    simp
  · rw [if_neg hk]
    simp [hk]

/-- `INSERT … ON CONFLICT(key) DO UPDATE` of every column. -/
def upsert (key : α → κ) (r : α) (t : List α) : List α :=
  if ∃ s ∈ t, key s = key r then updateWhere (fun s => key s = key r) (fun _ => r) t else t ++ [r]

theorem find?_upsert (key : α → κ) (r : α) (t : List α) (k : κ) :
    (upsert key r t).find? (fun s => key s = k) =
      if key r = k then some r else t.find? fun s => key s = k := by
  unfold upsert
  split
  · next hex =>
    rw [find?_updateWhere fun s hs => (of_decide_eq_true hs).symm]
    by_cases hk : key r = k
    · obtain ⟨s, hs, hsr⟩ := hex
      have hsome : (t.find? fun s => key s = k).isSome :=
        List.find?_isSome.mpr ⟨s, hs, by simp [hsr, hk]⟩
      obtain ⟨u, hu⟩ := Option.isSome_iff_exists.mp hsome
      have huk : key u = k := by simpa using List.find?_some hu
      rw [hu, if_pos hk, Option.map_some, if_pos (by simp [huk, hk])]
    · rw [if_neg hk]
      cases hfind : t.find? fun s => key s = k with
      | none => rfl
      | some u =>
        have huk : key u = k := by simpa using List.find?_some hfind
        rw [Option.map_some, if_neg (by simpa [huk] using fun h => hk h.symm)]
  · next hnex =>
    exact find?_append_new (fun s hs h => hnex ⟨s, hs, h⟩) k

end Lookup

/-! ## Ranking -/

/-- The rows `row_number() OVER (PARTITION BY part ORDER BY key DESC)` numbers 1, for a key that no
two rows of a partition share. -/
def topRows {ν : Type} [DecidableEq κ] [LE ν] [DecidableLE ν] (part : α → κ) (key : α → ν)
    (t : List α) : List α :=
  t.filter fun r => ∀ s ∈ t, part s = part r → key s ≤ key r

theorem mem_of_mem_topRows {ν : Type} [DecidableEq κ] [LE ν] [DecidableLE ν] {part : α → κ}
    {key : α → ν} {t : List α} {r : α} (h : r ∈ topRows part key t) : r ∈ t :=
  List.mem_of_mem_filter h

theorem mem_topRows {ν : Type} [DecidableEq κ] [LE ν] [DecidableLE ν] {part : α → κ} {key : α → ν}
    {t : List α} {r : α} :
    r ∈ topRows part key t ↔ r ∈ t ∧ ∀ s ∈ t, part s = part r → key s ≤ key r := by
  simp [topRows]

/-- Every row is outranked by a row of its partition that is numbered 1. -/
theorem exists_mem_topRows {ν : Type} [DecidableEq κ] [LinearOrder ν] (part : α → κ) (key : α → ν)
    {t : List α} {r : α} (hr : r ∈ t) : ∃ s ∈ topRows part key t, part s = part r := by
  have hne : (t.filter fun s => part s = part r).map key ≠ [] := by
    intro hnil
    have hmem : r ∈ t.filter fun s => part s = part r := List.mem_filter.mpr ⟨hr, by simp⟩
    rw [List.map_eq_nil_iff.mp hnil] at hmem
    exact nomatch hmem
  obtain ⟨m, hm⟩ := Option.isSome_iff_exists.mp (List.isSome_max?_of_ne_nil hne)
  obtain ⟨hmem, hle⟩ := List.max?_eq_some_iff.mp hm
  obtain ⟨s, hs, rfl⟩ := List.mem_map.mp hmem
  obtain ⟨hs, hpart⟩ := List.mem_filter.mp hs
  have hpart : part s = part r := of_decide_eq_true hpart
  refine ⟨s, mem_topRows.mpr ⟨hs, ?_⟩, hpart⟩
  intro u hu hus
  exact hle _ (List.mem_map_of_mem (List.mem_filter.mpr ⟨hu, decide_eq_true (hus.trans hpart)⟩))

/-- Ranking by two columns: first in the major one, and in the minor one among its equals. -/
theorem mem_topRows_lex {μ ν : Type} [DecidableEq κ] [LinearOrder μ] [LinearOrder ν] {part : α → κ}
    {major : α → μ} {minor : α → ν} {t : List α} {r : α} :
    r ∈ topRows part (fun s => toLex (major s, minor s)) t ↔ r ∈ t ∧
      (∀ s ∈ t, part s = part r → major s ≤ major r) ∧
      ∀ s ∈ t, part s = part r → major s = major r → minor s ≤ minor r := by
  rw [mem_topRows]
  refine and_congr_right fun _ => ⟨fun h => ⟨?_, ?_⟩, fun ⟨h, h'⟩ s hs hpart => ?_⟩
  · intro s hs hpart
    rcases (Prod.Lex.toLex_le_toLex).mp (h s hs hpart) with hlt | ⟨heq, -⟩
    · exact hlt.le
    · exact heq.le
  · intro s hs hpart heq
    rcases (Prod.Lex.toLex_le_toLex).mp (h s hs hpart) with hlt | ⟨-, hle⟩
    · exact absurd heq hlt.ne
    · exact hle
  · rw [Prod.Lex.toLex_le_toLex]
    rcases (h s hs hpart).lt_or_eq with hlt | heq
    · exact Or.inl hlt
    · exact Or.inr ⟨heq, h' s hs hpart heq⟩

/-! ## The newest row -/

section Newest

variable {ν : Type} [LinearOrder ν] {key : α → ν} {t : List α}

/-- The first row of `ORDER BY key DESC`. -/
def newest (key : α → ν) (t : List α) : Option α :=
  (t.insertionSort fun a b => key b ≤ key a).head?

theorem newest_cons (key : α → ν) (r : α) (t : List α) : newest key (r :: t) =
    match newest key t with
    | none => some r
    | some h => some (if key h ≤ key r then r else h) := by
  unfold newest
  rw [List.insertionSort_cons]
  cases t.insertionSort fun a b => key b ≤ key a with
  | nil => rfl
  | cons h t =>
    rw [List.orderedInsert_cons]
    simp only [List.head?_cons]
    split <;> rfl

/-- The newest row is a row, and no row is newer. -/
theorem newest_spec {r : α} (h : newest key t = some r) : r ∈ t ∧ ∀ s ∈ t, key s ≤ key r := by
  have hmem := List.mem_of_head? h
  refine ⟨(List.mem_insertionSort _).mp hmem, fun s hs => ?_⟩
  have hsorted := List.pairwise_insertionSort (fun a b => key b ≤ key a) t
  unfold newest at h
  have hs' := (List.mem_insertionSort fun a b => key b ≤ key a).mpr hs
  cases hsort : t.insertionSort fun a b => key b ≤ key a with
  | nil =>
    rw [hsort] at h
    exact nomatch h
  | cons h' t' =>
    rw [hsort] at h hsorted hs'
    obtain rfl : h' = r := Option.some.inj h
    rcases List.mem_cons.mp hs' with rfl | hs'
    · exact le_rfl
    · exact (List.pairwise_cons.mp hsorted).1 s hs'

theorem newest_eq_none : newest key t = none ↔ t = [] := by
  cases t with
  | nil => exact ⟨fun _ => rfl, fun _ => rfl⟩
  | cons r t =>
    rw [newest_cons]
    cases newest key t <;> simp

/-- A row newer than all others is the newest. -/
theorem newest_append_newer {r : α} (h : ∀ s ∈ t, key s < key r) :
    newest key (t ++ [r]) = some r := by
  cases hn : newest key (t ++ [r]) with
  | none => exact absurd (newest_eq_none.mp hn) (by simp)
  | some s =>
    obtain ⟨hs, hmax⟩ := newest_spec hn
    rcases List.mem_append.mp hs with hs | hs
    · exact absurd (hmax r (by simp)) (not_le_of_gt (h s hs))
    · rw [List.mem_singleton.mp hs]

/-- A row older than the newest one is not noticed. -/
theorem newest_append_older {r q : α} (h : newest key t = some r) (hq : key q < key r) :
    newest key (t ++ [q]) = some r := by
  induction t generalizing r with
  | nil => exact nomatch h
  | cons s t ih =>
    rw [newest_cons] at h
    rw [List.cons_append, newest_cons]
    cases hn : newest key t with
    | none =>
      rw [hn] at h
      obtain rfl : s = r := Option.some.inj h
      rw [newest_eq_none.mp hn]
      simp [newest, hq.le]
    | some u =>
      rw [hn] at h
      obtain rfl := Option.some.inj h
      by_cases huq : key q < key u
      · rw [ih hn huq]
      · -- the row in front is the newest, and newer than both
        have hus : key u ≤ key s := by
          by_contra hus
          rw [if_neg hus] at hq
          exact huq hq
        rw [if_pos hus] at hq ⊢
        cases hn' : newest key (t ++ [q]) with
        | none => exact absurd (newest_eq_none.mp hn') (by simp)
        | some v =>
          have hvs : key v ≤ key s := by
            rcases List.mem_append.mp (newest_spec hn').1 with hv | hv
            · exact ((newest_spec hn).2 v hv).trans hus
            · rw [List.mem_singleton.mp hv]
              exact hq.le
          simp only [if_pos hvs]

end Newest

/-- SQL equality with a bound parameter: `NULL` equals nothing. -/
def sqlEq [DecidableEq α] (column : Option α) (value : α) : Bool := column = some value

@[simp] theorem sqlEq_iff [DecidableEq α] {column : Option α} {value : α} :
    sqlEq column value = true ↔ column = some value := by
  simp [sqlEq]

end NanFung.Table
