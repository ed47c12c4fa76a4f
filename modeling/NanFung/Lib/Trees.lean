import Mathlib.Tactic

/-!
# Keyed trees

A tree has leaves, lists and maps. A place in it is a path of keys and indices. Dropping the members of
some keys at every depth leaves the other places where they are.
-/

namespace NanFung

inductive Tree (κ ℓ : Type) where
  | leaf (value : ℓ)
  | list (items : List (Tree κ ℓ))
  | map (members : List (κ × Tree κ ℓ))

namespace Tree

variable {κ ℓ : Type}

/-- Induction over the items of lists and the members of maps. -/
@[elab_as_elim]
theorem induction {P : Tree κ ℓ → Prop} (leaf : ∀ l, P (.leaf l))
    (list : ∀ items, (∀ x ∈ items, P x) → P (.list items))
    (map : ∀ members, (∀ m ∈ members, P m.2) → P (.map members)) : ∀ t, P t
  | .leaf l => leaf l
  | .list items => list items (inItems items)
  | .map members => map members (inMembers members)
where
  inItems : ∀ (items : List (Tree κ ℓ)), ∀ x ∈ items, P x
    | [], _, h => nomatch h
    | x :: xs, y, h => by
      rcases List.mem_cons.mp h with heq | h
      · exact heq ▸ induction leaf list map x
      · exact inItems xs y h
  inMembers : ∀ (members : List (κ × Tree κ ℓ)), ∀ m ∈ members, P m.2
    | [], _, h => nomatch h
    | (k, x) :: ms, m, h => by
      rcases List.mem_cons.mp h with heq | h
      · exact heq ▸ induction leaf list map x
      · exact inMembers ms m h

/-! ## Places -/

inductive Step (κ : Type) where
  | key (k : κ)
  | index (i : Nat)

/-- The tree `u` stands at a place of another. -/
inductive At : Tree κ ℓ → List (Step κ) → Tree κ ℓ → Prop
  | here {t : Tree κ ℓ} : At t [] t
  | item {items : List (Tree κ ℓ)} {i : Nat} {x u : Tree κ ℓ} {p : List (Step κ)}
      (hx : items[i]? = some x) (h : At x p u) : At (.list items) (.index i :: p) u
  | member {members : List (κ × Tree κ ℓ)} {k : κ} {x u : Tree κ ℓ} {p : List (Step κ)}
      (hx : (k, x) ∈ members) (h : At x p u) : At (.map members) (.key k :: p) u

/-- What stands above a place has items or members. -/
theorem At.parent {t u : Tree κ ℓ} {p : List (Step κ)} (h : t.At p u) (hp : p ≠ []) :
    ∃ w, t.At p.dropLast w ∧ ∀ l, w ≠ .leaf l := by
  induction h with
  | here => exact absurd rfl hp
  | @item items i x u p hx h ih =>
    cases p with
    | nil => exact ⟨_, .here, nofun⟩
    | cons s p =>
      obtain ⟨w, hw, hleaf⟩ := ih (List.cons_ne_nil s p)
      exact ⟨w, .item hx hw, hleaf⟩
  | @member members k x u p hx h ih =>
    cases p with
    | nil => exact ⟨_, .here, nofun⟩
    | cons s p =>
      obtain ⟨w, hw, hleaf⟩ := ih (List.cons_ne_nil s p)
      exact ⟨w, .member hx hw, hleaf⟩

/-- A key of a path is the key of a member of a map on the way. -/
theorem At.of_key {t u : Tree κ ℓ} {p : List (Step κ)} {k : κ} (h : t.At p u)
    (hk : Step.key k ∈ p) : ∃ q members x, t.At q (.map members) ∧ (k, x) ∈ members := by
  induction h with
  | here => exact nomatch hk
  | item hx h ih =>
    rcases List.mem_cons.mp hk with heq | hk
    · exact nomatch heq
    · obtain ⟨q, members, y, hq, hy⟩ := ih hk
      exact ⟨_, members, y, .item hx hq, hy⟩
  | member hx h ih =>
    rcases List.mem_cons.mp hk with heq | hk
    · obtain rfl := Step.key.inj heq
      exact ⟨[], _, _, .here, hx⟩
    · obtain ⟨q, members, y, hq, hy⟩ := ih hk
      exact ⟨_, members, y, .member hx hq, hy⟩

/-- No key of the path is dropped. -/
def Kept (drop : κ → Bool) (p : List (Step κ)) : Prop := ∀ k, Step.key k ∈ p → drop k = false

variable {drop : κ → Bool} {t u x : Tree κ ℓ} {p : List (Step κ)}

theorem kept_nil : Kept drop ([] : List (Step κ)) := fun _ h => nomatch h

theorem kept_key {k : κ} : Kept drop (.key k :: p) ↔ drop k = false ∧ Kept drop p := by
  constructor
  · intro h
    exact ⟨h k List.mem_cons_self, fun l hl => h l (List.mem_cons_of_mem _ hl)⟩
  · rintro ⟨hk, hp⟩ l hl
    rcases List.mem_cons.mp hl with heq | hl
    · obtain rfl := Step.key.inj heq
      exact hk
    · exact hp l hl

theorem kept_index {i : Nat} : Kept drop (.index i :: p) ↔ Kept drop p := by
  constructor
  · exact fun h l hl => h l (List.mem_cons_of_mem _ hl)
  · intro h l hl
    rcases List.mem_cons.mp hl with heq | hl
    · exact nomatch heq
    · exact h l hl

/-- A property of every place that is kept, from the depth of the root on. -/
def Every (drop : κ → Bool) (P : Nat → Tree κ ℓ → Prop) (d : Nat) (t : Tree κ ℓ) : Prop :=
  ∀ p u, t.At p u → Kept drop p → P (d + p.length) u

variable {P : Nat → Tree κ ℓ → Prop} {d : Nat}

theorem Every.here (h : Every drop P d t) : P d t := h [] t .here kept_nil

theorem every_leaf {l : ℓ} : Every drop P d (.leaf l) ↔ P d (.leaf l) := by
  refine ⟨Every.here, ?_⟩
  intro h p u hat _
  cases hat
  exact h

theorem every_list {items : List (Tree κ ℓ)} : Every drop P d (.list items) ↔
    P d (.list items) ∧ ∀ x ∈ items, Every drop P (d + 1) x := by
  constructor
  · intro h
    refine ⟨h.here, ?_⟩
    intro x hx p u hat hp
    obtain ⟨i, hi⟩ := List.mem_iff_getElem?.mp hx
    have hu := h _ u (.item hi hat) (kept_index.mpr hp)
    rwa [List.length_cons, ← Nat.add_assoc, Nat.add_right_comm] at hu
  · rintro ⟨hroot, hitems⟩ p u hat hp
    cases hat with
    | here => exact hroot
    | item hx hat =>
      have hu := hitems _ (List.mem_of_getElem? hx) _ u hat (kept_index.mp hp)
      rwa [List.length_cons, ← Nat.add_assoc, Nat.add_right_comm]

theorem every_map {members : List (κ × Tree κ ℓ)} : Every drop P d (.map members) ↔
    P d (.map members) ∧ ∀ m ∈ members, drop m.1 = false → Every drop P (d + 1) m.2 := by
  constructor
  · intro h
    refine ⟨h.here, ?_⟩
    intro m hm hdrop p u hat hp
    have hu := h _ u (.member hm hat) (kept_key.mpr ⟨hdrop, hp⟩)
    rwa [List.length_cons, ← Nat.add_assoc, Nat.add_right_comm] at hu
  · rintro ⟨hroot, hmembers⟩ p u hat hp
    cases hat with
    | here => exact hroot
    | member hx hat =>
      obtain ⟨hdrop, hp⟩ := kept_key.mp hp
      have hu := hmembers _ hx hdrop _ u hat hp
      rwa [List.length_cons, ← Nat.add_assoc, Nat.add_right_comm]

/-! ## Dropping keys -/

mutual

/-- The tree without the members of some keys. -/
def prune (drop : κ → Bool) : Tree κ ℓ → Tree κ ℓ
  | .leaf l => .leaf l
  | .list items => .list (pruneItems drop items)
  | .map members => .map (pruneMembers drop members)

def pruneItems (drop : κ → Bool) : List (Tree κ ℓ) → List (Tree κ ℓ)
  | [] => []
  | x :: xs => prune drop x :: pruneItems drop xs

def pruneMembers (drop : κ → Bool) : List (κ × Tree κ ℓ) → List (κ × Tree κ ℓ)
  | [] => []
  | (k, x) :: ms => if drop k then pruneMembers drop ms else (k, prune drop x) :: pruneMembers drop ms

end

theorem pruneItems_eq (items : List (Tree κ ℓ)) : pruneItems drop items = items.map (prune drop) := by
  induction items with
  | nil => rfl
  | cons x xs ih => rw [pruneItems, ih, List.map_cons]

theorem mem_pruneMembers {members : List (κ × Tree κ ℓ)} {k : κ} : (k, u) ∈ pruneMembers drop members ↔
    drop k = false ∧ ∃ x, (k, x) ∈ members ∧ u = prune drop x := by
  induction members with
  | nil => simp [pruneMembers]
  | cons m ms ih =>
    obtain ⟨l, y⟩ := m
    rw [pruneMembers]
    split
    · next hdrop =>
      rw [ih]
      refine and_congr_right fun hk => exists_congr fun x => and_congr_left fun _ => ?_
      rw [List.mem_cons]
      refine ⟨Or.inr, fun h => h.resolve_left ?_⟩
      rintro heq
      obtain ⟨rfl, -⟩ := Prod.mk.inj heq
      exact nomatch hdrop.symm.trans hk
    · next hdrop =>
      rw [List.mem_cons, ih]
      constructor
      · rintro (heq | ⟨hk, x, hx, rfl⟩)
        · obtain ⟨rfl, rfl⟩ := Prod.mk.inj heq
          exact ⟨Bool.eq_false_iff.mpr hdrop, y, List.mem_cons_self, rfl⟩
        · exact ⟨hk, x, List.mem_cons_of_mem _ hx, rfl⟩
      · rintro ⟨hk, x, hx, rfl⟩
        rcases List.mem_cons.mp hx with heq | hx
        · obtain ⟨rfl, rfl⟩ := Prod.mk.inj heq
          exact Or.inl rfl
        · exact Or.inr ⟨hk, x, hx, rfl⟩

theorem length_pruneMembers_le (members : List (κ × Tree κ ℓ)) :
    (pruneMembers drop members).length ≤ members.length := by
  induction members with
  | nil => exact le_rfl
  | cons m ms ih =>
    rw [pruneMembers]
    split
    · exact ih.trans (Nat.le_succ _)
    · exact Nat.succ_le_succ ih

/-- The places that are left are those without a dropped key, with the same below them. -/
theorem at_prune : (t.prune drop).At p u ↔ Kept drop p ∧ ∃ w, t.At p w ∧ u = w.prune drop := by
  induction t using Tree.induction generalizing p with
  | leaf l =>
    rw [prune]
    constructor
    · intro h
      cases h
      exact ⟨kept_nil, _, .here, rfl⟩
    · rintro ⟨-, w, hw, rfl⟩
      cases hw
      exact .here
  | list items ih =>
    rw [prune]
    constructor
    · intro h
      cases h with
      | here => exact ⟨kept_nil, _, .here, by rw [prune]⟩
      | item hx h =>
        rw [pruneItems_eq, List.getElem?_map, Option.map_eq_some_iff] at hx
        obtain ⟨x, hx, rfl⟩ := hx
        obtain ⟨hp, w, hw, rfl⟩ := (ih x (List.mem_of_getElem? hx)).mp h
        exact ⟨kept_index.mpr hp, w, .item hx hw, rfl⟩
    · rintro ⟨hp, w, hw, rfl⟩
      cases hw with
      | here =>
        rw [prune]
        exact .here
      | item hx hw =>
        refine .item (x := prune drop _) ?_ ((ih _ (List.mem_of_getElem? hx)).mpr
          ⟨kept_index.mp hp, w, hw, rfl⟩)
        rw [pruneItems_eq, List.getElem?_map, hx]
        rfl
  | map members ih =>
    rw [prune]
    constructor
    · intro h
      cases h with
      | here => exact ⟨kept_nil, _, .here, by rw [prune]⟩
      | member hx h =>
        obtain ⟨hdrop, x, hmem, rfl⟩ := mem_pruneMembers.mp hx
        obtain ⟨hp, w, hw, rfl⟩ := (ih (_, x) hmem).mp h
        exact ⟨kept_key.mpr ⟨hdrop, hp⟩, w, .member hmem hw, rfl⟩
    · rintro ⟨hp, w, hw, rfl⟩
      cases hw with
      | here =>
        rw [prune]
        exact .here
      | member hx hw =>
        obtain ⟨hdrop, hp⟩ := kept_key.mp hp
        exact .member (mem_pruneMembers.mpr ⟨hdrop, _, hx, rfl⟩) ((ih _ hx).mpr ⟨hp, w, hw, rfl⟩)

/-- Only a leaf leaves a leaf. -/
theorem prune_eq_leaf {l : ℓ} : t.prune drop = .leaf l ↔ t = .leaf l := by
  cases t with
  | leaf => rfl
  | list items => rw [prune]; exact iff_of_false nofun nofun
  | map members => rw [prune]; exact iff_of_false nofun nofun

/-- Dropping the keys again changes nothing. -/
theorem prune_prune (t : Tree κ ℓ) : (t.prune drop).prune drop = t.prune drop := by
  induction t using Tree.induction with
  | leaf l => rfl
  | list items ih =>
    rw [prune, prune, pruneItems_eq, pruneItems_eq, List.map_map]
    exact congrArg Tree.list (List.map_congr_left ih)
  | map members ih =>
    rw [prune, prune]
    congr 1
    induction members with
    | nil => rfl
    | cons m ms hms =>
      have hrest := hms fun n hn => ih n (List.mem_cons_of_mem _ hn)
      rw [pruneMembers]
      split
      · exact hrest
      · next hdrop => rw [pruneMembers, if_neg hdrop, hrest, ih m List.mem_cons_self]

/-- What holds at every kept place of a tree holds at every place of what is left of it, if dropping
keys keeps it. -/
theorem Every.prune (hP : ∀ d t, P d t → P d (t.prune drop)) (h : Every drop P d t) :
    Every drop P d (t.prune drop) := by
  intro p u hat hp
  obtain ⟨-, w, hw, rfl⟩ := at_prune.mp hat
  exact hP _ _ (h p w hw hp)

end Tree

end NanFung
