import NanFung.Lib.Json
import Mathlib.Data.List.Infix

/-!
# Searching serialised JSON

A search for a text in `JSON.stringify(value)` finds it inside one of the value's own texts (its keys,
its strings and its number literals) if the text is a marker: it has no character that separates or
escapes, and it starts with one that no escape sequence and no literal word contains.
-/

namespace NanFung

/-! ## Infixes and separators -/

section Infix

variable {α : Type} {p A B : List α} {x : α}

/-- An occurrence without a certain element lies on one side of it. -/
theorem infix_append_cons (hx : x ∉ p) (hp : p ≠ []) :
    p <:+: A ++ x :: B ↔ p <:+: A ∨ p <:+: B := by
  constructor
  · rintro ⟨s, t, h⟩
    rw [List.append_assoc] at h
    obtain ⟨as, hA, hrest⟩ | ⟨cs, hs, hrest⟩ := List.append_eq_append_iff.mp h
    · -- The occurrence starts before the separator: it ends there, too.
      obtain ⟨bs, has, hB⟩ | ⟨ds, hpd, hxB⟩ := List.append_eq_append_iff.mp hrest
      · exact Or.inl ⟨s, bs, by rw [hA, has, List.append_assoc]⟩
      · cases ds with
        | nil =>
          rw [List.append_nil] at hpd
          exact Or.inl ⟨s, [], by rw [hA, hpd, List.append_nil]⟩
        | cons d ds =>
          have hd : x = d := (List.cons.inj hxB).1
          exact absurd (hpd ▸ List.mem_append_right _ (hd ▸ List.mem_cons_self)) hx
    · cases cs with
      | nil =>
        cases p with
        | nil => exact absurd rfl hp
        | cons d p =>
          have hd : x = d := (List.cons.inj hrest).1
          exact absurd (hd ▸ List.mem_cons_self) hx
      | cons c cs =>
        have hB := (List.cons.inj hrest).2
        exact Or.inr ⟨cs, t, (List.append_assoc _ _ _).trans hB.symm⟩
  · rintro (h | h)
    · exact h.trans (List.prefix_append _ _).isInfix
    · exact h.trans ((List.suffix_cons _ _).isInfix.trans (List.suffix_append _ _).isInfix)

theorem infix_cons_of_not_mem (hx : x ∉ p) (hp : p ≠ []) : p <:+: x :: B ↔ p <:+: B := by
  have h := infix_append_cons (A := []) (B := B) hx hp
  rw [List.nil_append] at h
  rw [h, List.infix_nil, or_iff_right hp]

theorem infix_concat_of_not_mem (hx : x ∉ p) (hp : p ≠ []) : p <:+: A ++ [x] ↔ p <:+: A := by
  rw [infix_append_cons hx hp, List.infix_nil, or_iff_left hp]

/-- An occurrence does not start where its first element is missing. -/
theorem infix_of_infix_append {c : α} (hA : c ∉ A) (h : c :: p <:+: A ++ B) : c :: p <:+: B := by
  induction A with
  | nil => exact h
  | cons a A ih =>
    rw [List.mem_cons, not_or] at hA
    rw [List.cons_append, List.infix_cons_iff] at h
    cases h with
    | inl hstart => exact absurd (List.cons_prefix_cons.mp hstart).1 hA.1
    | inr h => exact ih hA.2 h

end Infix

namespace Json

/-! ## Markers -/

/-- The characters that separate the tokens of a serialised value. -/
def separators : List Char := ['"', '\\', '[', ']', '\x7b', '\x7d', ',', ':']

/-- The characters of escape sequences, of the literal words and of integers. -/
def wordChars : List Char := "ntfbulseadr0123456789-\"\\".toList ++ hexDigits
where
  hexDigits := "0123456789abcdef".toList

/-- A text that serialisation leaves as it is and does not make elsewhere. -/
structure Marker (p : List Char) : Prop where
  nonempty : p ≠ []
  plain : ∀ c ∈ p, c ∉ separators ∧ escapeChar c = [c]
  starts : ∀ c ∈ p.head?, c ∉ wordChars

instance (p : List Char) : Decidable (Marker p) :=
  decidable_of_iff (p ≠ [] ∧ (p.all fun c => c ∉ separators ∧ escapeChar c = [c]) = true ∧
      (p.head?.all fun c => c ∉ wordChars) = true) <| by
    rw [List.all_eq_true, Option.all_eq_true]
    simp only [decide_eq_true_eq]
    exact ⟨fun h => ⟨h.1, h.2.1, h.2.2⟩, fun h => ⟨h.nonempty, h.plain, h.starts⟩⟩

mutual

/-- The texts of a value: its strings, its number literals and the keys of its objects. -/
def texts : Json → List String
  | .null | .bool _ | .int _ => []
  | .float text => [text]
  | .str s => [s]
  | .arr items => textsOfItems items
  | .obj members => textsOfMembers members

def textsOfItems : List Json → List String
  | [] => []
  | x :: xs => texts x ++ textsOfItems xs

def textsOfMembers : List (String × Json) → List String
  | [] => []
  | (k, x) :: xs => k :: texts x ++ textsOfMembers xs

end

variable {p : List Char}

theorem Marker.not_mem (hp : Marker p) {x : Char} (hx : x ∈ separators) : x ∉ p :=
  fun h => (hp.plain x h).1 hx

/-! ## Strings -/

theorem escapeChar_cases (c : Char) :
    escapeChar c = [c] ∨ ∃ w, escapeChar c = '\\' :: w ∧ ∀ d ∈ w, d ∈ wordChars := by
  have hhex : ∀ n, Nat.digitChar (n % 16) ∈ wordChars := by
    intro n
    have hlt : n % 16 < 16 := Nat.mod_lt _ (by decide)
    interval_cases n % 16 <;> decide
  unfold escapeChar
  split_ifs
  · exact Or.inr ⟨_, rfl, List.forall_mem_singleton.mpr (by decide)⟩
  · exact Or.inr ⟨_, rfl, List.forall_mem_singleton.mpr (by decide)⟩
  · exact Or.inr ⟨_, rfl, List.forall_mem_singleton.mpr (by decide)⟩
  · exact Or.inr ⟨_, rfl, List.forall_mem_singleton.mpr (by decide)⟩
  · exact Or.inr ⟨_, rfl, List.forall_mem_singleton.mpr (by decide)⟩
  · exact Or.inr ⟨_, rfl, List.forall_mem_singleton.mpr (by decide)⟩
  · exact Or.inr ⟨_, rfl, List.forall_mem_singleton.mpr (by decide)⟩
  · refine Or.inr ⟨_, rfl, fun d hd => ?_⟩
    simp only [hex4, List.map_cons, List.map_nil, List.mem_cons, List.not_mem_nil, or_false] at hd
    obtain rfl | rfl | rfl | rfl | rfl := hd
    · decide
    all_goals exact hhex _
  · exact Or.inl rfl

/-- A prefix of an escaped text without an escape is one of the text. -/
theorem prefix_of_escaped {s : List Char} (hplain : '\\' ∉ p)
    (h : p <+: s.flatMap escapeChar) : p <+: s := by
  induction s generalizing p with
  | nil => exact h
  | cons d s ih =>
    cases p with
    | nil => exact List.nil_prefix
    | cons c p =>
      rw [List.mem_cons, not_or] at hplain
      rw [List.flatMap_cons] at h
      obtain hd | ⟨w, hd, -⟩ := escapeChar_cases d
      · rw [hd, List.singleton_append, List.cons_prefix_cons] at h
        rw [List.cons_prefix_cons]
        exact ⟨h.1, ih hplain.2 h.2⟩
      · rw [hd, List.cons_append, List.cons_prefix_cons] at h
        exact absurd h.1.symm hplain.1

theorem infix_of_escaped (hp : Marker p) {s : List Char} (h : p <:+: s.flatMap escapeChar) :
    p <:+: s := by
  obtain ⟨c, p', rfl⟩ := List.exists_cons_of_ne_nil hp.nonempty
  have hc : c ∉ wordChars := hp.starts c rfl
  have hslash : '\\' ∉ c :: p' := hp.not_mem (by decide)
  induction s with
  | nil => exact h
  | cons d s ih =>
    rw [List.flatMap_cons] at h
    obtain hd | ⟨w, hd, hw⟩ := escapeChar_cases d
    · rw [hd, List.singleton_append, List.infix_cons_iff] at h
      cases h with
      | inl hstart =>
        rw [List.cons_prefix_cons] at hstart
        refine List.IsPrefix.isInfix ?_
        rw [List.cons_prefix_cons]
        rw [List.mem_cons, not_or] at hslash
        exact ⟨hstart.1, prefix_of_escaped hslash.2 hstart.2⟩
      | inr h => exact (ih h).trans (List.suffix_cons _ _).isInfix
    · rw [hd] at h
      have hnot : c ∉ '\\' :: w := by
        rw [List.mem_cons, not_or]
        exact ⟨fun he => hc (he ▸ by decide), fun hmem => hc (hw c hmem)⟩
      exact (ih (infix_of_infix_append hnot h)).trans (List.suffix_cons _ _).isInfix

theorem escaped_of_plain {s : List Char} (h : ∀ c ∈ s, escapeChar c = [c]) :
    s.flatMap escapeChar = s := by
  induction s with
  | nil => rfl
  | cons c s ih =>
    rw [List.flatMap_cons, h c List.mem_cons_self, ih fun d hd => h d (List.mem_cons_of_mem _ hd),
      List.singleton_append]

theorem infix_escaped (hp : Marker p) {s : List Char} (h : p <:+: s) :
    p <:+: s.flatMap escapeChar := by
  obtain ⟨a, b, rfl⟩ := h
  rw [List.flatMap_append, List.flatMap_append, escaped_of_plain fun c hc => (hp.plain c hc).2]
  exact List.infix_append _ _ _

theorem infix_quote (hp : Marker p) (s : String) : p <:+: quote s ↔ p <:+: s.toList := by
  rw [quote, List.cons_append, infix_cons_of_not_mem (hp.not_mem (by decide)) hp.nonempty,
    infix_concat_of_not_mem (hp.not_mem (by decide)) hp.nonempty]
  exact ⟨infix_of_escaped hp, infix_escaped hp⟩

/-! ## Values -/

/-- A word without the first character of the marker. -/
theorem not_infix_word (hp : Marker p) {w : List Char} (hw : ∀ c ∈ w, c ∈ wordChars) :
    ¬ p <:+: w := by
  obtain ⟨c, p', rfl⟩ := List.exists_cons_of_ne_nil hp.nonempty
  exact fun h => hp.starts c rfl (hw c (h.subset List.mem_cons_self))

theorem mem_wordChars_of_all {w : List Char} (h : (w.all fun c => c ∈ wordChars) = true) :
    ∀ c ∈ w, c ∈ wordChars := by
  simpa only [List.all_eq_true, decide_eq_true_eq] using h

theorem mem_wordChars_of_isDigit {c : Char} (h : c.isDigit = true) : c ∈ wordChars := by
  have hbounds : 48 ≤ c.toNat ∧ c.toNat ≤ 57 := by
    simpa [Char.isDigit, UInt32.le_iff_toNat_le] using h
  obtain ⟨hlow, hhigh⟩ := hbounds
  rw [← Char.ofNat_toNat c]
  generalize c.toNat = n at hlow hhigh
  interval_cases n <;> decide

theorem int_chars (i : Int) : ∀ c ∈ (toString i).toList, c ∈ wordChars := by
  have hnat : ∀ n : Nat, ∀ c ∈ n.repr.toList, c ∈ wordChars := by
    intro n c hc
    rw [Nat.toList_repr] at hc
    exact mem_wordChars_of_isDigit (Nat.isDigit_of_mem_toDigits (by decide) (by decide) hc)
  intro c hc
  cases i with
  | ofNat n => exact hnat n c hc
  | negSucc n =>
    have hneg : (toString (Int.negSucc n)).toList = '-' :: (n + 1).repr.toList := by
      rw [Int.toString_eq_repr, Int.repr]
      simp
    rw [hneg] at hc
    cases List.mem_cons.mp hc with
    | inl he => exact he ▸ by decide
    | inr hc => exact hnat _ c hc

theorem infix_commaJoin (hp : Marker p) (ts : List (List Char)) :
    p <:+: commaJoin ts ↔ ∃ t ∈ ts, p <:+: t := by
  induction ts with
  | nil => simp [commaJoin, hp.nonempty]
  | cons t ts ih =>
    cases ts with
    | nil => simp [commaJoin]
    | cons u us =>
      rw [commaJoin, infix_append_cons (hp.not_mem (by decide)) hp.nonempty, ih]
      simp only [List.mem_cons, exists_eq_or_imp]

mutual

/-- A marker occurs in a serialised value exactly where it occurs in one of the value's texts. -/
theorem infix_stringify (hp : Marker p) : ∀ v : Json,
    p <:+: stringify v ↔ ∃ t ∈ texts v, p <:+: t.toList
  | .null => by
    simpa [stringify, texts] using not_infix_word hp (mem_wordChars_of_all (by decide))
  | .bool true => by
    simpa [stringify, texts] using not_infix_word hp (mem_wordChars_of_all (by decide))
  | .bool false => by
    simpa [stringify, texts] using not_infix_word hp (mem_wordChars_of_all (by decide))
  | .int i => by simpa [stringify, texts] using not_infix_word hp (int_chars i)
  | .float text => by simp [stringify, texts]
  | .str s => by simpa [stringify, texts] using infix_quote hp s
  | .arr items => by
    rw [stringify, List.cons_append, infix_cons_of_not_mem (hp.not_mem (by decide)) hp.nonempty,
      infix_concat_of_not_mem (hp.not_mem (by decide)) hp.nonempty, infix_commaJoin hp, texts]
    exact infix_stringifyItems hp items
  | .obj members => by
    rw [stringify, List.cons_append, infix_cons_of_not_mem (hp.not_mem (by decide)) hp.nonempty,
      infix_concat_of_not_mem (hp.not_mem (by decide)) hp.nonempty, infix_commaJoin hp, texts]
    exact infix_stringifyMembers hp members

theorem infix_stringifyItems (hp : Marker p) : ∀ items : List Json,
    (∃ t ∈ stringifyItems items, p <:+: t) ↔ ∃ t ∈ textsOfItems items, p <:+: t.toList
  | [] => by simp [stringifyItems, textsOfItems]
  | x :: xs => by
    rw [stringifyItems, textsOfItems]
    simp only [List.mem_cons, List.mem_append, exists_eq_left, or_and_right, exists_or,
      infix_stringify hp x, infix_stringifyItems hp xs]

theorem infix_stringifyMembers (hp : Marker p) : ∀ members : List (String × Json),
    (∃ t ∈ stringifyMembers members, p <:+: t) ↔ ∃ t ∈ textsOfMembers members, p <:+: t.toList
  | [] => by simp [stringifyMembers, textsOfMembers]
  | (k, x) :: xs => by
    rw [stringifyMembers, textsOfMembers]
    simp only [List.cons_append, List.mem_cons, List.mem_append, exists_eq_left, or_and_right,
      exists_or, infix_append_cons (hp.not_mem (by decide : ':' ∈ separators)) hp.nonempty,
      infix_quote hp, infix_stringify hp x, infix_stringifyMembers hp xs, or_assoc]

end

end Json

end NanFung
