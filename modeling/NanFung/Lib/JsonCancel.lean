import NanFung.Lib.JsonText

/-!
# A serialised value determines the value

`JSON.stringify(value)` can be read back from the front: a token ends where the next separator
stands, so equal texts come from equal values. The number literals have to be numerals, and a number
that is written as an integer has to be held as one.
-/

namespace NanFung.Json

/-! ## Numerals -/

def digitChars : List Char := "0123456789".toList

def numeralChars : List Char := "+-.e".toList ++ digitChars

/-- A text that a finite number is written as. -/
structure Numeral (w : List Char) : Prop where
  starts : ∃ c ∈ w.head?, c ∈ '-' :: digitChars
  chars : ∀ c ∈ w, c ∈ numeralChars

mutual

/-- Values as they are parsed: the names of an object are distinct, and each number has one form. -/
def WellFormed : Json → Prop
  | .float text => Numeral text.toList ∧ ∀ i : Int, toString i ≠ text
  | .arr items => WellFormedItems items
  | .obj members => (members.map Prod.fst).Nodup ∧ WellFormedMembers members
  | _ => True

def WellFormedItems : List Json → Prop
  | [] => True
  | x :: xs => WellFormed x ∧ WellFormedItems xs

def WellFormedMembers : List (String × Json) → Prop
  | [] => True
  | (_, x) :: xs => WellFormed x ∧ WellFormedMembers xs

end

theorem wellFormedMembers_iff {members : List (String × Json)} :
    WellFormedMembers members ↔ ∀ m ∈ members, WellFormed m.2 := by
  induction members with
  | nil => simp [WellFormedMembers]
  | cons m ms ih => simp [WellFormedMembers, ih]

/-- What may follow a number: its end, or a character that no numeral has. -/
def Delimited (s : List Char) : Prop := ∀ c ∈ s.head?, c ∉ numeralChars

variable {s t u v : List Char}

theorem delimited_cons {c : Char} (hc : c ∉ numeralChars) : Delimited (c :: s) := by
  intro d hd
  cases hd
  exact hc

theorem numeral_cancel (hu : ∀ c ∈ u, c ∈ numeralChars) (hv : ∀ c ∈ v, c ∈ numeralChars)
    (hs : Delimited s) (ht : Delimited t) (h : u ++ s = v ++ t) : u = v ∧ s = t := by
  induction u generalizing v with
  | nil =>
    cases v with
    | nil => exact ⟨rfl, h⟩
    | cons c v =>
      rw [List.nil_append] at h
      exact absurd (hv c List.mem_cons_self) (hs c (h ▸ rfl))
  | cons c u ih =>
    cases v with
    | nil =>
      rw [List.nil_append] at h
      exact absurd (hu c List.mem_cons_self) (ht c (h ▸ rfl))
    | cons d v =>
      obtain ⟨rfl, hrest⟩ := List.cons.inj h
      obtain ⟨rfl, hst⟩ := ih (fun c hc => hu c (List.mem_cons_of_mem _ hc))
        (fun c hc => hv c (List.mem_cons_of_mem _ hc)) hrest
      exact ⟨rfl, hst⟩

theorem mem_digitChars_of_isDigit {c : Char} (h : c.isDigit = true) : c ∈ digitChars := by
  have hbounds : 48 ≤ c.toNat ∧ c.toNat ≤ 57 := by
    simpa [Char.isDigit, UInt32.le_iff_toNat_le] using h
  obtain ⟨hlow, hhigh⟩ := hbounds
  rw [← Char.ofNat_toNat c]
  generalize c.toNat = n at hlow hhigh
  interval_cases n <;> decide

theorem numeral_nat (n : Nat) : ∃ c w, n.repr.toList = c :: w ∧ ∀ d ∈ c :: w, d ∈ digitChars := by
  have hall : ∀ c ∈ n.repr.toList, c ∈ digitChars := by
    intro c hc
    rw [Nat.toList_repr] at hc
    exact mem_digitChars_of_isDigit (Nat.isDigit_of_mem_toDigits (by decide) (by decide) hc)
  have hne : n.repr.toList ≠ [] := by
    rw [Nat.toList_repr]
    exact Nat.toDigits_ne_nil
  obtain ⟨c, w, hw⟩ := List.exists_cons_of_ne_nil hne
  exact ⟨c, w, hw, hw ▸ hall⟩

theorem toString_negSucc (n : Nat) :
    (toString (Int.negSucc n)).toList = '-' :: (n + 1).repr.toList := by
  rw [Int.toString_eq_repr, Int.repr]
  simp

theorem numeral_int (i : Int) : Numeral (toString i).toList := by
  have hsub : ∀ d ∈ digitChars, d ∈ numeralChars := fun d hd => List.mem_append_right _ hd
  cases i with
  | ofNat n =>
    obtain ⟨c, w, hw, hall⟩ := numeral_nat n
    have htext : (toString (Int.ofNat n)).toList = c :: w := hw
    rw [htext]
    exact ⟨⟨c, rfl, List.mem_cons_of_mem _ (hall c List.mem_cons_self)⟩,
      fun d hd => hsub d (hall d hd)⟩
  | negSucc n =>
    obtain ⟨c, w, hw, hall⟩ := numeral_nat (n + 1)
    rw [toString_negSucc, hw]
    refine ⟨⟨'-', rfl, List.mem_cons_self⟩, fun d hd => ?_⟩
    cases List.mem_cons.mp hd with
    | inl he => exact he ▸ by decide
    | inr hd => exact hsub d (hall d hd)

theorem nat_text_inj {m n : Nat} (h : m.repr.toList = n.repr.toList) : m = n := by
  rw [Nat.toList_repr, Nat.toList_repr] at h
  rw [← @Nat.ofDigitChars_ten_toDigits m, h, Nat.ofDigitChars_ten_toDigits]

/-- The sign of an integer is told by its first character, its value by the digits. -/
theorem int_text_inj {i j : Int} (h : (toString i).toList = (toString j).toList) : i = j := by
  have hsign : ∀ m n : Nat, m.repr.toList ≠ '-' :: n.repr.toList := by
    intro m n hmn
    obtain ⟨c, w, hw, hall⟩ := numeral_nat m
    rw [hw] at hmn
    have hc : c ∈ digitChars := hall c List.mem_cons_self
    rw [(List.cons.inj hmn).1] at hc
    exact absurd hc (by decide)
  cases i with
  | ofNat m =>
    cases j with
    | ofNat n => exact congrArg Int.ofNat (nat_text_inj h)
    | negSucc n => exact absurd (h.trans (toString_negSucc n)) (hsign m (n + 1))
  | negSucc m =>
    cases j with
    | ofNat n => exact absurd ((toString_negSucc m).symm.trans h).symm (hsign n (m + 1))
    | negSucc n =>
      rw [toString_negSucc, toString_negSucc] at h
      have := nat_text_inj (List.cons.inj h).2
      exact congrArg Int.negSucc (Nat.succ.inj this)

/-! ## Strings -/

/-- The escapes of two characters, as the letter that is written and the character it stands for. -/
def shortEscapes : List (Char × Char) :=
  [('"', '"'), ('\\', '\\'), ('n', '\n'), ('r', '\r'), ('t', '\t'), ('f', '\x0c'), ('b', '\x08')]

/-- How a character is written: as itself, by a short escape, or by the digits of its code. -/
inductive Escaped (c : Char) : Prop
  | plain (h : escapeChar c = [c]) (hslash : c ≠ '\\') (hquote : c ≠ '"')
  | short (d : Char) (h : escapeChar c = ['\\', d]) (hmem : (d, c) ∈ shortEscapes)
  | control (h : escapeChar c = '\\' :: 'u' :: hex4 c.toNat) (hlt : c.toNat < 32)

theorem escaped (c : Char) : Escaped c := by
  have hshort : ∀ d, (d, c) ∈ shortEscapes → escapeChar c = ['\\', d] → Escaped c :=
    fun d hmem h => .short d h hmem
  by_cases hquote : c = '"'
  · subst hquote
    exact hshort '"' (by decide) (by decide)
  by_cases hslash : c = '\\'
  · subst hslash
    exact hshort '\\' (by decide) (by decide)
  by_cases hn : c = '\n'
  · subst hn
    exact hshort 'n' (by decide) (by decide)
  by_cases hr : c = '\r'
  · subst hr
    exact hshort 'r' (by decide) (by decide)
  by_cases ht : c = '\t'
  · subst ht
    exact hshort 't' (by decide) (by decide)
  by_cases hf : c = '\x0c'
  · subst hf
    exact hshort 'f' (by decide) (by decide)
  by_cases hb : c = '\x08'
  · subst hb
    exact hshort 'b' (by decide) (by decide)
  by_cases hlt : c.toNat < 32
  · exact .control (by simp only [escapeChar, if_neg, hquote, hslash, hn, hr, ht, hf, hb, hlt,
      not_false_eq_true, if_true]) hlt
  · exact .plain (by simp only [escapeChar, hquote, hslash, hn, hr, ht, hf, hb, hlt, if_false])
      hslash hquote

theorem shortEscapes_inj : ∀ e ∈ shortEscapes, ∀ f ∈ shortEscapes, e.1 = f.1 → e.2 = f.2 := by
  decide

theorem ne_u_of_shortEscapes : ∀ e ∈ shortEscapes, e.1 ≠ 'u' := by decide

/-- The digits of a control character tell which one it is. -/
theorem hex4_control : ∀ n < 32, ∀ m < 32, hex4 n = hex4 m → n = m := by decide

/-- The escape of a character is not the beginning of another one. -/
theorem escapeChar_cancel {c d : Char} (h : escapeChar c ++ s = escapeChar d ++ t) :
    c = d ∧ s = t := by
  cases escaped c with
  | plain hc hslash _ =>
    rw [hc] at h
    cases escaped d with
    | plain hd _ _ =>
      rw [hd] at h
      exact List.cons.inj h
    | short e hd _ =>
      rw [hd] at h
      exact absurd (List.cons.inj h).1 hslash
    | control hd _ =>
      rw [hd] at h
      exact absurd (List.cons.inj h).1 hslash
  | short e hc hmem =>
    rw [hc] at h
    cases escaped d with
    | plain hd hslash _ =>
      rw [hd] at h
      exact absurd (List.cons.inj h).1.symm hslash
    | short f hd hmem' =>
      rw [hd] at h
      obtain ⟨hef, hst⟩ := List.cons.inj (List.cons.inj h).2
      exact ⟨shortEscapes_inj _ hmem _ hmem' hef, hst⟩
    | control hd _ =>
      rw [hd] at h
      exact absurd (List.cons.inj (List.cons.inj h).2).1 (ne_u_of_shortEscapes _ hmem)
  | control hc hlt =>
    rw [hc] at h
    cases escaped d with
    | plain hd hslash _ =>
      rw [hd] at h
      exact absurd (List.cons.inj h).1.symm hslash
    | short f hd hmem =>
      rw [hd] at h
      exact absurd (List.cons.inj (List.cons.inj h).2).1.symm (ne_u_of_shortEscapes _ hmem)
    | control hd hlt' =>
      rw [hd] at h
      have hrest : hex4 c.toNat ++ s = hex4 d.toNat ++ t := (List.cons.inj (List.cons.inj h).2).2
      obtain ⟨hhex, hst⟩ := List.append_inj hrest rfl
      have hcode := hex4_control _ hlt _ hlt' hhex
      exact ⟨Char.toNat_inj.mp hcode, hst⟩

/-- A character's escape does not start like a closing quote. -/
theorem escapeChar_ne_quote (c : Char) : ∃ d w, escapeChar c = d :: w ∧ d ≠ '"' := by
  cases escaped c with
  | plain h _ hquote => exact ⟨c, [], h, hquote⟩
  | short d h _ => exact ⟨'\\', [d], h, by decide⟩
  | control h _ => exact ⟨'\\', _, h, by decide⟩

theorem escapes_cancel {a b : List Char}
    (h : a.flatMap escapeChar ++ '"' :: s = b.flatMap escapeChar ++ '"' :: t) : a = b ∧ s = t := by
  induction a generalizing b with
  | nil =>
    cases b with
    | nil => exact ⟨rfl, (List.cons.inj h).2⟩
    | cons d b =>
      obtain ⟨e, w, hd, hne⟩ := escapeChar_ne_quote d
      rw [List.flatMap_cons, hd] at h
      exact absurd (List.cons.inj h).1.symm hne
  | cons c a ih =>
    cases b with
    | nil =>
      obtain ⟨e, w, hc, hne⟩ := escapeChar_ne_quote c
      rw [List.flatMap_cons, hc] at h
      exact absurd (List.cons.inj h).1 hne
    | cons d b =>
      rw [List.flatMap_cons, List.flatMap_cons, List.append_assoc, List.append_assoc] at h
      obtain ⟨rfl, hrest⟩ := escapeChar_cancel h
      obtain ⟨rfl, hst⟩ := ih hrest
      exact ⟨rfl, hst⟩

theorem quote_cancel {a b : String} (h : quote a ++ s = quote b ++ t) : a = b ∧ s = t := by
  have hinner : a.toList.flatMap escapeChar ++ '"' :: s = b.toList.flatMap escapeChar ++ '"' :: t := by
    simpa [quote] using h
  obtain ⟨hab, hst⟩ := escapes_cancel hinner
  exact ⟨String.toList_injective hab, hst⟩

/-! ## Values -/

/-- What the first character of a value tells about it. -/
inductive Kind where
  | null | true | false | number | str | arr | obj
  deriving DecidableEq

def kind : Json → Kind
  | .null => .null
  | .bool .true => .true
  | .bool .false => .false
  | .int _ | .float _ => .number
  | .str _ => .str
  | .arr _ => .arr
  | .obj _ => .obj

/-- The characters that a value of a kind may start with. -/
def Kind.opening : Kind → List Char
  | .null => ['n']
  | .true => ['t']
  | .false => ['f']
  | .number => '-' :: digitChars
  | .str => ['"']
  | .arr => ['[']
  | .obj => ['\x7b']

theorem eq_of_opening {c : Char} {k l : Kind} (hk : c ∈ k.opening) (hl : c ∈ l.opening) : k = l := by
  have hdisjoint : ∀ k l : Kind, k ≠ l → (k.opening.all fun c => c ∉ l.opening) = true := by
    intro k l
    cases k <;> cases l <;> decide
  by_contra hne
  have := List.all_eq_true.mp (hdisjoint k l hne) c hk
  exact of_decide_eq_true this hl

theorem closing_of_opening {c : Char} {k : Kind} (hk : c ∈ k.opening) : c ≠ ']' := by
  have hall : ∀ k : Kind, (k.opening.all fun c => c ≠ ']') = true := by
    intro k
    cases k <;> decide
  exact of_decide_eq_true (List.all_eq_true.mp (hall k) c hk)

theorem stringify_opening {a : Json} (ha : WellFormed a) :
    ∃ c w, stringify a = c :: w ∧ c ∈ a.kind.opening := by
  have hnumber : ∀ w : List Char, Numeral w → ∃ c w', w = c :: w' ∧ c ∈ Kind.number.opening := by
    intro w hw
    obtain ⟨c, hhead, hc⟩ := hw.starts
    cases w with
    | nil => exact nomatch hhead
    | cons d w =>
      cases hhead
      exact ⟨c, w, rfl, hc⟩
  cases a with
  | null => exact ⟨'n', _, rfl, List.mem_cons_self⟩
  | bool b => cases b <;> exact ⟨_, _, rfl, List.mem_cons_self⟩
  | int i => exact hnumber _ (numeral_int i)
  | float text => exact hnumber _ ha.1
  | str text => exact ⟨'"', _, rfl, List.mem_cons_self⟩
  | arr items => exact ⟨'[', _, rfl, List.mem_cons_self⟩
  | obj members => exact ⟨'\x7b', _, rfl, List.mem_cons_self⟩

/-- Equal texts start values of one kind. -/
theorem kind_eq_of_stringify {a b : Json} (ha : WellFormed a) (hb : WellFormed b)
    (h : stringify a ++ s = stringify b ++ t) : a.kind = b.kind := by
  obtain ⟨c, w, hw, hc⟩ := stringify_opening ha
  obtain ⟨d, x, hx, hd⟩ := stringify_opening hb
  rw [hw, hx] at h
  obtain ⟨rfl, -⟩ := List.cons.inj h
  exact eq_of_opening hc hd

/-- What follows the first of several texts that are joined by commas and closed. -/
def tailText (close : Char) : List (List Char) → List Char → List Char
  | [], s => close :: s
  | t :: ts, s => ',' :: (commaJoin (t :: ts) ++ close :: s)

theorem commaJoin_cons (close : Char) (ts : List (List Char)) :
    commaJoin (u :: ts) ++ close :: s = u ++ tailText close ts s := by
  cases ts with
  | nil => rfl
  | cons t ts => simp [commaJoin, tailText]

theorem delimited_tailText {close : Char} (hclose : close ∉ numeralChars) (ts : List (List Char)) :
    Delimited (tailText close ts s) := by
  cases ts with
  | nil => exact delimited_cons hclose
  | cons t ts => exact delimited_cons (by decide)

/-- Two numbers with one text are one number. -/
theorem number_cancel {a b : Json} (ha : WellFormed a) (hb : WellFormed b)
    (hka : a.kind = .number) (hkb : b.kind = .number) (hs : Delimited s) (ht : Delimited t)
    (h : stringify a ++ s = stringify b ++ t) : a = b ∧ s = t := by
  cases a with
  | int i =>
    cases b with
    | int j =>
      obtain ⟨hij, hst⟩ := numeral_cancel (numeral_int i).chars (numeral_int j).chars hs ht h
      exact ⟨congrArg Json.int (int_text_inj hij), hst⟩
    | float text =>
      have htext := (numeral_cancel (numeral_int i).chars hb.1.chars hs ht h).1
      exact absurd (String.toList_injective htext) (hb.2 i)
    | bool c => cases c <;> exact nomatch hkb
    | _ => exact nomatch hkb
  | float text =>
    cases b with
    | int j =>
      have htext := (numeral_cancel ha.1.chars (numeral_int j).chars hs ht h).1
      exact absurd (String.toList_injective htext).symm (ha.2 j)
    | float text' =>
      obtain ⟨htext, hst⟩ := numeral_cancel ha.1.chars hb.1.chars hs ht h
      exact ⟨congrArg Json.float (String.toList_injective htext), hst⟩
    | bool c => cases c <;> exact nomatch hkb
    | _ => exact nomatch hkb
  | bool c => cases c <;> exact nomatch hka
  | _ => exact nomatch hka

theorem kind_bool {b : Bool} {v : Json} (h : (Json.bool b).kind = v.kind) : v = .bool b := by
  cases b <;> cases v with
  | bool c => cases c <;> first | rfl | exact nomatch h
  | _ => exact nomatch h

mutual

/-- What follows a value is told apart from it. -/
theorem stringify_cancel : ∀ {a b : Json} {s t : List Char}, WellFormed a → WellFormed b →
    Delimited s → Delimited t → stringify a ++ s = stringify b ++ t → a = b ∧ s = t
  | .null, b, _, _, ha, hb, _, _, h => by
    have hk := kind_eq_of_stringify ha hb h
    cases b with
    | null => exact ⟨rfl, List.append_cancel_left h⟩
    | bool c => cases c <;> exact nomatch hk
    | _ => exact nomatch hk
  | .bool c, b, _, _, ha, hb, _, _, h => by
    have hk := kind_eq_of_stringify ha hb h
    rw [kind_bool hk] at h ⊢
    exact ⟨rfl, List.append_cancel_left h⟩
  | .int i, b, _, _, ha, hb, hs, ht, h =>
    number_cancel ha hb rfl (kind_eq_of_stringify ha hb h).symm hs ht h
  | .float text, b, _, _, ha, hb, hs, ht, h =>
    number_cancel ha hb rfl (kind_eq_of_stringify ha hb h).symm hs ht h
  | .str text, b, _, _, ha, hb, _, _, h => by
    have hk := kind_eq_of_stringify ha hb h
    cases b with
    | str text' =>
      obtain ⟨htext, hst⟩ := quote_cancel h
      exact ⟨congrArg Json.str htext, hst⟩
    | bool c => cases c <;> exact nomatch hk
    | _ => exact nomatch hk
  | .arr xs, b, s, t, ha, hb, _, _, h => by
    have hk := kind_eq_of_stringify ha hb h
    cases b with
    | arr ys =>
      have hinner : commaJoin (stringifyItems xs) ++ ']' :: s =
          commaJoin (stringifyItems ys) ++ ']' :: t := by
        simpa [stringify] using h
      obtain ⟨hxy, hst⟩ := items_cancel ha hb hinner
      exact ⟨congrArg Json.arr hxy, hst⟩
    | bool c => cases c <;> exact nomatch hk
    | _ => exact nomatch hk
  | .obj ms, b, s, t, ha, hb, _, _, h => by
    have hk := kind_eq_of_stringify ha hb h
    cases b with
    | obj ns =>
      have hinner : commaJoin (stringifyMembers ms) ++ '\x7d' :: s =
          commaJoin (stringifyMembers ns) ++ '\x7d' :: t := by
        simpa [stringify] using h
      obtain ⟨hmn, hst⟩ := members_cancel ha.2 hb.2 hinner
      exact ⟨congrArg Json.obj hmn, hst⟩
    | bool c => cases c <;> exact nomatch hk
    | _ => exact nomatch hk

theorem items_cancel : ∀ {xs ys : List Json} {s t : List Char}, WellFormedItems xs →
    WellFormedItems ys →
    commaJoin (stringifyItems xs) ++ ']' :: s = commaJoin (stringifyItems ys) ++ ']' :: t →
    xs = ys ∧ s = t
  | [], [], _, _, _, _, h => ⟨rfl, (List.cons.inj h).2⟩
  | [], y :: ys, _, _, _, hy, h => by
    obtain ⟨c, w, hw, hc⟩ := stringify_opening hy.1
    rw [stringifyItems, stringifyItems, commaJoin_cons, hw] at h
    exact absurd (List.cons.inj h).1.symm (closing_of_opening hc)
  | x :: xs, [], _, _, hx, _, h => by
    obtain ⟨c, w, hw, hc⟩ := stringify_opening hx.1
    rw [stringifyItems, stringifyItems, commaJoin_cons, hw] at h
    exact absurd (List.cons.inj h).1 (closing_of_opening hc)
  | x :: xs, y :: ys, s, t, hx, hy, h => by
    rw [stringifyItems, stringifyItems, commaJoin_cons, commaJoin_cons] at h
    obtain ⟨hxy, hrest⟩ := stringify_cancel hx.1 hy.1 (delimited_tailText (by decide) _)
      (delimited_tailText (by decide) _) h
    -- the comma after a value tells that another one follows
    match xs, ys, hx.2, hy.2, hrest with
    | [], [], _, _, hrest => exact ⟨hxy ▸ rfl, (List.cons.inj hrest).2⟩
    | [], _ :: _, _, _, hrest => exact absurd (List.cons.inj hrest).1 (by decide)
    | _ :: _, [], _, _, hrest => exact absurd (List.cons.inj hrest).1 (by decide)
    | _ :: _, _ :: _, hxs, hys, hrest =>
      obtain ⟨hxys, hst⟩ := items_cancel hxs hys (List.cons.inj hrest).2
      exact ⟨by rw [hxy, hxys], hst⟩

theorem members_cancel : ∀ {xs ys : List (String × Json)} {s t : List Char}, WellFormedMembers xs →
    WellFormedMembers ys →
    commaJoin (stringifyMembers xs) ++ '\x7d' :: s =
      commaJoin (stringifyMembers ys) ++ '\x7d' :: t →
    xs = ys ∧ s = t
  | [], [], _, _, _, _, h => ⟨rfl, (List.cons.inj h).2⟩
  | [], (k, y) :: ys, _, _, _, _, h => by
    rw [stringifyMembers, stringifyMembers, commaJoin_cons] at h
    exact absurd (List.cons.inj h).1 (by decide)
  | (k, x) :: xs, [], _, _, _, _, h => by
    rw [stringifyMembers, stringifyMembers, commaJoin_cons] at h
    exact absurd (List.cons.inj h).1 (by decide)
  | (k, x) :: xs, (l, y) :: ys, s, t, hx, hy, h => by
    rw [stringifyMembers, stringifyMembers, commaJoin_cons, commaJoin_cons, List.append_assoc,
      List.append_assoc] at h
    obtain ⟨hkl, hvalue⟩ := quote_cancel h
    obtain ⟨hxy, hrest⟩ := stringify_cancel hx.1 hy.1 (delimited_tailText (by decide) _)
      (delimited_tailText (by decide) _) (List.cons.inj hvalue).2
    match xs, ys, hx.2, hy.2, hrest with
    | [], [], _, _, hrest => exact ⟨by rw [hkl, hxy], (List.cons.inj hrest).2⟩
    | [], _ :: _, _, _, hrest => exact absurd (List.cons.inj hrest).1 (by decide)
    | _ :: _, [], _, _, hrest => exact absurd (List.cons.inj hrest).1 (by decide)
    | _ :: _, _ :: _, hxs, hys, hrest =>
      obtain ⟨hxys, hst⟩ := members_cancel hxs hys (List.cons.inj hrest).2
      exact ⟨by rw [hkl, hxy, hxys], hst⟩

end

/-- Two well-formed values with one text are one value. -/
theorem stringify_injective {a b : Json} (ha : WellFormed a) (hb : WellFormed b)
    (h : stringify a = stringify b) : a = b := by
  have hend : Delimited [] := fun c hc => nomatch hc
  refine (stringify_cancel (s := []) (t := []) ha hb hend hend ?_).1
  rw [List.append_nil, List.append_nil, h]

end NanFung.Json
