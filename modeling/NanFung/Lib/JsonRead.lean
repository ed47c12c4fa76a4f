import NanFung.Lib.JsonCancel
import NanFung.Lib.Proc
import Mathlib.Data.Bool.AllAny
import Mathlib.Data.List.TakeWhile

/-!
# Reading JSON

`json.loads` of a text, which reads back what `json.dumps` writes. How a float is rounded is a
parameter; a string with a surrogate that is not one of a pair is no text, and ends the reading.
-/

namespace NanFung.Json

inductive LoadsError where
  /-- `JSONDecodeError` -/
  | decode
  /-- The `ValueError` for more digits than an integer may be read from. -/
  | digits
  /-- A surrogate alone. -/
  | surrogate
  deriving DecidableEq, Repr

/-! ## Strings -/

/-- The value of a hexadecimal digit. -/
def hexVal (c : Char) : Option Nat :=
  if c.isDigit then some (c.toNat - 48)
  else if 97 ≤ c.toNat ∧ c.toNat ≤ 102 then some (c.toNat - 87)
  else if 65 ≤ c.toNat ∧ c.toNat ≤ 70 then some (c.toNat - 55)
  else none

/-- The code unit that four hexadecimal digits give. -/
def readUnit : List Char → Except LoadsError Nat
  | a :: b :: c :: d :: _ =>
    match hexVal a, hexVal b, hexVal c, hexVal d with
    | some a, some b, some c, some d => .ok (((a * 16 + b) * 16 + c) * 16 + d)
    | _, _, _, _ => .error .decode
  | _ => .error .decode

/-- The letters of the escapes of two characters. -/
def readLetter (c : Char) : Option Char :=
  ((('/', '/') :: shortEscapes).find? fun e => e.1 = c).map Prod.snd

/-- The character of an escape, and how many characters it takes after the backslash. -/
def readEscape : List Char → Except LoadsError (Char × Nat)
  | [] => .error .decode
  | e :: s =>
    if e = 'u' then do
      let high ← readUnit s
      if 0xD800 ≤ high ∧ high < 0xDC00 then
        require (['\\', 'u'] <+: s.drop 4) .surrogate
        let low ← readUnit (s.drop 6)
        require (0xDC00 ≤ low ∧ low < 0xE000) .surrogate
        .ok (Char.ofNat (0x10000 + (high - 0xD800) * 0x400 + (low - 0xDC00)), 11)
      else do
        require (¬ (0xDC00 ≤ high ∧ high < 0xE000)) .surrogate
        .ok (Char.ofNat high, 5)
    else do
      let c ← orThrow (readLetter e) .decode
      .ok (c, 1)

/-- The characters of a string after its opening quote, once `used` characters are passed over, and
what follows the closing quote. -/
def readString : Nat → List Char → Except LoadsError (List Char × List Char)
  | _, [] => .error .decode
  | used + 1, _ :: s => readString used s
  | 0, c :: s =>
    if c = '"' then .ok ([], s)
    else if c = '\\' then do
      let (d, used) ← readEscape s
      let (text, rest) ← readString used s
      .ok (d :: text, rest)
    else if c.toNat < 32 then .error .decode
    else do
      let (text, rest) ← readString 0 s
      .ok (c :: text, rest)

/-! ## Numbers -/

def readDigits (s : List Char) : List Char := s.takeWhile Char.isDigit

/-- The sign of a number. -/
def readSign : List Char → List Char
  | c :: _ => if c = '-' then [c] else []
  | [] => []

/-- The digits before a point or an exponent: a zero stands alone. -/
def readWhole (s : List Char) : List Char :=
  if s.head? = some '0' then ['0'] else readDigits s

/-- A point with its digits. -/
def readFraction : List Char → List Char
  | c :: s => if c = '.' ∧ readDigits s ≠ [] then c :: readDigits s else []
  | [] => []

/-- The digits of an exponent with their sign. -/
def readPower : List Char → List Char
  | c :: s =>
    if c = '+' ∨ c = '-' then if readDigits s ≠ [] then c :: readDigits s else []
    else readDigits (c :: s)
  | [] => []

def readExponent : List Char → List Char
  | c :: s => if (c = 'e' ∨ c = 'E') ∧ readPower s ≠ [] then c :: readPower s else []
  | [] => []

section

variable (float : String → String)

/-- A number and what follows it; `float` gives the `repr` of a literal's value. -/
def readNumber (s : List Char) : Except LoadsError (Json × List Char) := do
  let sign := readSign s
  let whole := readWhole (s.drop sign.length)
  require (whole ≠ []) .decode
  let afterWhole := (s.drop sign.length).drop whole.length
  let fraction := readFraction afterWhole
  let exponent := readExponent (afterWhole.drop fraction.length)
  let rest := (afterWhole.drop fraction.length).drop exponent.length
  if fraction = [] ∧ exponent = [] then
    require (whole.length ≤ 4300) .digits
    let n : Int := Nat.ofDigitChars 10 whole 0
    .ok (.int (if sign = [] then n else -n), rest)
  else .ok (.float (float (String.ofList (sign ++ whole ++ fraction ++ exponent))), rest)

/-! ## Values -/

def constants : List (List Char × Json) :=
  [("null".toList, .null), ("true".toList, .bool true), ("false".toList, .bool false),
    ("NaN".toList, .float "nan"), ("Infinity".toList, .float "inf"),
    ("-Infinity".toList, .float "-inf")]

/-- A literal word or a number. -/
def readScalar (s : List Char) : Except LoadsError (Json × List Char) :=
  match constants.find? fun c => c.1 <+: s with
  | some c => .ok (c.2, s.drop c.1.length)
  | none => readNumber float s

def skipSpace (s : List Char) : List Char := s.dropWhile fun c => c ∈ [' ', '\t', '\n', '\r']

mutual

/-- The value a text starts with; each call takes a character of the text. -/
def readValue : Nat → List Char → Except LoadsError (Json × List Char)
  | fuel + 1, c :: s =>
    if c = '"' then do
      let (text, rest) ← readString 0 s
      .ok (.str (String.ofList text), rest)
    else if c = '[' then
      if (skipSpace s).head? = some ']' then .ok (.arr [], (skipSpace s).tail)
      else do
        let (items, rest) ← readItems fuel (skipSpace s)
        .ok (.arr items, rest)
    else if c = '\x7b' then
      if (skipSpace s).head? = some '\x7d' then .ok (.obj [], (skipSpace s).tail)
      else do
        let (members, rest) ← readMembers fuel (skipSpace s)
        .ok (.obj (merge [] members), rest)
    else readScalar float (c :: s)
  | _, _ => .error .decode

def readItems : Nat → List Char → Except LoadsError (List Json × List Char)
  | 0, _ => .error .decode
  | fuel + 1, s => do
    let (item, rest) ← readValue fuel s
    match skipSpace rest with
    | c :: rest =>
      if c = ']' then .ok ([item], rest)
      else if c = ',' then do
        let (items, rest) ← readItems fuel (skipSpace rest)
        .ok (item :: items, rest)
      else .error .decode
    | [] => .error .decode

def readMembers : Nat → List Char → Except LoadsError (List (String × Json) × List Char)
  | fuel + 1, c :: s => do
    require (c = '"') .decode
    let (key, rest) ← readString 0 s
    match skipSpace rest with
    | c :: rest => do
      require (c = ':') .decode
      let (value, rest) ← readValue fuel (skipSpace rest)
      match skipSpace rest with
      | c :: rest =>
        if c = '\x7d' then .ok ([(String.ofList key, value)], rest)
        else if c = ',' then do
          let (members, rest) ← readMembers fuel (skipSpace rest)
          .ok ((String.ofList key, value) :: members, rest)
        else .error .decode
      | [] => .error .decode
    | [] => .error .decode
  | _, _ => .error .decode

end

/-- `json.loads` -/
def loads (text : List Char) : Except LoadsError Json := do
  require (text.head? ≠ some (Char.ofNat 0xFEFF)) .decode
  let (value, rest) ← readValue float (text.length + 1) (skipSpace text)
  require (skipSpace rest = []) .decode
  .ok value

end

example : loads id " \x7b\"a\" : [1, -2.5e1, \"\\u00e9\\n\"], \"a\": null\x7d ".toList =
    .ok (.obj [("a", .null)]) := by decide +kernel

variable {float : String → String} {s rest : List Char} {v : Json} {fuel : Nat}

/-! ## Strings that were written -/

/-- Only a control character is not written as itself. -/
theorem le_of_plain {c : Char} (h : escapeChar c = [c]) : 32 ≤ c.toNat := by
  by_contra hlt
  have hall : ∀ n < 32, escapeChar (Char.ofNat n) ≠ [Char.ofNat n] := by decide
  exact hall c.toNat (by omega) (by rw [Char.ofNat_toNat]; exact h)

theorem readEscape_short {c d : Char} (hmem : (d, c) ∈ shortEscapes) :
    readEscape (d :: s) = .ok (c, 1) := by
  have hall : ∀ e ∈ shortEscapes, e.1 ≠ 'u' ∧ readLetter e.1 = some e.2 := by decide
  obtain ⟨hne, hletter⟩ := hall _ hmem
  rw [readEscape, if_neg hne, hletter]
  rfl

theorem readEscape_control {c : Char} (h : c.toNat < 32) :
    readEscape ('u' :: (hex4 c.toNat ++ s)) = .ok (c, 5) := by
  have hunit : ∀ n < 32, readUnit (hex4 n ++ s) = .ok n := by
    intro n hn
    interval_cases n <;> rfl
  rw [readEscape, if_pos rfl, hunit _ h]
  have hhigh : ¬ (0xD800 ≤ c.toNat ∧ c.toNat < 0xDC00) := by omega
  have hlow : ¬ (0xDC00 ≤ c.toNat ∧ c.toNat < 0xE000) := by omega
  show (if 0xD800 ≤ c.toNat ∧ c.toNat < 0xDC00 then _ else _) = _
  rw [if_neg hhigh, require, if_pos hlow]
  show Except.ok (Char.ofNat c.toNat, 5) = _
  rw [Char.ofNat_toNat]

theorem readString_char (c : Char) :
    readString 0 (escapeChar c ++ s) =
      (readString 0 s).map fun p => (c :: p.1, p.2) := by
  cases escaped c with
  | plain h hslash hquote =>
    have hle := le_of_plain h
    rw [h, List.singleton_append, readString, if_neg hquote, if_neg hslash, if_neg (by omega)]
    cases readString 0 s <;> rfl
  | short d h hmem =>
    rw [h, List.cons_append, List.singleton_append, readString, if_neg (by decide), if_pos rfl,
      readEscape_short hmem]
    show (readString 1 (d :: s) >>= _) = _
    rw [readString]
    cases readString 0 s <;> rfl
  | control h hlt =>
    rw [h, List.cons_append, List.cons_append, readString, if_neg (by decide), if_pos rfl,
      readEscape_control hlt]
    show (readString 5 ('u' :: (hex4 c.toNat ++ s)) >>= _) = _
    rw [readString, hex4]
    show (readString 0 s >>= _) = _
    cases readString 0 s <;> rfl

theorem readString_written (text : List Char) :
    readString 0 (text.flatMap escapeChar ++ '"' :: rest) = .ok (text, rest) := by
  induction text with
  | nil => rfl
  | cons c text ih =>
    rw [List.flatMap_cons, List.append_assoc, readString_char, ih]
    rfl

/-! ## Numbers that were written -/

/-- What may follow a value: its end, or a character that goes on or closes. -/
def Ends (rest : List Char) : Prop := ∀ c ∈ rest.head?, c ∈ [',', ']', '\x7d']

theorem ends_nil : Ends [] := nofun

theorem ends_cons {c : Char} (h : c ∈ [',', ']', '\x7d']) : Ends (c :: rest) := by
  intro d hd
  obtain rfl := Option.mem_some_iff.mp hd
  exact h

/-- The first character of what follows starts no part of a number. -/
theorem Ends.not_part {c : Char} (h : Ends (c :: rest)) :
    c.isDigit = false ∧ c ≠ '-' ∧ c ≠ '0' ∧ c ≠ '.' ∧ c ≠ '+' ∧ c ≠ 'e' ∧ c ≠ 'E' := by
  have hall : ∀ c ∈ [',', ']', '\x7d'], c.isDigit = false ∧ c ≠ '-' ∧ c ≠ '0' ∧ c ≠ '.' ∧
      c ≠ '+' ∧ c ≠ 'e' ∧ c ≠ 'E' :=
    List.all_iff_forall_prop.mp (by decide)
  exact hall c (h c rfl)

section Append

variable (h : Ends rest)

include h

theorem readDigits_append : readDigits (s ++ rest) = readDigits s := by
  induction s with
  | nil =>
    cases rest with
    | nil => rfl
    | cons c rest => exact List.takeWhile_cons_of_neg (by simp [h.not_part.1])
  | cons c s ih =>
    rw [List.cons_append, readDigits, readDigits, List.takeWhile_cons, List.takeWhile_cons]
    split
    · exact congrArg (c :: ·) ih
    · rfl

theorem readSign_append : readSign (s ++ rest) = readSign s := by
  cases s with
  | nil =>
    cases rest with
    | nil => rfl
    | cons c rest => exact if_neg h.not_part.2.1
  | cons c s => rfl

theorem readWhole_append : readWhole (s ++ rest) = readWhole s := by
  rw [readWhole, readWhole, readDigits_append h]
  cases s with
  | nil =>
    cases rest with
    | nil => rfl
    | cons c rest => exact if_neg fun hc => h.not_part.2.2.1 (Option.some.inj hc)
  | cons c s => rfl

theorem readFraction_append : readFraction (s ++ rest) = readFraction s := by
  cases s with
  | nil =>
    cases rest with
    | nil => rfl
    | cons c rest => exact if_neg fun hc => h.not_part.2.2.2.1 hc.1
  | cons c s =>
    rw [List.cons_append, readFraction, readFraction, readDigits_append h]

theorem readPower_append : readPower (s ++ rest) = readPower s := by
  cases s with
  | nil =>
    cases rest with
    | nil => rfl
    | cons c rest =>
      obtain ⟨hdigit, hminus, -, -, hplus, -⟩ := h.not_part
      rw [List.nil_append, readPower, if_neg (not_or.mpr ⟨hplus, hminus⟩)]
      exact List.takeWhile_cons_of_neg (by simp [hdigit])
  | cons c s =>
    rw [List.cons_append, readPower, readPower, readDigits_append h, ← List.cons_append,
      readDigits_append h]

theorem readExponent_append : readExponent (s ++ rest) = readExponent s := by
  cases s with
  | nil =>
    cases rest with
    | nil => rfl
    | cons c rest =>
      obtain ⟨-, -, -, -, -, hlower, hupper⟩ := h.not_part
      exact if_neg fun hc => hc.1.elim hlower hupper
  | cons c s =>
    rw [List.cons_append, readExponent, readExponent, readPower_append h]

end Append

theorem readDigits_prefix : readDigits s <+: s := List.takeWhile_prefix _

theorem readSign_prefix : readSign s <+: s := by
  cases s with
  | nil => exact List.nil_prefix
  | cons c s =>
    rw [readSign]
    split
    · exact List.cons_prefix_cons.mpr ⟨rfl, List.nil_prefix⟩
    · exact List.nil_prefix

theorem readWhole_prefix : readWhole s <+: s := by
  rw [readWhole]
  split
  · next hzero =>
    obtain ⟨t, rfl⟩ := List.head?_eq_some_iff.mp hzero
    exact List.cons_prefix_cons.mpr ⟨rfl, List.nil_prefix⟩
  · exact readDigits_prefix

theorem readFraction_prefix : readFraction s <+: s := by
  cases s with
  | nil => exact List.nil_prefix
  | cons c s =>
    rw [readFraction]
    split
    · exact List.cons_prefix_cons.mpr ⟨rfl, readDigits_prefix⟩
    · exact List.nil_prefix

theorem readPower_prefix : readPower s <+: s := by
  cases s with
  | nil => exact List.nil_prefix
  | cons c s =>
    rw [readPower]
    split
    · split
      · exact List.cons_prefix_cons.mpr ⟨rfl, readDigits_prefix⟩
      · exact List.nil_prefix
    · exact readDigits_prefix

theorem readExponent_prefix : readExponent s <+: s := by
  cases s with
  | nil => exact List.nil_prefix
  | cons c s =>
    rw [readExponent]
    split
    · exact List.cons_prefix_cons.mpr ⟨rfl, readPower_prefix⟩
    · exact List.nil_prefix

/-- A number ends where what follows it starts. -/
theorem readNumber_append (h : Ends rest) {left : List Char}
    (hread : readNumber float s = .ok (v, left)) :
    readNumber float (s ++ rest) = .ok (v, left ++ rest) := by
  have hdrop : ∀ {part s : List Char}, part <+: s →
      (s ++ rest).drop part.length = s.drop part.length ++ rest :=
    fun hpart => List.drop_append_of_le_length hpart.length_le
  simp only [readNumber, bind_ok, require_ok, readSign_append h, hdrop readSign_prefix,
    readWhole_append h, hdrop readWhole_prefix, readFraction_append h, hdrop readFraction_prefix,
    readExponent_append h, hdrop readExponent_prefix] at hread ⊢
  obtain ⟨-, hwhole, hread⟩ := hread
  refine ⟨(), hwhole, ?_⟩
  split at hread
  · next hint =>
    rw [if_pos hint]
    simp only [bind_ok, require_ok, Except.ok.injEq, Prod.mk.injEq] at hread ⊢
    obtain ⟨-, hdigits, rfl, rfl⟩ := hread
    exact ⟨(), hdigits, rfl, rfl⟩
  · next hfloat =>
    rw [if_neg hfloat]
    obtain ⟨rfl, rfl⟩ := Prod.mk.inj (Except.ok.inj hread)
    rfl

/-- The digits of a number have no zero before them. -/
theorem readWhole_repr (n : Nat) : readWhole n.repr.toList = n.repr.toList := by
  have hhead : ∀ n > 0, (Nat.toDigits 10 n).head? ≠ some '0' := by
    intro n hn
    induction n using Nat.strong_induction_on with
    | _ n ih =>
      by_cases hlt : n < 10
      · rw [Nat.toDigits_of_lt_base hlt]
        interval_cases n <;> decide
      · rw [Nat.toDigits_of_base_le (by decide) (by omega),
          List.head?_append_of_ne_nil _ Nat.toDigits_ne_nil]
        exact ih (n / 10) (by omega) (by omega)
  have hdigits : readDigits n.repr.toList = n.repr.toList := by
    rw [Nat.toList_repr]
    exact List.takeWhile_eq_self_iff.mpr fun c hc =>
      Nat.isDigit_of_mem_toDigits (by decide) (by decide) hc
  rw [readWhole, hdigits]
  cases n with
  | zero => rfl
  | succ n =>
    refine if_neg ?_
    rw [Nat.toList_repr]
    exact hhead (n + 1) (Nat.succ_pos n)

/-- The digits of an integer are as many as may be read. -/
def FewDigits (i : Int) : Prop := i.natAbs.repr.toList.length ≤ 4300

instance (i : Int) : Decidable (FewDigits i) := inferInstanceAs (Decidable (_ ≤ _))

theorem readNumber_digits {sign digits : List Char} (hsign : readSign (sign ++ digits) = sign)
    (hwhole : readWhole digits = digits) (hne : digits ≠ []) (hfew : digits.length ≤ 4300) :
    readNumber float (sign ++ digits) =
      .ok (.int (if sign = [] then Nat.ofDigitChars 10 digits 0 else -Nat.ofDigitChars 10 digits 0),
        []) := by
  simp only [readNumber, hsign, List.drop_left, hwhole, List.drop_length, readFraction,
    readExponent, List.length_nil, List.drop_nil, and_self, if_true, bind_ok, require_ok]
  exact ⟨(), hne, (), hfew, trivial⟩

theorem readNumber_int {i : Int} (h : FewDigits i) :
    readNumber float (toString i).toList = .ok (.int i, []) := by
  have hne : ∀ n : Nat, n.repr.toList ≠ [] := by
    intro n
    rw [Nat.toList_repr]
    exact Nat.toDigits_ne_nil
  have hvalue : ∀ n : Nat, Nat.ofDigitChars 10 n.repr.toList 0 = n := by
    intro n
    rw [Nat.toList_repr, Nat.ofDigitChars_ten_toDigits]
  cases i with
  | ofNat n =>
    have hsign : readSign ([] ++ n.repr.toList) = [] := by
      obtain ⟨c, w, hw, hall⟩ := numeral_nat n
      rw [List.nil_append, hw]
      refine if_neg fun hc => ?_
      exact absurd (hc ▸ hall c List.mem_cons_self) (by decide)
    have hread : readNumber float ([] ++ n.repr.toList) = _ :=
      readNumber_digits hsign (readWhole_repr n) (hne n) h
    rw [hvalue] at hread
    exact hread
  | negSucc n =>
    have hread : readNumber float (['-'] ++ (n + 1).repr.toList) = _ :=
      readNumber_digits rfl (readWhole_repr (n + 1)) (hne _) h
    rw [hvalue] at hread
    rw [toString_negSucc]
    exact hread

/-! ## Values that were written -/

mutual

/-- What a value of the program holds that can be written and read: numbers that are read as they are
written, and objects with distinct keys. -/
def Readable (float : String → String) : Json → Prop
  | .int i => FewDigits i
  | .float text => readNumber float text.toList = .ok (.float text, [])
  | .arr items => ReadableItems float items
  | .obj members => (members.map Prod.fst).Nodup ∧ ReadableMembers float members
  | _ => True

def ReadableItems (float : String → String) : List Json → Prop
  | [] => True
  | x :: xs => Readable float x ∧ ReadableItems float xs

def ReadableMembers (float : String → String) : List (String × Json) → Prop
  | [] => True
  | (_, x) :: xs => Readable float x ∧ ReadableMembers float xs

end

theorem readWhole_ne_nil (h : readWhole s ≠ []) : ∃ c t, s = c :: t ∧ c.isDigit = true := by
  cases s with
  | nil => exact absurd rfl h
  | cons c t =>
    refine ⟨c, t, rfl, ?_⟩
    rw [readWhole] at h
    split at h
    · next hzero =>
      obtain rfl := Option.some.inj hzero
      rfl
    · by_contra hdigit
      exact h (List.takeWhile_cons_of_neg hdigit)

/-- A number starts with a digit, or with a sign and a digit. -/
theorem readNumber_head (h : readNumber float s = .ok (v, rest)) :
    ∃ c t, s = c :: t ∧ (c.isDigit = true ∨ c = '-' ∧ ∃ d u, t = d :: u ∧ d.isDigit = true) := by
  simp only [readNumber, bind_ok, require_ok] at h
  obtain ⟨-, hwhole, -⟩ := h
  obtain ⟨d, u, hdrop, hdigit⟩ := readWhole_ne_nil hwhole
  cases s with
  | nil => cases hdrop
  | cons c t =>
    refine ⟨c, t, rfl, ?_⟩
    by_cases hminus : c = '-'
    · rw [readSign, if_pos hminus] at hdrop
      exact Or.inr ⟨hminus, d, u, hdrop, hdigit⟩
    · rw [readSign, if_neg hminus] at hdrop
      obtain ⟨rfl, -⟩ := List.cons.inj hdrop
      exact Or.inl hdigit

/-- A number is no constant. -/
theorem readScalar_number (h : readNumber float s = .ok (v, rest)) :
    readScalar float s = .ok (v, rest) := by
  have hstart : ∀ e ∈ constants, ∃ c d w, e.1 = c :: d :: w ∧ c.isDigit = false ∧
      d.isDigit = false := by
    intro e he
    simp only [constants, List.mem_cons, List.not_mem_nil, or_false] at he
    rcases he with rfl | rfl | rfl | rfl | rfl | rfl <;> exact ⟨_, _, _, rfl, rfl, rfl⟩
  have hnone : constants.find? (fun e => e.1 <+: s) = none := by
    rw [List.find?_eq_none]
    intro e he hp
    obtain ⟨c, d, w, hw, hc, hd⟩ := hstart e he
    have hp := of_decide_eq_true hp
    rw [hw] at hp
    obtain ⟨c', t, rfl, hdigit | ⟨rfl, d', u, rfl, hdigit⟩⟩ := readNumber_head h
    · rw [(List.cons_prefix_cons.mp hp).1, hdigit] at hc
      cases hc
    · rw [(List.cons_prefix_cons.mp (List.cons_prefix_cons.mp hp).2).1, hdigit] at hd
      cases hd
  rw [readScalar, hnone]
  exact h

/-- The characters that no value starts with. -/
def fillers : List Char := [' ', '\t', '\n', '\r', ']', '\x7d', Char.ofNat 0xFEFF]

theorem stringify_head (h : Readable float v) : ∃ c w, stringify v = c :: w ∧ c ∉ fillers := by
  have hnumber : ∀ {s rest v}, readNumber float s = .ok (v, rest) → ∃ c w, s = c :: w ∧ c ∉ fillers := by
    intro s rest v hread
    obtain ⟨c, w, hw, hdigit | ⟨rfl, -⟩⟩ := readNumber_head hread
    · refine ⟨c, w, hw, fun hc => ?_⟩
      have hall : ∀ c ∈ fillers, c.isDigit = false := List.all_iff_forall_prop.mp (by decide)
      exact absurd (hdigit.symm.trans (hall c hc)) (by decide)
    · exact ⟨'-', w, hw, by decide⟩
  cases v with
  | null => exact ⟨'n', _, rfl, by decide⟩
  | bool b => cases b <;> exact ⟨_, _, rfl, by decide⟩
  | int i => exact hnumber (readNumber_int h)
  | float text => exact hnumber h
  | str text => exact ⟨'"', _, rfl, by decide⟩
  | arr items => exact ⟨'[', _, rfl, by decide⟩
  | obj members => exact ⟨'\x7b', _, rfl, by decide⟩

theorem skipSpace_cons {c : Char} (h : c ∉ fillers) : skipSpace (c :: s) = c :: s := by
  refine List.dropWhile_cons_of_neg fun hspace => ?_
  have hall : ∀ c ∈ [' ', '\t', '\n', '\r'], c ∈ fillers := List.all_iff_forall_prop.mp (by decide)
  exact h (hall c (of_decide_eq_true hspace))

theorem skipSpace_written (h : Readable float v) :
    skipSpace (stringify v ++ rest) = stringify v ++ rest := by
  obtain ⟨c, w, hw, hc⟩ := stringify_head h
  rw [hw, List.cons_append, skipSpace_cons hc]

theorem skipSpace_ends (h : Ends rest) : skipSpace rest = rest := by
  cases rest with
  | nil => rfl
  | cons c rest =>
    refine List.dropWhile_cons_of_neg fun hspace => ?_
    have hall : ∀ c ∈ [',', ']', '\x7d'], c ∉ [' ', '\t', '\n', '\r'] :=
      List.all_iff_forall_prop.mp (by decide)
    exact hall c (h c rfl) (of_decide_eq_true hspace)

/-- What starts like no string, array or object is a literal word or a number. -/
theorem readValue_scalar {c : Char} (h : c ∉ ['"', '[', '\x7b']) :
    readValue float (fuel + 1) (c :: s) = readScalar float (c :: s) := by
  simp only [List.mem_cons, List.not_mem_nil, or_false, not_or] at h
  rw [readValue, if_neg h.1, if_neg h.2.1, if_neg h.2.2]

theorem readValue_number (hread : readNumber float s = .ok (v, []))
    (h : Ends rest) : readValue float (fuel + 1) (s ++ rest) = .ok (v, rest) := by
  have hscalar := readScalar_number (readNumber_append h hread)
  obtain ⟨c, w, hw, hstart⟩ := readNumber_head hread
  have hc : c ∉ ['"', '[', '\x7b'] := by
    rcases hstart with hdigit | ⟨rfl, -⟩
    · intro hc
      have hall : ∀ c ∈ ['"', '[', '\x7b'], c.isDigit = false :=
        List.all_iff_forall_prop.mp (by decide)
      exact absurd (hdigit.symm.trans (hall c hc)) (by decide)
    · decide
  rw [hw, List.cons_append] at hscalar ⊢
  rw [readValue_scalar hc, hscalar]
  rfl

theorem insert_of_notMem {key : String} {base : List (String × Json)}
    (h : key ∉ base.map Prod.fst) : insert key v base = base ++ [(key, v)] := by
  induction base with
  | nil => rfl
  | cons m ms ih =>
    rw [List.map_cons, List.mem_cons, not_or] at h
    rw [insert, if_neg (Ne.symm h.1), ih h.2, List.cons_append]

/-- Members with distinct keys are kept in their order. -/
theorem merge_of_nodup {base members : List (String × Json)}
    (h : ((base ++ members).map Prod.fst).Nodup) : merge base members = base ++ members := by
  induction members generalizing base with
  | nil => rw [List.append_nil, merge, List.foldl_nil]
  | cons m members ih =>
    have hnot : m.1 ∉ base.map Prod.fst := by
      rw [List.map_append, List.nodup_append] at h
      intro hmem
      exact h.2.2 _ hmem _ List.mem_cons_self rfl
    have hassoc : base ++ [m] ++ members = base ++ m :: members := List.append_assoc _ _ _
    rw [merge, List.foldl_cons, insert_of_notMem hnot, ← merge, ← hassoc]
    exact ih (hassoc ▸ h)

/-! The steps of an array and of an object. -/

theorem readItems_last (hvalue : readValue float fuel s = .ok (v, ']' :: rest)) :
    readItems float (fuel + 1) s = .ok ([v], rest) := by
  rw [readItems, hvalue]
  rfl

theorem readItems_next {t : List Char} {items : List Json}
    (hvalue : readValue float fuel s = .ok (v, ',' :: t)) (hspace : skipSpace t = t)
    (hitems : readItems float fuel t = .ok (items, rest)) :
    readItems float (fuel + 1) s = .ok (v :: items, rest) := by
  have hcomma : skipSpace (',' :: t) = ',' :: t := rfl
  simp only [readItems, bind_ok]
  refine ⟨_, hvalue, ?_⟩
  rw [hcomma]
  simp only [hspace, hitems]
  rfl

theorem readMembers_last {key t : List Char} (hkey : readString 0 s = .ok (key, ':' :: t))
    (hspace : skipSpace t = t) (hvalue : readValue float fuel t = .ok (v, '\x7d' :: rest)) :
    readMembers float (fuel + 1) ('"' :: s) = .ok ([(String.ofList key, v)], rest) := by
  have hcolon : skipSpace (':' :: t) = ':' :: t := rfl
  have hclose : skipSpace ('\x7d' :: rest) = '\x7d' :: rest := rfl
  simp only [readMembers, bind_ok, require_ok]
  refine ⟨(), trivial, _, hkey, ?_⟩
  simp only [hcolon, bind_ok, require_ok, hspace]
  refine ⟨(), trivial, _, hvalue, ?_⟩
  simp only [hclose]
  rfl

theorem readMembers_next {key t u : List Char} {members : List (String × Json)}
    (hkey : readString 0 s = .ok (key, ':' :: t)) (hspace : skipSpace t = t)
    (hvalue : readValue float fuel t = .ok (v, ',' :: u)) (hspace' : skipSpace u = u)
    (hmembers : readMembers float fuel u = .ok (members, rest)) :
    readMembers float (fuel + 1) ('"' :: s) = .ok ((String.ofList key, v) :: members, rest) := by
  have hcolon : skipSpace (':' :: t) = ':' :: t := rfl
  have hcomma : skipSpace (',' :: u) = ',' :: u := rfl
  simp only [readMembers, bind_ok, require_ok]
  refine ⟨(), trivial, _, hkey, ?_⟩
  simp only [hcolon, bind_ok, require_ok, hspace]
  refine ⟨(), trivial, _, hvalue, ?_⟩
  simp only [hcomma, hspace', hmembers]
  rfl

theorem itemsText_head {xs : List Json} (h : Readable float v) :
    ∃ c w, commaJoin (stringifyItems (v :: xs)) = c :: w ∧ c ∉ fillers := by
  obtain ⟨c, w, hw, hc⟩ := stringify_head h
  cases xs with
  | nil => exact ⟨c, w, hw, hc⟩
  | cons y ys => exact ⟨c, w ++ ',' :: commaJoin (stringifyItems (y :: ys)),
      congrArg (· ++ ',' :: commaJoin (stringifyItems (y :: ys))) hw, hc⟩

theorem membersText_head (k : String) (x : Json) (ms : List (String × Json)) :
    ∃ w, commaJoin (stringifyMembers ((k, x) :: ms)) = '"' :: w := by
  cases ms with
  | nil => exact ⟨_, rfl⟩
  | cons m ms => exact ⟨_, rfl⟩

theorem ne_close {c : Char} (h : c ∉ fillers) : some c ≠ some ']' := by
  intro hc
  exact h (Option.some.inj hc ▸ by decide)

mutual

/-- A value that was written is read back, whatever ends it. -/
theorem readValue_written : ∀ {v : Json} {fuel : Nat} {rest : List Char}, Readable float v →
    Ends rest → (stringify v).length < fuel →
    readValue float fuel (stringify v ++ rest) = .ok (v, rest)
  | v, 0, _, _, _, hfuel => absurd hfuel (Nat.not_lt_zero _)
  | .null, fuel + 1, _, _, _, _ => rfl
  | .bool true, fuel + 1, _, _, _, _ => rfl
  | .bool false, fuel + 1, _, _, _, _ => rfl
  | .int i, fuel + 1, rest, hv, hrest, _ => readValue_number (readNumber_int hv) hrest
  | .float text, fuel + 1, rest, hv, hrest, _ => readValue_number hv hrest
  | .str text, fuel + 1, rest, _, _, _ => by
    have hstring := @readString_written rest text.toList
    rw [stringify, quote, List.cons_append, List.cons_append, List.append_assoc, readValue,
      if_pos rfl, List.singleton_append, hstring]
    show Except.ok (Json.str (String.ofList text.toList), rest) = _
    rw [String.ofList_toList]
  | .arr [], fuel + 1, rest, _, _, _ => rfl
  | .arr (x :: xs), fuel + 1, rest, hv, _, hfuel => by
    rw [stringify, List.length_append, List.length_cons, List.length_singleton] at hfuel
    have hitems : readItems float fuel (commaJoin (stringifyItems (x :: xs)) ++ ']' :: rest) = _ :=
      readItems_written hv.1 hv.2 (by omega)
    obtain ⟨c, w, hw, hc⟩ := @itemsText_head _ _ xs hv.1
    rw [stringify, List.append_assoc, List.cons_append, List.singleton_append, readValue,
      if_neg (by decide), if_pos rfl]
    rw [hw, List.cons_append] at hitems ⊢
    rw [skipSpace_cons hc, List.head?_cons, if_neg (ne_close hc), hitems]
    rfl
  | .obj [], fuel + 1, rest, _, _, _ => rfl
  | .obj ((k, x) :: ms), fuel + 1, rest, hv, _, hfuel => by
    rw [stringify, List.length_append, List.length_cons, List.length_singleton] at hfuel
    have hmembers : readMembers float fuel
        (commaJoin (stringifyMembers ((k, x) :: ms)) ++ '\x7d' :: rest) = _ :=
      readMembers_written hv.2.1 hv.2.2 (by omega)
    obtain ⟨w, hw⟩ := membersText_head k x ms
    rw [stringify, List.append_assoc, List.cons_append, List.singleton_append, readValue,
      if_neg (by decide), if_neg (by decide), if_pos rfl]
    rw [hw, List.cons_append] at hmembers ⊢
    rw [skipSpace_cons (by decide), List.head?_cons, if_neg (by decide), hmembers]
    show Except.ok (Json.obj (merge [] ((k, x) :: ms)), rest) = _
    have hmerge : merge [] ((k, x) :: ms) = [] ++ (k, x) :: ms := merge_of_nodup hv.1
    rw [hmerge, List.nil_append]

theorem readItems_written : ∀ {x : Json} {xs : List Json} {fuel : Nat} {rest : List Char},
    Readable float x → ReadableItems float xs →
    (commaJoin (stringifyItems (x :: xs))).length + 1 < fuel →
    readItems float fuel (commaJoin (stringifyItems (x :: xs)) ++ ']' :: rest) =
      .ok (x :: xs, rest)
  | x, xs, 0, _, _, _, hfuel => absurd hfuel (Nat.not_lt_zero _)
  | x, [], fuel + 1, rest, hx, _, hfuel =>
    readItems_last (readValue_written hx (ends_cons (by decide)) (Nat.lt_of_succ_lt_succ hfuel))
  | x, y :: ys, fuel + 1, rest, hx, hxs, hfuel => by
    have htext : commaJoin (stringifyItems (x :: y :: ys)) =
        stringify x ++ ',' :: commaJoin (stringifyItems (y :: ys)) := rfl
    rw [htext, List.length_append, List.length_cons] at hfuel
    have hitems : readItems float fuel (commaJoin (stringifyItems (y :: ys)) ++ ']' :: rest) = _ :=
      readItems_written hxs.1 hxs.2 (by omega)
    obtain ⟨c, w, hw, hc⟩ := @itemsText_head _ _ ys hxs.1
    rw [htext, List.append_assoc]
    refine readItems_next (readValue_written hx (ends_cons (by decide)) (by omega)) ?_ hitems
    rw [hw]
    exact skipSpace_cons hc

theorem readMembers_written : ∀ {k : String} {x : Json} {ms : List (String × Json)} {fuel : Nat}
    {rest : List Char}, Readable float x → ReadableMembers float ms →
    (commaJoin (stringifyMembers ((k, x) :: ms))).length + 1 < fuel →
    readMembers float fuel (commaJoin (stringifyMembers ((k, x) :: ms)) ++ '\x7d' :: rest) =
      .ok ((k, x) :: ms, rest)
  | k, x, ms, 0, _, _, _, hfuel => absurd hfuel (Nat.not_lt_zero _)
  | k, x, [], fuel + 1, rest, hx, _, hfuel => by
    have htext : commaJoin (stringifyMembers [(k, x)]) ++ '\x7d' :: rest = '"' ::
        (k.toList.flatMap escapeChar ++ '"' :: ':' :: (stringify x ++ '\x7d' :: rest)) := by
      simp [commaJoin, stringifyMembers, quote]
    have hlen : (commaJoin (stringifyMembers [(k, x)])).length =
        (quote k).length + ((stringify x).length + 1) := List.length_append
    have hvalue : readValue float fuel (stringify x ++ '\x7d' :: rest) = _ :=
      readValue_written hx (ends_cons (by decide)) (by omega)
    rw [htext, readMembers_last (readString_written k.toList) (skipSpace_written hx) hvalue,
      String.ofList_toList]
  | k, x, (l, y) :: ms, fuel + 1, rest, hx, hms, hfuel => by
    have hcomma : commaJoin (stringifyMembers ((k, x) :: (l, y) :: ms)) =
        (quote k ++ ':' :: stringify x) ++ ',' :: commaJoin (stringifyMembers ((l, y) :: ms)) := rfl
    have htext : commaJoin (stringifyMembers ((k, x) :: (l, y) :: ms)) ++ '\x7d' :: rest = '"' ::
        (k.toList.flatMap escapeChar ++ '"' :: ':' :: (stringify x ++
          ',' :: (commaJoin (stringifyMembers ((l, y) :: ms)) ++ '\x7d' :: rest))) := by
      rw [hcomma]
      simp [quote]
    rw [hcomma, List.length_append, List.length_append, List.length_cons, List.length_cons] at hfuel
    have hvalue : readValue float fuel (stringify x ++
        ',' :: (commaJoin (stringifyMembers ((l, y) :: ms)) ++ '\x7d' :: rest)) = _ :=
      readValue_written hx (ends_cons (by decide)) (by omega)
    have hmembers : readMembers float fuel
        (commaJoin (stringifyMembers ((l, y) :: ms)) ++ '\x7d' :: rest) = _ :=
      readMembers_written hms.1 hms.2 (by omega)
    obtain ⟨w, hw⟩ := membersText_head l y ms
    have hspace : skipSpace (commaJoin (stringifyMembers ((l, y) :: ms)) ++ '\x7d' :: rest) =
        commaJoin (stringifyMembers ((l, y) :: ms)) ++ '\x7d' :: rest := by
      rw [hw, List.cons_append, skipSpace_cons (by decide)]
    rw [htext, readMembers_next (readString_written k.toList) (skipSpace_written hx) hvalue hspace
      hmembers, String.ofList_toList]

end

/-! ## Sorted values -/

/-- The order of `sort_keys`. -/
def keyLe (a b : String × Json) : Prop := a.1 ≤ b.1

instance : DecidableRel keyLe := fun a b => inferInstanceAs (Decidable (a.1 ≤ b.1))

mutual

/-- A value with the members of every object in the order of their keys. -/
def sorted : Json → Json
  | .arr items => .arr (sortedItems items)
  | .obj members => .obj ((sortedMembers members).insertionSort keyLe)
  | v => v

def sortedItems : List Json → List Json
  | [] => []
  | x :: xs => sorted x :: sortedItems xs

def sortedMembers : List (String × Json) → List (String × Json)
  | [] => []
  | (k, x) :: xs => (k, sorted x) :: sortedMembers xs

end

theorem sortedMembers_eq (members : List (String × Json)) :
    sortedMembers members = members.map fun m => (m.1, sorted m.2) := by
  induction members with
  | nil => rfl
  | cons m members ih => rw [sortedMembers, ih, List.map_cons]

theorem stringifyMembers_map (members : List (String × Json)) :
    stringifyMembers members = members.map fun m => quote m.1 ++ ':' :: stringify m.2 := by
  induction members with
  | nil => rfl
  | cons m members ih => rw [stringifyMembers, ih, List.map_cons]

mutual

/-- What `json.dumps` writes is the text of the sorted value. -/
theorem render_eq : ∀ v : Json, render v = stringify (sorted v)
  | .null | .bool true | .bool false | .int _ | .float _ | .str _ => rfl
  | .arr items => by rw [render, sorted, stringify, renderItems_eq items]
  | .obj members => by
    have hsort : (renderMembers members).insertionSort (fun a b => a.1 ≤ b.1) =
        ((sortedMembers members).insertionSort keyLe).map fun m => (m.1, stringify m.2) := by
      rw [renderMembers_eq members]
      exact (List.map_insertionSort keyLe (fun a b : String × List Char => a.1 ≤ b.1)
        (fun m : String × Json => (m.1, stringify m.2)) _ fun _ _ _ _ => Iff.rfl).symm
    rw [render, sorted, stringify, stringifyMembers_map]
    simp only [hsort, List.map_map]
    rfl

theorem renderItems_eq : ∀ items : List Json, renderItems items = stringifyItems (sortedItems items)
  | [] => rfl
  | x :: xs => by rw [renderItems, sortedItems, stringifyItems, render_eq x, renderItems_eq xs]

theorem renderMembers_eq : ∀ members : List (String × Json),
    renderMembers members = (sortedMembers members).map fun m => (m.1, stringify m.2)
  | [] => rfl
  | (k, x) :: xs => by
    rw [renderMembers, sortedMembers, List.map_cons, render_eq x, renderMembers_eq xs]

end

theorem readableMembers_iff {members : List (String × Json)} :
    ReadableMembers float members ↔ ∀ m ∈ members, Readable float m.2 := by
  induction members with
  | nil => simp [ReadableMembers]
  | cons m ms ih => simp [ReadableMembers, ih]

mutual

theorem readable_sorted : ∀ {v : Json}, Readable float v → Readable float (sorted v)
  | .null, h | .bool _, h | .int _, h | .float _, h | .str _, h => h
  | .arr items, h => readableItems_sorted h
  | .obj members, h => by
    have hperm := List.perm_insertionSort keyLe (sortedMembers members)
    have hkeys : (sortedMembers members).map Prod.fst = members.map Prod.fst := by
      rw [sortedMembers_eq, List.map_map]
      rfl
    refine ⟨(hperm.map Prod.fst).nodup_iff.mpr (hkeys ▸ h.1), readableMembers_iff.mpr fun m hm => ?_⟩
    exact readableMembers_iff.mp (readableMembers_sorted h.2) m (hperm.mem_iff.mp hm)

theorem readableItems_sorted : ∀ {items : List Json}, ReadableItems float items →
    ReadableItems float (sortedItems items)
  | [], _ => trivial
  | _ :: _, h => ⟨readable_sorted h.1, readableItems_sorted h.2⟩

theorem readableMembers_sorted : ∀ {members : List (String × Json)}, ReadableMembers float members →
    ReadableMembers float (sortedMembers members)
  | [], _ => trivial
  | (_, _) :: _, h => ⟨readable_sorted h.1, readableMembers_sorted h.2⟩

end

theorem pairwise_insertionSort_keyLe (members : List (String × Json)) :
    (members.insertionSort keyLe).Pairwise keyLe := by
  have : Std.Total keyLe := ⟨fun a b => le_total a.1 b.1⟩
  have : IsTrans _ keyLe := ⟨fun _ _ _ => le_trans⟩
  exact List.pairwise_insertionSort keyLe members

mutual

@[simp] theorem sorted_sorted : ∀ v : Json, sorted (sorted v) = sorted v
  | .null | .bool _ | .int _ | .float _ | .str _ => rfl
  | .arr items => congrArg Json.arr (sortedItems_sortedItems items)
  | .obj members => by
    have hperm := List.perm_insertionSort keyLe (sortedMembers members)
    have hmembers : sortedMembers ((sortedMembers members).insertionSort keyLe) =
        (sortedMembers members).insertionSort keyLe := by
      rw [sortedMembers_eq]
      conv_rhs => rw [← List.map_id ((sortedMembers members).insertionSort keyLe)]
      refine List.map_congr_left fun m hm => Prod.ext rfl ?_
      exact sorted_of_mem_sortedMembers m (hperm.mem_iff.mp hm)
    rw [sorted, sorted, hmembers, (pairwise_insertionSort_keyLe _).insertionSort_eq]

theorem sortedItems_sortedItems : ∀ items : List Json, sortedItems (sortedItems items) = sortedItems items
  | [] => rfl
  | x :: xs => by rw [sortedItems, sortedItems, sorted_sorted x, sortedItems_sortedItems xs]

theorem sorted_of_mem_sortedMembers : ∀ {members : List (String × Json)}, ∀ m ∈ sortedMembers members,
    sorted m.2 = m.2
  | [], m, h => nomatch h
  | (_, x) :: xs, m, h => by
    rcases List.mem_cons.mp h with rfl | h
    · exact sorted_sorted x
    · exact sorted_of_mem_sortedMembers m h

end

theorem lookup_eq_some_iff {members : List (String × Json)} {key : String}
    (h : (members.map Prod.fst).Nodup) : lookup key members = some v ↔ (key, v) ∈ members := by
  induction members with
  | nil => simp
  | cons m members ih =>
    obtain ⟨hnot, h⟩ := List.nodup_cons.mp h
    rw [lookup_cons, List.mem_cons]
    split
    · next hkey =>
      rw [Option.some_inj]
      constructor
      · rintro rfl
        exact Or.inl (Prod.ext hkey.symm rfl)
      · rintro (rfl | hmem)
        · rfl
        · exact absurd (List.mem_map_of_mem hmem) (hkey ▸ hnot)
    · next hkey =>
      rw [ih h]
      exact (or_iff_right fun heq => hkey (congrArg Prod.fst heq).symm).symm

/-- Sorting an object keeps what is stored under its keys. -/
theorem get?_sorted {members : List (String × Json)} {key : String}
    (h : (members.map Prod.fst).Nodup) :
    (sorted (.obj members)).get? key = (lookup key members).map sorted := by
  have hperm := List.perm_insertionSort keyLe (sortedMembers members)
  have hkeys : (sortedMembers members).map Prod.fst = members.map Prod.fst := by
    rw [sortedMembers_eq, List.map_map]
    rfl
  have hnodup := (hperm.map Prod.fst).nodup_iff.mpr (hkeys ▸ h)
  refine Option.ext fun w => ?_
  show lookup key ((sortedMembers members).insertionSort keyLe) = some w ↔ _
  rw [lookup_eq_some_iff hnodup, hperm.mem_iff, sortedMembers_eq, Option.map_eq_some_iff,
    List.mem_map]
  constructor
  · rintro ⟨m, hm, heq⟩
    obtain ⟨rfl, rfl⟩ := Prod.mk.inj heq
    exact ⟨m.2, (lookup_eq_some_iff h).mpr hm, rfl⟩
  · rintro ⟨v, hv, rfl⟩
    exact ⟨(key, v), (lookup_eq_some_iff h).mp hv, rfl⟩

/-! ## Round trips -/

theorem loads_stringify (h : Readable float v) : loads float (stringify v) = .ok v := by
  obtain ⟨c, w, hw, hc⟩ := stringify_head h
  have hbom : (stringify v).head? ≠ some (Char.ofNat 0xFEFF) := by
    rw [hw, List.head?_cons]
    exact fun hc' => hc (Option.some.inj hc' ▸ by decide)
  have hread : readValue float ((stringify v).length + 1) (stringify v ++ []) = .ok (v, []) :=
    readValue_written h ends_nil (Nat.lt_succ_self _)
  rw [List.append_nil] at hread
  have hspace : skipSpace (stringify v) = stringify v := by
    rw [hw, skipSpace_cons hc]
  simp only [loads, bind_ok, require_ok, hspace]
  exact ⟨(), hbom, (v, []), hread, (), rfl, rfl⟩

/-- What was written with sorted keys is read back sorted. -/
theorem loads_render (h : Readable float v) : loads float (render v) = .ok (sorted v) := by
  rw [render_eq]
  exact loads_stringify (readable_sorted h)

/-- Two values have one text exactly if they differ in the order of their keys alone. -/
theorem render_eq_iff {a b : Json} (ha : Readable float a) (hb : Readable float b) :
    render a = render b ↔ sorted a = sorted b := by
  constructor
  · intro h
    have hload := loads_render ha
    rw [h, loads_render hb] at hload
    exact (Except.ok.inj hload).symm
  · intro h
    rw [render_eq, render_eq, h]

end NanFung.Json
