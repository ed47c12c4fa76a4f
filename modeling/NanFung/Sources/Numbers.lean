import NanFung.Lib.Numerals
import NanFung.Lib.PyText
import NanFung.Store.Throttle
import Mathlib.Data.List.DropRight

/-!
# The numbers of the sources

The ONS, Nomis and Bank Rate parsers store a number as a canonical decimal text. They construct it
exactly and then normalise it in the default context, which rounds to 28 digits and overflows.
-/

namespace NanFung

open Decimal

/-! ## The code -/

/-- What Python knows of characters outside ASCII, and `repr`. -/
structure NumberLibrary where
  decimal : Char → Option (Fin 10)
  repr : PyText → String

/-- An exception: the one of the parser, or `decimal.Overflow`. -/
inductive NumberError where
  | parse (message : String)
  | overflow
  deriving DecidableEq, Repr

/-- The default decimal context. -/
def defaultContext : Context where
  precision := 28
  emax := 999999
  emin := -999999
  precision_pos := by decide
  emin_le := by decide

def isSpaceChar : PyChar → Bool
  | .char c => isSpace c
  | .surrogate _ => false

/-- `str.strip` -/
def stripText (s : PyText) : PyText :=
  ((s.dropWhile isSpaceChar).reverse.dropWhile isSpaceChar).reverse

section

variable (L : NumberLibrary)

/-- The constructor works on ASCII: other spaces become blanks, other digits those of ASCII. -/
def asciiChar : PyChar → Option Char
  | .surrogate _ => none
  | .char c =>
    if 0 < c.toNat ∧ c.toNat ≤ 127 then some c
    else if isSpace c then some ' '
    else (L.decimal c).map fun d => Nat.digitChar d

/-- The ASCII text that the constructor reads. -/
def asciiText (value : PyText) : Option (List Char) :=
  ((stripText value).filter fun c => c ≠ .char '_').mapM (asciiChar L)

/-- `Decimal(value)`; none is `InvalidOperation`. -/
def decimal (value : PyText) : Option Numeral := (asciiText L value).bind read

/-- The body that the two `_decimal_text` share, after the construction. -/
def canonicalText (invalid infinite uncanonical : String) :
    Option Numeral → Except NumberError (List Char)
  | none => .error (.parse invalid)
  | some (.finite d) =>
    if d.coefficient = 0 then .ok ['0']
    else match normalize defaultContext d with
      | none => .error .overflow
      | some n =>
        if 'e' ∈ (fixedText n).map Char.toLower ∨ fixedText n = ['-', '0'] then
          .error (.parse uncanonical)
        else .ok (fixedText n)
  | some _ => .error (.parse infinite)

/-- `official_macro._decimal_text` -/
def officialDecimalText (value : PyText) (field : String) : Except NumberError (List Char) :=
  canonicalText (field ++ " must be numeric") (field ++ " must be finite")
    (field ++ " is not canonical") (decimal L value)

/-- `bank_rate._decimal_text` -/
def bankRateDecimalText (value : PyText) : Except NumberError (List Char) :=
  if stripText value = [] then .error (.parse "Bank Rate value is required")
  else canonicalText ("invalid Bank Rate decimal: " ++ L.repr value)
    "Bank Rate decimal must be finite" "Bank Rate decimal cannot use exponent or -0"
    (decimal L (stripText value))

end

/-- A value of the response; `json.loads` keeps the text of a number, and of the constants it makes
floats. -/
inductive SourceValue where
  | text (s : PyText)
  | nan
  | infinity
  | minusInfinity
  | null
  | bool (b : Bool)
  | composite
  deriving DecidableEq, Repr

/-- `_source_number_text` -/
def sourceNumberText (value : SourceValue) (field : String) : Except NumberError PyText :=
  match value with
  | .text s =>
    if stripText s = [] then .error (.parse (field ++ " must be numeric")) else .ok (stripText s)
  | .nan => .ok (PyText.ofString "nan")
  | .infinity => .ok (PyText.ofString "inf")
  | .minusInfinity => .ok (PyText.ofString "-inf")
  | .null | .bool _ | .composite => .error (.parse (field ++ " must be numeric"))

inductive NumberParser where
  | ons
  | nomis
  | bankRate
  deriving DecidableEq, Repr

/-- The `_decimal_text` that a parser calls. -/
def NumberParser.decimalText (L : NumberLibrary) :
    NumberParser → PyText → Except NumberError (List Char)
  | .ons, s => officialDecimalText L s "ONS observation value"
  | .nomis, s => officialDecimalText L s "Nomis observation value"
  | .bankRate, s => bankRateDecimalText L s

/-- The parser passes the text to its `_decimal_text`. -/
def NumberParser.Passes : NumberParser → PyText → Prop
  | .ons, s => ∃ value, sourceNumberText value "ONS observation value" = .ok s
  | .nomis, s => ∃ value, sourceNumberText value "Nomis observation value" = .ok s
  | .bankRate, s => s ≠ [] ∧ ∃ cell : List Char, stripText (PyText.ofChars cell) = s

variable {L : NumberLibrary} {s : PyText} {t : List Char} {d d' : Decimal}
  {f : PyText → Except NumberError (List Char)}

/-! ## What is stored -/

/-- The text denotes the number. -/
def Spells (L : NumberLibrary) (s : PyText) (q : ℚ) : Prop :=
  ∃ d, decimal L s = some (.finite d) ∧ d.value = q

/-- A number that the text of is stored exactly. -/
structure StoredExactly (L : NumberLibrary) (f : PyText → Except NumberError (List Char))
    (s : PyText) : Prop where
  exact : ∀ t, f s = .ok t → ∃ q, Spells L s q ∧ Spells L (PyText.ofChars t) q
  canonical : ∀ t, f s = .ok t → CanonicalText t
  /-- Two spellings of one number are stored as one text. -/
  unique : ∀ s' t t' q, f s = .ok t → f s' = .ok t' → Spells L s q → Spells L s' q → t' = t
  idempotent : ∀ t, f s = .ok t → f (PyText.ofChars t) = .ok t
  /-- The exception is that of the parser. -/
  raises : ∀ e, f s = .error e → ∃ message, e = .parse message

/-- A number that the text stands for is zero, or the default context keeps it, or it is a negative one
that the context rounds to zero. -/
def Kept (L : NumberLibrary) (s : PyText) : Prop :=
  ∀ d, decimal L s = some (.finite d) → d.coefficient = 0 ∨ Exact defaultContext d ∨
    d.negative = true ∧ Vanishes defaultContext d

/-- The text that is returned for a number. -/
def Stores (d : Decimal) (t : List Char) : Prop :=
  if d.coefficient = 0 then t = ['0']
  else ∃ n, normalize defaultContext d = some n ∧ t = fixedText n ∧ t ≠ ['-', '0']

/-- A function that returns the text of every number, and raises for one only an overflow or its own
exception. -/
structure Storing (L : NumberLibrary) (f : PyText → Except NumberError (List Char)) : Prop where
  ok : ∀ s t, f s = .ok t ↔ ∃ d, decimal L s = some (.finite d) ∧ Stores d t
  overflow : ∀ s, f s = .error .overflow ↔ ∃ d, decimal L s = some (.finite d) ∧
    0 < d.coefficient ∧ normalize defaultContext d = none

/-! ## Texts -/

/-- The characters of a canonical text. -/
def IsPlain (c : Char) : Prop := c = '-' ∨ c = '.' ∨ c.isDigit = true

theorem isPlain_of_canonical (h : CanonicalText t) : ∀ c ∈ t, IsPlain c := by
  obtain ⟨negative, whole, fraction, hcanonical, rfl⟩ := h
  exact fun c hc => mem_written hcanonical hc

theorem toNat_of_isPlain {c : Char} (h : IsPlain c) : 45 ≤ c.toNat ∧ c.toNat ≤ 57 := by
  rcases h with rfl | rfl | h
  · decide
  · decide
  · simp only [Char.isDigit, Bool.and_eq_true, decide_eq_true_eq] at h
    have hlow : 48 ≤ c.toNat := h.1
    have hhigh : c.toNat ≤ 57 := h.2
    omega

theorem isSpace_of_isPlain {c : Char} (h : IsPlain c) : isSpace c = false := by
  obtain ⟨hlow, hhigh⟩ := toNat_of_isPlain h
  simp only [isSpace, List.mem_cons, List.not_mem_nil, or_false, Bool.or_eq_false_iff,
    Bool.and_eq_false_iff, decide_eq_false_iff_not]
  omega

/-- A plain text has no spaces and no underscores. -/
theorem asciiText_ofChars (hplain : ∀ c ∈ t, IsPlain c) : asciiText L (PyText.ofChars t) = some t := by
  have hspace : ∀ c ∈ PyText.ofChars t, ¬ isSpaceChar c = true := by
    intro c hc
    obtain ⟨x, hx, rfl⟩ := List.mem_map.mp hc
    rw [isSpaceChar, isSpace_of_isPlain (hplain x hx)]
    exact Bool.false_ne_true
  have hdrop : ∀ u : PyText, (∀ c ∈ u, ¬ isSpaceChar c = true) → u.dropWhile isSpaceChar = u := by
    intro u hu
    cases u with
    | nil => rfl
    | cons c u => exact List.dropWhile_cons_of_neg (hu c List.mem_cons_self)
  have hstrip : stripText (PyText.ofChars t) = PyText.ofChars t := by
    rw [stripText, hdrop _ hspace, hdrop _ (fun c hc => hspace c (List.mem_reverse.mp hc)),
      List.reverse_reverse]
  have hfilter : (PyText.ofChars t).filter (fun c => c ≠ .char '_') = PyText.ofChars t := by
    apply List.filter_eq_self.mpr
    intro c hc
    obtain ⟨x, hx, rfl⟩ := List.mem_map.mp hc
    have hnat := toNat_of_isPlain (hplain x hx)
    apply decide_eq_true
    intro heq
    rw [PyChar.char.inj heq] at hnat
    exact absurd hnat (by decide)
  have hascii : (PyText.ofChars t).mapM (asciiChar L) = some t := by
    rw [PyText.ofChars, List.mapM_map]
    clear hspace hstrip hfilter
    induction t with
    | nil => rfl
    | cons c t ih =>
      obtain ⟨hlow, hhigh⟩ := toNat_of_isPlain (hplain c List.mem_cons_self)
      have hc : (asciiChar L ∘ PyChar.char) c = some c := by
        rw [Function.comp_apply, asciiChar, if_pos (by omega)]
      rw [List.mapM_cons, hc, ih fun x hx => hplain x (List.mem_cons_of_mem c hx)]
      rfl
  rw [asciiText, hstrip, hfilter, hascii]

theorem decimal_ofChars (h : CanonicalText t) : decimal L (PyText.ofChars t) = read t := by
  rw [decimal, asciiText_ofChars (isPlain_of_canonical h), Option.bind_some]

theorem e_notMem_of_canonical (h : CanonicalText t) : 'e' ∉ t.map Char.toLower := by
  intro hmem
  obtain ⟨c, hc, heq⟩ := List.mem_map.mp hmem
  rcases isPlain_of_canonical h c hc with rfl | rfl | hdigit
  · exact absurd heq (by decide)
  · exact absurd heq (by decide)
  · rw [toLower_digit hdigit] at heq
    rw [heq] at hdigit
    exact nomatch hdigit

theorem e_notMem_fixedText {n : Decimal} (h : normalize defaultContext d = some n) :
    'e' ∉ (fixedText n).map Char.toLower := by
  rcases normalize_cases h with hmod | rfl
  · exact e_notMem_of_canonical (canonicalText_fixedText hmod)
  · rw [fixedText_zero]
    cases d.negative <;> decide

theorem canonicalText_ok {invalid infinite uncanonical : String} {x : Option Numeral} :
    canonicalText invalid infinite uncanonical x = .ok t ↔
      ∃ d, x = some (.finite d) ∧ Stores d t := by
  constructor
  · intro h
    match x, h with
    | some (.finite d), h =>
      refine ⟨d, rfl, ?_⟩
      rw [canonicalText] at h
      rw [Stores]
      split at h
      · next hzero =>
        rw [if_pos hzero]
        exact (Except.ok.inj h).symm
      · next hne =>
        rw [if_neg hne]
        split at h
        · exact nomatch h
        · next n hn =>
          split at h
          · exact nomatch h
          · next hcanonical =>
            obtain rfl := Except.ok.inj h
            exact ⟨n, hn, rfl, fun hzero => hcanonical (.inr hzero)⟩
  · rintro ⟨d, rfl, h⟩
    rw [Stores] at h
    rw [canonicalText]
    split
    · next hzero =>
      rw [if_pos hzero] at h
      rw [h]
    · next hne =>
      rw [if_neg hne] at h
      obtain ⟨n, hn, rfl, hzero⟩ := h
      simp only [hn]
      rw [if_neg (not_or.mpr ⟨e_notMem_fixedText hn, hzero⟩)]

theorem canonicalText_overflow {invalid infinite uncanonical : String} {x : Option Numeral} :
    canonicalText invalid infinite uncanonical x = .error .overflow ↔
      ∃ d, x = some (.finite d) ∧ 0 < d.coefficient ∧ normalize defaultContext d = none := by
  constructor
  · intro h
    match x, h with
    | some (.finite d), h =>
      refine ⟨d, rfl, ?_⟩
      rw [canonicalText] at h
      split at h
      · exact nomatch h
      · next hne =>
        split at h
        · next hnone => exact ⟨Nat.pos_of_ne_zero hne, hnone⟩
        · split at h <;> exact nomatch h
  · rintro ⟨d, rfl, hpos, hnone⟩
    rw [canonicalText, if_neg hpos.ne']
    simp only [hnone]

/-- What is stripped has no space at either end. -/
theorem stripText_idem (s : PyText) : stripText (stripText s) = stripText s := by
  have hright : ∀ u : PyText, (u.reverse.dropWhile isSpaceChar).reverse = u.rdropWhile isSpaceChar :=
    fun _ => rfl
  simp only [stripText, hright]
  have hhead : ((s.dropWhile isSpaceChar).rdropWhile isSpaceChar).dropWhile isSpaceChar =
      (s.dropWhile isSpaceChar).rdropWhile isSpaceChar := by
    obtain ⟨w, hw⟩ := List.rdropWhile_prefix isSpaceChar (s.dropWhile isSpaceChar)
    cases hv : (s.dropWhile isSpaceChar).rdropWhile isSpaceChar with
    | nil => rfl
    | cons c v =>
      -- the first code point of the result is the one that the left end begins with
      have hidem := List.dropWhile_idempotent isSpaceChar s
      rw [← hw, hv, List.cons_append] at hidem
      have hc : ¬ isSpaceChar c = true :=
        List.dropWhile_eq_self_iff.mp hidem (by rw [List.length_cons]; omega)
      exact List.dropWhile_cons_of_neg hc
  rw [hhead, List.rdropWhile_idempotent]

theorem decimal_strip (s : PyText) : decimal L (stripText s) = decimal L s := by
  rw [decimal, decimal, asciiText, asciiText, stripText_idem]

theorem decimal_blank (h : stripText s = []) : decimal L s = none := by
  rw [decimal, asciiText, h]
  rfl

theorem storing_official (field : String) : Storing L fun s => officialDecimalText L s field :=
  ⟨fun _ _ => canonicalText_ok, fun _ => canonicalText_overflow⟩

theorem storing_bankRate : Storing L (bankRateDecimalText L) := by
  constructor
  · intro s t
    rw [bankRateDecimalText, decimal_strip]
    split
    · next hblank =>
      rw [decimal_blank hblank]
      exact ⟨nofun, fun ⟨_, h, _⟩ => nomatch h⟩
    · exact canonicalText_ok
  · intro s
    rw [bankRateDecimalText, decimal_strip]
    split
    · next hblank =>
      rw [decimal_blank hblank]
      exact ⟨nofun, fun ⟨_, h, _⟩ => nomatch h⟩
    · exact canonicalText_overflow

theorem storing (parser : NumberParser) : Storing L (parser.decimalText L) := by
  cases parser with
  | ons => exact storing_official _
  | nomis => exact storing_official _
  | bankRate => exact storing_bankRate

/-! ## Numbers that are kept -/

/-- The text of a number that the context keeps. -/
inductive KeptText (d : Decimal) : List Char → Prop where
  | zero (h : d.coefficient = 0) : KeptText d ['0']
  | exact (hpos : 0 < d.coefficient) (h : Exact defaultContext d) :
      KeptText d (fixedText d.reduce)

theorem KeptText.stores (h : KeptText d t) : Stores d t := by
  cases h with
  | zero h => rw [Stores, if_pos h]
  | exact hpos h =>
    rw [Stores, if_neg hpos.ne']
    refine ⟨_, normalize_of_exact hpos h, rfl, fun hzero => not_canonicalText_minusZero ?_⟩
    rw [← hzero]
    exact canonicalText_fixedText (reduce_mod hpos)

theorem KeptText.of_stores (hkept : d.coefficient = 0 ∨ Exact defaultContext d ∨
    d.negative = true ∧ Vanishes defaultContext d) (h : Stores d t) : KeptText d t := by
  rw [Stores] at h
  split at h
  · next hzero =>
    rw [h]
    exact .zero hzero
  · next hne =>
    have hpos := Nat.pos_of_ne_zero hne
    obtain ⟨n, hn, rfl, ht⟩ := h
    rcases hkept with hzero | hexact | ⟨hnegative, hvanishes⟩
    · exact absurd hzero hne
    · rw [normalize_of_exact hpos hexact] at hn
      rw [← Option.some.inj hn]
      exact .exact hpos hexact
    · -- a negative number close to zero would be stored as a negative zero
      rw [normalize_of_vanishes hpos hvanishes] at hn
      rw [← Option.some.inj hn, fixedText_zero, hnegative] at ht
      exact absurd rfl ht

theorem KeptText.canonical (h : KeptText d t) : CanonicalText t := by
  cases h with
  | zero h => exact canonicalText_zero
  | exact hpos h => exact canonicalText_fixedText (reduce_mod hpos)

/-- The text is read as the number, which is kept again. -/
theorem KeptText.reads (h : KeptText d t) :
    ∃ d', read t = some (.finite d') ∧ d'.value = d.value ∧ KeptText d' t := by
  cases h with
  | zero h =>
    refine ⟨⟨false, 0, 0⟩, rfl, ?_, .zero rfl⟩
    rw [value_eq_zero_iff.mpr h, value_eq_zero_iff]
  | exact hpos h =>
    have hrep : Representable d.reduce := by
      refine ⟨?_, ?_⟩
      · rw [reduce, adjusted_reduced hpos]
        exact h.emax.trans (by decide)
      · exact le_trans (by decide) h.etiny
    obtain ⟨d', hread, hvalue⟩ := read_fixedText (reduce_mod hpos) hrep
    have hsame : d'.value = d.value := hvalue.trans (value_reduce hpos)
    have hpos' : 0 < d'.coefficient := by
      apply Nat.pos_of_ne_zero
      intro hzero
      have := value_eq_zero_iff.mp (hsame ▸ value_eq_zero_iff.mpr hzero)
      omega
    refine ⟨d', hread, hsame, ?_⟩
    rw [reduce_congr hpos hpos' hsame.symm]
    exact .exact hpos' (exact_congr hpos hpos' hsame.symm h)

/-- Two decimals of one number have one text. -/
theorem KeptText.unique {t' : List Char} (h : KeptText d t) (hvalue : d.value = d'.value)
    (h' : Stores d' t') : t' = t := by
  cases h with
  | zero h =>
    have hzero : d'.coefficient = 0 := value_eq_zero_iff.mp (hvalue ▸ value_eq_zero_iff.mpr h)
    rw [Stores, if_pos hzero] at h'
    exact h'
  | exact hpos h =>
    have hpos' : 0 < d'.coefficient := by
      apply Nat.pos_of_ne_zero
      intro hzero
      have := value_eq_zero_iff.mp (hvalue ▸ value_eq_zero_iff.mpr hzero)
      omega
    rw [Stores, if_neg hpos'.ne',
      normalize_of_exact hpos' (exact_congr hpos hpos' hvalue h)] at h'
    obtain ⟨n, hn, rfl, -⟩ := h'
    rw [← Option.some.inj hn, reduce_congr hpos hpos' hvalue]

/-! ## Exactness -/

theorem Storing.storedExactly (hf : Storing L f) (h : Kept L s) : StoredExactly L f s := by
  have hkept : ∀ t, f s = .ok t → ∃ d, decimal L s = some (.finite d) ∧ KeptText d t := fun t ht => by
    obtain ⟨d, hd, hstores⟩ := (hf.ok s t).mp ht
    exact ⟨d, hd, .of_stores (h d hd) hstores⟩
  constructor
  · intro t ht
    obtain ⟨d, hd, htext⟩ := hkept t ht
    obtain ⟨d', hread, hvalue, -⟩ := htext.reads
    exact ⟨d.value, ⟨d, hd, rfl⟩, d', by rw [decimal_ofChars htext.canonical, hread], hvalue⟩
  · intro t ht
    obtain ⟨d, -, htext⟩ := hkept t ht
    exact htext.canonical
  · rintro s' t t' q ht ht' ⟨d, hd, rfl⟩ ⟨d', hd', hvalue⟩
    obtain ⟨x, hx, htext⟩ := hkept t ht
    obtain ⟨x', hx', hstores⟩ := (hf.ok s' t').mp ht'
    obtain rfl := Numeral.finite.inj (Option.some.inj (hx.symm.trans hd))
    obtain rfl := Numeral.finite.inj (Option.some.inj (hx'.symm.trans hd'))
    exact htext.unique hvalue.symm hstores
  · intro t ht
    obtain ⟨d, -, htext⟩ := hkept t ht
    obtain ⟨d', hread, -, htext'⟩ := htext.reads
    exact (hf.ok _ t).mpr ⟨d', by rw [decimal_ofChars htext.canonical, hread], htext'.stores⟩
  · intro e he
    cases e with
    | parse message => exact ⟨message, rfl⟩
    | overflow =>
      obtain ⟨d, hd, hpos, hnone⟩ := (hf.overflow s).mp he
      rcases h d hd with hzero | hexact | ⟨-, hvanishes⟩
      · omega
      · rw [normalize_of_exact hpos hexact] at hnone
        exact nomatch hnone
      · rw [normalize_of_vanishes hpos hvanishes] at hnone
        exact nomatch hnone

theorem Storing.kept (hf : Storing L f) (h : StoredExactly L f s) : Kept L s := by
  intro d hd
  by_contra hnot
  rw [not_or, not_or, not_and] at hnot
  obtain ⟨hne, hexact, hvanishes⟩ := hnot
  have hpos := Nat.pos_of_ne_zero hne
  cases hn : normalize defaultContext d with
  | none =>
    obtain ⟨message, heq⟩ := h.raises _ ((hf.overflow s).mpr ⟨d, hd, hpos, hn⟩)
    exact nomatch heq
  | some n =>
    have hexactAt : ∀ t, Stores d t → ∀ d', decimal L (PyText.ofChars t) = some (.finite d') →
        d'.value = d.value := by
      intro t ht d' hd'
      obtain ⟨q, ⟨x, hx, rfl⟩, x', hx', hvalue⟩ := h.exact t ((hf.ok s t).mpr ⟨d, hd, ht⟩)
      obtain rfl := Numeral.finite.inj (Option.some.inj (hx.symm.trans hd))
      obtain rfl := Numeral.finite.inj (Option.some.inj (hx'.symm.trans hd'))
      exact hvalue
    have hstores : fixedText n ≠ ['-', '0'] → Stores d (fixedText n) := fun hzero => by
      rw [Stores, if_neg hne]
      exact ⟨n, hn, rfl, hzero⟩
    by_cases hvanish : Vanishes defaultContext d
    · -- a positive number close to zero is stored as zero
      have hnegative : d.negative = false :=
        Bool.eq_false_iff.mpr fun hnegative => hvanishes hnegative hvanish
      rw [normalize_of_vanishes hpos hvanish, hnegative] at hn
      rw [← Option.some.inj hn, fixedText_zero] at hstores
      have hvalue := hexactAt ['0'] (hstores (by decide)) ⟨false, 0, 0⟩
        (by rw [decimal_ofChars canonicalText_zero]; rfl)
      exact hne (value_eq_zero_iff.mp (hvalue ▸ value_eq_zero_iff.mpr rfl))
    · -- any other number is stored as another one
      obtain ⟨-, hmod, hvalue⟩ := normalize_inexact hpos hexact hvanish hn
      have hcanonical := canonicalText_fixedText hmod
      have ht := hstores fun hzero => not_canonicalText_minusZero (hzero ▸ hcanonical)
      obtain ⟨q, -, d', hd', -⟩ := h.exact _ ((hf.ok s _).mpr ⟨d, hd, ht⟩)
      have hread := hd'
      rw [decimal_ofChars hcanonical] at hread
      exact hvalue ((value_of_read_fixedText hmod hread).symm.trans (hexactAt _ ht d' hd'))

/-- A source number is stored exactly, or refused by the parser, exactly if it is kept. -/
theorem storedExactly_iff (L : NumberLibrary) (parser : NumberParser) (s : PyText) :
    StoredExactly L (parser.decimalText L) s ↔ Kept L s :=
  ⟨(storing parser).kept, (storing parser).storedExactly⟩

/-! ## Numbers that are not -/

def asciiNumbers : NumberLibrary where
  decimal _ := none
  repr _ := ""

/-- A number of 29 digits. -/
def longNumber : PyText := PyText.ofString "12345678901234567890123456789"

theorem decimalText_longNumber : NumberParser.ons.decimalText asciiNumbers longNumber =
    .ok "12345678901234567890123456790".toList := by decide +kernel

example : NumberParser.bankRate.decimalText asciiNumbers (PyText.ofString "1e1000000") =
    .error .overflow := by decide +kernel

/-- The last digit of a longer number is lost. -/
theorem not_storedExactly : ¬ ∀ (L : NumberLibrary) (parser : NumberParser) (s : PyText),
    parser.Passes s → StoredExactly L (parser.decimalText L) s := by
  intro h
  have hpasses : NumberParser.ons.Passes longNumber := ⟨.text longNumber, by decide⟩
  obtain ⟨q, ⟨d, hd, hq⟩, d', hd', hq'⟩ :=
    (h asciiNumbers .ons longNumber hpasses).exact _ decimalText_longNumber
  have hlong : decimal asciiNumbers longNumber =
      some (.finite ⟨false, 12345678901234567890123456789, 0⟩) := by decide +kernel
  have hrounded : decimal asciiNumbers (PyText.ofChars "12345678901234567890123456790".toList) =
      some (.finite ⟨false, 12345678901234567890123456790, 0⟩) := by decide +kernel
  obtain rfl := Numeral.finite.inj (Option.some.inj (hlong.symm.trans hd))
  obtain rfl := Numeral.finite.inj (Option.some.inj (hrounded.symm.trans hd'))
  rw [← hq] at hq'
  norm_num [value] at hq'

end NanFung
