import NanFung.Lib.Decimals

/-!
# Decimal numerals

A numeral is a sign, digits around a point and an exponent. What the fixed notation writes is read back
as the same number; it is the canonical numeral of that number if the coefficient ends in no zero.
-/

namespace NanFung

namespace Decimal

/-- What a numeric text stands for. -/
inductive Numeral where
  | finite (d : Decimal)
  | infinity (negative : Bool)
  | nan
  deriving DecidableEq, Repr

/-! ## Reading -/

def splitSign : List Char → Bool × List Char
  | '+' :: s => (false, s)
  | '-' :: s => (true, s)
  | s => (false, s)

def IsDigits (s : List Char) : Prop := ∀ c ∈ s, c.isDigit = true

instance (s : List Char) : Decidable (IsDigits s) := List.decidableBAll _ s

/-- The number that digits stand for. -/
def digitsValue (s : List Char) : Nat := Nat.ofDigitChars 10 s 0

def isExponentMark (c : Char) : Bool := c = 'e' || c = 'E'

/-- The exponent, from its mark on. -/
def readExponent : List Char → Option Int
  | [] => some 0
  | _ :: s =>
    let (negative, number) := splitSign s
    if number ≠ [] ∧ IsDigits number then
      some (if negative then -(digitsValue number : Int) else digitsValue number)
    else none

/-- Digits around a point, and an exponent. -/
def readFinite (negative : Bool) (s : List Char) : Option Decimal :=
  let mantissa := s.takeWhile fun c => !isExponentMark c
  let whole := mantissa.takeWhile fun c => c ≠ '.'
  let fraction := (mantissa.dropWhile fun c => c ≠ '.').drop 1
  if whole ++ fraction ≠ [] ∧ IsDigits (whole ++ fraction) then
    (readExponent (s.dropWhile fun c => !isExponentMark c)).map fun e =>
      ⟨negative, digitsValue (whole ++ fraction), e - fraction.length⟩
  else none

/-- The word, in lower case, is that of a quiet or a signalling NaN with a payload. -/
def isNan : List Char → Bool
  | 'n' :: 'a' :: 'n' :: payload => IsDigits payload
  | 's' :: 'n' :: 'a' :: 'n' :: payload => IsDigits payload
  | _ => false

/-- `MAX_EMAX` -/
def maxEmax : Int := 999999999999999999

/-- `MIN_ETINY` -/
def minEtiny : Int := -1999999999999999997

/-- The constructor has an exact result for the number. -/
def Representable (d : Decimal) : Prop :=
  adjusted d.coefficient d.exponent ≤ maxEmax ∧ minEtiny ≤ d.exponent

instance (d : Decimal) : Decidable (Representable d) := inferInstanceAs (Decidable (_ ∧ _))

def Numeral.fits : Numeral → Bool
  | .finite d => Representable d
  | .infinity _ => true
  | .nan => true

/-- The numeral that a text is. -/
def numeral (s : List Char) : Option Numeral :=
  let (negative, rest) := splitSign s
  let word := rest.map Char.toLower
  if word = "inf".toList ∨ word = "infinity".toList then some (.infinity negative)
  else if isNan word then some .nan
  else (readFinite negative rest).map .finite

/-- What the constructor reads; none is `InvalidOperation`. -/
def read (s : List Char) : Option Numeral := (numeral s).filter Numeral.fits

/-! ## Canonical numerals -/

/-- The parts of a canonical numeral. -/
structure Canonical (negative : Bool) (whole fraction : List Char) : Prop where
  digits : IsDigits (whole ++ fraction)
  nonempty : whole ≠ []
  leading : ∀ c rest, whole ≠ '0' :: c :: rest
  trailing : fraction.getLast? ≠ some '0'
  zero : negative = true → ¬ (whole = ['0'] ∧ fraction = [])

/-- An optional sign, digits, and a point with digits unless there are none. -/
def written (negative : Bool) (whole fraction : List Char) : List Char :=
  (if negative then ['-'] else []) ++ (whole ++ if fraction = [] then [] else '.' :: fraction)

/-- A canonical numeral: no exponent, no leading zero directly before another digit, no zero at the end
of a fraction, no negative zero. -/
def CanonicalText (t : List Char) : Prop :=
  ∃ negative whole fraction, Canonical negative whole fraction ∧ t = written negative whole fraction

variable {c : Char} {s whole fraction : List Char} {negative : Bool} {d : Decimal}

theorem isDigits_append {s t : List Char} : IsDigits (s ++ t) ↔ IsDigits s ∧ IsDigits t :=
  List.forall_mem_append

theorem isDigits_digits (n : Nat) : IsDigits (digits n) := fun _ hc =>
  Nat.isDigit_of_mem_toDigits (by decide) le_rfl hc

theorem isDigits_zeros (n : Nat) : IsDigits (List.replicate n '0') := fun _ hc => by
  rw [List.eq_of_mem_replicate hc]
  rfl

theorem digitsValue_digits (n : Nat) : digitsValue (digits n) = n := Nat.ofDigitChars_ten_toDigits

theorem digitsValue_zeros_append (n : Nat) (s : List Char) :
    digitsValue (List.replicate n '0' ++ s) = digitsValue s := by
  rw [digitsValue, Nat.ofDigitChars_append, Nat.ofDigitChars_replicate_zero, Nat.mul_zero, digitsValue]

theorem digitsValue_append_zeros (n : Nat) (s : List Char) :
    digitsValue (s ++ List.replicate n '0') = digitsValue s * 10 ^ n := by
  rw [digitsValue, Nat.ofDigitChars_append, Nat.ofDigitChars_replicate_zero, Nat.mul_comm, digitsValue]

/-- A digit is none of the characters that the reading looks for. -/
theorem isDigit_ne {c c' : Char} (h : c.isDigit = true) (h' : c'.isDigit = false) : c ≠ c' := by
  rintro rfl
  rw [h] at h'
  exact nomatch h'

theorem splitSign_digit (h : c.isDigit = true) : splitSign (c :: s) = (false, c :: s) := by
  rw [splitSign]
  · intro _ heq
    exact isDigit_ne h rfl (List.cons.inj heq).1
  · intro _ heq
    exact isDigit_ne h rfl (List.cons.inj heq).1

theorem toLower_digit (h : c.isDigit = true) : c.toLower = c := by
  simp only [Char.isDigit, Bool.and_eq_true, decide_eq_true_eq] at h
  refine dif_neg ?_
  rintro ⟨hupper, -⟩
  have hle : (65 : UInt32) ≤ 57 := UInt32.le_trans hupper h.2
  exact absurd hle (by decide)

/-- A text that starts with a digit is no word. -/
theorem isNan_digit (h : c.isDigit = true) : isNan (c :: s) = false := by
  rw [isNan]
  · intro _ heq
    exact isDigit_ne h rfl (List.cons.inj heq).1
  · intro _ heq
    exact isDigit_ne h rfl (List.cons.inj heq).1

theorem takeWhile_digits {p : Char → Bool} {t : List Char} (hs : ∀ c ∈ s, p c = true)
    (ht : ∀ c ∈ t.head?, p c = false) : (s ++ t).takeWhile p = s ∧ (s ++ t).dropWhile p = t := by
  rw [List.takeWhile_append_of_pos hs, List.dropWhile_append_of_pos hs]
  cases t with
  | nil => exact ⟨List.append_nil s, rfl⟩
  | cons c t =>
    have hc : ¬ p c = true := by
      rw [ht c rfl]
      exact Bool.false_ne_true
    rw [List.takeWhile_cons_of_neg hc, List.dropWhile_cons_of_neg hc, List.append_nil]
    exact ⟨rfl, rfl⟩

/-- Digits around a point are read as what they are. -/
theorem readFinite_written (negative : Bool) (hdigits : IsDigits (whole ++ fraction))
    (hne : whole ≠ []) :
    readFinite negative (whole ++ if fraction = [] then [] else '.' :: fraction) =
      some ⟨negative, digitsValue (whole ++ fraction), -fraction.length⟩ := by
  obtain ⟨hwhole, hfraction⟩ := isDigits_append.mp hdigits
  have hmark : ∀ c ∈ whole ++ (if fraction = [] then [] else '.' :: fraction),
      (!isExponentMark c) = true := by
    intro c hc
    have hdigit : ∀ {c : Char}, c.isDigit = true → (!isExponentMark c) = true := fun {c} h => by
      have he : c ≠ 'e' := isDigit_ne h rfl
      have hE : c ≠ 'E' := isDigit_ne h rfl
      simp [isExponentMark, he, hE]
    rcases List.mem_append.mp hc with hc | hc
    · exact hdigit (hwhole c hc)
    · split at hc
      · exact nomatch hc
      · rcases List.mem_cons.mp hc with rfl | hc
        · rfl
        · exact hdigit (hfraction c hc)
  obtain ⟨htake, hdrop⟩ := takeWhile_digits (t := []) hmark (fun _ h => nomatch h)
  rw [List.append_nil] at htake hdrop
  have hpoint : ∀ c ∈ whole, decide (c ≠ '.') = true := fun c hc =>
    decide_eq_true (isDigit_ne (hwhole c hc) rfl)
  have hhead : ∀ c ∈ (if fraction = [] then [] else '.' :: fraction).head?,
      decide (c ≠ '.') = false := by
    intro c hc
    split at hc
    · exact nomatch hc
    · obtain rfl := Option.some.inj hc
      rfl
  obtain ⟨htake', hdrop'⟩ := takeWhile_digits hpoint hhead
  have hrest : (if fraction = [] then [] else '.' :: fraction).drop 1 = fraction := by
    split
    · next hnil => rw [hnil]; rfl
    · rfl
  have hcond : whole ++ fraction ≠ [] ∧ IsDigits (whole ++ fraction) :=
    ⟨fun h => hne (List.append_eq_nil_iff.mp h).1, hdigits⟩
  simp only [readFinite, htake, hdrop, htake', hdrop', hrest, if_pos hcond, readExponent,
    Option.map_some, zero_sub]

/-- A canonical numeral stands for the number that its digits give. -/
theorem numeral_written (h : Canonical negative whole fraction) :
    numeral (written negative whole fraction) =
      some (.finite ⟨negative, digitsValue (whole ++ fraction), -fraction.length⟩) := by
  obtain ⟨c, rest, hwhole⟩ := List.exists_cons_of_ne_nil h.nonempty
  have hc : c.isDigit = true := (isDigits_append.mp h.digits).1 c (hwhole ▸ List.mem_cons_self)
  have hsign : splitSign (written negative whole fraction) =
      (negative, whole ++ if fraction = [] then [] else '.' :: fraction) := by
    rw [written, hwhole]
    cases negative with
    | false => exact splitSign_digit hc
    | true => rfl
  have hword : ∀ t : List Char, (whole ++ t).map Char.toLower =
      c :: (rest ++ t).map Char.toLower := fun t => by
    rw [hwhole, List.cons_append, List.map_cons, toLower_digit hc]
  have hinf : ∀ t t' : List Char, c :: t ≠ 'i' :: t' := fun _ _ heq =>
    isDigit_ne hc rfl (List.cons.inj heq).1
  rw [numeral, hsign]
  dsimp only
  rw [hword, if_neg, isNan_digit hc, if_neg Bool.false_ne_true,
    readFinite_written negative h.digits h.nonempty, Option.map_some]
  rintro (heq | heq)
  · exact hinf _ _ heq
  · exact hinf _ _ heq

/-! ## Writing -/

theorem digits_eq (n : Nat) : digits n =
    if n < 10 then [n.digitChar] else digits (n / 10) ++ [(n % 10).digitChar] :=
  Nat.toDigits_eq_if (by decide)

theorem digitChar_eq_zero : ∀ n < 10, n.digitChar = '0' → n = 0 := by decide

theorem getLast?_digits (n : Nat) : (digits n).getLast? = some (n % 10).digitChar := by
  rw [digits_eq]
  split
  · next hlt => rw [Nat.mod_eq_of_lt hlt, List.getLast?_singleton]
  · exact List.getLast?_concat

theorem digits_ne_nil (n : Nat) : digits n ≠ [] := Nat.toDigits_ne_nil

/-- The digits of a positive number start with no zero. -/
theorem digits_ne_zero_cons {n : Nat} (hn : 0 < n) (rest : List Char) : digits n ≠ '0' :: rest := by
  induction n using Nat.strong_induction_on generalizing rest with
  | _ n ih =>
    rw [digits_eq]
    split
    · next hlt =>
      intro h
      have hzero := digitChar_eq_zero n hlt (List.cons.inj h).1
      omega
    · next hge =>
      intro h
      obtain ⟨c, t, ht⟩ := List.exists_cons_of_ne_nil (digits_ne_nil (n / 10))
      rw [ht, List.cons_append] at h
      rw [(List.cons.inj h).1] at ht
      exact ih (n / 10) (by omega) (by omega) t ht

/-- The fixed notation of a coefficient that ends in no zero is canonical. -/
theorem exists_written (h : d.coefficient % 10 ≠ 0) : ∃ whole fraction,
    Canonical d.negative whole fraction ∧ fixedText d = written d.negative whole fraction ∧
      digitsValue (whole ++ fraction) = d.coefficient * 10 ^ d.exponent.toNat ∧
        fraction.length = (-d.exponent).toNat := by
  obtain ⟨negative, c, e⟩ := d
  dsimp only at h ⊢
  have hc : 0 < c := by omega
  rcases le_or_gt 0 e with he | he
  · refine ⟨digits c ++ List.replicate e.toNat '0', [], ⟨?_, ?_, ?_, ?_, ?_⟩, ?_, ?_, ?_⟩
    · rw [List.append_nil]
      exact isDigits_append.mpr ⟨isDigits_digits c, isDigits_zeros _⟩
    · exact List.append_ne_nil_of_left_ne_nil (digits_ne_nil c) _
    · intro x rest heq
      obtain ⟨y, t, ht⟩ := List.exists_cons_of_ne_nil (digits_ne_nil c)
      rw [ht, List.cons_append] at heq
      exact digits_ne_zero_cons hc t ((List.cons.inj heq).1 ▸ ht)
    · exact nofun
    · rintro - ⟨heq, -⟩
      obtain ⟨y, t, ht⟩ := List.exists_cons_of_ne_nil (digits_ne_nil c)
      rw [ht, List.cons_append] at heq
      exact digits_ne_zero_cons hc t ((List.cons.inj heq).1 ▸ ht)
    · rw [fixedText, if_pos he, written, if_pos rfl, List.append_nil]
    · rw [List.append_nil, digitsValue_append_zeros, digitsValue_digits]
    · rw [List.length_nil]
      omega
  · obtain ⟨k, hk, rfl⟩ : ∃ k : Nat, 0 < k ∧ e = -k := ⟨e.natAbs, by omega, by omega⟩
    have htoNat : (-(-(k : Int))).toNat = k := by omega
    set padded := List.replicate (k + 1 - (digits c).length) '0' ++ digits c with hpadded
    have hlength : k + 1 ≤ padded.length := by
      rw [hpadded, List.length_append, List.length_replicate]
      omega
    have hparts : padded.take (padded.length - k) ++ padded.drop (padded.length - k) = padded :=
      List.take_append_drop _ _
    have hfraction : (padded.drop (padded.length - k)).length = k := by
      rw [List.length_drop]
      omega
    have hwhole : (padded.take (padded.length - k)).length = padded.length - k := by
      rw [List.length_take]
      omega
    have hfractionNe : padded.drop (padded.length - k) ≠ [] := by
      intro hnil
      rw [hnil, List.length_nil] at hfraction
      omega
    refine ⟨padded.take (padded.length - k), padded.drop (padded.length - k), ⟨?_, ?_, ?_, ?_, ?_⟩,
      ?_, ?_, ?_⟩
    · rw [hparts]
      exact isDigits_append.mpr ⟨isDigits_zeros _, isDigits_digits c⟩
    · intro hnil
      rw [hnil, List.length_nil] at hwhole
      omega
    · intro x rest heq
      -- with two digits before the point nothing was padded
      have hlong : k + 2 ≤ padded.length := by
        rw [heq, List.length_cons, List.length_cons] at hwhole
        omega
      have hpad : k + 1 - (digits c).length = 0 := by
        rw [hpadded, List.length_append, List.length_replicate] at hlong
        omega
      rw [heq, hpadded, hpad, List.replicate_zero, List.nil_append] at hparts
      exact digits_ne_zero_cons hc _ hparts.symm
    · rw [← List.getLast?_append_of_ne_nil (padded.take (padded.length - k)) hfractionNe, hparts,
        hpadded, List.getLast?_append_of_ne_nil _ (digits_ne_nil c), getLast?_digits]
      intro heq
      exact h (digitChar_eq_zero _ (Nat.mod_lt c (by decide)) (Option.some.inj heq))
    · rintro - ⟨-, hnil⟩
      exact hfractionNe hnil
    · rw [fixedText, if_neg (not_le.mpr he), htoNat, pointed, written, if_neg hfractionNe]
    · rw [hparts, hpadded, digitsValue_zeros_append, digitsValue_digits, Int.toNat_of_nonpos he.le,
        pow_zero, Nat.mul_one]
    · rw [hfraction, htoNat]

theorem mem_written (h : Canonical negative whole fraction) (hc : c ∈ written negative whole fraction) :
    c = '-' ∨ c = '.' ∨ c.isDigit = true := by
  obtain ⟨hwhole, hfraction⟩ := isDigits_append.mp h.digits
  rw [written] at hc
  rcases List.mem_append.mp hc with hc | hc
  · split at hc
    · exact .inl (List.mem_singleton.mp hc)
    · exact nomatch hc
  · rcases List.mem_append.mp hc with hc | hc
    · exact .inr (.inr (hwhole c hc))
    · split at hc
      · exact nomatch hc
      · rcases List.mem_cons.mp hc with hpoint | hc
        · exact .inr (.inl hpoint)
        · exact .inr (.inr (hfraction c hc))

theorem canonicalText_fixedText (h : d.coefficient % 10 ≠ 0) : CanonicalText (fixedText d) := by
  obtain ⟨whole, fraction, hcanonical, htext, -⟩ := exists_written h
  exact ⟨_, _, _, hcanonical, htext⟩

theorem canonicalText_zero : CanonicalText ['0'] :=
  ⟨false, ['0'], [], ⟨by decide, by decide, nofun, nofun, nofun⟩, rfl⟩

/-- A negative zero is not canonical. -/
theorem not_canonicalText_minusZero : ¬ CanonicalText ['-', '0'] := by
  rintro ⟨negative, whole, fraction, h, heq⟩
  obtain ⟨c, rest, rfl⟩ := List.exists_cons_of_ne_nil h.nonempty
  cases negative with
  | false =>
    have hc : c.isDigit = true := (isDigits_append.mp h.digits).1 c List.mem_cons_self
    exact isDigit_ne hc rfl (List.cons.inj heq).1.symm
  | true =>
    obtain ⟨hc, hrest⟩ := List.cons.inj (List.cons.inj heq).2
    obtain ⟨hnil, hfraction⟩ := List.append_eq_nil_iff.mp hrest.symm
    split at hfraction
    · next hempty => exact h.zero rfl ⟨by rw [← hc, hnil], hempty⟩
    · exact nomatch hfraction

theorem fixedText_zero (negative : Bool) :
    fixedText ⟨negative, 0, 0⟩ = if negative then ['-', '0'] else ['0'] := by
  cases negative <;> rfl

/-- The digits of a number are its canonical numeral. -/
theorem canonical_digits (n : Nat) : Canonical false (digits n) [] where
  digits := by
    rw [List.append_nil]
    exact isDigits_digits n
  nonempty := digits_ne_nil n
  leading c rest h := by
    rcases Nat.eq_zero_or_pos n with rfl | hn
    · exact nomatch (List.cons.inj h).2
    · exact digits_ne_zero_cons hn _ h
  trailing := nofun
  zero := nofun

theorem written_digits (n : Nat) : written false (digits n) [] = digits n := by
  rw [written, if_neg Bool.false_ne_true, if_pos rfl, List.nil_append, List.append_nil]

theorem numeral_digits (n : Nat) : numeral (digits n) = some (.finite ⟨false, n, 0⟩) := by
  have hnumeral := numeral_written (canonical_digits n)
  rwa [written_digits, List.append_nil, digitsValue_digits, List.length_nil] at hnumeral

theorem fixedText_digits (n : Nat) : fixedText ⟨false, n, 0⟩ = digits n := by
  rw [fixedText, if_neg Bool.false_ne_true, if_pos le_rfl, List.nil_append, Int.toNat_zero,
    List.replicate_zero, List.append_nil]

/-- What the fixed notation writes stands for the same number. -/
theorem exists_numeral_fixedText (h : d.coefficient % 10 ≠ 0) : ∃ d', d'.value = d.value ∧
    (Representable d → Representable d') ∧ numeral (fixedText d) = some (.finite d') := by
  obtain ⟨whole, fraction, hcanonical, htext, hvalue, hlength⟩ := exists_written h
  have hpos : 0 < d.coefficient := by omega
  rw [htext]
  refine ⟨_, ?_, ?_, numeral_written hcanonical⟩
  · rw [hvalue, hlength, value_congr_shift]
    congr 2
    omega
  · rintro ⟨hmax, htiny⟩
    rw [Representable, hvalue, hlength, adjusted_mul_pow hpos]
    have hexponent : -((-d.exponent).toNat : Int) + (d.exponent.toNat : Int) = d.exponent := by omega
    have hneg : minEtiny ≤ 0 := by decide
    refine ⟨by rwa [hexponent], ?_⟩
    dsimp only
    omega

theorem read_fixedText (h : d.coefficient % 10 ≠ 0) (hrep : Representable d) :
    ∃ d', read (fixedText d) = some (.finite d') ∧ d'.value = d.value := by
  obtain ⟨d', hvalue, hrep', hnumeral⟩ := exists_numeral_fixedText h
  refine ⟨d', ?_, hvalue⟩
  rw [read, hnumeral]
  exact Option.filter_eq_some_iff.mpr ⟨rfl, decide_eq_true (hrep' hrep)⟩

theorem value_of_read_fixedText {d' : Decimal} (h : d.coefficient % 10 ≠ 0)
    (hread : read (fixedText d) = some (.finite d')) : d'.value = d.value := by
  obtain ⟨x, hvalue, -, hx⟩ := exists_numeral_fixedText h
  have hnumeral := (Option.filter_eq_some_iff.mp hread).1
  obtain rfl := Numeral.finite.inj (Option.some.inj (hx.symm.trans hnumeral))
  exact hvalue

end Decimal

end NanFung
