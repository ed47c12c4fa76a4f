import Mathlib.Algebra.Order.Field.Rat
import Mathlib.Tactic

/-!
# Decimal arithmetic

A decimal is a sign, a coefficient and an exponent. A context rounds it to a number of digits, half to
even, and bounds its exponent; normalising then drops the zeros at the end of the coefficient. The fixed
notation writes a decimal without an exponent.
-/

namespace NanFung

structure Decimal where
  negative : Bool
  coefficient : Nat
  exponent : Int
  deriving DecidableEq, Repr

namespace Decimal

/-- The number that a decimal stands for. -/
def value (d : Decimal) : ℚ := (if d.negative then -1 else 1) * d.coefficient * 10 ^ d.exponent

/-- The decimal digits of a coefficient; those of zero are one. -/
def digits (c : Nat) : List Char := Nat.toDigits 10 c

/-- The exponent of the first digit. -/
def adjusted (c : Nat) (e : Int) : Int := e + (digits c).length - 1

structure Context where
  precision : Nat
  emax : Int
  emin : Int
  precision_pos : 0 < precision
  emin_le : emin ≤ emax

/-- The exponent of the last digit that a number close to zero can have. -/
def Context.etiny (ctx : Context) : Int := ctx.emin - (ctx.precision - 1)

/-- A coefficient without its last `k` digits, rounded half to even. -/
def halfEven (c k : Nat) : Nat :=
  let q := c / 10 ^ k
  let r := c % 10 ^ k
  if 10 ^ k < 2 * r ∨ 2 * r = 10 ^ k ∧ q % 2 = 1 then q + 1 else q

/-- A coefficient that is not zero, rounded in a context; none is an overflow. -/
def finalize (ctx : Context) (c : Nat) (e : Int) : Option (Nat × Int) :=
  if ctx.emax < adjusted c e then none
  else if adjusted c e < ctx.emin then
    if e < ctx.etiny then some (halfEven c (ctx.etiny - e).toNat, ctx.etiny) else some (c, e)
  else
    let k := (digits c).length - ctx.precision
    if ctx.emax < adjusted (halfEven c k) (e + k) then none else some (halfEven c k, e + k)

/-- Drop zeros at the end of a coefficient, as many as there is fuel for. -/
def stripZeros : Nat → Nat → Int → Nat × Int
  | 0, c, e => (c, e)
  | fuel + 1, c, e => if c % 10 = 0 then stripZeros fuel (c / 10) (e + 1) else (c, e)

/-- The coefficient without the zeros at its end, and its exponent. -/
def reduced (c : Nat) (e : Int) : Nat × Int := stripZeros (digits c).length c e

/-- `normalize`; none is an overflow. -/
def normalize (ctx : Context) (d : Decimal) : Option Decimal :=
  (finalize ctx d.coefficient d.exponent).map fun f =>
    if f.1 = 0 then ⟨d.negative, 0, 0⟩
    else ⟨d.negative, (reduced f.1 f.2).1, (reduced f.1 f.2).2⟩

/-- The number without the zeros at its end, not rounded. -/
def reduce (d : Decimal) : Decimal :=
  ⟨d.negative, (reduced d.coefficient d.exponent).1, (reduced d.coefficient d.exponent).2⟩

/-- The context keeps the number as it is. -/
structure Exact (ctx : Context) (d : Decimal) : Prop where
  precision : (digits (reduced d.coefficient d.exponent).1).length ≤ ctx.precision
  emax : adjusted d.coefficient d.exponent ≤ ctx.emax
  etiny : ctx.etiny ≤ (reduced d.coefficient d.exponent).2

/-- The context rounds the number to zero. -/
structure Vanishes (ctx : Context) (d : Decimal) : Prop where
  etiny : d.exponent < ctx.etiny
  half : 2 * d.coefficient ≤ 10 ^ (ctx.etiny - d.exponent).toNat

/-- Digits with a point before the last `k` of them. -/
def pointed (k : Nat) (s : List Char) : List Char :=
  let padded := List.replicate (k + 1 - s.length) '0' ++ s
  padded.take (padded.length - k) ++ '.' :: padded.drop (padded.length - k)

/-- The fixed notation. -/
def fixedText (d : Decimal) : List Char :=
  (if d.negative then ['-'] else []) ++
    if 0 ≤ d.exponent then digits d.coefficient ++ List.replicate d.exponent.toNat '0'
    else pointed (-d.exponent).toNat (digits d.coefficient)

variable {c k : Nat} {e : Int} {ctx : Context} {d d' : Decimal}

/-! ## Digits -/

theorem length_digits_pos : 0 < (digits c).length := Nat.length_toDigits_pos

theorem length_digits_le_iff (h : 0 < k) : (digits c).length ≤ k ↔ c < 10 ^ k :=
  Nat.length_toDigits_le_iff (by decide) h

theorem lt_pow_length_digits : c < 10 ^ (digits c).length :=
  (length_digits_le_iff length_digits_pos).mp le_rfl

theorem length_digits_mul_pow (hc : 0 < c) (k : Nat) :
    (digits (c * 10 ^ k)).length = (digits c).length + k := by
  apply le_antisymm
  · rw [length_digits_le_iff (Nat.add_pos_left length_digits_pos k), pow_add]
    exact Nat.mul_lt_mul_of_pos_right lt_pow_length_digits (by positivity)
  · by_contra hlt
    rw [not_le] at hlt
    -- then the digits of `c` would be fewer
    have hpos : 0 < (digits (c * 10 ^ k)).length := length_digits_pos
    have hbound : c * 10 ^ k < 10 ^ ((digits c).length - 1 + k) := by
      rw [← length_digits_le_iff (by omega)]
      omega
    rw [pow_add] at hbound
    have hc' : c < 10 ^ ((digits c).length - 1) := Nat.lt_of_mul_lt_mul_right hbound
    rcases Nat.eq_zero_or_pos ((digits c).length - 1) with hzero | hpos'
    · rw [hzero] at hc'
      omega
    · have := (length_digits_le_iff hpos').mpr hc'
      omega

theorem adjusted_mul_pow (hc : 0 < c) (k : Nat) :
    adjusted (c * 10 ^ k) e = adjusted c (e + k) := by
  rw [adjusted, adjusted, length_digits_mul_pow hc]
  push_cast
  ring

/-! ## Values -/

theorem value_congr_shift (b : Bool) (c k : Nat) (e : Int) :
    (⟨b, c * 10 ^ k, e⟩ : Decimal).value = (⟨b, c, e + k⟩ : Decimal).value := by
  have hten : (10 : ℚ) ≠ 0 := by norm_num
  simp only [value, zpow_add₀ hten, zpow_natCast]
  push_cast
  ring

theorem value_eq_zero_iff : d.value = 0 ↔ d.coefficient = 0 := by
  have hpow : (10 : ℚ) ^ d.exponent ≠ 0 := zpow_ne_zero _ (by norm_num)
  have hsign : (if d.negative then -1 else 1 : ℚ) ≠ 0 := by split <;> norm_num
  rw [value, mul_assoc, mul_eq_zero, or_iff_right hsign, mul_eq_zero, or_iff_left hpow,
    Nat.cast_eq_zero]

/-- A number that is not zero tells its sign. -/
theorem parts_of_value_eq (hd : 0 < d.coefficient) (h : d.value = d'.value) :
    d.negative = d'.negative ∧
      (d.coefficient : ℚ) * 10 ^ d.exponent = d'.coefficient * 10 ^ d'.exponent := by
  have hpos : (0 : ℚ) < d.coefficient * 10 ^ d.exponent :=
    mul_pos (by exact_mod_cast hd) (zpow_pos (by norm_num) _)
  have hnonneg : (0 : ℚ) ≤ d'.coefficient * 10 ^ d'.exponent :=
    mul_nonneg (Nat.cast_nonneg _) (zpow_nonneg (by norm_num) _)
  simp only [value, mul_assoc] at h
  cases hn : d.negative <;> cases hn' : d'.negative <;> rw [hn, hn'] at h <;>
    simp only [Bool.false_eq_true, if_true, if_false, one_mul, neg_one_mul] at h
  · exact ⟨rfl, h⟩
  · linarith
  · linarith
  · exact ⟨rfl, neg_injective h⟩

/-- Coefficients that end in no zero are told by the number. -/
theorem eq_of_mul_zpow {c c' : Nat} {e e' : Int} (hc : c % 10 ≠ 0) (hc' : c' % 10 ≠ 0)
    (h : (c : ℚ) * 10 ^ e = c' * 10 ^ e') : c = c' ∧ e = e' := by
  have hten : (10 : ℚ) ≠ 0 := by norm_num
  -- the larger exponent would make the other coefficient end in a zero
  have hle : ∀ {a b : Nat} {x y : Int}, a % 10 ≠ 0 → (a : ℚ) * 10 ^ x = b * 10 ^ y → y ≤ x := by
    intro a b x y ha heq
    by_contra hlt
    rw [not_le] at hlt
    obtain ⟨n, hn⟩ := Int.eq_ofNat_of_zero_le (sub_nonneg.mpr hlt.le)
    have hy : y = x + n := by omega
    have hpow : (10 : ℚ) ^ x ≠ 0 := zpow_ne_zero x hten
    rw [hy, zpow_add₀ hten, zpow_natCast, mul_comm ((10 : ℚ) ^ x), ← mul_assoc] at heq
    have hnat : a = b * 10 ^ n := by exact_mod_cast mul_right_cancel₀ hpow heq
    have hnpos : n ≠ 0 := by omega
    apply ha
    rw [hnat]
    exact Nat.mod_eq_zero_of_dvd ((dvd_pow_self 10 hnpos).mul_left b)
  have he : e = e' := le_antisymm (hle hc' h.symm) (hle hc h)
  subst he
  have hpow : (10 : ℚ) ^ e ≠ 0 := zpow_ne_zero e hten
  exact ⟨by exact_mod_cast mul_right_cancel₀ hpow h, rfl⟩

/-! ## Reduction -/

theorem stripZeros_spec (fuel : Nat) (hc : 0 < c) (hfuel : c < 10 ^ fuel) :
    (stripZeros fuel c e).1 % 10 ≠ 0 ∧
      ∃ n : Nat, c = (stripZeros fuel c e).1 * 10 ^ n ∧ (stripZeros fuel c e).2 = e + n := by
  induction fuel generalizing c e with
  | zero =>
    rw [pow_zero] at hfuel
    exact absurd hc (by omega)
  | succ fuel ih =>
    rw [stripZeros]
    split
    · next hzero =>
      rw [pow_succ] at hfuel
      obtain ⟨hmod, n, hn, he⟩ := @ih (c / 10) (e + 1) (by omega) (by omega)
      refine ⟨hmod, n + 1, ?_, ?_⟩
      · rw [pow_succ, ← mul_assoc, ← hn]
        omega
      · rw [he]
        push_cast
        ring
    · next hmod => exact ⟨hmod, 0, by rw [pow_zero, mul_one], by simp⟩

/-- The reduced coefficient ends in no zero; the zeros have become the exponent. -/
theorem reduced_spec (hc : 0 < c) : (reduced c e).1 % 10 ≠ 0 ∧
    ∃ n : Nat, c = (reduced c e).1 * 10 ^ n ∧ (reduced c e).2 = e + n :=
  stripZeros_spec _ hc lt_pow_length_digits

theorem reduced_pos (hc : 0 < c) : 0 < (reduced c e).1 := by
  obtain ⟨hmod, -⟩ := reduced_spec (e := e) hc
  by_contra hzero
  rw [not_lt, Nat.le_zero] at hzero
  rw [hzero] at hmod
  exact hmod rfl

theorem value_reduced (b : Bool) (hc : 0 < c) :
    (⟨b, (reduced c e).1, (reduced c e).2⟩ : Decimal).value = (⟨b, c, e⟩ : Decimal).value := by
  obtain ⟨-, n, hn, he⟩ := reduced_spec (e := e) hc
  rw [he, ← value_congr_shift, ← hn]

theorem value_reduce (hd : 0 < d.coefficient) : d.reduce.value = d.value := value_reduced _ hd

theorem reduce_mod (hd : 0 < d.coefficient) : d.reduce.coefficient % 10 ≠ 0 := (reduced_spec hd).1

theorem adjusted_reduced (hc : 0 < c) :
    adjusted (reduced c e).1 (reduced c e).2 = adjusted c e := by
  obtain ⟨-, n, hn, he⟩ := reduced_spec (e := e) hc
  rw [he, ← adjusted_mul_pow (reduced_pos hc), ← hn]

theorem mul_zpow_reduced (hc : 0 < c) :
    ((reduced c e).1 : ℚ) * 10 ^ (reduced c e).2 = c * 10 ^ e := by
  have hvalue := value_reduced (e := e) false hc
  simpa only [value, Bool.false_eq_true, if_false, one_mul] using hvalue

/-- Two writings of one number have the same reduction. -/
theorem reduced_congr {c' : Nat} {e' : Int} (hc : 0 < c) (hc' : 0 < c')
    (h : (c : ℚ) * 10 ^ e = c' * 10 ^ e') : reduced c e = reduced c' e' := by
  rw [← mul_zpow_reduced hc, ← mul_zpow_reduced hc'] at h
  obtain ⟨hcoefficient, hexponent⟩ := eq_of_mul_zpow (reduced_spec hc).1 (reduced_spec hc').1 h
  exact Prod.ext hcoefficient hexponent

/-! ## Rounding -/

theorem halfEven_eq (c k : Nat) : halfEven c k =
    if 10 ^ k < 2 * (c % 10 ^ k) ∨ 2 * (c % 10 ^ k) = 10 ^ k ∧ c / 10 ^ k % 2 = 1 then
      c / 10 ^ k + 1 else c / 10 ^ k := rfl

theorem halfEven_of_dvd (h : 10 ^ k ∣ c) : halfEven c k * 10 ^ k = c := by
  have hmod : c % 10 ^ k = 0 := Nat.mod_eq_zero_of_dvd h
  have hpos : 0 < 10 ^ k := by positivity
  rw [halfEven_eq, hmod, if_neg (by omega)]
  exact Nat.div_mul_cancel h

/-- A coefficient is rounded to zero up to half of the place. -/
theorem halfEven_eq_zero : halfEven c k = 0 ↔ 2 * c ≤ 10 ^ k := by
  have hpos : 0 < 10 ^ k := by positivity
  rw [halfEven_eq]
  generalize 10 ^ k = t at hpos ⊢
  constructor
  · intro h
    split at h
    · exact absurd h (Nat.succ_ne_zero _)
    · next hdown =>
      have hlt : c < t := (Nat.div_eq_zero_iff.mp h).resolve_left hpos.ne'
      have hmod : c % t = c := Nat.mod_eq_of_lt hlt
      omega
  · intro h
    have hlt : c < t := by omega
    rw [Nat.mod_eq_of_lt hlt, Nat.div_eq_of_lt hlt, if_neg (by omega)]

theorem halfEven_le {n : Nat} (h : c < n * 10 ^ k) : halfEven c k ≤ n := by
  have hlt : c / 10 ^ k < n := Nat.div_lt_of_lt_mul (by rwa [Nat.mul_comm])
  rw [halfEven_eq]
  split <;> omega

/-- A coefficient with more digits than the power has no more of them once it is reduced. -/
theorem length_digits_reduced (hk : 0 < k) (hc : 0 < c) (h : c ≤ 10 ^ k) :
    (digits (reduced c e).1).length ≤ k := by
  obtain ⟨hmod, n, hn, -⟩ := reduced_spec (e := e) hc
  rw [length_digits_le_iff hk]
  by_contra hge
  rw [not_lt] at hge
  have hle : (reduced c e).1 ≤ c := by
    calc (reduced c e).1 = (reduced c e).1 * 1 := (Nat.mul_one _).symm
      _ ≤ (reduced c e).1 * 10 ^ n := Nat.mul_le_mul_left _ (Nat.one_le_pow _ _ (by decide))
      _ = c := hn.symm
  have heq : (reduced c e).1 = 10 ^ k := le_antisymm (hle.trans h) hge
  apply hmod
  rw [heq]
  exact Nat.mod_eq_zero_of_dvd (dvd_pow_self 10 hk.ne')

theorem exact_congr (hd : 0 < d.coefficient) (hd' : 0 < d'.coefficient) (h : d.value = d'.value)
    (hexact : Exact ctx d) : Exact ctx d' := by
  have hreduced := reduced_congr hd hd' (parts_of_value_eq hd h).2
  obtain ⟨hprecision, hmax, htiny⟩ := hexact
  rw [← adjusted_reduced hd] at hmax
  rw [hreduced] at hprecision hmax htiny
  exact ⟨hprecision, by rwa [← adjusted_reduced hd'], htiny⟩

theorem reduce_congr (hd : 0 < d.coefficient) (hd' : 0 < d'.coefficient) (h : d.value = d'.value) :
    d.reduce = d'.reduce := by
  obtain ⟨hnegative, hvalue⟩ := parts_of_value_eq hd h
  rw [reduce, reduce, hnegative, reduced_congr hd hd' hvalue]

/-- What the rounding of a coefficient leaves. -/
theorem finalize_spec {f : Nat × Int} (h : finalize ctx c e = some f) :
    f.1 ≤ 10 ^ ctx.precision ∧ ctx.etiny ≤ f.2 ∧ adjusted c e ≤ ctx.emax := by
  have hdigits : c < 10 ^ (digits c).length := lt_pow_length_digits
  have hprecision : 0 < ctx.precision := ctx.precision_pos
  have hbound : ∀ n k : Nat, (digits c).length ≤ n + k → c < 10 ^ n * 10 ^ k := fun n k hle => by
    rw [← pow_add]
    exact hdigits.trans_le (Nat.pow_le_pow_right (by decide) hle)
  rw [finalize] at h
  split at h
  · exact nomatch h
  · next hmax =>
    rw [not_lt] at hmax
    split at h
    · next hmin =>
      split at h
      -- the coefficient is cut at the last place of the context
      · next htiny =>
        obtain rfl := Option.some.inj h
        refine ⟨halfEven_le (hbound _ _ ?_), le_rfl, hmax⟩
        simp only [adjusted, Context.etiny] at hmin htiny ⊢
        omega
      · next htiny =>
        obtain rfl := Option.some.inj h
        refine ⟨hdigits.le.trans (Nat.pow_le_pow_right (by decide) ?_), not_lt.mp htiny, hmax⟩
        simp only [adjusted, Context.etiny] at hmin htiny
        omega
    · next hmin =>
      dsimp only at h
      split at h
      · exact nomatch h
      · obtain rfl := Option.some.inj h
        refine ⟨halfEven_le (hbound _ _ (by omega)), ?_, hmax⟩
        simp only [adjusted, Context.etiny] at hmin ⊢
        omega

/-- A number that the context keeps is rounded to itself. -/
theorem finalize_of_exact (hc : 0 < d.coefficient) (h : Exact ctx d) :
    ∃ f, finalize ctx d.coefficient d.exponent = some f ∧ 0 < f.1 ∧
      (f.1 : ℚ) * 10 ^ f.2 = d.coefficient * 10 ^ d.exponent := by
  obtain ⟨b, c, e⟩ := d
  obtain ⟨hlength, hmax, htiny⟩ := h
  dsimp only at hc hlength hmax htiny ⊢
  obtain ⟨-, n, hn, he⟩ := reduced_spec (e := e) hc
  have hcount : (digits c).length = (digits (reduced c e).1).length + n := by
    have hshift := length_digits_mul_pow (reduced_pos (e := e) hc) n
    rwa [← hn] at hshift
  -- the zeros at the end are more than what the rounding cuts
  have hcut : ∀ k : Nat, k ≤ n → halfEven c k * 10 ^ k = c := fun k hk => by
    apply halfEven_of_dvd
    rw [hn]
    exact (pow_dvd_pow 10 hk).mul_left _
  have hpos : ∀ k : Nat, k ≤ n → 0 < halfEven c k := fun k hk => by
    by_contra hzero
    have hval := hcut k hk
    rw [Nat.eq_zero_of_not_pos hzero, Nat.zero_mul] at hval
    omega
  have hvalue : ∀ k : Nat, k ≤ n → (halfEven c k : ℚ) * 10 ^ (e + k) = c * 10 ^ e := fun k hk => by
    have hten : (10 : ℚ) ≠ 0 := by norm_num
    rw [zpow_add₀ hten, zpow_natCast, mul_comm ((10 : ℚ) ^ e), ← mul_assoc]
    exact_mod_cast congrArg (fun m : Nat => (m : ℚ) * 10 ^ e) (hcut k hk)
  rw [finalize, if_neg (not_lt.mpr hmax)]
  split
  · next hmin =>
    split
    · next hlt =>
      have hk : (ctx.etiny - e).toNat ≤ n := by omega
      have hplace : e + ((ctx.etiny - e).toNat : Int) = ctx.etiny := by omega
      refine ⟨_, rfl, hpos _ hk, ?_⟩
      rw [← hvalue _ hk, hplace]
    · exact ⟨_, rfl, hc, rfl⟩
  · have hk : (digits c).length - ctx.precision ≤ n := by omega
    dsimp only
    rw [if_neg]
    · exact ⟨_, rfl, hpos _ hk, hvalue _ hk⟩
    · rw [← adjusted_mul_pow (hpos _ hk), hcut _ hk]
      exact not_lt.mpr hmax

/-- Only a number that the context keeps is rounded to itself. -/
theorem exact_of_finalize {f : Nat × Int} (hc : 0 < d.coefficient) (hf : 0 < f.1)
    (h : finalize ctx d.coefficient d.exponent = some f)
    (hvalue : (f.1 : ℚ) * 10 ^ f.2 = d.coefficient * 10 ^ d.exponent) : Exact ctx d := by
  obtain ⟨hle, htiny, hmax⟩ := finalize_spec h
  obtain ⟨-, n, -, he⟩ := reduced_spec (e := f.2) hf
  have hreduced : reduced d.coefficient d.exponent = reduced f.1 f.2 := reduced_congr hc hf hvalue.symm
  refine ⟨?_, hmax, ?_⟩
  · rw [hreduced]
    exact length_digits_reduced ctx.precision_pos hf hle
  · rw [hreduced, he]
    omega

theorem finalize_of_vanishes (hc : 0 < d.coefficient) (h : Vanishes ctx d) :
    finalize ctx d.coefficient d.exponent = some (0, ctx.etiny) := by
  obtain ⟨htiny, hhalf⟩ := h
  have hle := ctx.emin_le
  have hprecision := ctx.precision_pos
  have hlength : (digits d.coefficient).length ≤ (ctx.etiny - d.exponent).toNat := by
    rw [length_digits_le_iff (by omega)]
    omega
  have hadjusted : adjusted d.coefficient d.exponent < ctx.emin := by
    simp only [adjusted, Context.etiny] at htiny hlength ⊢
    omega
  rw [finalize, if_neg (by omega), if_pos hadjusted, if_pos htiny, halfEven_eq_zero.mpr hhalf]

theorem vanishes_of_finalize {f : Nat × Int} (hc : 0 < d.coefficient) (hf : f.1 = 0)
    (h : finalize ctx d.coefficient d.exponent = some f) : Vanishes ctx d := by
  rw [finalize] at h
  split at h
  · exact nomatch h
  · split at h
    · split at h
      · next htiny =>
        obtain rfl := Option.some.inj h
        exact ⟨htiny, halfEven_eq_zero.mp hf⟩
      · obtain rfl := Option.some.inj h
        exact absurd hf hc.ne'
    · dsimp only at h
      split at h
      · exact nomatch h
      · obtain rfl := Option.some.inj h
        have hhalf := halfEven_eq_zero.mp hf
        -- a coefficient keeps its first digits
        exfalso
        rcases Nat.eq_zero_or_pos ((digits d.coefficient).length - ctx.precision) with hzero | hpos
        · rw [hzero] at hhalf
          omega
        · have hlength := (length_digits_le_iff hpos).mpr (by omega : d.coefficient < _)
          have hprecision := ctx.precision_pos
          omega

/-! ## Normalising -/

theorem normalize_cases {n : Decimal} (h : normalize ctx d = some n) :
    n.coefficient % 10 ≠ 0 ∨ n = ⟨d.negative, 0, 0⟩ := by
  obtain ⟨f, hf, hn⟩ := Option.map_eq_some_iff.mp h
  rw [← hn]
  split
  · exact .inr rfl
  · next hne => exact .inl (reduced_spec (Nat.pos_of_ne_zero hne)).1

theorem normalize_of_exact (hc : 0 < d.coefficient) (h : Exact ctx d) :
    normalize ctx d = some d.reduce := by
  obtain ⟨f, hf, hpos, hvalue⟩ := finalize_of_exact hc h
  rw [normalize, hf, Option.map_some, if_neg hpos.ne', reduced_congr hpos hc hvalue, reduce]

theorem normalize_of_vanishes (hc : 0 < d.coefficient) (h : Vanishes ctx d) :
    normalize ctx d = some ⟨d.negative, 0, 0⟩ := by
  rw [normalize, finalize_of_vanishes hc h, Option.map_some, if_pos rfl]

/-- A number that the context neither keeps nor rounds to zero overflows or becomes another number,
which is not zero. -/
theorem normalize_inexact (hc : 0 < d.coefficient) (hexact : ¬ Exact ctx d)
    (hvanishes : ¬ Vanishes ctx d) {n : Decimal} (h : normalize ctx d = some n) :
    n.negative = d.negative ∧ n.coefficient % 10 ≠ 0 ∧ n.value ≠ d.value := by
  obtain ⟨f, hf, hn⟩ := Option.map_eq_some_iff.mp h
  have hpos : 0 < f.1 := Nat.pos_of_ne_zero fun hzero => hvanishes (vanishes_of_finalize hc hzero hf)
  rw [if_neg hpos.ne'] at hn
  subst hn
  refine ⟨rfl, (reduced_spec hpos).1, fun hvalue => hexact ?_⟩
  apply exact_of_finalize hc hpos hf
  rw [value_reduced _ hpos, value, value] at hvalue
  have hsign : ((if d.negative then -1 else 1 : ℚ)) ≠ 0 := by split <;> norm_num
  simp only [mul_assoc] at hvalue
  exact mul_left_cancel₀ hsign hvalue

end Decimal

end NanFung
