import Mathlib.Tactic
import Mathlib.Data.String.Basic

/-!
# Fixed-width decimal fields

A text made of zero-padded decimal fields of fixed widths, separated by fixed characters, compares
as text exactly as its list of field values compares lexicographically. `render` writes such a text,
`scan` reads it back, and `render_lt_iff` / `scan_render` are the two facts a caller needs: textual
order is field order, and reading inverts writing.
-/

namespace NanFung.FixedWidth

/-! ## Digits -/

/-- The digit character of `d < 10`. -/
def digitChar (d : Nat) : Char := Char.ofNat (48 + d)

/-- The value of a decimal digit character, if it is one. -/
def digitVal (c : Char) : Option Nat :=
  if 48 ≤ c.toNat ∧ c.toNat ≤ 57 then some (c.toNat - 48) else none

/-- `n` written with exactly `w` decimal digits, most significant first. -/
def digits : Nat → Nat → List Char
  | 0, _ => []
  | w + 1, n => digitChar (n / 10 ^ w % 10) :: digits w n

/-- Read exactly `w` decimal digits onto `acc`. -/
def scanDigits : Nat → Nat → List Char → Option (Nat × List Char)
  | 0, acc, cs => some (acc, cs)
  | _ + 1, _, [] => none
  | w + 1, acc, c :: cs =>
    match digitVal c with
    | some d => scanDigits w (acc * 10 + d) cs
    | none => none

theorem toNat_digitChar {d : Nat} (h : d < 10) : (digitChar d).toNat = 48 + d := by
  interval_cases d <;> rfl

@[simp] theorem digitVal_digitChar {d : Nat} (h : d < 10) : digitVal (digitChar d) = some d := by
  interval_cases d <;> rfl

theorem digitChar_lt_iff {a b : Nat} (ha : a < 10) (hb : b < 10) :
    digitChar a < digitChar b ↔ a < b := by
  rw [Char.lt_def, UInt32.lt_iff_toNat_lt]
  change (digitChar a).toNat < (digitChar b).toNat ↔ a < b
  rw [toNat_digitChar ha, toNat_digitChar hb]
  omega

@[simp] theorem length_digits (w n : Nat) : (digits w n).length = w := by
  induction w with
  | zero => rfl
  | succ w ih => simp [digits, ih]

/-- Only the low `w` digits of the number are written. -/
theorem digits_mod (w n : Nat) : digits w (n % 10 ^ w) = digits w n := by
  suffices h : ∀ v, v ≤ w → digits v (n % 10 ^ w) = digits v n from h w le_rfl
  intro v hv
  induction v with
  | zero => rfl
  | succ v ih =>
    have hdvd : 10 ^ (v + 1) ∣ 10 ^ w := pow_dvd_pow 10 hv
    have hdiv : ∀ m : Nat, m / 10 ^ v % 10 = m % 10 ^ (v + 1) / 10 ^ v := fun m => by
      rw [pow_succ, Nat.mod_mul_right_div_self]
    rw [digits, digits, ih (by omega), hdiv, hdiv, Nat.mod_mod_of_dvd _ hdvd]

theorem scanDigits_digits (w n acc : Nat) (rest : List Char) :
    scanDigits w acc (digits w n ++ rest) = some (acc * 10 ^ w + n % 10 ^ w, rest) := by
  induction w generalizing acc with
  | zero => simp [scanDigits, digits, Nat.mod_one]
  | succ w ih =>
    have hd : n / 10 ^ w % 10 < 10 := Nat.mod_lt _ (by norm_num)
    have hsplit : n % 10 ^ (w + 1) = n / 10 ^ w % 10 * 10 ^ w + n % 10 ^ w := by
      rw [pow_succ, Nat.mod_mul]
      ring
    rw [digits, List.cons_append, scanDigits, digitVal_digitChar hd]
    simp only [ih, hsplit]
    congr 2
    ring

/-! ## Order of equal-length blocks -/

theorem append_lt_append_iff {l₁ l₂ r₁ r₂ : List Char} (h : l₁.length = l₂.length) :
    l₁ ++ r₁ < l₂ ++ r₂ ↔ l₁ < l₂ ∨ l₁ = l₂ ∧ r₁ < r₂ := by
  induction l₁ generalizing l₂ with
  | nil =>
    cases l₂ with
    | nil => simp
    | cons b bs => simp at h
  | cons a as ih =>
    cases l₂ with
    | nil => simp at h
    | cons b bs =>
      have hlen : as.length = bs.length := by simpa using h
      simp only [List.cons_append, List.cons_lt_cons_iff, ih hlen, List.cons.injEq]
      tauto

theorem digits_lt_iff {w n m : Nat} (hn : n < 10 ^ w) (hm : m < 10 ^ w) :
    digits w n < digits w m ↔ n < m := by
  induction w generalizing n m with
  | zero =>
    have : n = 0 ∧ m = 0 := by simpa using And.intro hn hm
    simp [this, digits]
  | succ w ih =>
    have hpos : 0 < 10 ^ w := by positivity
    have hqn : n / 10 ^ w < 10 := Nat.div_lt_of_lt_mul (by rwa [pow_succ] at hn)
    have hqm : m / 10 ^ w < 10 := Nat.div_lt_of_lt_mul (by rwa [pow_succ] at hm)
    have hlow := ih (Nat.mod_lt n hpos) (Nat.mod_lt m hpos)
    rw [digits_mod, digits_mod] at hlow
    have heq : digitChar (n / 10 ^ w) = digitChar (m / 10 ^ w) ↔ n / 10 ^ w = m / 10 ^ w := by
      constructor
      · intro h
        have := congrArg Char.toNat h
        rw [toNat_digitChar hqn, toNat_digitChar hqm] at this
        omega
      · exact fun h => by rw [h]
    rw [digits, digits, Nat.mod_eq_of_lt hqn, Nat.mod_eq_of_lt hqm, List.cons_lt_cons_iff,
      digitChar_lt_iff hqn hqm, heq, hlow]
    -- compare quotients first, remainders on a tie
    have en := Nat.div_add_mod n (10 ^ w)
    have em := Nat.div_add_mod m (10 ^ w)
    have rn := Nat.mod_lt n hpos
    have rm := Nat.mod_lt m hpos
    constructor
    · rintro (hq | ⟨hq, hr⟩)
      · have : 10 ^ w * (n / 10 ^ w + 1) ≤ 10 ^ w * (m / 10 ^ w) := Nat.mul_le_mul_left _ hq
        rw [Nat.mul_add] at this
        omega
      · rw [hq] at en
        omega
    · intro hlt
      have hle : n / 10 ^ w ≤ m / 10 ^ w := Nat.div_le_div_right hlt.le
      rcases hle.lt_or_eq with hq | hq
      · exact Or.inl hq
      · refine Or.inr ⟨hq, ?_⟩
        rw [hq] at en
        omega

theorem digits_inj {w n m : Nat} (hn : n < 10 ^ w) (hm : m < 10 ^ w)
    (h : digits w n = digits w m) : n = m := by
  have hnm : ¬ n < m := fun hlt => absurd h (ne_of_lt ((digits_lt_iff hn hm).mpr hlt))
  have hmn : ¬ m < n := fun hlt => absurd h.symm (ne_of_lt ((digits_lt_iff hm hn).mpr hlt))
  omega

/-! ## Records of fields -/

/-- A layout: for each field its width and the character written after it. -/
abbrev Layout := List (Nat × Char)

/-- Write the field values under a layout. -/
def render : Layout → List Nat → List Char
  | (w, sep) :: ls, v :: vs => digits w v ++ sep :: render ls vs
  | _, _ => []

/-- Read a text under a layout; the separators must be there and nothing may follow. -/
def scan : Layout → List Char → Option (List Nat)
  | [], [] => some []
  | [], _ :: _ => none
  | (w, sep) :: ls, cs =>
    match scanDigits w 0 cs with
    | some (v, c :: rest) => if c = sep then (scan ls rest).map (v :: ·) else none
    | _ => none

/-- The values fit the widths of the layout. -/
def Fits : Layout → List Nat → Prop
  | [], [] => True
  | (w, _) :: ls, v :: vs => v < 10 ^ w ∧ Fits ls vs
  | _, _ => False

theorem scan_render {ls : Layout} {vs : List Nat} (h : Fits ls vs) :
    scan ls (render ls vs) = some vs := by
  induction ls generalizing vs with
  | nil =>
    cases vs with
    | nil => rfl
    | cons v vs => exact h.elim
  | cons l ls ih =>
    cases vs with
    | nil => exact h.elim
    | cons v vs =>
      obtain ⟨hv, hvs⟩ := h
      simp [scan, render, scanDigits_digits, Nat.mod_eq_of_lt hv, ih hvs]

/-- A rendered record consists of digits and of the separators of its layout. -/
theorem mem_render {ls : Layout} {vs : List Nat} {c : Char} (h : c ∈ render ls vs) :
    (digitVal c).isSome ∨ c ∈ ls.map Prod.snd := by
  have hdigit : ∀ w n, c ∈ digits w n → (digitVal c).isSome := by
    intro w n hc
    induction w with
    | zero => exact nomatch hc
    | succ w ih =>
      rcases List.mem_cons.mp hc with rfl | hc
      · rw [digitVal_digitChar (Nat.mod_lt _ (by norm_num))]
        rfl
      · exact ih hc
  induction ls generalizing vs with
  | nil => exact nomatch h
  | cons l ls ih =>
    cases vs with
    | nil => exact nomatch h
    | cons v vs =>
      rcases List.mem_append.mp h with h | h
      · exact Or.inl (hdigit _ _ h)
      · rcases List.mem_cons.mp h with rfl | h
        · exact Or.inr (by simp)
        · exact (ih h).imp_right fun hc => by simpa using Or.inr (by simpa using hc)

/-- Textual order of two records of one layout is the lexicographic order of their values. -/
theorem render_lt_iff {ls : Layout} {vs ws : List Nat} (hv : Fits ls vs) (hw : Fits ls ws) :
    render ls vs < render ls ws ↔ vs < ws := by
  induction ls generalizing vs ws with
  | nil =>
    cases vs <;> cases ws <;> first | exact hv.elim | exact hw.elim | simp [render]
  | cons l ls ih =>
    cases vs with
    | nil => exact hv.elim
    | cons v vs =>
      cases ws with
      | nil => exact hw.elim
      | cons x ws =>
        obtain ⟨hv, hvs⟩ := hv
        obtain ⟨hx, hws⟩ := hw
        have heq : digits l.1 v = digits l.1 x ↔ v = x :=
          ⟨digits_inj hv hx, fun h => by rw [h]⟩
        simp only [render]
        rw [append_lt_append_iff (by simp), digits_lt_iff hv hx, heq, List.cons_lt_cons_iff,
          List.cons_lt_cons_iff, ih hvs hws]
        simp

end NanFung.FixedWidth
