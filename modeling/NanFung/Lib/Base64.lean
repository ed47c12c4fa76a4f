import Mathlib.Data.Bool.AllAny
import Mathlib.Tactic

/-!
# base64url without padding

Three bytes are written as four symbols of six bits, a rest of one or two bytes as two or three
symbols. Decoding drops the bits that fill up the last symbol, and a single symbol left over; so a
text is canonical when encoding what it decodes to gives it back.
-/

namespace NanFung.Base64

abbrev Bytes := List UInt8

/-! ## Symbols -/

def alphabet : List Char :=
  "ABCDEFGHIJKLMNOPQRSTUVWXYZabcdefghijklmnopqrstuvwxyz0123456789-_".toList

/-- The symbol of six bits. -/
def symbol (n : Nat) : Char := alphabet.getD n 'A'

/-- The six bits of a symbol. -/
def sextet (c : Char) : Nat := alphabet.idxOf c

theorem sextet_symbol {n : Nat} (h : n < 64) : sextet (symbol n) = n := by
  have hall : ∀ n < 64, sextet (symbol n) = n := by decide +kernel
  exact hall n h

theorem symbol_mem {n : Nat} (h : n < 64) : symbol n ∈ alphabet := by
  have hall : ((List.range 64).all fun n => symbol n ∈ alphabet) = true := by decide +kernel
  exact of_decide_eq_true (List.all_eq_true.mp hall n (List.mem_range.mpr h))

/-! ## Texts -/

/-- `buffer.toString("base64url")`. -/
def encode : Bytes → List Char
  | a :: b :: c :: rest =>
    symbol (a.toNat / 4) :: symbol (a.toNat % 4 * 16 + b.toNat / 16) ::
      symbol (b.toNat % 16 * 4 + c.toNat / 64) :: symbol (c.toNat % 64) :: encode rest
  | [a, b] =>
    [symbol (a.toNat / 4), symbol (a.toNat % 4 * 16 + b.toNat / 16), symbol (b.toNat % 16 * 4)]
  | [a] => [symbol (a.toNat / 4), symbol (a.toNat % 4 * 16)]
  | [] => []

/-- `Buffer.from(value, "base64url")`, for a text of symbols. -/
def decode : List Char → Bytes
  | p :: q :: r :: t :: rest =>
    UInt8.ofNat (sextet p * 4 + sextet q / 16) ::
      UInt8.ofNat (sextet q % 16 * 16 + sextet r / 4) ::
      UInt8.ofNat (sextet r % 4 * 64 + sextet t) :: decode rest
  | [p, q, r] =>
    [UInt8.ofNat (sextet p * 4 + sextet q / 16), UInt8.ofNat (sextet q % 16 * 16 + sextet r / 4)]
  | [p, q] => [UInt8.ofNat (sextet p * 4 + sextet q / 16)]
  | [_] => []
  | [] => []

theorem ofNat_eq {n : Nat} {a : UInt8} (h : n = a.toNat) : UInt8.ofNat n = a := by
  rw [h, UInt8.ofNat_toNat]

theorem decode_encode (bytes : Bytes) : decode (encode bytes) = bytes := by
  induction bytes using encode.induct with
  | case1 a b c rest ih =>
    have ha := a.toNat_lt
    have hb := b.toNat_lt
    have hc := c.toNat_lt
    rw [encode, decode, ih, sextet_symbol (by omega), sextet_symbol (by omega),
      sextet_symbol (by omega), sextet_symbol (by omega)]
    rw [ofNat_eq (a := a) (by omega), ofNat_eq (a := b) (by omega), ofNat_eq (a := c) (by omega)]
  | case2 a b =>
    have ha := a.toNat_lt
    have hb := b.toNat_lt
    rw [encode, decode, sextet_symbol (by omega), sextet_symbol (by omega),
      sextet_symbol (by omega)]
    rw [ofNat_eq (a := a) (by omega), ofNat_eq (a := b) (by omega)]
  | case3 a =>
    have ha := a.toNat_lt
    rw [encode, decode, sextet_symbol (by omega), sextet_symbol (by omega)]
    rw [ofNat_eq (a := a) (by omega)]
  | case4 => rfl

theorem encode_injective {a b : Bytes} (h : encode a = encode b) : a = b := by
  rw [← decode_encode a, h, decode_encode b]

theorem mem_alphabet_of_mem_encode (bytes : Bytes) : ∀ c ∈ encode bytes, c ∈ alphabet := by
  induction bytes using encode.induct with
  | case1 a b c rest ih =>
    have ha := a.toNat_lt
    have hb := b.toNat_lt
    have hc := c.toNat_lt
    rw [encode]
    simp only [List.forall_mem_cons]
    exact ⟨symbol_mem (by omega), symbol_mem (by omega), symbol_mem (by omega),
      symbol_mem (by omega), ih⟩
  | case2 a b =>
    have ha := a.toNat_lt
    have hb := b.toNat_lt
    rw [encode]
    simp only [List.forall_mem_cons]
    exact ⟨symbol_mem (by omega), symbol_mem (by omega), symbol_mem (by omega), nofun⟩
  | case3 a =>
    have ha := a.toNat_lt
    rw [encode]
    simp only [List.forall_mem_cons]
    exact ⟨symbol_mem (by omega), symbol_mem (by omega), nofun⟩
  | case4 => exact nofun

theorem dot_notMem_encode (bytes : Bytes) : '.' ∉ encode bytes := by
  intro hmem
  exact absurd (mem_alphabet_of_mem_encode bytes '.' hmem) (by decide)

/-- A text in its canonical form, read back. -/
def decodeCanonical (value : List Char) : Option Bytes :=
  if value ≠ [] ∧ (value.all fun c => c ∈ alphabet) = true then
    let decoded := decode value
    if encode decoded = value then some decoded else none
  else none

theorem encode_ne_nil {bytes : Bytes} (h : bytes ≠ []) : encode bytes ≠ [] := by
  intro hnil
  apply h
  rw [← decode_encode bytes, hnil]
  rfl

/-- The texts that are read back are the encodings of bytes. -/
theorem decodeCanonical_iff {value : List Char} {bytes : Bytes} :
    decodeCanonical value = some bytes ↔ bytes ≠ [] ∧ value = encode bytes := by
  unfold decodeCanonical
  constructor
  · intro h
    split at h
    · next hvalue =>
      dsimp only at h
      split at h
      · next hcanonical =>
        obtain rfl := Option.some.inj h
        refine ⟨fun hnil => hvalue.1 ?_, hcanonical.symm⟩
        rw [← hcanonical, hnil]
        rfl
      · exact nomatch h
    · exact nomatch h
  · intro ⟨hne, hvalue⟩
    have hall : (value.all fun c => c ∈ alphabet) = true := by
      rw [hvalue, List.all_eq_true]
      exact fun c hc => decide_eq_true (mem_alphabet_of_mem_encode bytes c hc)
    have hnil : value ≠ [] := hvalue ▸ encode_ne_nil hne
    rw [if_pos ⟨hnil, hall⟩]
    dsimp only
    rw [hvalue, decode_encode, if_pos rfl]

example : decodeCanonical "TWE".toList = some [77, 97] := by decide +kernel

example : decodeCanonical "TWF".toList = none := by decide +kernel

/-! ## Lenient decoding -/

/-- The symbol of a character, in either alphabet. -/
def symbol? (c : Char) : Option Char :=
  if c = '+' then some '-' else if c = '/' then some '_' else if c ∈ alphabet then some c else none

/-- The symbols that `binascii.a2b_base64` uses: it passes over other characters, ends at the padding
of a group, and fails at the end of a text inside a group. `pos` is the place in the group, `pads` the
number of signs of padding before. -/
def symbols : Nat → Nat → List Char → Option (List Char)
  | pos, _, [] => if pos = 0 then some [] else none
  | pos, pads, c :: text =>
    if c = '=' then
      if 2 ≤ pos then
        if 4 ≤ pos + (pads + 1) then some [] else symbols pos (pads + 1) text
      else symbols pos pads text
    else match symbol? c with
      | some d => (symbols ((pos + 1) % 4) 0 text).map (d :: ·)
      | none => symbols pos pads text

/-- `base64.urlsafe_b64decode(value + "=" * (-len(value) % 4))` -/
def urlsafeDecode (value : List Char) : Option Bytes :=
  (symbols 0 0 (value ++ List.replicate ((4 - value.length % 4) % 4) '=')).map decode

theorem symbol?_of_mem {c : Char} (h : c ∈ alphabet) : symbol? c = some c := by
  have hall : ∀ c ∈ alphabet, symbol? c = some c :=
    List.all_iff_forall_prop.mp (by decide +kernel)
  exact hall c h

theorem symbols_append {value text : List Char} (h : ∀ c ∈ value, c ∈ alphabet) (pos pads : Nat)
    (hpos : pos < 4) :
    symbols pos pads (value ++ text) =
      (symbols ((pos + value.length) % 4) (if value = [] then pads else 0) text).map (value ++ ·) := by
  induction value generalizing pos pads with
  | nil =>
    rw [List.length_nil, Nat.add_zero, Nat.mod_eq_of_lt hpos, if_pos rfl, List.nil_append]
    cases symbols pos pads text <;> rfl
  | cons c value ih =>
    obtain ⟨hc, hvalue⟩ := List.forall_mem_cons.mp h
    have hne : c ≠ '=' := by
      rintro rfl
      exact absurd hc (by decide)
    have hlength : ((pos + 1) % 4 + value.length) % 4 = (pos + (c :: value).length) % 4 := by
      rw [List.length_cons]
      omega
    rw [List.cons_append, symbols, if_neg hne, symbol?_of_mem hc]
    simp only [ih hvalue _ _ (Nat.mod_lt _ (by decide)), hlength, if_neg (List.cons_ne_nil c value),
      ite_self, Option.map_map]
    rfl

theorem symbols_padding {pos : Nat} (hpos : pos < 4) :
    symbols pos 0 (List.replicate ((4 - pos) % 4) '=') = if pos = 1 then none else some [] := by
  interval_cases pos <;> rfl

/-- A text of symbols is decoded unless a symbol is left over. -/
theorem urlsafeDecode_eq {value : List Char} (h : ∀ c ∈ value, c ∈ alphabet) :
    urlsafeDecode value = if value.length % 4 = 1 then none else some (decode value) := by
  rw [urlsafeDecode, symbols_append h 0 0 (by decide), Nat.zero_add, ite_self,
    symbols_padding (Nat.mod_lt _ (by decide))]
  split
  · rfl
  · rw [Option.map_some, Option.map_some, List.append_nil]

theorem length_encode_mod (bytes : Bytes) : (encode bytes).length % 4 ≠ 1 := by
  induction bytes using encode.induct with
  | case1 a b c rest ih =>
    rw [encode]
    simp only [List.length_cons]
    omega
  | case2 a b => exact (by decide : 3 % 4 ≠ 1)
  | case3 a => exact (by decide : 2 % 4 ≠ 1)
  | case4 => exact (by decide : 0 % 4 ≠ 1)

theorem urlsafeDecode_encode (bytes : Bytes) : urlsafeDecode (encode bytes) = some bytes := by
  rw [urlsafeDecode_eq (mem_alphabet_of_mem_encode bytes), if_neg (length_encode_mod bytes),
    decode_encode]

-- the last symbol has bits that no byte holds
example : urlsafeDecode "TWF".toList = urlsafeDecode "TWE".toList := by decide +kernel

end NanFung.Base64
