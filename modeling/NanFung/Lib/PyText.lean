import Mathlib.Tactic

/-!
# Python strings

A Python string is a sequence of code points, of which surrogates are no characters. A string without
them has an encoding.
-/

namespace NanFung

/-- A code point of a Python string. -/
inductive PyChar where
  | char (c : Char)
  | surrogate (n : Fin 2048)
  deriving DecidableEq, Repr

abbrev PyText : Type := List PyChar

instance PyText.lawfulBEq : LawfulBEq PyText := inferInstance

/-- `ord` -/
def PyChar.code : PyChar → Nat
  | .char c => c.toNat
  | .surrogate n => 0xD800 + n.val

namespace PyText

/-- Strings compare by their code points. -/
def Before (a b : PyText) : Prop := a.map PyChar.code < b.map PyChar.code

instance (a b : PyText) : Decidable (Before a b) := inferInstanceAs (Decidable (_ < _))

def ofChars (s : List Char) : PyText := s.map .char

def ofString (s : String) : PyText := ofChars s.toList

/-- The characters, if no code point is a surrogate: what `encode("utf-8")` can encode. -/
def chars? : PyText → Option (List Char)
  | [] => some []
  | .char c :: s => (chars? s).map (c :: ·)
  | .surrogate _ :: _ => none

def IsAscii (s : List Char) : Prop := ∀ c ∈ s, c.toNat < 128

instance (s : List Char) : Decidable (IsAscii s) := List.decidableBAll _ s

/-- The characters, if `encode("ascii")` can encode them. -/
def ascii? (s : PyText) : Option (List Char) := (chars? s).filter fun s => IsAscii s

/-- `text.encode("utf-8")` -/
def utf8Encode (s : List Char) : List UInt8 := (String.ofList s).toUTF8.data.toList

/-- `bytes.decode("utf-8")` -/
def utf8Decode (bytes : List UInt8) : Option (List Char) :=
  (String.fromUTF8? ⟨bytes.toArray⟩).map String.toList

variable {s t : List Char} {text a b : PyText}

theorem utf8Decode_encode (s : List Char) : utf8Decode (utf8Encode s) = some s := by
  have harray : (⟨(utf8Encode s).toArray⟩ : ByteArray) = (String.ofList s).toUTF8 := by
    rw [utf8Encode, Array.toArray_toList]
  have hvalid : ((String.ofList s).toUTF8).IsValidUTF8 := (String.ofList s).isValidUTF8
  rw [utf8Decode, harray, String.fromUTF8?, dif_pos hvalid, Option.map_some]
  exact congrArg some (String.toList_ofList)

theorem utf8Encode_injective (h : utf8Encode s = utf8Encode t) : s = t := by
  have hdecode := utf8Decode_encode s
  rw [h, utf8Decode_encode] at hdecode
  exact (Option.some.inj hdecode).symm

theorem utf8Encode_eq (s : List Char) : utf8Encode s = s.flatMap String.utf8EncodeChar := by
  have hbytes : (String.ofList s).toUTF8 = s.utf8Encode := String.toByteArray_ofList
  rw [utf8Encode, hbytes, List.utf8Encode, List.toList_data_toByteArray]

/-- A character of ASCII takes one byte. -/
theorem length_utf8Encode (h : IsAscii s) : (utf8Encode s).length = s.length := by
  rw [utf8Encode_eq, List.length_flatMap]
  induction s with
  | nil => rfl
  | cons c s ih =>
    obtain ⟨hc, hs⟩ := List.forall_mem_cons.mp h
    have hsize : c.utf8Size = 1 := Char.utf8Size_eq_one_iff.mpr (Nat.le_of_lt_succ hc)
    rw [List.map_cons, List.sum_cons, String.length_utf8EncodeChar, hsize, ih hs, List.length_cons,
      Nat.add_comm]

theorem length_le_utf8Encode (s : List Char) : s.length ≤ (utf8Encode s).length := by
  rw [utf8Encode_eq, List.length_flatMap]
  induction s with
  | nil => exact le_rfl
  | cons c s ih =>
    have hsize : 0 < c.utf8Size := c.utf8Size_pos
    rw [List.map_cons, List.sum_cons, String.length_utf8EncodeChar, List.length_cons]
    omega

theorem chars?_ofChars (s : List Char) : chars? (ofChars s) = some s := by
  induction s with
  | nil => rfl
  | cons c s ih =>
    rw [ofChars, List.map_cons, chars?, ← ofChars, ih]
    rfl

theorem chars?_eq_some : chars? text = some s ↔ text = ofChars s := by
  constructor
  · intro h
    induction text generalizing s with
    | nil =>
      obtain rfl := Option.some.inj h
      rfl
    | cons c text ih =>
      cases c with
      | char c =>
        obtain ⟨t, ht, rfl⟩ := Option.map_eq_some_iff.mp h
        rw [ih ht]
        rfl
      | surrogate n => exact nomatch h
  · rintro rfl
    exact chars?_ofChars s

/-- A string without surrogates is encoded, any other is not. -/
theorem chars?_isSome : (chars? text).isSome ↔ ∀ n, .surrogate n ∉ text := by
  induction text with
  | nil => simp [chars?]
  | cons c text ih =>
    cases c with
    | char c => simp [chars?, ih]
    | surrogate n =>
      simp only [chars?, Option.isSome_none, Bool.false_eq_true, false_iff, not_forall, not_not]
      exact ⟨n, List.mem_cons_self⟩

theorem ascii?_eq_some : ascii? text = some s ↔ text = ofChars s ∧ IsAscii s := by
  rw [ascii?, Option.filter_eq_some_iff, chars?_eq_some, decide_eq_true_eq]

theorem mem_ofChars {c : Char} : .char c ∈ ofChars s ↔ c ∈ s := by
  rw [ofChars, List.mem_map]
  constructor
  · rintro ⟨d, hd, heq⟩
    exact PyChar.char.inj heq ▸ hd
  · exact fun hc => ⟨c, hc, rfl⟩

theorem ascii?_isSome : (ascii? text).isSome ↔ ∀ c ∈ text, c.code < 128 := by
  rw [Option.isSome_iff_exists]
  constructor
  · rintro ⟨s, hs⟩ c hc
    obtain ⟨rfl, hascii⟩ := ascii?_eq_some.mp hs
    obtain ⟨d, hd, rfl⟩ := List.mem_map.mp hc
    exact hascii d hd
  · intro h
    have hchars : ∀ n, .surrogate n ∉ text := by
      intro n hn
      have : 0xD800 + n.val < 128 := h _ hn
      omega
    obtain ⟨s, hs⟩ := Option.isSome_iff_exists.mp (chars?_isSome.mpr hchars)
    rw [chars?_eq_some] at hs
    refine ⟨s, ascii?_eq_some.mpr ⟨hs, fun c hc => ?_⟩⟩
    exact h (.char c) (hs ▸ mem_ofChars.mpr hc)

theorem ofChars_injective (h : ofChars s = ofChars t) : s = t := by
  have := chars?_ofChars s
  rw [h, chars?_ofChars] at this
  exact (Option.some.inj this).symm

@[simp] theorem ofChars_append : ofChars (s ++ t) = ofChars s ++ ofChars t := List.map_append

@[simp] theorem ofChars_cons {c : Char} : ofChars (c :: s) = .char c :: ofChars s := rfl

/-! ## Splitting -/

/-- `text.split(sep)` -/
def split (sep : Char) (text : PyText) : List PyText := text.splitOn (.char sep)

theorem mem_split {sep : Char} (h : a ∈ text.split sep) : .char sep ∉ a := by
  induction text generalizing a with
  | nil =>
    obtain rfl := List.mem_singleton.mp h
    exact List.not_mem_nil
  | cons c text ih =>
    rw [split, List.splitOn_cons_eq_if_modifyHead] at h
    split at h
    · rcases List.mem_cons.mp h with rfl | h
      · exact List.not_mem_nil
      · exact ih h
    · next hc =>
      obtain ⟨head, tail, hsplit⟩ := List.exists_cons_of_ne_nil
        (List.splitOn_ne_nil (.char sep) text)
      rw [hsplit, List.modifyHead_cons] at h
      have hmem : ∀ b ∈ head :: tail, .char sep ∉ b := fun b hb => ih (by rw [split, hsplit]; exact hb)
      rcases List.mem_cons.mp h with rfl | h
      · rw [List.mem_cons, not_or]
        exact ⟨fun heq => hc (beq_iff_eq.mpr heq.symm), hmem head List.mem_cons_self⟩
      · exact hmem a (List.mem_cons_of_mem _ h)

/-- The parts are those of a text that is joined by the separator. -/
theorem split_eq_iff {sep : Char} {parts : List PyText} (hparts : parts ≠ []) :
    text.split sep = parts ↔
      [.char sep].intercalate parts = text ∧ ∀ part ∈ parts, .char sep ∉ part := by
  constructor
  · rintro rfl
    exact ⟨List.intercalate_splitOn _, fun part hpart => mem_split hpart⟩
  · rintro ⟨rfl, hsep⟩
    exact List.splitOn_intercalate _ hsep hparts

end PyText

end NanFung
