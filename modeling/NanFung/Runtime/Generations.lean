import NanFung.Lib.Base64

/-!
# Session ids

An id is a tag and a nonce, each sixteen bytes in base64url, with a dot between them. The tag is
computed from the nonce with the key of the generation, so a registry knows its own ids without a
list of them, and tells the ids of an earlier generation from other strings.
-/

namespace NanFung.Runtime

open Base64

/-- `hashBearer` and `generationTag`, which come from the cryptographic library. -/
structure Crypto where
  hashBearer : String → String
  generationTag : Bytes → Bytes → Bytes
  generationTag_length : ∀ key nonce, (generationTag key nonce).length = 16

/-- The text of an id. -/
def idText (tag nonce : Bytes) : String := String.ofList (encode tag ++ '.' :: encode nonce)

/-- The tag and the nonce of an id, if both are there. -/
def parseId (id : String) : Option (Bytes × Bytes) :=
  match id.toList.splitOn '.' with
  | [first, second] =>
    match decodeCanonical first, decodeCanonical second with
    | some tag, some nonce =>
      if tag.length = 16 ∧ nonce.length = 16 then some (tag, nonce) else none
    | _, _ => none
  | _ => none

variable (crypto : Crypto) (key : Bytes)

/-- The id that `createSession` makes of the nonce. -/
def mintId (nonce : Bytes) : String := idText (crypto.generationTag key nonce) nonce

/-- `#isCurrentGenerationId` -/
def isCurrentGenerationId (id : String) : Bool :=
  match parseId id with
  | some (tag, nonce) => tag = crypto.generationTag key nonce
  | none => false

/-- `isPreRestartId` -/
def isPreRestartId (id : String) : Bool :=
  match parseId id with
  | some (tag, nonce) => !decide (tag = crypto.generationTag key nonce)
  | none => false

/-- A string with the form of an id. -/
def WellFormedId (id : String) : Prop :=
  ∃ tag nonce : Bytes, tag.length = 16 ∧ nonce.length = 16 ∧ id = idText tag nonce

/-! ## Reading an id -/

theorem dot_not_mem_encode (bytes : Bytes) : '.' ∉ encode bytes := by
  intro h
  have hdot : '.' ∉ alphabet := by decide +kernel
  exact hdot (mem_alphabet_of_mem_encode bytes _ h)

theorem splitOn_idText (tag nonce : Bytes) :
    (idText tag nonce).toList.splitOn '.' = [encode tag, encode nonce] := by
  rw [idText, String.toList_ofList,
    List.splitOn_append_cons_self_of_not_mem (dot_not_mem_encode tag),
    List.splitOn_eq_singleton (dot_not_mem_encode nonce)]

theorem ne_nil_of_length {bytes : Bytes} (h : bytes.length = 16) : bytes ≠ [] := by
  intro hnil
  rw [hnil] at h
  exact nomatch h

/-- What is read is what was written. -/
theorem parseId_iff {id : String} {tag nonce : Bytes} :
    parseId id = some (tag, nonce) ↔
      tag.length = 16 ∧ nonce.length = 16 ∧ id = idText tag nonce := by
  constructor
  · intro h
    unfold parseId at h
    split at h
    · next first second hsplit =>
      split at h
      · next tag' nonce' htag hnonce =>
        split at h
        · next hlength =>
          obtain ⟨rfl, rfl⟩ := Prod.mk.inj (Option.some.inj h)
          refine ⟨hlength.1, hlength.2, ?_⟩
          apply String.toList_injective
          have hid : List.intercalate ['.'] (id.toList.splitOn '.') = id.toList :=
            List.intercalate_splitOn '.'
          rw [hsplit, (decodeCanonical_iff.mp htag).2, (decodeCanonical_iff.mp hnonce).2] at hid
          rw [idText, String.toList_ofList, ← hid]
          simp [List.intercalate, List.intersperse]
        · exact nomatch h
      · exact nomatch h
    · exact nomatch h
  · intro ⟨htag, hnonce, hid⟩
    have hfirst : decodeCanonical (encode tag) = some tag :=
      decodeCanonical_iff.mpr ⟨ne_nil_of_length htag, rfl⟩
    have hsecond : decodeCanonical (encode nonce) = some nonce :=
      decodeCanonical_iff.mpr ⟨ne_nil_of_length hnonce, rfl⟩
    unfold parseId
    rw [hid, splitOn_idText]
    dsimp only
    rw [hfirst, hsecond]
    exact if_pos ⟨htag, hnonce⟩

theorem wellFormedId_iff {id : String} : WellFormedId id ↔ (parseId id).isSome := by
  constructor
  · intro ⟨tag, nonce, h⟩
    rw [parseId_iff.mpr h]
    rfl
  · intro h
    obtain ⟨⟨tag, nonce⟩, h⟩ := Option.isSome_iff_exists.mp h
    exact ⟨tag, nonce, parseId_iff.mp h⟩

/-! ## The classes of strings -/

variable {crypto key}

theorem parseId_mintId {nonce : Bytes} (h : nonce.length = 16) :
    parseId (mintId crypto key nonce) = some (crypto.generationTag key nonce, nonce) :=
  parseId_iff.mpr ⟨crypto.generationTag_length key nonce, h, rfl⟩

/-- The ids of the current generation are those that a registry with the key mints. -/
theorem isCurrentGenerationId_iff {id : String} :
    isCurrentGenerationId crypto key id = true ↔
      ∃ nonce : Bytes, nonce.length = 16 ∧ id = mintId crypto key nonce := by
  unfold isCurrentGenerationId
  constructor
  · intro h
    split at h
    · next tag nonce hparse =>
      obtain ⟨-, hnonce, hid⟩ := parseId_iff.mp hparse
      exact ⟨nonce, hnonce, by rw [hid, of_decide_eq_true h, mintId]⟩
    · exact nomatch h
  · intro ⟨nonce, hnonce, hid⟩
    rw [hid, parseId_mintId hnonce]
    exact decide_eq_true rfl

/-- An id of another generation, whose key gives the nonce another tag, reads as one from before the
restart. -/
theorem isPreRestartId_mintId {key' nonce : Bytes} (hnonce : nonce.length = 16)
    (htag : crypto.generationTag key' nonce ≠ crypto.generationTag key nonce) :
    isPreRestartId crypto key (mintId crypto key' nonce) = true := by
  unfold isPreRestartId
  rw [parseId_mintId hnonce]
  show (!decide (_ = _)) = true
  rw [decide_eq_false htag]
  rfl

/-- The three classes of strings, of which every string is in exactly one. -/
structure InOneClass (crypto : Crypto) (key : Bytes) (id : String) : Prop where
  one : isCurrentGenerationId crypto key id = true ∧ isPreRestartId crypto key id = false ∧
        WellFormedId id ∨
      isCurrentGenerationId crypto key id = false ∧ isPreRestartId crypto key id = true ∧
        WellFormedId id ∨
      isCurrentGenerationId crypto key id = false ∧ isPreRestartId crypto key id = false ∧
        ¬ WellFormedId id
  current : isCurrentGenerationId crypto key id = true ↔
    ∃ nonce : Bytes, nonce.length = 16 ∧ id = mintId crypto key nonce

theorem inOneClass (crypto : Crypto) (key : Bytes) (id : String) : InOneClass crypto key id := by
  refine ⟨?_, isCurrentGenerationId_iff⟩
  rw [wellFormedId_iff]
  unfold isCurrentGenerationId isPreRestartId
  cases parseId id with
  | none => exact Or.inr (Or.inr ⟨rfl, rfl, nofun⟩)
  | some parts =>
    dsimp only
    by_cases htag : parts.1 = crypto.generationTag key parts.2
    · exact Or.inl ⟨decide_eq_true htag, by rw [decide_eq_true htag]; rfl, rfl⟩
    · exact Or.inr (Or.inl ⟨decide_eq_false htag, by rw [decide_eq_false htag]; rfl, rfl⟩)

end NanFung.Runtime
