import NanFung.Lib.JsonRead
import NanFung.Lib.PyText
import NanFung.Lib.Trees

/-!
# Citation locators

`_safe_locator`: the copy of a locator without its unsafe members. `None` is both a leaf that is copied
and the sign of a value that is refused, so a null passes where any other leaf lies too deep.
-/

namespace NanFung

open PyText

/-- A value without items or members; a float is carried by its `repr`. -/
inductive Scalar where
  | null
  | bool (b : Bool)
  | int (i : Int)
  | float (text : String)
  | str (s : PyText)
  deriving DecidableEq, Repr

/-- What `json.loads` returns. -/
abbrev LocatorValue : Type := Tree PyText Scalar

/-- `MAX_LOCATOR_BYTES` -/
def maxLocatorBytes : Nat := 16384

/-- `MAX_LOCATOR_DEPTH` -/
def maxLocatorDepth : Nat := 8

/-- `MAX_LOCATOR_ITEMS` -/
def maxLocatorItems : Nat := 100

/-- `MAX_LOCATOR_STRING_CHARS` -/
def maxLocatorStringChars : Nat := 512

/-- `_UNSAFE_LOCATOR_KEYS` -/
def unsafeLocatorKeys : List String :=
  ["artifact", "artifact_uri", "authorization", "body", "bytes", "content", "cookie", "cookies",
    "excerpt", "header", "headers", "html", "path", "payload", "raw", "request", "response",
    "source_url", "text", "token", "uri", "url"]

namespace LocatorValue

/-- `value is None` -/
def isNone : LocatorValue → Bool
  | .leaf .null => true
  | _ => false

/-! ## Encoding -/

/-- A scalar as `json.dumps` writes it, if its text can be encoded and its integer be written. -/
def scalarJson? : Scalar → Option Json
  | .null => some .null
  | .bool b => some (.bool b)
  | .int i => if i.natAbs.repr.toList.length ≤ 4300 then some (.int i) else none
  | .float text => some (.float text)
  | .str s => (chars? s).map fun s => .str (String.ofList s)

mutual

def json? : LocatorValue → Option Json
  | .leaf l => scalarJson? l
  | .list items => (jsonItems? items).map .arr
  | .map members => (jsonMembers? members).map .obj

def jsonItems? : List LocatorValue → Option (List Json)
  | [] => some []
  | x :: xs => do
    let v ← json? x
    let vs ← jsonItems? xs
    some (v :: vs)

def jsonMembers? : List (PyText × LocatorValue) → Option (List (String × Json))
  | [] => some []
  | (k, x) :: ms => do
    let key ← chars? k
    let v ← json? x
    let vs ← jsonMembers? ms
    some ((String.ofList key, v) :: vs)

end

/-- The length of the value as it is encoded, if it can be. -/
def encodedLength? (v : LocatorValue) : Option Nat := (json? v).map fun j => (utf8Encode j.render).length

end LocatorValue

open LocatorValue

section

-- `lower` is `str.lower`
variable (lower : PyText → PyText)

/-- The key, however it is written, is one that a locator must not have. -/
def unsafeLocatorKey (key : PyText) : Bool :=
  lower key ∈ unsafeLocatorKeys.map ofString ∨ ofString "_url" <:+ lower key

/-- A leaf as it is copied, or `None`. -/
def safeScalar : Scalar → LocatorValue
  | .str s =>
    if maxLocatorStringChars < s.length ∨ .char '\x00' ∈ s then .leaf .null else .leaf (.str s)
  | .float text =>
    if text ∈ ["inf", "-inf", "nan"] then .leaf .null else .leaf (.float text)
  | l => .leaf l

mutual

/-- `_safe_locator_value` -/
def safeLocatorValue (depth : Nat) : LocatorValue → LocatorValue
  | .leaf l => if maxLocatorDepth < depth then .leaf .null else safeScalar l
  | .list items =>
    if maxLocatorDepth < depth ∨ maxLocatorItems < items.length then .leaf .null
    else match safeLocatorItems depth items with
      | some copied => .list copied
      | none => .leaf .null
  | .map members =>
    if maxLocatorDepth < depth ∨ maxLocatorItems < members.length then .leaf .null
    else match safeLocatorMembers depth members with
      | some copied => .map copied
      | none => .leaf .null

def safeLocatorItems (depth : Nat) : List LocatorValue → Option (List LocatorValue)
  | [] => some []
  | item :: items =>
    let nested := safeLocatorValue (depth + 1) item
    if nested.isNone ∧ ¬ item.isNone then none
    else (safeLocatorItems depth items).map (nested :: ·)

def safeLocatorMembers (depth : Nat) :
    List (PyText × LocatorValue) → Option (List (PyText × LocatorValue))
  | [] => some []
  | (key, item) :: members =>
    if key = [] ∨ maxLocatorStringChars < key.length then none
    -- the position stays, without the member
    else if unsafeLocatorKey lower key then safeLocatorMembers depth members
    else
      let nested := safeLocatorValue (depth + 1) item
      if nested.isNone ∧ ¬ item.isNone then none
      else (safeLocatorMembers depth members).map ((key, nested) :: ·)

end

/-- `_safe_locator` -/
def safeLocator : LocatorValue → Option LocatorValue
  | .map [] => none
  | .map members =>
    match safeLocatorValue lower 0 (.map members) with
    | .map [] => none
    | .map copied =>
      match encodedLength? (.map copied) with
      | some n => if n ≤ maxLocatorBytes then some (.map copied) else none
      | none => none
    | _ => none
  | _ => none

/-- The locator that `CitationProjection.__post_init__` keeps, or its `InvalidReadRequest`. -/
def projectedLocator (locator : LocatorValue) : Except String LocatorValue :=
  match safeLocator lower locator with
  | some locator => .ok locator
  | none => .error "citation locator is not safely bounded"

end

/-! ## What is copied -/

section

variable {lower : PyText → PyText} {v out : LocatorValue} {d : Nat}

/-- The key is neither empty nor too long. -/
def KeyFits (key : PyText) : Prop := key ≠ [] ∧ key.length ≤ maxLocatorStringChars

/-- The text is not too long, and the number is finite. -/
def ScalarFits : Scalar → Prop
  | .str s => s.length ≤ maxLocatorStringChars ∧ .char '\x00' ∉ s
  | .float text => text ∉ ["inf", "-inf", "nan"]
  | _ => True

/-- The bounds on one value and on the keys of its members. -/
def NodeFits : LocatorValue → Prop
  | .leaf l => ScalarFits l
  | .list items => items.length ≤ maxLocatorItems
  | .map members => members.length ≤ maxLocatorItems ∧ ∀ m ∈ members, KeyFits m.1

/-- A value that is copied where it stands: within the bounds, or a null. -/
def Copies (d : Nat) (u : LocatorValue) : Prop :=
  u.isNone = true ∨ d ≤ maxLocatorDepth ∧ NodeFits u

/-- Every value below that is not dropped is copied. -/
def Acceptable (lower : PyText → PyText) (d : Nat) (v : LocatorValue) : Prop :=
  Tree.Every (unsafeLocatorKey lower) Copies d v

/-- The value without its unsafe members. -/
def LocatorValue.safePart (lower : PyText → PyText) (v : LocatorValue) : LocatorValue :=
  v.prune (unsafeLocatorKey lower)

theorem safeScalar_eq (l : Scalar) :
    ScalarFits l ∧ safeScalar l = .leaf l ∨ ¬ ScalarFits l ∧ safeScalar l = .leaf .null := by
  cases l with
  | str s =>
    rw [safeScalar, ScalarFits]
    split
    · next h =>
      refine Or.inr ⟨fun hfits => ?_, rfl⟩
      rcases h with h | h
      · exact absurd hfits.1 (not_le.mpr h)
      · exact hfits.2 h
    · next h =>
      rw [not_or, not_lt] at h
      exact Or.inl ⟨h, rfl⟩
  | float text =>
    rw [safeScalar, ScalarFits]
    split
    · next h => exact Or.inr ⟨fun hfits => hfits h, rfl⟩
    · next h => exact Or.inl ⟨h, rfl⟩
  | null | bool | int => exact Or.inl ⟨trivial, rfl⟩

theorem isNone_safePart : (v.safePart lower).isNone = v.isNone := by
  cases v with
  | leaf l => rfl
  | list items => rw [LocatorValue.safePart, Tree.prune]; rfl
  | map members => rw [LocatorValue.safePart, Tree.prune]; rfl

theorem acceptable_null : Acceptable lower d (.leaf .null) :=
  Tree.every_leaf.mpr (Or.inl rfl)

/-- The copy is the safe part of an acceptable value, and `None` for any other. -/
def CopiesRight (lower : PyText → PyText) (d : Nat) (v : LocatorValue) : Prop :=
  (Acceptable lower d v → safeLocatorValue lower d v = v.safePart lower) ∧
    (¬ Acceptable lower d v → safeLocatorValue lower d v = .leaf .null)

/-- The test on what is nested refuses exactly what is not acceptable. -/
theorem CopiesRight.refused (h : CopiesRight lower d v) :
    ((safeLocatorValue lower d v).isNone = true ∧ ¬ v.isNone = true) ↔ ¬ Acceptable lower d v := by
  by_cases ha : Acceptable lower d v
  · rw [h.1 ha, isNone_safePart]
    exact iff_of_false (fun hn => hn.2 hn.1) (not_not.mpr ha)
  · rw [h.2 ha]
    refine iff_of_true ⟨rfl, fun hnone => ha ?_⟩ ha
    cases v with
    | leaf l =>
      cases l with
      | null => exact acceptable_null
      | bool | int | float | str => exact nomatch hnone
    | list | map => exact nomatch hnone

theorem safeLocatorItems_eq {items : List LocatorValue}
    (h : ∀ x ∈ items, CopiesRight lower (d + 1) x) :
    ((∀ x ∈ items, Acceptable lower (d + 1) x) → safeLocatorItems lower d items =
        some (Tree.pruneItems (unsafeLocatorKey lower) items)) ∧
      (¬ (∀ x ∈ items, Acceptable lower (d + 1) x) → safeLocatorItems lower d items = none) := by
  induction items with
  | nil => exact ⟨fun _ => rfl, fun hnot => absurd (fun x hx => nomatch hx) hnot⟩
  | cons item items ih =>
    obtain ⟨hitem, hitems⟩ := List.forall_mem_cons.mp h
    obtain ⟨hall, hsome⟩ := ih hitems
    rw [List.forall_mem_cons, safeLocatorItems]
    by_cases ha : Acceptable lower (d + 1) item
    · rw [if_neg (fun hn => hitem.refused.mp hn ha), hitem.1 ha]
      constructor
      · intro hacc
        rw [hall hacc.2]
        rfl
      · intro hnot
        rw [hsome fun hrest => hnot ⟨ha, hrest⟩]
        rfl
    · rw [if_pos (hitem.refused.mpr ha)]
      exact ⟨fun hacc => absurd hacc.1 ha, fun _ => rfl⟩

/-- What a member has to be for the others to be copied. -/
def MemberCopies (lower : PyText → PyText) (d : Nat) (m : PyText × LocatorValue) : Prop :=
  KeyFits m.1 ∧ (unsafeLocatorKey lower m.1 = false → Acceptable lower (d + 1) m.2)

theorem safeLocatorMembers_eq {members : List (PyText × LocatorValue)}
    (h : ∀ m ∈ members, CopiesRight lower (d + 1) m.2) :
    ((∀ m ∈ members, MemberCopies lower d m) → safeLocatorMembers lower d members =
        some (Tree.pruneMembers (unsafeLocatorKey lower) members)) ∧
      (¬ (∀ m ∈ members, MemberCopies lower d m) → safeLocatorMembers lower d members = none) := by
  induction members with
  | nil => exact ⟨fun _ => rfl, fun hnot => absurd (fun m hm => by cases hm) hnot⟩
  | cons m members ih =>
    obtain ⟨hm, hmembers⟩ := List.forall_mem_cons.mp h
    obtain ⟨hall, hsome⟩ := ih hmembers
    obtain ⟨key, item⟩ := m
    rw [List.forall_mem_cons, safeLocatorMembers, Tree.pruneMembers]
    by_cases hkey : KeyFits key
    · have hfits : ¬ (key = [] ∨ maxLocatorStringChars < key.length) := by
        rw [not_or, not_lt]
        exact hkey
      rw [if_neg hfits]
      cases hunsafe : unsafeLocatorKey lower key with
      | true =>
        rw [if_pos rfl, if_pos rfl]
        have hcopies : MemberCopies lower d (key, item) :=
          ⟨hkey, fun hsafe => (by cases hunsafe.symm.trans hsafe)⟩
        exact ⟨fun hacc => hall hacc.2, fun hnot => hsome fun hrest => hnot ⟨hcopies, hrest⟩⟩
      | false =>
        rw [if_neg Bool.false_ne_true, if_neg Bool.false_ne_true]
        by_cases ha : Acceptable lower (d + 1) item
        · have hcopies : MemberCopies lower d (key, item) := ⟨hkey, fun _ => ha⟩
          rw [if_neg (fun hn => hm.refused.mp hn ha), hm.1 ha]
          constructor
          · intro hacc
            rw [hall hacc.2]
            rfl
          · intro hnot
            rw [hsome fun hrest => hnot ⟨hcopies, hrest⟩]
            rfl
        · rw [if_pos (hm.refused.mpr ha)]
          exact ⟨fun hacc => absurd (hacc.1.2 hunsafe) ha, fun _ => rfl⟩
    · have hfits : key = [] ∨ maxLocatorStringChars < key.length := by
        rw [KeyFits, not_and_or, not_not, not_le] at hkey
        exact hkey
      rw [if_pos hfits]
      exact ⟨fun hacc => absurd hacc.1.1 hkey, fun _ => rfl⟩

theorem safeLocatorValue_eq (v : LocatorValue) : ∀ d, CopiesRight lower d v := by
  induction v using Tree.induction with
  | leaf l =>
    intro d
    have hleaf : safeLocatorValue lower d (.leaf l) =
        if maxLocatorDepth < d then .leaf .null else safeScalar l := by
      rw [safeLocatorValue]
    rw [CopiesRight, Acceptable, Tree.every_leaf, Copies, hleaf, LocatorValue.safePart, Tree.prune]
    by_cases hdepth : d ≤ maxLocatorDepth
    · rw [if_neg (not_lt.mpr hdepth)]
      rcases safeScalar_eq l with ⟨hfits, heq⟩ | ⟨hfits, heq⟩
      · exact ⟨fun _ => heq, fun hnot => absurd (Or.inr ⟨hdepth, hfits⟩) hnot⟩
      · refine ⟨?_, fun _ => heq⟩
        rintro (hnone | ⟨-, h⟩)
        · cases l with
          | null => exact rfl
          | bool | int | float | str => cases hnone
        · exact absurd h hfits
    · rw [if_pos (not_le.mp hdepth)]
      refine ⟨?_, fun _ => rfl⟩
      rintro (hnone | ⟨h, -⟩)
      · cases l with
        | null => rfl
        | bool | int | float | str => cases hnone
      · exact absurd h hdepth
  | list items ih =>
    intro d
    obtain ⟨hall, hsome⟩ := safeLocatorItems_eq (fun x hx => ih x hx (d + 1))
    rw [CopiesRight, Acceptable, Tree.every_list, Copies, LocatorValue.safePart, Tree.prune,
      safeLocatorValue]
    by_cases hfits : d ≤ maxLocatorDepth ∧ items.length ≤ maxLocatorItems
    · have hbounds : ¬ (maxLocatorDepth < d ∨ maxLocatorItems < items.length) := by
        rw [not_or, not_lt, not_lt]
        exact hfits
      rw [if_neg hbounds]
      constructor
      · rintro ⟨-, hitems⟩
        rw [hall hitems]
      · intro hnot
        rw [hsome fun hitems => hnot ⟨Or.inr hfits, hitems⟩]
    · have hbounds : maxLocatorDepth < d ∨ maxLocatorItems < items.length := by
        rwa [not_and_or, not_le, not_le] at hfits
      rw [if_pos hbounds]
      refine ⟨?_, fun _ => rfl⟩
      rintro ⟨hroot | hroot, -⟩
      · cases hroot
      · exact absurd hroot hfits
  | map members ih =>
    intro d
    obtain ⟨hall, hsome⟩ := safeLocatorMembers_eq (fun m hm => ih m hm (d + 1))
    rw [CopiesRight, Acceptable, Tree.every_map, Copies, LocatorValue.safePart, Tree.prune,
      safeLocatorValue]
    by_cases hfits : d ≤ maxLocatorDepth ∧ members.length ≤ maxLocatorItems
    · have hbounds : ¬ (maxLocatorDepth < d ∨ maxLocatorItems < members.length) := by
        rw [not_or, not_lt, not_lt]
        exact hfits
      rw [if_neg hbounds]
      constructor
      · rintro ⟨hroot | hroot, hmembers⟩
        · cases hroot
        · rw [hall fun m hm => ⟨hroot.2.2 m hm, hmembers m hm⟩]
      · intro hnot
        rw [hsome fun hmembers => hnot ⟨Or.inr ⟨hfits.1, hfits.2, fun m hm => (hmembers m hm).1⟩,
          fun m hm => (hmembers m hm).2⟩]
    · have hbounds : maxLocatorDepth < d ∨ maxLocatorItems < members.length := by
        rwa [not_and_or, not_le, not_le] at hfits
      rw [if_pos hbounds]
      refine ⟨?_, fun _ => rfl⟩
      rintro ⟨hroot | hroot, -⟩
      · cases hroot
      · exact absurd ⟨hroot.1, hroot.2.1⟩ hfits

/-! ## Projections -/

/-- The value is an object with a member that is kept, within the bounds. -/
structure Admissible (lower : PyText → PyText) (v : LocatorValue) : Prop where
  object : ∃ members, v = .map members ∧ ∃ m ∈ members, unsafeLocatorKey lower m.1 = false
  acceptable : Acceptable lower 0 v
  size : ∃ n, encodedLength? (v.safePart lower) = some n ∧ n ≤ maxLocatorBytes

theorem pruneMembers_eq_nil {members : List (PyText × LocatorValue)} :
    Tree.pruneMembers (unsafeLocatorKey lower) members = [] ↔
      ∀ m ∈ members, unsafeLocatorKey lower m.1 = true := by
  rw [List.eq_nil_iff_forall_not_mem]
  constructor
  · intro h m hm
    by_contra hsafe
    exact h (m.1, m.2.prune _) (Tree.mem_pruneMembers.mpr ⟨Bool.eq_false_iff.mpr hsafe, m.2, hm, rfl⟩)
  · rintro h ⟨k, u⟩ hu
    obtain ⟨hk, x, hx, -⟩ := Tree.mem_pruneMembers.mp hu
    exact nomatch hk.symm.trans (h _ hx)

/-- What is returned is the safe part of an admissible value. -/
theorem safeLocator_eq_some : safeLocator lower v = some out ↔
    Admissible lower v ∧ out = v.safePart lower := by
  cases v with
  | leaf l =>
    refine iff_of_false (fun h => by cases h) ?_
    rintro ⟨⟨⟨members, heq, -⟩, -, -⟩, -⟩
    cases heq
  | list items =>
    refine iff_of_false (fun h => by cases h) ?_
    rintro ⟨⟨⟨members, heq, -⟩, -, -⟩, -⟩
    cases heq
  | map members =>
    have hpart : LocatorValue.safePart lower (.map members) =
        .map (Tree.pruneMembers (unsafeLocatorKey lower) members) := by
      rw [LocatorValue.safePart, Tree.prune]
    cases members with
    | nil =>
      refine iff_of_false (fun h => by cases h) ?_
      rintro ⟨⟨⟨members, heq, m, hm, -⟩, -, -⟩, -⟩
      obtain rfl := Tree.map.inj heq
      cases hm
    | cons m members =>
      obtain ⟨hcopy, hrefuse⟩ : CopiesRight lower 0 (.map (m :: members)) := safeLocatorValue_eq _ 0
      rw [safeLocator]
      swap
      · intro h
        cases h
      by_cases ha : Acceptable lower 0 (.map (m :: members))
      · rw [hcopy ha, hpart]
        cases hcopied : Tree.pruneMembers (unsafeLocatorKey lower) (m :: members) with
        | nil =>
          refine iff_of_false (fun h => by cases h) ?_
          rintro ⟨⟨⟨members', heq, n, hn, hsafe⟩, -, -⟩, -⟩
          obtain rfl := Tree.map.inj heq
          cases hsafe.symm.trans (pruneMembers_eq_nil.mp hcopied n hn)
        | cons c copied =>
          rw [hcopied] at hpart
          dsimp only
          have hkept : ∃ n ∈ m :: members, unsafeLocatorKey lower n.1 = false := by
            by_contra hnone
            push Not at hnone
            have hnil := pruneMembers_eq_nil.mpr fun n hn =>
              Bool.eq_true_of_not_eq_false (hnone n hn)
            cases hcopied.symm.trans hnil
          constructor
          · intro h
            split at h
            · next n hn =>
              split at h
              · next hle =>
                exact ⟨⟨⟨_, rfl, hkept⟩, ha, n, by rw [hpart]; exact hn, hle⟩, (Option.some.inj h).symm⟩
              · cases h
            · cases h
          · rintro ⟨⟨-, -, n, hn, hle⟩, rfl⟩
            rw [hpart] at hn
            rw [hn]
            exact if_pos hle
      · rw [hrefuse ha]
        exact iff_of_false (fun h => by cases h) fun h => ha h.1.acceptable

/-- What a projection owes to the value that it is made of. -/
structure SafelyProjected (lower : PyText → PyText) (v out : LocatorValue) : Prop where
  object : ∃ members, out = .map members ∧ members ≠ []
  keys : ∀ p u, out.At p u → ∀ k, Tree.Step.key k ∈ p → unsafeLocatorKey lower k = false ∧ KeyFits k
  depth : ∀ p u, out.At p u → p.length ≤ maxLocatorDepth
  bounds : ∀ p u, out.At p u → NodeFits u
  size : ∃ n, encodedLength? out = some n ∧ n ≤ maxLocatorBytes
  /-- A leaf is one of the value, in the same place. -/
  leaves : ∀ p l, out.At p (.leaf l) → v.At p (.leaf l)
  /-- A place without an unsafe key is not missing. -/
  complete : ∀ p u, v.At p u → (∀ k, Tree.Step.key k ∈ p → unsafeLocatorKey lower k = false) →
    ∃ w, out.At p w
  stable : safeLocator lower out = some out
  accepted : projectedLocator lower out = .ok out

/-- A null lies one level too deep. -/
def DeepNull (lower : PyText → PyText) (v : LocatorValue) : Prop :=
  ∃ p, p.length = maxLocatorDepth + 1 ∧ Tree.Kept (unsafeLocatorKey lower) p ∧ v.At p (.leaf .null)

theorem nodeFits_safePart (h : NodeFits v) : NodeFits (v.safePart lower) := by
  cases v with
  | leaf l => exact h
  | list items =>
    rw [LocatorValue.safePart, Tree.prune, NodeFits, Tree.pruneItems_eq, List.length_map]
    exact h
  | map members =>
    rw [LocatorValue.safePart, Tree.prune]
    refine ⟨(Tree.length_pruneMembers_le members).trans h.1, ?_⟩
    rintro ⟨k, u⟩ hu
    obtain ⟨-, x, hx, -⟩ := Tree.mem_pruneMembers.mp hu
    exact h.2 (k, x) hx

theorem Acceptable.safePart (h : Acceptable lower d v) : Acceptable lower d (v.safePart lower) := by
  refine Tree.Every.prune ?_ h
  intro d u hu
  rcases hu with hnone | ⟨hd, hfits⟩
  · exact Or.inl (isNone_safePart.trans hnone)
  · exact Or.inr ⟨hd, nodeFits_safePart hfits⟩

/-- The safe part of an admissible value is admissible, and is its own safe part. -/
theorem Admissible.safePart (h : Admissible lower v) : Admissible lower (v.safePart lower) := by
  refine ⟨?_, h.acceptable.safePart, ?_⟩
  · obtain ⟨members, rfl, m, hm, hsafe⟩ := h.object
    rw [LocatorValue.safePart, Tree.prune]
    exact ⟨_, rfl, (m.1, m.2.prune _), Tree.mem_pruneMembers.mpr ⟨hsafe, m.2, hm, rfl⟩, hsafe⟩
  · rw [LocatorValue.safePart, LocatorValue.safePart, Tree.prune_prune]
    exact h.size

theorem Admissible.stable (h : Admissible lower v) :
    safeLocator lower (v.safePart lower) = some (v.safePart lower) :=
  safeLocator_eq_some.mpr ⟨h.safePart, (Tree.prune_prune v).symm⟩

/-- A projection is a safe one exactly if no null lies too deep in a value within the bounds. -/
theorem safelyProjected_iff (lower : PyText → PyText) (v : LocatorValue) :
    (∀ out, safeLocator lower v = some out → SafelyProjected lower v out) ↔
      ¬ (Admissible lower v ∧ DeepNull lower v) := by
  constructor
  · rintro h ⟨hv, p, hlength, hkept, hat⟩
    have hdepth := (h _ (safeLocator_eq_some.mpr ⟨hv, rfl⟩)).depth p (.leaf .null)
      (Tree.at_prune.mpr ⟨hkept, _, hat, rfl⟩)
    omega
  · intro h out hout
    obtain ⟨hv, rfl⟩ := safeLocator_eq_some.mp hout
    have hcopies : ∀ p u, (v.safePart lower).At p u → Copies p.length u := by
      intro p u hat
      have hkept := (Tree.at_prune.mp hat).1
      simpa using hv.acceptable.safePart p u hat hkept
    have hdepth : ∀ p u, (v.safePart lower).At p u → p.length ≤ maxLocatorDepth := by
      intro p u hat
      rcases hcopies p u hat with hnone | ⟨hle, -⟩
      · by_contra hdeep
        -- what holds the null is copied for its own sake
        have hp : p ≠ [] := by
          rintro rfl
          exact hdeep (Nat.zero_le _)
        obtain ⟨w, hw, hleaf⟩ := hat.parent hp
        have hparent : p.length - 1 ≤ maxLocatorDepth := by
          rcases hcopies _ w hw with hwnone | ⟨hle, -⟩
          · cases w with
            | leaf l => exact absurd rfl (hleaf l)
            | list | map => exact nomatch hwnone
          · rwa [List.length_dropLast] at hle
        obtain ⟨hkept, w, hvat, rfl⟩ := Tree.at_prune.mp hat
        have hnull : w = .leaf .null := by
          have hwnone : LocatorValue.isNone w = true := isNone_safePart.symm.trans hnone
          cases w with
          | leaf l =>
            cases l with
            | null => rfl
            | bool | int | float | str => exact nomatch hwnone
          | list | map => exact nomatch hwnone
        exact h ⟨hv, p, by omega, hkept, hnull ▸ hvat⟩
      · exact hle
    have hfits : ∀ p u, (v.safePart lower).At p u → NodeFits u := by
      intro p u hat
      rcases hcopies p u hat with hnone | ⟨-, hfits⟩
      · cases u with
        | leaf l =>
          cases l with
          | null => trivial
          | bool | int | float | str => exact nomatch hnone
        | list | map => exact nomatch hnone
      · exact hfits
    refine ⟨?_, ?_, hdepth, hfits, ?_, ?_, ?_, hv.stable, ?_⟩
    · obtain ⟨members, heq, m, hm, -⟩ := hv.safePart.object
      exact ⟨members, heq, List.ne_nil_of_mem hm⟩
    · intro p u hat k hk
      obtain ⟨q, members, x, hq, hx⟩ := hat.of_key hk
      exact ⟨(Tree.at_prune.mp hat).1 k hk, (hfits q _ hq).2 _ hx⟩
    · exact hv.size
    · intro p l hat
      obtain ⟨-, w, hw, hleaf⟩ := Tree.at_prune.mp hat
      exact Tree.prune_eq_leaf.mp hleaf.symm ▸ hw
    · intro p u hat hkept
      exact ⟨_, Tree.at_prune.mpr ⟨hkept, u, hat, rfl⟩⟩
    · rw [projectedLocator, hv.stable]

end

/-! ## A null in the ninth level -/

namespace Sample

/-- Lists in each other around a value. -/
def nested : Nat → LocatorValue → LocatorValue
  | 0, v => v
  | n + 1, v => .list [nested n v]

/-- Eight lists in a member, with a leaf in the last. -/
def deepLocator (l : Scalar) : LocatorValue := .map [(ofString "row", nested 8 (.leaf l))]

end Sample

open Sample in
/-- A null is copied from where a number is refused. -/
theorem not_safelyProjected :
    safeLocator id (deepLocator (.int 1)) = none ∧
      ¬ ∀ out, safeLocator id (deepLocator .null) = some out →
        SafelyProjected id (deepLocator .null) out := by
  constructor
  · rfl
  · intro h
    have hout : safeLocator id (deepLocator .null) = some (deepLocator .null) := by rfl
    have hat : (deepLocator .null).At (.key (ofString "row") :: List.replicate 8 (.index 0))
        (.leaf .null) :=
      .member List.mem_cons_self (.item rfl (.item rfl (.item rfl (.item rfl (.item rfl (.item rfl
        (.item rfl (.item rfl .here))))))))
    exact absurd ((h _ hout).depth _ _ hat) (by decide)

end NanFung
