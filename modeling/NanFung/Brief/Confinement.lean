import NanFung.Brief.Aliases
import NanFung.Brief.Projection

/-!
# Handles stay in the host

What a session shows is each result with one substitution of aliases for handles, the same for all
results. The substitution reaches the strings under four keys and no others: a handle that stands
anywhere else, such as under `supporting_citation_refs` of an accepted brief, is shown as it is.
-/

namespace NanFung.Brief

open Json ModelHandleAliases

/-! ## The walk without the table -/

mutual

/-- A value with its handles replaced. -/
def substitute (f : HandleKind → String → String) : Json → Json
  | .arr items => .arr (substituteItems f items)
  | .obj members => .obj (substituteMembers f members)
  | .str s => .str s
  | v => v

def substituteItems (f : HandleKind → String → String) : List Json → List Json
  | [] => []
  | v :: vs => substitute f v :: substituteItems f vs

def substituteRefs (f : HandleKind → String → String) : List Json → List Json
  | [] => []
  | .str s :: vs => .str (f .citation s) :: substituteRefs f vs
  | v :: vs => substitute f v :: substituteRefs f vs

def substituteMembers (f : HandleKind → String → String) : Members → Members
  | [] => []
  | (k, .str s) :: ms =>
    (k, .str (match refKind k with | some kind => f kind s | none => s)) :: substituteMembers f ms
  | (k, .arr items) :: ms =>
    (k, .arr (if k = "citation_refs" then substituteRefs f items else substituteItems f items)) ::
      substituteMembers f ms
  | (k, v) :: ms => (k, substitute f v) :: substituteMembers f ms

end

mutual

/-- The handles of a value: the strings that the facade puts under the four keys. -/
def handles : Json → List (HandleKind × String)
  | .arr items => handlesOfItems items
  | .obj members => handlesOfMembers members
  | .str _ => []
  | _ => []

def handlesOfItems : List Json → List (HandleKind × String)
  | [] => []
  | v :: vs => handles v ++ handlesOfItems vs

def handlesOfRefs : List Json → List (HandleKind × String)
  | [] => []
  | .str s :: vs => (.citation, s) :: handlesOfRefs vs
  | v :: vs => handles v ++ handlesOfRefs vs

def handlesOfMembers : Members → List (HandleKind × String)
  | [] => []
  | (k, .str s) :: ms => ((refKind k).map fun kind => (kind, s)).toList ++ handlesOfMembers ms
  | (k, .arr items) :: ms =>
    (if k = "citation_refs" then handlesOfRefs items else handlesOfItems items) ++
      handlesOfMembers ms
  | (_, v) :: ms => handles v ++ handlesOfMembers ms

end

mutual

/-- The texts of a value that are not handles: its keys, number literals and other strings. -/
def loose : Json → List String
  | .arr items => looseOfItems items
  | .obj members => looseOfMembers members
  | .str s => [s]
  | .float text => [text]
  | _ => []

def looseOfItems : List Json → List String
  | [] => []
  | v :: vs => loose v ++ looseOfItems vs

def looseOfRefs : List Json → List String
  | [] => []
  | .str _ :: vs => looseOfRefs vs
  | v :: vs => loose v ++ looseOfRefs vs

def looseOfMembers : Members → List String
  | [] => []
  | (k, .str s) :: ms =>
    k :: (if (refKind k).isSome then [] else [s]) ++ looseOfMembers ms
  | (k, .arr items) :: ms =>
    k :: (if k = "citation_refs" then looseOfRefs items else looseOfItems items) ++
      looseOfMembers ms
  | (k, v) :: ms => k :: loose v ++ looseOfMembers ms

end

/-! ## The table -/

variable {a a' final : ModelHandleAliases} {f : HandleKind → String → String} {kind : HandleKind}
  {h : String}

/-- The table knows everything another one knew. -/
def Extends (a a' : ModelHandleAliases) : Prop :=
  ∀ k v, a.handleToAlias.get? k = some v → a'.handleToAlias.get? k = some v

/-- What a table shows for a handle. -/
def shown (a : ModelHandleAliases) (kind : HandleKind) (h : String) : String :=
  (a.handleToAlias.get? (key kind h)).getD h

def Known (a : ModelHandleAliases) (p : HandleKind × String) : Prop :=
  (a.handleToAlias.get? (key p.1 p.2)).isSome

/-- An alias is numbered below the next one of its kind, and is read back as its handle. -/
structure Faithful (a : ModelHandleAliases) : Prop where
  resolves : ∀ kind h n, a.handleToAlias.get? (key kind h) = some n →
    a.aliasToHandle.get? (key kind n) = some h
  numbered : ∀ kind h n, a.handleToAlias.get? (key kind h) = some n →
    ∃ i ≤ a.next kind, n = ModelHandleAliases.numbered kind i

theorem Extends.refl (a : ModelHandleAliases) : Extends a a := fun _ _ h => h

theorem Extends.trans {a'' : ModelHandleAliases} (h : Extends a a') (h' : Extends a' a'') :
    Extends a a'' := fun k v hv => h' k v (h k v hv)

theorem Extends.known (h : Extends a a') {p : HandleKind × String} (hp : Known a p) :
    Known a' p := by
  obtain ⟨n, hn⟩ := Option.isSome_iff_exists.mp hp
  exact Option.isSome_iff_exists.mpr ⟨n, h _ n hn⟩

theorem Extends.shown (he : Extends a a') {n : String}
    (hn : a.handleToAlias.get? (key kind h) = some n) : shown a' kind h = n := by
  rw [NanFung.Brief.shown, he _ _ hn, Option.getD_some]

theorem key_inj {kind' : HandleKind} {v v' : String} (hk : key kind v = key kind' v') :
    kind = kind' ∧ v = v' := by
  have hl := congrArg String.toList hk
  simp only [key, String.toList_append] at hl
  have hsecond := congrArg (fun l => l[1]?) hl
  cases kind <;> cases kind' <;>
    first
    | exact ⟨rfl, String.toList_injective (List.append_cancel_left hl)⟩
    | simp [HandleKind.text] at hsecond

theorem numbered_inj {i j : Nat} (hn : ModelHandleAliases.numbered kind i =
    ModelHandleAliases.numbered kind j) : i = j := by
  have hl := congrArg String.toList hn
  simp only [ModelHandleAliases.numbered, String.toList_append] at hl
  have hdigits : Nat.toDigits 10 i = Nat.toDigits 10 j := by
    simpa [Nat.toString_eq_ofList_toDigits] using List.append_cancel_left hl
  rw [← @Nat.ofDigitChars_ten_toDigits i, hdigits, Nat.ofDigitChars_ten_toDigits]

theorem faithful_empty : Faithful empty :=
  ⟨fun _ _ _ h => (nomatch h), fun _ _ _ h => nomatch h⟩

/-- A fresh alias differs from the ones its kind has. -/
theorem aliasOf_extends (a : ModelHandleAliases) (kind : HandleKind) (h : String) :
    Extends a (a.aliasOf kind h).2 ∧
      (a.aliasOf kind h).2.handleToAlias.get? (key kind h) = some (a.aliasOf kind h).1 := by
  unfold aliasOf
  cases hn : a.handleToAlias.get? (key kind h) with
  | some existing => exact ⟨Extends.refl a, hn⟩
  | none =>
    refine ⟨fun k v hv => ?_, Dict.get?_set_self⟩
    have hne : k ≠ key kind h := fun he => by
      rw [he, hn] at hv
      exact nomatch hv
    exact (Dict.get?_set_of_ne hne).trans hv

theorem aliasOf_faithful (ha : Faithful a) (kind : HandleKind) (h : String) :
    Faithful (a.aliasOf kind h).2 := by
  unfold aliasOf
  cases hn : a.handleToAlias.get? (key kind h) with
  | some existing => exact ha
  | none =>
    constructor
    · intro kind' h' n hget
      rw [Dict.get?_set] at hget
      rw [Dict.get?_set]
      split at hget
      · next hk =>
        obtain ⟨rfl, rfl⟩ := key_inj hk
        rw [← Option.some.inj hget, if_pos rfl]
      · rw [if_neg]
        · exact ha.resolves kind' h' n hget
        · -- An alias the table has is numbered lower than the fresh one.
          intro hk
          obtain ⟨rfl, rfl⟩ := key_inj hk
          obtain ⟨i, hi, heq⟩ := ha.numbered kind h' _ hget
          have := numbered_inj heq
          omega
    · intro kind' h' n hget
      rw [Dict.get?_set] at hget
      split at hget
      · next hk =>
        obtain ⟨rfl, rfl⟩ := key_inj hk
        refine ⟨a.next kind + 1, ?_, (Option.some.inj hget).symm⟩
        show _ ≤ Function.update a.next kind (a.next kind + 1) kind
        rw [Function.update_self]
      · obtain ⟨i, hi, heq⟩ := ha.numbered kind' h' n hget
        refine ⟨i, ?_, heq⟩
        show _ ≤ Function.update a.next kind (a.next kind + 1) kind'
        by_cases hkind : kind' = kind
        · subst hkind
          rw [Function.update_self]
          omega
        · rwa [Function.update_of_ne hkind]

/-! ## What a walk shows -/

/-- A walk that shows a value: the table it leaves is faithful and knows the value's handles, and the
result is the substitution of any later table. -/
structure Presented {β : Type} (a : ModelHandleAliases) (p : β × ModelHandleAliases)
    (subst : (HandleKind → String → String) → β) (hs : List (HandleKind × String)) : Prop where
  faithful : Faithful p.2
  extend : Extends a p.2
  known : ∀ q ∈ hs, Known p.2 q
  eq : ∀ final, Extends p.2 final → p.1 = subst (shown final)

theorem presented_const {β : Type} (ha : Faithful a) (v : β) :
    Presented a (v, a) (fun _ => v) [] :=
  ⟨ha, Extends.refl a, fun _ h => (nomatch h), fun _ _ => rfl⟩

theorem presented_aliasOf (ha : Faithful a) (kind : HandleKind) (h : String) :
    Presented a (a.aliasOf kind h) (fun f => f kind h) [(kind, h)] := by
  obtain ⟨hextend, hknown⟩ := aliasOf_extends a kind h
  refine ⟨aliasOf_faithful ha kind h, hextend, fun q hq => ?_, fun final he => (he.shown hknown).symm⟩
  rw [List.mem_singleton.mp hq]
  exact Option.isSome_iff_exists.mpr ⟨_, hknown⟩

/-- One walk after the other. -/
theorem Presented.then {β γ δ : Type} {p : β × ModelHandleAliases} {ps : γ × ModelHandleAliases}
    {subst : (HandleKind → String → String) → β} {subst' : (HandleKind → String → String) → γ}
    {hs hs' : List (HandleKind × String)} (hp : Presented a p subst hs)
    (hps : Faithful p.2 → Presented p.2 ps subst' hs') (g : β → γ → δ) :
    Presented a (g p.1 ps.1, ps.2) (fun f => g (subst f) (subst' f)) (hs ++ hs') := by
  have hps := hps hp.faithful
  refine ⟨hps.faithful, hp.extend.trans hps.extend, fun q hq => ?_, fun final he => ?_⟩
  · cases List.mem_append.mp hq with
    | inl hq => exact hps.extend.known (hp.known q hq)
    | inr hq => exact hps.known q hq
  · show g p.1 ps.1 = _
    rw [hp.eq final (hps.extend.trans he), hps.eq final he]

theorem Presented.map {β δ : Type} {p : β × ModelHandleAliases}
    {subst : (HandleKind → String → String) → β} {hs : List (HandleKind × String)}
    (hp : Presented a p subst hs) (g : β → δ) :
    Presented a (g p.1, p.2) (fun f => g (subst f)) hs :=
  ⟨hp.faithful, hp.extend, hp.known, fun final he => congrArg g (hp.eq final he)⟩

mutual

theorem present_presented {a : ModelHandleAliases} (ha : Faithful a) :
    ∀ v : Json, Presented a (a.present v) (fun f => substitute f v) (handles v)
  | .null => presented_const ha _
  | .bool _ => presented_const ha _
  | .int _ => presented_const ha _
  | .float _ => presented_const ha _
  | .str _ => presented_const ha _
  | .arr items => (presentItems_presented ha items).map Json.arr
  | .obj members => (presentMembers_presented ha members).map Json.obj

theorem presentItems_presented {a : ModelHandleAliases} (ha : Faithful a) :
    ∀ vs : List Json, Presented a (a.presentItems vs) (fun f => substituteItems f vs)
      (handlesOfItems vs)
  | [] => presented_const ha _
  | v :: vs => (present_presented ha v).then (fun h => presentItems_presented h vs) List.cons

theorem presentRefs_presented {a : ModelHandleAliases} (ha : Faithful a) :
    ∀ vs : List Json, Presented a (a.presentRefs vs) (fun f => substituteRefs f vs)
      (handlesOfRefs vs)
  | [] => presented_const ha _
  | .str s :: vs => (presented_aliasOf ha .citation s).then (fun h => presentRefs_presented h vs)
      fun (x : String) xs => Json.str x :: xs
  | .null :: vs => (present_presented ha .null).then (fun h => presentRefs_presented h vs) List.cons
  | .bool b :: vs =>
    (present_presented ha (.bool b)).then (fun h => presentRefs_presented h vs) List.cons
  | .int i :: vs =>
    (present_presented ha (.int i)).then (fun h => presentRefs_presented h vs) List.cons
  | .float t :: vs =>
    (present_presented ha (.float t)).then (fun h => presentRefs_presented h vs) List.cons
  | .arr items :: vs =>
    (present_presented ha (.arr items)).then (fun h => presentRefs_presented h vs) List.cons
  | .obj members :: vs =>
    (present_presented ha (.obj members)).then (fun h => presentRefs_presented h vs) List.cons

theorem presentMembers_presented {a : ModelHandleAliases} (ha : Faithful a) :
    ∀ ms : Members, Presented a (a.presentMembers ms) (fun f => substituteMembers f ms)
      (handlesOfMembers ms)
  | [] => presented_const ha _
  | (k, .str s) :: ms => by
    unfold presentMembers substituteMembers handlesOfMembers
    cases refKind k with
    | some kind =>
      exact (presented_aliasOf ha kind s).then (fun h => presentMembers_presented h ms)
        fun x xs => (k, .str x) :: xs
    | none =>
      exact (presented_const ha s).then (fun h => presentMembers_presented h ms)
        fun x xs => (k, .str x) :: xs
  | (k, .arr items) :: ms => by
    unfold presentMembers substituteMembers handlesOfMembers
    split
    · exact (presentRefs_presented ha items).then (fun h => presentMembers_presented h ms)
        fun x xs => (k, .arr x) :: xs
    · exact (presentItems_presented ha items).then (fun h => presentMembers_presented h ms)
        fun x xs => (k, .arr x) :: xs
  | (k, .null) :: ms => (present_presented ha .null).then
      (fun h => presentMembers_presented h ms) fun x xs => (k, x) :: xs
  | (k, .bool b) :: ms => (present_presented ha (.bool b)).then
      (fun h => presentMembers_presented h ms) fun x xs => (k, x) :: xs
  | (k, .int i) :: ms => (present_presented ha (.int i)).then
      (fun h => presentMembers_presented h ms) fun x xs => (k, x) :: xs
  | (k, .float t) :: ms => (present_presented ha (.float t)).then
      (fun h => presentMembers_presented h ms) fun x xs => (k, x) :: xs
  | (k, .obj members) :: ms => (present_presented ha (.obj members)).then
      (fun h => presentMembers_presented h ms) fun x xs => (k, x) :: xs

end

/-! ## Texts -/

/-- The texts of a substituted value: its loose texts and the substitutes of its handles. -/
def Covers (f : HandleKind → String → String) (ts ls : List String)
    (hs : List (HandleKind × String)) : Prop :=
  ∀ t, t ∈ ts ↔ t ∈ ls ∨ ∃ q ∈ hs, t = f q.1 q.2

theorem covers_nil : Covers f [] [] [] := fun t => by simp

theorem covers_loose (ts : List String) : Covers f ts ts [] := fun t => by simp

theorem covers_handle (q : HandleKind × String) : Covers f [f q.1 q.2] [] [q] := fun t => by simp

theorem Covers.append {ts ts' ls ls' : List String} {hs hs' : List (HandleKind × String)}
    (h : Covers f ts ls hs) (h' : Covers f ts' ls' hs') :
    Covers f (ts ++ ts') (ls ++ ls') (hs ++ hs') := by
  intro t
  simp only [List.mem_append, h t, h' t, or_and_right, exists_or]
  exact or_or_or_comm

theorem Covers.cons {k : String} {ts ls : List String} {hs : List (HandleKind × String)}
    (h : Covers f ts ls hs) : Covers f (k :: ts) (k :: ls) hs :=
  (covers_loose [k]).append h

mutual

theorem covers_substitute : ∀ v : Json, Covers f (texts (substitute f v)) (loose v) (handles v)
  | .null => covers_nil
  | .bool _ => covers_nil
  | .int _ => covers_nil
  | .float _ => covers_loose _
  | .str _ => covers_loose _
  | .arr items => covers_substituteItems items
  | .obj members => covers_substituteMembers members

theorem covers_substituteItems : ∀ vs : List Json,
    Covers f (textsOfItems (substituteItems f vs)) (looseOfItems vs) (handlesOfItems vs)
  | [] => covers_nil
  | v :: vs => (covers_substitute v).append (covers_substituteItems vs)

theorem covers_substituteRefs : ∀ vs : List Json,
    Covers f (textsOfItems (substituteRefs f vs)) (looseOfRefs vs) (handlesOfRefs vs)
  | [] => covers_nil
  | .str s :: vs => (covers_handle (.citation, s)).append (covers_substituteRefs vs)
  | .null :: vs => (covers_substitute .null).append (covers_substituteRefs vs)
  | .bool b :: vs => (covers_substitute (.bool b)).append (covers_substituteRefs vs)
  | .int i :: vs => (covers_substitute (.int i)).append (covers_substituteRefs vs)
  | .float t :: vs => (covers_substitute (.float t)).append (covers_substituteRefs vs)
  | .arr items :: vs => (covers_substitute (.arr items)).append (covers_substituteRefs vs)
  | .obj members :: vs => (covers_substitute (.obj members)).append (covers_substituteRefs vs)

theorem covers_substituteMembers : ∀ ms : Members,
    Covers f (textsOfMembers (substituteMembers f ms)) (looseOfMembers ms) (handlesOfMembers ms)
  | [] => covers_nil
  | (k, .str s) :: ms => by
    unfold substituteMembers looseOfMembers handlesOfMembers
    cases refKind k with
    | some kind =>
      exact ((covers_handle (kind, s)).append (covers_substituteMembers ms)).cons
    | none => exact ((covers_loose [s]).append (covers_substituteMembers ms)).cons
  | (k, .arr items) :: ms => by
    unfold substituteMembers looseOfMembers handlesOfMembers
    by_cases hk : k = "citation_refs"
    · rw [if_pos hk, if_pos hk, if_pos hk]
      exact ((covers_substituteRefs items).append (covers_substituteMembers ms)).cons
    · rw [if_neg hk, if_neg hk, if_neg hk]
      exact ((covers_substituteItems items).append (covers_substituteMembers ms)).cons
  | (_, .null) :: ms => ((covers_substitute .null).append (covers_substituteMembers ms)).cons
  | (_, .bool b) :: ms => ((covers_substitute (.bool b)).append (covers_substituteMembers ms)).cons
  | (_, .int i) :: ms => ((covers_substitute (.int i)).append (covers_substituteMembers ms)).cons
  | (_, .float t) :: ms =>
    ((covers_substitute (.float t)).append (covers_substituteMembers ms)).cons
  | (_, .obj members) :: ms =>
    ((covers_substitute (.obj members)).append (covers_substituteMembers ms)).cons

end

/-! ## Minted handles -/

/-- The characters of a signed handle: unpadded base64url, and the dots between its parts. -/
def handleChar (c : Char) : Bool := c.isAlphanum || c = '-' || c = '_' || c = '.'

/-- A handle as the facade's codec mints it. -/
structure Minted (handle : String) : Prop where
  signed : Browser.SignedHandle handle
  chars : ∀ c ∈ handle.toList, handleChar c = true

theorem plain_of_handleChar {c : Char} (hc : handleChar c = true) :
    c ∉ separators ∧ escapeChar c = [c] := by
  have hsep : c ∉ separators := by
    intro hmem
    simp only [separators, List.mem_cons, List.not_mem_nil, or_false] at hmem
    obtain rfl | rfl | rfl | rfl | rfl | rfl | rfl | rfl := hmem <;> exact absurd hc (by decide)
  have hbound : 32 ≤ c.toNat := by
    by_contra hlt
    have hlow : c.toNat < 32 := by omega
    rw [← Char.ofNat_toNat c] at hc
    generalize c.toNat = n at hc hlow
    interval_cases n <;> exact absurd hc (by decide)
  refine ⟨hsep, ?_⟩
  unfold escapeChar
  split_ifs with h₁ h₂ h₃ h₄ h₅ h₆ h₇
  · exact absurd (h₁ ▸ hc) (by decide)
  · exact absurd (h₂ ▸ hc) (by decide)
  · exact absurd (h₃ ▸ hc) (by decide)
  · exact absurd (h₄ ▸ hc) (by decide)
  · exact absurd (h₅ ▸ hc) (by decide)
  · exact absurd (h₆ ▸ hc) (by decide)
  · exact absurd (h₇ ▸ hc) (by decide)
  · omega
  · rfl

theorem Minted.marker {handle : String} (hm : Minted handle) : Marker handle.toList := by
  obtain ⟨rest, hrest⟩ := hm.signed
  have hcons : handle.toList = 'h' :: ('1' :: '.' :: rest) := hrest.symm
  refine ⟨by rw [hcons]; exact List.cons_ne_nil _ _, fun c hc => ?_, fun c hc => ?_⟩
  · exact plain_of_handleChar (hm.chars c hc)
  · rw [hcons] at hc
    cases hc
    decide

/-- An alias has no dot, so it contains no handle. -/
theorem Minted.not_infix_numbered {handle : String} (hm : Minted handle) (kind : HandleKind)
    (n : Nat) : ¬ handle.toList <:+: (ModelHandleAliases.numbered kind n).toList := by
  intro hinside
  obtain ⟨rest, hrest⟩ := hm.signed
  have hdot : '.' ∈ handle.toList := by
    rw [← hrest]
    exact List.mem_append_left _ (by decide)
  have hmem := hinside.subset hdot
  simp only [ModelHandleAliases.numbered, String.toList_append, List.mem_append] at hmem
  obtain (hmem | hmem) | hmem := hmem
  · cases kind <;> exact absurd hmem (by decide)
  · exact absurd hmem (by decide)
  · exact absurd (int_chars (Int.ofNat n) '.' hmem) (by decide)

/-! ## Reading aliases back -/

/-- `resolveFinalizerAliases` for one member of an object. -/
def resolveFinalizerField (a : ModelHandleAliases) (key : String) : Json → Json
  | .str s => if key = "numeric_citation_ref" then .str (a.resolve .citation s) else .str s
  | .arr items =>
    if key = "supporting_citation_refs" then resolveRefs a (.arr items)
    else .arr (resolveFinalizerItems a items)
  | v => resolveFinalizerAliases a v

theorem lookup_resolveFinalizerMembers (a : ModelHandleAliases) (field : String) (ms : Members) :
    lookup field (resolveFinalizerMembers a ms) =
      (lookup field ms).map (resolveFinalizerField a field) := by
  induction ms with
  | nil => rfl
  | cons m ms ih =>
    obtain ⟨k, v⟩ := m
    have hcons : resolveFinalizerMembers a ((k, v) :: ms) =
        (k, resolveFinalizerField a k v) :: resolveFinalizerMembers a ms := by
      cases v <;> rfl
    rw [hcons, lookup_cons, lookup_cons]
    split
    · next hk => rw [← hk, Option.map_some]
    · exact ih

theorem lookup_replaceField (args : Members) (field : String) (replace : Json → Json) :
    lookup field (replaceField args field replace) = (lookup field args).map replace := by
  induction args with
  | nil => rfl
  | cons m args ih =>
    rw [replaceField, List.map_cons, lookup_cons, lookup_cons]
    split
    · rw [Option.map_some]
    · exact ih

theorem resolveFinalizerItems_eq (a : ModelHandleAliases) (vs : List Json) :
    resolveFinalizerItems a vs = vs.map (resolveFinalizerAliases a) := by
  induction vs with
  | nil => rfl
  | cons v vs ih => exact congrArg _ ih

/-- In every argument that takes a handle of its kind, the alias reads back as the handle. -/
structure ReadsBack (a : ModelHandleAliases) (kind : HandleKind) (text h : String) : Prop where
  cursor : kind = .cursor → ∀ args, lookup "cursor_ref" args = some (.str text) →
    lookup "cursor_ref" (resolveFacadeAliases a .queryMarketData args) = some (.str h)
  job : kind = .job → ∀ args, lookup "job_ref" args = some (.str text) →
    lookup "job_ref" (resolveFacadeAliases a .getRefreshStatus args) = some (.str h)
  citations : kind = .citation → ∀ args (items : List Json), lookup "citation_refs" args = some (.arr items) →
    ∃ items' : List Json, lookup "citation_refs" (resolveFacadeAliases a .getCitationMetadata args) =
      some (.arr items') ∧ ∀ i : Nat, items[i]? = some (Json.str text) → items'[i]? = some (Json.str h)
  numeric : kind = .citation → ∀ fact,
    lookup "numeric_citation_ref" fact = some (.str text) →
    lookup "numeric_citation_ref" (resolveFinalizerMembers a fact) = some (.str h)
  supporting : kind = .citation → ∀ fact (items : List Json),
    lookup "supporting_citation_refs" fact = some (.arr items) →
    ∃ items' : List Json, lookup "supporting_citation_refs" (resolveFinalizerMembers a fact) =
      some (.arr items') ∧ ∀ i : Nat, items[i]? = some (Json.str text) → items'[i]? = some (Json.str h)
  facts : ∀ draft items, lookup "facts" draft = some (.arr items) →
    lookup "facts" (resolveFinalizerMembers a draft) =
      some (.arr (items.map (resolveFinalizerAliases a)))

theorem getElem?_resolveRefs {text : String} (hr : a.resolve .citation text = h)
    {items : List Json} {i : Nat} (hi : items[i]? = some (.str text)) :
    (items.map (resolveString a .citation))[i]? = some (.str h) := by
  rw [List.getElem?_map, hi, Option.map_some, resolveString, hr]

theorem readsBack {text : String} (hr : a.resolve kind text = h) :
    ReadsBack a kind text h where
  cursor hk args hargs := by
    subst hk
    rw [resolveFacadeAliases, lookup_replaceField, hargs, Option.map_some, resolveString, hr]
  job hk args hargs := by
    subst hk
    rw [resolveFacadeAliases, lookup_replaceField, hargs, Option.map_some, resolveString, hr]
  citations hk args items hargs := by
    subst hk
    refine ⟨items.map (resolveString a .citation), ?_, fun i => getElem?_resolveRefs hr⟩
    rw [resolveFacadeAliases, lookup_replaceField, hargs, Option.map_some, resolveRefs]
  numeric hk fact hfact := by
    subst hk
    rw [lookup_resolveFinalizerMembers, hfact, Option.map_some, resolveFinalizerField, if_pos rfl,
      hr]
  supporting hk fact items hfact := by
    subst hk
    refine ⟨items.map (resolveString a .citation), ?_, fun i => getElem?_resolveRefs hr⟩
    rw [lookup_resolveFinalizerMembers, hfact, Option.map_some, resolveFinalizerField, if_pos rfl,
      resolveRefs]
  facts draft items hdraft := by
    rw [lookup_resolveFinalizerMembers, hdraft, Option.map_some, resolveFinalizerField,
      if_neg (by decide), resolveFinalizerItems_eq]

/-! ## A session -/

/-- The part of a result's data that is shown. -/
def shownData (r : ToolResult) : Json := dataJson (hideHostQueryMetadata r.data)

/-- The handles that the facade and the finaliser put into results. -/
def placed (results : List ToolResult) : List (HandleKind × String) :=
  results.flatMap fun r => handles (dataJson r.data)

/-- The handles among them that are shown, as aliases. -/
def shownHandles (results : List ToolResult) : List (HandleKind × String) :=
  results.flatMap fun r => handles (shownData r)

theorem showAll_spec (ha : Faithful a) (results : List ToolResult) :
    Faithful (showAll a results).2 ∧ Extends a (showAll a results).2 ∧
      (∀ q ∈ shownHandles results, Known (showAll a results).2 q) ∧
      ∀ final, Extends (showAll a results).2 final →
        (showAll a results).1 = results.map fun r =>
          visibleText r.status (substitute (shown final) (shownData r)) := by
  induction results generalizing a with
  | nil => exact ⟨ha, Extends.refl a, fun _ h => (nomatch h), fun _ _ => rfl⟩
  | cons r results ih =>
    have hp := present_presented ha (shownData r)
    obtain ⟨hfaithful, hextend, hknown, heq⟩ := ih hp.faithful
    refine ⟨hfaithful, hp.extend.trans hextend, fun q hq => ?_, fun final he => ?_⟩
    · rw [shownHandles, List.flatMap_cons] at hq
      cases List.mem_append.mp hq with
      | inl hq => exact hextend.known (hp.known q hq)
      | inr hq => exact hknown q hq
    · show visibleText r.status (a.present (shownData r)).1 ::
        (showAll (a.present (shownData r)).2 results).1 = _
      rw [hp.eq final (hextend.trans he), heq final he, List.map_cons]

/-- No text shows a handle. -/
def NoHandleShown (results : List ToolResult) : Prop :=
  ∀ text ∈ (showAll empty results).1, ∀ q ∈ placed results, ¬ q.2.toList <:+: text

/-- One table of aliases explains all texts: distinct handles of a kind have distinct aliases, and
each alias reads back as its handle. -/
def AliasesFaithful (results : List ToolResult) : Prop :=
  ∃ f : HandleKind → String → String,
    ((showAll empty results).1 = results.map fun r =>
      visibleText r.status (substitute f (shownData r))) ∧
    (∀ kind h h', (kind, h) ∈ shownHandles results → (kind, h') ∈ shownHandles results →
      f kind h = f kind h' → h = h') ∧
    ∀ kind h, (kind, h) ∈ shownHandles results →
      ReadsBack (showAll empty results).2 kind (f kind h) h

/-- The handles of a result stand nowhere but under the keys that are presented. -/
def HandlesInPlace (results : List ToolResult) : Prop :=
  ∀ r ∈ results, ∀ t ∈ loose (shownData r), ∀ q ∈ placed results, ¬ q.2.toList <:+: t.toList

theorem aliasesFaithful (results : List ToolResult) : AliasesFaithful results := by
  obtain ⟨hfaithful, -, hknown, heq⟩ := showAll_spec faithful_empty results
  have hback : ∀ kind h, (kind, h) ∈ shownHandles results →
      (showAll empty results).2.resolve kind (shown (showAll empty results).2 kind h) = h := by
    intro kind h hq
    obtain ⟨n, hn⟩ := Option.isSome_iff_exists.mp (hknown _ hq)
    rw [(Extends.refl _).shown hn, resolve, hfaithful.resolves kind h n hn, Option.getD_some]
  refine ⟨shown (showAll empty results).2, heq _ (Extends.refl _), fun kind h h' hq hq' hsame => ?_,
    fun kind h hq => readsBack (hback kind h hq)⟩
  rw [← hback kind h hq, hsame, hback kind h' hq']

/-- A handle shown in a text stands outside its place in the result. -/
theorem infix_visibleText {status : ToolStatus} {v : Json} (hm : Minted h)
    (hf : ∀ q ∈ handles v, ∃ n, f q.1 q.2 = ModelHandleAliases.numbered q.1 n) :
    h.toList <:+: visibleText status (substitute f v) ↔ ∃ t ∈ loose v, h.toList <:+: t.toList := by
  have hdot : ∀ t : String, '.' ∉ t.toList → ¬ h.toList <:+: t.toList := by
    intro t ht hinside
    obtain ⟨rest, hrest⟩ := hm.signed
    exact ht (hinside.subset (hrest ▸ List.mem_append_left _ (by decide)))
  have hstatus : ¬ h.toList <:+: status.text.toList := by
    cases status <;> exact hdot _ (by decide)
  rw [visibleText, infix_stringify hm.marker]
  constructor
  · rintro ⟨t, ht, hinside⟩
    simp only [texts, textsOfMembers, List.cons_append, List.nil_append, List.mem_cons,
      List.append_nil] at ht
    obtain rfl | rfl | rfl | ht := ht
    · exact absurd hinside (hdot _ (by decide))
    · exact absurd hinside hstatus
    · exact absurd hinside (hdot _ (by decide))
    · cases (covers_substitute v t).mp ht with
      | inl ht => exact ⟨t, ht, hinside⟩
      | inr hq =>
        obtain ⟨q, hq, rfl⟩ := hq
        obtain ⟨n, hn⟩ := hf q hq
        rw [hn] at hinside
        exact absurd hinside (hm.not_infix_numbered q.1 n)
  · rintro ⟨t, ht, hinside⟩
    refine ⟨t, ?_, hinside⟩
    simp only [texts, textsOfMembers, List.cons_append, List.nil_append, List.mem_cons,
      List.append_nil]
    exact Or.inr (Or.inr (Or.inr ((covers_substitute v t).mpr (Or.inl ht))))

/-- Handles stay in the host and their aliases are faithful exactly when no text of a result outside
the presented keys contains a handle. -/
theorem handles_confined_iff (results : List ToolResult)
    (hminted : ∀ q ∈ placed results, Minted q.2) :
    NoHandleShown results ∧ AliasesFaithful results ↔ HandlesInPlace results := by
  rw [and_iff_left (aliasesFaithful results)]
  obtain ⟨hfaithful, -, hknown, heq⟩ := showAll_spec faithful_empty results
  have htexts := heq _ (Extends.refl _)
  have hnumbered : ∀ r ∈ results, ∀ q ∈ handles (shownData r),
      ∃ n, shown (showAll empty results).2 q.1 q.2 = ModelHandleAliases.numbered q.1 n := by
    intro r hr q hq
    obtain ⟨n, hn⟩ := Option.isSome_iff_exists.mp
      (hknown q (List.mem_flatMap.mpr ⟨r, hr, hq⟩))
    obtain ⟨i, -, hi⟩ := hfaithful.numbered q.1 q.2 n hn
    exact ⟨i, ((Extends.refl _).shown hn).trans hi⟩
  constructor
  · intro hnone r hr t ht q hq hinside
    have hmem : visibleText r.status (substitute (shown (showAll empty results).2) (shownData r)) ∈
        (showAll empty results).1 := by
      rw [htexts]
      exact List.mem_map.mpr ⟨r, hr, rfl⟩
    refine hnone _ hmem q hq ?_
    exact (infix_visibleText (hminted q hq) (hnumbered r hr)).mpr ⟨t, ht, hinside⟩
  · intro hplace text htext q hq hinside
    rw [htexts] at htext
    obtain ⟨r, hr, rfl⟩ := List.mem_map.mp htext
    obtain ⟨t, ht, ht'⟩ := (infix_visibleText (hminted q hq) (hnumbered r hr)).mp hinside
    exact hplace r hr t ht q hq ht'

/-! ## A qualitative fact -/

theorem handlesOfItems_of_mem {vs : List Json} {v : Json} (hv : v ∈ vs) {q : HandleKind × String}
    (hq : q ∈ handles v) : q ∈ handlesOfItems vs := by
  induction vs with
  | nil => exact nomatch hv
  | cons u vs ih =>
    cases List.mem_cons.mp hv with
    | inl he => exact List.mem_append_left _ (he ▸ hq)
    | inr hv => exact List.mem_append_right _ (ih hv)

theorem looseOfItems_of_mem {vs : List Json} {v : Json} (hv : v ∈ vs) {t : String}
    (ht : t ∈ loose v) : t ∈ looseOfItems vs := by
  induction vs with
  | nil => exact nomatch hv
  | cons u vs ih =>
    cases List.mem_cons.mp hv with
    | inl he => exact List.mem_append_left _ (he ▸ ht)
    | inr hv => exact List.mem_append_right _ (ih hv)

theorem handlesOfMembers_cons (m : String × Json) (ms : Members) :
    handlesOfMembers (m :: ms) = handlesOfMembers [m] ++ handlesOfMembers ms := by
  obtain ⟨k, v⟩ := m
  cases v <;> simp [handlesOfMembers]

theorem looseOfMembers_cons (m : String × Json) (ms : Members) :
    looseOfMembers (m :: ms) = looseOfMembers [m] ++ looseOfMembers ms := by
  obtain ⟨k, v⟩ := m
  cases v <;> simp [looseOfMembers]

theorem handlesOfMembers_of_mem {ms : Members} {m : String × Json} (hm : m ∈ ms)
    {q : HandleKind × String} (hq : q ∈ handlesOfMembers [m]) : q ∈ handlesOfMembers ms := by
  induction ms with
  | nil => exact nomatch hm
  | cons n ms ih =>
    rw [handlesOfMembers_cons, List.mem_append]
    cases List.mem_cons.mp hm with
    | inl he => exact Or.inl (he ▸ hq)
    | inr hm => exact Or.inr (ih hm)

theorem looseOfMembers_of_mem {ms : Members} {m : String × Json} (hm : m ∈ ms) {t : String}
    (ht : t ∈ looseOfMembers [m]) : t ∈ looseOfMembers ms := by
  induction ms with
  | nil => exact nomatch hm
  | cons n ms ih =>
    rw [looseOfMembers_cons, List.mem_append]
    cases List.mem_cons.mp hm with
    | inl he => exact Or.inl (he ▸ ht)
    | inr hm => exact Or.inr (ih hm)

theorem handles_sources {b : MarketBrief} {ref : String}
    (href : ref ∈ b.sources.map BriefSource.citationRef) :
    (HandleKind.citation, ref) ∈ handles b.toJson := by
  obtain ⟨s, hs, rfl⟩ := List.mem_map.mp href
  have hmember : ("sources", Json.arr (b.sources.map BriefSource.toJson)) ∈ b.members := by
    simp [MarketBrief.members]
  refine handlesOfMembers_of_mem hmember ?_
  rw [handlesOfMembers, handlesOfMembers, List.append_nil, if_neg (by decide)]
  refine handlesOfItems_of_mem (List.mem_map_of_mem hs) ?_
  simp [BriefSource.toJson, handles, handlesOfMembers, refKind]

theorem loose_supporting {b : MarketBrief} {fact : QualitativeFactDraft}
    (hfact : .qualitative fact ∈ b.facts) {ref : String}
    (href : ref ∈ fact.supportingCitationRefs) : ref ∈ loose b.toJson := by
  have hmember : ("facts", Json.arr (b.facts.map HydratedFact.toJson)) ∈ b.members := by
    simp [MarketBrief.members]
  have hrefs : ref ∈ looseOfItems (fact.supportingCitationRefs.map Json.str) :=
    looseOfItems_of_mem (List.mem_map_of_mem href) List.mem_cons_self
  refine looseOfMembers_of_mem hmember ?_
  rw [looseOfMembers, looseOfMembers, List.append_nil, if_neg (by decide)]
  refine List.mem_cons_of_mem _ (looseOfItems_of_mem (List.mem_map_of_mem hfact) ?_)
  simp [HydratedFact.toJson, loose, looseOfMembers, ofStrings, hrefs]

/-- An accepted brief with a qualitative fact shows the references that the fact rests on. -/
theorem qualitative_not_in_place {engine : TextEngine} {input : Json} {ledger : Ledger}
    {b : MarketBrief} (hb : finalizeBrief engine input ledger = .ok b) {fact : QualitativeFactDraft}
    (hfact : .qualitative fact ∈ b.facts) (hrefs : fact.supportingCitationRefs ≠ [])
    {results : List ToolResult} (hr : ⟨.ok, some b.members⟩ ∈ results) :
    ¬ HandlesInPlace results := by
  intro hplace
  obtain ⟨ref, rest, heq⟩ := List.exists_cons_of_ne_nil hrefs
  have href : ref ∈ fact.supportingCitationRefs := heq ▸ List.mem_cons_self
  have hsource := (Browser.finalizeBrief_selfContained hb).facts _ hfact ref href
  refine hplace _ hr ref (loose_supporting hfact href) (.citation, ref) ?_ List.infix_rfl
  exact List.mem_flatMap.mpr ⟨_, hr, handles_sources hsource⟩

instance (results : List ToolResult) : Decidable (NoHandleShown results) :=
  inferInstanceAs (Decidable (∀ text ∈ (showAll empty results).1, ∀ q ∈ placed results,
    ¬ q.2.toList <:+: text))

instance (results : List ToolResult) : Decidable (HandlesInPlace results) :=
  inferInstanceAs (Decidable (∀ r ∈ results, ∀ t ∈ loose (shownData r), ∀ q ∈ placed results,
    ¬ q.2.toList <:+: t.toList))

instance (handle : String) : Decidable (Minted handle) :=
  decidable_of_iff (Browser.handleMark <+: handle.toList ∧ handle.toList.all handleChar = true) <| by
    rw [List.all_eq_true]
    exact ⟨fun h => ⟨h.1, h.2⟩, fun h => ⟨h.signed, h.chars⟩⟩

/-- A query result with one record. -/
def queryResult : ToolResult :=
  ⟨.ok, some (bankRateQuery "2026-08-02T00:00:00Z"
    [bankRateRecord "rate-observation" "h1.rate" (some "5.25")])⟩

theorem handles_confined_queryResult :
    NoHandleShown [queryResult] ∧ AliasesFaithful [queryResult] :=
  (handles_confined_iff [queryResult] (by decide +kernel)).mpr (by decide +kernel)

/-- A draft whose one fact is a sentence about a source. -/
def publisherDraft : Json :=
  bankRateDraft [.obj [("claim_id", .str "publisher"), ("kind", .str "qualitative"),
    ("confidence", .str "high"), ("text", .str "Published by the Bank of England."),
    ("supporting_citation_refs", .arr [.str "h1.rate"])]]

/-- What `finalize_market_brief` returns for it. -/
def publisherResult : ToolResult :=
  ⟨.ok, (finalizeBrief plainEngine publisherDraft plainLedger).toOption.map MarketBrief.members⟩

theorem not_confined : ¬ ∀ results : List ToolResult, (∀ q ∈ placed results, Minted q.2) →
    NoHandleShown results ∧ AliasesFaithful results := by
  intro h
  have hshown : ¬ NoHandleShown [publisherResult] := by decide +kernel
  exact hshown (h [publisherResult] (by decide +kernel)).1

end NanFung.Brief
