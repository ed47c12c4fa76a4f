import NanFung.Brief.Ledger
import NanFung.Lib.JsonCancel
import NanFung.Lib.StableSort

/-!
# Refresh requests of a turn

`registerRefreshRequest` of `runtime.ts`: a tool call of a turn keeps the request it made first, and a
retry must come with the same arguments. Arguments are compared by a digest of their canonical text,
in which the keys of an object are sorted as `localeCompare` orders them.
-/

namespace NanFung.Brief

open Json StableSort

/-! ## The canonical text -/

/-- `left.localeCompare(right) <= 0`: a total preorder, which may tie distinct strings. -/
structure Collation where
  le : String → String → Bool
  total : ∀ a b, le a b = true ∨ le b a = true
  trans : ∀ a b c, le a b = true → le b c = true → le a c = true

namespace Collation

variable {α : Type}

/-- The order of the members of an object. -/
def memberLe (c : Collation) (m n : String × α) : Prop := c.le m.1 n.1 = true

def keyLe (c : Collation) (k l : String) : Prop := c.le k l = true

instance (c : Collation) (m n : String × α) : Decidable (c.memberLe m n) :=
  inferInstanceAs (Decidable (_ = true))

instance (c : Collation) (k l : String) : Decidable (c.keyLe k l) :=
  inferInstanceAs (Decidable (_ = true))

instance (c : Collation) : Std.Total (α := String × α) c.memberLe := ⟨fun m n => c.total m.1 n.1⟩

instance (c : Collation) : IsTrans (String × α) c.memberLe := ⟨fun m n o => c.trans m.1 n.1 o.1⟩

end Collation

mutual

/-- `canonicalJson(value)`: the sort reads nothing but the keys. -/
def canonicalJson (c : Collation) : Json → List Char
  | .arr items => '[' :: commaJoin (canonicalItems c items) ++ [']']
  | .obj members =>
    let entries := (canonicalMembers c members).insertionSort c.memberLe
    '\x7b' :: commaJoin (entries.map fun e => quote e.1 ++ ':' :: e.2) ++ ['\x7d']
  | v => stringify v

def canonicalItems (c : Collation) : List Json → List (List Char)
  | [] => []
  | x :: xs => canonicalJson c x :: canonicalItems c xs

def canonicalMembers (c : Collation) : Members → List (String × List Char)
  | [] => []
  | (k, x) :: xs => (k, canonicalJson c x) :: canonicalMembers c xs

end

/-! ## Requests -/

structure RefreshEntry where
  fingerprint : String
  refreshRequestId : String
  deriving DecidableEq, Repr

def refreshKey (turnId toolCallId : String) : String := turnId ++ ":" ++ toolCallId

/-- The identifier that `turnIdFor` gives to the `n`-th turn of a session. -/
def turnIdOf (n : Nat) : String := "turn_" ++ toString n

inductive RegisterError where
  | refreshArgsChanged
  deriving DecidableEq, Repr

/-- `registerRefreshRequest(turnId, toolCallId, args)`, with what the digest and the identifier
factory return. -/
def registerRefreshRequest (c : Collation) (sha256 : List Char → String)
    (refreshIds : Dict String RefreshEntry) (turnId toolCallId : String) (args : Json)
    (fresh : String) : Except RegisterError (String × Dict String RefreshEntry) :=
  let fingerprint := sha256 (canonicalJson c args)
  match refreshIds.get? (refreshKey turnId toolCallId) with
  | some existing =>
    if existing.fingerprint ≠ fingerprint then .error .refreshArgsChanged
    else .ok (existing.refreshRequestId, refreshIds)
  | none =>
    let id := "refresh_" ++ fresh
    .ok (id, refreshIds.set (refreshKey turnId toolCallId) ⟨fingerprint, id⟩)

/-! ## Equal values -/

mutual

/-- Equality of JSON values: an object is a map from its keys. -/
def Same : Json → Json → Prop
  | .arr xs, .arr ys => SameItems xs ys
  | .obj ms, .obj ns => ms.length = ns.length ∧ SameMembers ms ns
  | .arr _, _ | .obj _, _ => False
  | a, b => a = b

def SameItems : List Json → List Json → Prop
  | [], [] => True
  | x :: xs, y :: ys => Same x y ∧ SameItems xs ys
  | _, _ => False

def SameMembers : Members → Members → Prop
  | [], _ => True
  | (k, x) :: ms, ns => (∃ y, lookup k ns = some y ∧ Same x y) ∧ SameMembers ms ns

end

mutual

/-- Keys of an object that the collation ties stand in the order they have in the other value. -/
def TiesAgree (c : Collation) : Json → Json → Prop
  | .arr xs, .arr ys => TiesAgreeItems c xs ys
  | .obj ms, .obj ns =>
    (∀ k, (ms.map Prod.fst).filter (tied c.keyLe k) = (ns.map Prod.fst).filter (tied c.keyLe k)) ∧
      TiesAgreeMembers c ms ns
  | _, _ => True

def TiesAgreeItems (c : Collation) : List Json → List Json → Prop
  | x :: xs, y :: ys => TiesAgree c x y ∧ TiesAgreeItems c xs ys
  | _, _ => True

def TiesAgreeMembers (c : Collation) : Members → Members → Prop
  | [], _ => True
  | (k, x) :: ms, ns => (∀ y, lookup k ns = some y → TiesAgree c x y) ∧ TiesAgreeMembers c ms ns

end

variable {c : Collation} {ms ns : Members}

theorem sameMembers_iff :
    SameMembers ms ns ↔ ∀ m ∈ ms, ∃ y, lookup m.1 ns = some y ∧ Same m.2 y := by
  induction ms with
  | nil => simp [SameMembers]
  | cons m ms ih => rw [SameMembers, List.forall_mem_cons, ih]

theorem tiesAgreeMembers_iff : TiesAgreeMembers c ms ns ↔
    ∀ m ∈ ms, ∀ y, lookup m.1 ns = some y → TiesAgree c m.2 y := by
  induction ms with
  | nil => simp [TiesAgreeMembers]
  | cons m ms ih => rw [TiesAgreeMembers, List.forall_mem_cons, ih]

/-! ## Sorted values -/

mutual

/-- A value with the members of every object sorted. -/
def sortKeys (c : Collation) : Json → Json
  | .arr items => .arr (sortKeysItems c items)
  | .obj members => .obj ((sortKeysMembers c members).insertionSort c.memberLe)
  | v => v

def sortKeysItems (c : Collation) : List Json → List Json
  | [] => []
  | x :: xs => sortKeys c x :: sortKeysItems c xs

def sortKeysMembers (c : Collation) : Members → Members
  | [] => []
  | (k, x) :: xs => (k, sortKeys c x) :: sortKeysMembers c xs

end

theorem sortKeysMembers_eq (c : Collation) (ms : Members) :
    sortKeysMembers c ms = ms.map fun m => (m.1, sortKeys c m.2) := by
  induction ms with
  | nil => rfl
  | cons m ms ih => rw [sortKeysMembers, ih, List.map_cons]

theorem stringifyMembers_eq (ms : Members) :
    stringifyMembers ms = ms.map fun m => quote m.1 ++ ':' :: stringify m.2 := by
  induction ms with
  | nil => rfl
  | cons m ms ih => rw [stringifyMembers, ih, List.map_cons]

mutual

/-- The canonical text is the text of the sorted value. -/
theorem canonicalJson_eq (c : Collation) : ∀ v : Json, canonicalJson c v = stringify (sortKeys c v)
  | .null | .bool _ | .int _ | .float _ | .str _ => rfl
  | .arr items => by rw [canonicalJson, sortKeys, stringify, canonicalItems_eq c items]
  | .obj members => by
    have hsort : (canonicalMembers c members).insertionSort c.memberLe =
        ((sortKeysMembers c members).insertionSort c.memberLe).map
          fun m => (m.1, stringify m.2) := by
      rw [canonicalMembers_eq c members]
      exact (List.map_insertionSort c.memberLe c.memberLe
        (fun m : String × Json => (m.1, stringify m.2)) _ fun _ _ _ _ => Iff.rfl).symm
    rw [canonicalJson, sortKeys, stringify, hsort, stringifyMembers_eq, List.map_map]
    rfl

theorem canonicalItems_eq (c : Collation) : ∀ items : List Json,
    canonicalItems c items = stringifyItems (sortKeysItems c items)
  | [] => rfl
  | x :: xs => by
    rw [canonicalItems, sortKeysItems, stringifyItems, canonicalJson_eq c x, canonicalItems_eq c xs]

theorem canonicalMembers_eq (c : Collation) : ∀ members : Members,
    canonicalMembers c members = (sortKeysMembers c members).map fun m => (m.1, stringify m.2)
  | [] => rfl
  | (k, x) :: xs => by
    rw [canonicalMembers, sortKeysMembers, List.map_cons, canonicalJson_eq c x,
      canonicalMembers_eq c xs]

end

/-! ## What the sort forgets -/

theorem lookup_eq_get? (key : String) (ms : Members) : lookup key ms = Dict.get? key ms := by
  induction ms with
  | nil => rfl
  | cons m ms ih => rw [lookup_cons, Dict.get?_cons, ih]

theorem lookup_of_mem (hms : (ms.map Prod.fst).Nodup) {m : String × Json} (hm : m ∈ ms) :
    lookup m.1 ms = some m.2 := by
  rw [lookup_eq_get?]
  exact Dict.get?_of_mem hms hm

theorem mem_of_lookup {k : String} {v : Json} (h : lookup k ms = some v) : (k, v) ∈ ms := by
  rw [lookup_eq_get?] at h
  exact Dict.mem_of_get? h

/-- The members of a class have the keys of a class. -/
theorem map_filter_tied (k : String) (v : Json) (ms : Members) :
    (ms.filter (tied c.memberLe (k, v))).map Prod.fst =
      (ms.map Prod.fst).filter (tied c.keyLe k) := by
  rw [List.filter_map]
  rfl

/-- Two objects have one sorted form exactly when they have the same members and their tied keys
stand in the same order. -/
theorem sortKeys_obj (hns : (ns.map Prod.fst).Nodup)
    (ih : ∀ m ∈ ms, ∀ n ∈ ns, sortKeys c m.2 = sortKeys c n.2 ↔
      Same m.2 n.2 ∧ TiesAgree c m.2 n.2) :
    sortKeys c (.obj ms) = sortKeys c (.obj ns) ↔
      Same (.obj ms) (.obj ns) ∧ TiesAgree c (.obj ms) (.obj ns) := by
  have hkeys : ∀ l : Members, (sortKeysMembers c l).map Prod.fst = l.map Prod.fst := by
    intro l
    rw [sortKeysMembers_eq, List.map_map]
    rfl
  rw [sortKeys, sortKeys, Json.obj.injEq, insertionSort_eq_iff, Same, TiesAgree, sameMembers_iff,
    tiesAgreeMembers_iff]
  constructor
  · intro h
    have hsort : (sortKeysMembers c ms).insertionSort c.memberLe =
        (sortKeysMembers c ns).insertionSort c.memberLe := (insertionSort_eq_iff _ _).mpr h
    have hperm : (sortKeysMembers c ms).Perm (sortKeysMembers c ns) :=
      (List.perm_insertionSort c.memberLe _).symm.trans (hsort ▸ List.perm_insertionSort c.memberLe _)
    have hlength : ms.length = ns.length := by
      simpa [sortKeysMembers_eq] using hperm.length_eq
    -- the member of `ns` that stands under the key of a member of `ms`
    have hmember : ∀ m ∈ ms, ∃ n ∈ ns, n.1 = m.1 ∧ Same m.2 n.2 ∧ TiesAgree c m.2 n.2 := by
      intro m hm
      have hmem : (m.1, sortKeys c m.2) ∈ sortKeysMembers c ns := by
        rw [← hperm.mem_iff, sortKeysMembers_eq]
        exact List.mem_map_of_mem (f := fun m : String × Json => (m.1, sortKeys c m.2)) hm
      rw [sortKeysMembers_eq] at hmem
      obtain ⟨n, hn, heq⟩ := List.mem_map.mp hmem
      obtain ⟨hkey, hvalue⟩ := Prod.mk.inj heq
      exact ⟨n, hn, hkey, (ih m hm n hn).mp hvalue.symm⟩
    refine ⟨⟨hlength, fun m hm => ?_⟩, fun k => ?_, fun m hm y hy => ?_⟩
    · obtain ⟨n, hn, hkey, hsame, -⟩ := hmember m hm
      exact ⟨n.2, hkey ▸ lookup_of_mem hns hn, hsame⟩
    · have := congrArg (List.map Prod.fst) (h (k, .null))
      rwa [map_filter_tied, map_filter_tied, hkeys, hkeys] at this
    · obtain ⟨n, hn, hkey, -, hties⟩ := hmember m hm
      rw [← hkey, lookup_of_mem hns hn] at hy
      exact Option.some.inj hy ▸ hties
  · intro ⟨⟨_, hsame⟩, hclass, hties⟩ e
    -- both lists of members are read off `ns` by their keys
    let read : String → String × Json := fun k => (k, ((lookup k ns).map (sortKeys c)).getD .null)
    have hms' : sortKeysMembers c ms = (ms.map Prod.fst).map read := by
      rw [sortKeysMembers_eq, List.map_map]
      apply List.map_congr_left
      intro m hm
      obtain ⟨y, hy, hmy⟩ := hsame m hm
      have hvalue := (ih m hm _ (mem_of_lookup hy)).mpr ⟨hmy, hties m hm y hy⟩
      show (m.1, sortKeys c m.2) = (m.1, ((lookup m.1 ns).map (sortKeys c)).getD .null)
      rw [hy, hvalue]
      rfl
    have hns' : sortKeysMembers c ns = (ns.map Prod.fst).map read := by
      rw [sortKeysMembers_eq, List.map_map]
      apply List.map_congr_left
      intro n hn
      show (n.1, sortKeys c n.2) = (n.1, ((lookup n.1 ns).map (sortKeys c)).getD .null)
      rw [lookup_of_mem hns hn]
      rfl
    have hfilter : ∀ ks : List String, (ks.map read).filter (tied c.memberLe e) =
        (ks.filter (tied c.keyLe e.1)).map read := by
      intro ks
      rw [List.filter_map]
      rfl
    rw [hms', hns', hfilter, hfilter, hclass e.1]

mutual

theorem sortKeys_eq_iff (c : Collation) : ∀ {a b : Json}, WellFormed a → WellFormed b →
    (sortKeys c a = sortKeys c b ↔ Same a b ∧ TiesAgree c a b)
  | .arr xs, b, ha, hb => by
    cases b with
    | arr ys =>
      rw [sortKeys, sortKeys, Json.arr.injEq, Same, TiesAgree]
      exact sortKeysItems_eq_iff c ha hb
    | _ => simp [sortKeys, Same]
  | .obj ms, b, ha, hb => by
    cases b with
    | obj ns =>
      exact sortKeys_obj hb.1 fun m hm n hn =>
        sortKeysMembers_eq_iff c ha.2 m hm (wellFormedMembers_iff.mp hb.2 n hn)
    | _ => simp [sortKeys, Same]
  | .null, b, _, _ => by cases b <;> simp [sortKeys, Same, TiesAgree]
  | .bool _, b, _, _ => by cases b <;> simp [sortKeys, Same, TiesAgree]
  | .int _, b, _, _ => by cases b <;> simp [sortKeys, Same, TiesAgree]
  | .float _, b, _, _ => by cases b <;> simp [sortKeys, Same, TiesAgree]
  | .str _, b, _, _ => by cases b <;> simp [sortKeys, Same, TiesAgree]

theorem sortKeysItems_eq_iff (c : Collation) : ∀ {xs ys : List Json}, WellFormedItems xs →
    WellFormedItems ys →
    (sortKeysItems c xs = sortKeysItems c ys ↔ SameItems xs ys ∧ TiesAgreeItems c xs ys)
  | [], ys, _, _ => by cases ys <;> simp [sortKeysItems, SameItems, TiesAgreeItems]
  | x :: xs, [], _, _ => by simp [sortKeysItems, SameItems]
  | x :: xs, y :: ys, hx, hy => by
    rw [sortKeysItems, sortKeysItems, List.cons.injEq, sortKeys_eq_iff c hx.1 hy.1,
      sortKeysItems_eq_iff c hx.2 hy.2, SameItems, TiesAgreeItems]
    tauto

theorem sortKeysMembers_eq_iff (c : Collation) : ∀ {ms : Members}, WellFormedMembers ms →
    ∀ m ∈ ms, ∀ {b : Json}, WellFormed b →
    (sortKeys c m.2 = sortKeys c b ↔ Same m.2 b ∧ TiesAgree c m.2 b)
  | (k, x) :: ms, hms, m, hm, b, hb => by
    cases List.mem_cons.mp hm with
    | inl he => exact he ▸ sortKeys_eq_iff c hms.1 hb
    | inr hm => exact sortKeysMembers_eq_iff c hms.2 m hm hb

end

mutual

theorem wellFormed_sortKeys (c : Collation) : ∀ {a : Json}, WellFormed a → WellFormed (sortKeys c a)
  | .null, _ | .bool _, _ | .int _, _ | .str _, _ => trivial
  | .float _, h => h
  | .arr _, h => wellFormed_sortKeysItems c h
  | .obj ms, h => by
    have hperm := List.perm_insertionSort c.memberLe (sortKeysMembers c ms)
    have hnames : (sortKeysMembers c ms).map Prod.fst = ms.map Prod.fst := by
      rw [sortKeysMembers_eq, List.map_map]
      rfl
    rw [sortKeys, WellFormed]
    refine ⟨(hperm.map Prod.fst).nodup_iff.mpr (hnames ▸ h.1), ?_⟩
    apply wellFormedMembers_iff.mpr
    intro m hm
    exact wellFormed_sortKeysMembers c h.2 m (hperm.mem_iff.mp hm)

theorem wellFormed_sortKeysItems (c : Collation) : ∀ {xs : List Json}, WellFormedItems xs →
    WellFormedItems (sortKeysItems c xs)
  | [], _ => trivial
  | _ :: _, h => ⟨wellFormed_sortKeys c h.1, wellFormed_sortKeysItems c h.2⟩

theorem wellFormed_sortKeysMembers (c : Collation) : ∀ {ms : Members}, WellFormedMembers ms →
    ∀ m ∈ sortKeysMembers c ms, WellFormed m.2
  | (k, x) :: ms, h, m, hm => by
    cases List.mem_cons.mp hm with
    | inl he => exact he ▸ wellFormed_sortKeys c h.1
    | inr hm => exact wellFormed_sortKeysMembers c h.2 m hm

end

/-- A value as `JSON.parse` makes it. -/
abbrev JsonValue := { v : Json // WellFormed v }

theorem canonicalJson_eq_iff (c : Collation) (a b : JsonValue) :
    canonicalJson c a = canonicalJson c b ↔ Same a b ∧ TiesAgree c a b := by
  rw [canonicalJson_eq, canonicalJson_eq, ← sortKeys_eq_iff c a.2 b.2]
  exact ⟨stringify_injective (wellFormed_sortKeys c a.2) (wellFormed_sortKeys c b.2),
    fun h => congrArg stringify h⟩

/-! ## Runs of requests -/

structure RegisterCall where
  turnId : String
  toolCallId : String
  args : Json
  fresh : String

variable {sha256 : List Char → String} {s t : Dict String RefreshEntry} {id fresh : String}
  {turnId toolCallId : String} {args : Json}

/-- What a call leaves, whether or not it throws. -/
def registerStep (c : Collation) (sha256 : List Char → String) (s : Dict String RefreshEntry)
    (r : RegisterCall) : Dict String RefreshEntry :=
  match registerRefreshRequest c sha256 s r.turnId r.toolCallId r.args r.fresh with
  | .ok p => p.2
  | .error _ => s

def registerAll (c : Collation) (sha256 : List Char → String) (s : Dict String RefreshEntry)
    (calls : List RegisterCall) : Dict String RefreshEntry :=
  calls.foldl (registerStep c sha256) s

/-- A retry compares the digests. -/
theorem registerRefreshRequest_retry {e : RefreshEntry}
    (h : s.get? (refreshKey turnId toolCallId) = some e) :
    registerRefreshRequest c sha256 s turnId toolCallId args fresh =
      if e.fingerprint ≠ sha256 (canonicalJson c args) then .error .refreshArgsChanged
      else .ok (e.refreshRequestId, s) := by
  simp only [registerRefreshRequest, h]

theorem registerRefreshRequest_first (h : s.get? (refreshKey turnId toolCallId) = none) :
    registerRefreshRequest c sha256 s turnId toolCallId args fresh =
      .ok ("refresh_" ++ fresh, s.set (refreshKey turnId toolCallId)
        ⟨sha256 (canonicalJson c args), "refresh_" ++ fresh⟩) := by
  simp only [registerRefreshRequest, h]

/-- What a registered request leaves: an entry for its arguments, and every other entry as it was. -/
theorem registerRefreshRequest_ok
    (h : registerRefreshRequest c sha256 s turnId toolCallId args fresh = .ok (id, t)) :
    t.get? (refreshKey turnId toolCallId) = some ⟨sha256 (canonicalJson c args), id⟩ ∧
      ∀ key, key ≠ refreshKey turnId toolCallId → t.get? key = s.get? key := by
  cases hget : s.get? (refreshKey turnId toolCallId) with
  | some e =>
    rw [registerRefreshRequest_retry hget] at h
    split at h
    · exact nomatch h
    · next hsame =>
      obtain ⟨rfl, rfl⟩ := Prod.mk.inj (Except.ok.inj h)
      refine ⟨?_, fun _ _ => rfl⟩
      rw [hget, ← of_not_not hsame]
  | none =>
    rw [registerRefreshRequest_first hget] at h
    obtain ⟨rfl, rfl⟩ := Prod.mk.inj (Except.ok.inj h)
    exact ⟨Dict.get?_set_self, fun key hne => Dict.get?_set_of_ne hne⟩

/-- An entry is never replaced. -/
theorem get?_registerStep {key : String} {e : RefreshEntry} (h : s.get? key = some e)
    (r : RegisterCall) : (registerStep c sha256 s r).get? key = some e := by
  unfold registerStep
  cases hr : registerRefreshRequest c sha256 s r.turnId r.toolCallId r.args r.fresh with
  | error _ => exact h
  | ok p =>
    show p.2.get? key = some e
    by_cases hkey : key = refreshKey r.turnId r.toolCallId
    · rw [hkey] at h
      rw [registerRefreshRequest_retry h] at hr
      split at hr
      · exact nomatch hr
      · rw [← Except.ok.inj hr, hkey]
        exact h
    · rw [(registerRefreshRequest_ok hr).2 key hkey]
      exact h

theorem get?_registerAll {key : String} {e : RefreshEntry} (h : s.get? key = some e)
    (calls : List RegisterCall) : (registerAll c sha256 s calls).get? key = some e := by
  induction calls generalizing s with
  | nil => exact h
  | cons r calls ih => exact ih (get?_registerStep h r)

/-- The identifiers that a session gives its turns never make two calls share a key. -/
theorem refreshKey_turnIdOf_inj {m n : Nat} {call call' : String}
    (h : refreshKey (turnIdOf m) call = refreshKey (turnIdOf n) call') : m = n ∧ call = call' := by
  have hl := congrArg String.toList h
  simp only [refreshKey, turnIdOf, String.toList_append, List.append_assoc] at hl
  have hcolon : ∀ call : String, Delimited (":".toList ++ call.toList) :=
    fun call => delimited_cons (by decide)
  obtain ⟨hdigits, hrest⟩ := numeral_cancel (numeral_int m).chars (numeral_int n).chars (hcolon call)
    (hcolon call') (List.append_cancel_left hl)
  exact ⟨Int.ofNat.inj (int_text_inj hdigits),
    String.toList_injective (List.append_cancel_left hrest)⟩

/-! ## Retries -/

/-- The retry of a request that got `id`: equal arguments get it back, others are refused. -/
structure RetriedByContent (c : Collation) (sha256 : List Char → String)
    (s : Dict String RefreshEntry) (turnId toolCallId id : String) (a b : Json) (fresh : String) :
    Prop where
  same : Same a b → ∃ t, registerRefreshRequest c sha256 s turnId toolCallId b fresh = .ok (id, t)
  differs : ¬ Same a b →
    registerRefreshRequest c sha256 s turnId toolCallId b fresh = .error .refreshArgsChanged

/-- A request of one call leaves the entry of another one as it is. -/
def Separate (c : Collation) (sha256 : List Char → String) (turnId toolCallId turnId' toolCallId' :
    String) : Prop :=
  ∀ s t args fresh id,
    registerRefreshRequest c sha256 s turnId toolCallId args fresh = .ok (id, t) →
    t.get? (refreshKey turnId' toolCallId') = s.get? (refreshKey turnId' toolCallId')

theorem retriedByContent_iff (hsha : Function.Injective sha256) (a b : JsonValue)
    (h : s.get? (refreshKey turnId toolCallId) = some ⟨sha256 (canonicalJson c a), id⟩) :
    RetriedByContent c sha256 s turnId toolCallId id a b fresh ↔ (Same a b → TiesAgree c a b) := by
  have hretry : registerRefreshRequest c sha256 s turnId toolCallId b fresh =
      if sha256 (canonicalJson c a) ≠ sha256 (canonicalJson c b) then .error .refreshArgsChanged
      else .ok (id, s) := registerRefreshRequest_retry h
  have hdigest : sha256 (canonicalJson c a) = sha256 (canonicalJson c b) ↔
      Same a b ∧ TiesAgree c a b := by
    rw [hsha.eq_iff, canonicalJson_eq_iff]
  constructor
  · intro hcontent hsame
    by_contra hties
    obtain ⟨t, ht⟩ := hcontent.same hsame
    rw [hretry, if_pos fun h => hties (hdigest.mp h).2] at ht
    exact nomatch ht
  · intro hties
    refine ⟨fun hsame => ⟨s, ?_⟩, fun hdiffers => ?_⟩
    · rw [hretry, if_neg (not_not_intro (hdigest.mpr ⟨hsame, hties hsame⟩))]
    · rw [hretry, if_pos fun h => hdiffers (hdigest.mp h).1]

theorem separate_iff {turnId' toolCallId' : String} :
    Separate c sha256 turnId toolCallId turnId' toolCallId' ↔
      refreshKey turnId' toolCallId' ≠ refreshKey turnId toolCallId := by
  constructor
  · intro h hkey
    have hfirst : registerRefreshRequest c sha256 [] turnId toolCallId .null "" =
        .ok ("refresh_", _) :=
      registerRefreshRequest_first rfl
    have hsame := h _ _ _ _ _ hfirst
    rw [hkey, (registerRefreshRequest_ok hfirst).1] at hsame
    exact nomatch hsame
  · intro hkey s t args fresh id h
    exact (registerRefreshRequest_ok h).2 _ hkey

/-- A retry, whatever was registered since, is identified by the content of its arguments exactly when
equal arguments write the keys that the collation ties in one order; and distinct calls have their own
entries exactly when the texts of their keys differ. -/
theorem registerRefreshRequest_content (c : Collation) (hsha : Function.Injective sha256)
    (a b : JsonValue)
    (h : registerRefreshRequest c sha256 s turnId toolCallId a fresh = .ok (id, t))
    (calls : List RegisterCall) (fresh' turnId' toolCallId' : String) :
    (RetriedByContent c sha256 (registerAll c sha256 t calls) turnId toolCallId id a b fresh' ∧
        ((turnId, toolCallId) ≠ (turnId', toolCallId') →
          Separate c sha256 turnId toolCallId turnId' toolCallId')) ↔
      (Same a b → TiesAgree c a b) ∧
        ((turnId, toolCallId) ≠ (turnId', toolCallId') →
          refreshKey turnId' toolCallId' ≠ refreshKey turnId toolCallId) := by
  have hentry := @get?_registerAll c sha256 _ _ _ (registerRefreshRequest_ok h).1 calls
  rw [retriedByContent_iff hsha a b hentry, separate_iff]

/-! ## Tied keys -/

namespace Accents

/-- A letter with an accent as its base letter and a combining accent. -/
def decompose (k : String) : List Char :=
  k.toList.flatMap fun c => if c = 'é' then ['e', Char.ofNat 0x301] else [c]

/-- A collation that ties a letter with its decomposed form, as `localeCompare` does. -/
def collation : Collation where
  le := fun k l => decide (decompose k ≤ decompose l)
  total := fun k l => by
    simpa only [decide_eq_true_eq] using le_total (decompose k) (decompose l)
  trans := fun k l m hkl hlm => by
    rw [decide_eq_true_eq] at hkl hlm ⊢
    exact le_trans hkl hlm

def composed : String := "é"

def decomposed : String := String.ofList ['e', Char.ofNat 0x301]

/-- Two objects with the same members, in the one order and in the other. -/
def first : JsonValue :=
  ⟨.obj [(composed, .int 1), (decomposed, .int 2)], by decide, trivial, trivial, trivial⟩

def second : JsonValue :=
  ⟨.obj [(decomposed, .int 2), (composed, .int 1)], by decide, trivial, trivial, trivial⟩

end Accents

/-- The same arguments with their tied keys in the other order: the retry is refused. -/
theorem registerRefreshRequest_content_reordered :
    (∃ k l, k ≠ l ∧ Accents.collation.le k l = true ∧ Accents.collation.le l k = true) ∧
    ∃ id t, registerRefreshRequest Accents.collation String.ofList [] (turnIdOf 1) "call_1"
        Accents.first "r" = .ok (id, t) ∧
      ¬ RetriedByContent Accents.collation String.ofList t (turnIdOf 1) "call_1" id
        Accents.first Accents.second "s" := by
  refine ⟨⟨Accents.composed, Accents.decomposed, by decide⟩, _, _, rfl, fun h => ?_⟩
  have hsame : Same Accents.first Accents.second :=
    ⟨rfl, ⟨_, rfl, rfl⟩, ⟨_, rfl, rfl⟩, trivial⟩
  obtain ⟨t, ht⟩ := h.same hsame
  have hrefused : registerRefreshRequest Accents.collation String.ofList
      ((registerStep Accents.collation String.ofList []
        ⟨turnIdOf 1, "call_1", Accents.first, "r"⟩)) (turnIdOf 1) "call_1" Accents.second "s" =
      .error .refreshArgsChanged := by decide +kernel
  exact nomatch hrefused.symm.trans ht

theorem registerRefreshRequest_content_repeated :
    ∃ id t, registerRefreshRequest Accents.collation String.ofList [] (turnIdOf 1) "call_1"
        Accents.first "r" = .ok (id, t) ∧
      RetriedByContent Accents.collation String.ofList
        (registerAll Accents.collation String.ofList t
          [⟨turnIdOf 1, "call_2", Accents.second, "s"⟩]) (turnIdOf 1) "call_1" id
        Accents.first Accents.first "t" ∧
      Separate Accents.collation String.ofList (turnIdOf 1) "call_1" (turnIdOf 1) "call_2" := by
  have hties : TiesAgree Accents.collation Accents.first Accents.first :=
    ⟨fun _ => rfl, fun _ _ => trivial, fun _ _ => trivial, trivial⟩
  have hcalls : (turnIdOf 1, "call_1") ≠ (turnIdOf 1, "call_2") := by decide
  have hkeys : refreshKey (turnIdOf 1) "call_2" ≠ refreshKey (turnIdOf 1) "call_1" := by decide
  have hfirst : registerRefreshRequest Accents.collation String.ofList [] (turnIdOf 1) "call_1"
      Accents.first "r" = .ok ("refresh_r", _) := rfl
  have h := (registerRefreshRequest_content Accents.collation
    (fun _ _ h => String.ofList_injective h) Accents.first Accents.first hfirst
    [⟨turnIdOf 1, "call_2", Accents.second, "s"⟩] "t" (turnIdOf 1) "call_2").mpr
    ⟨fun _ => hties, fun _ => hkeys⟩
  exact ⟨_, _, rfl, h.1, h.2 hcalls⟩

end NanFung.Brief
