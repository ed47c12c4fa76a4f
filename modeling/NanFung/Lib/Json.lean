import Mathlib.Tactic
import Mathlib.Data.List.Sort
import Mathlib.Data.String.Basic

/-!
# JSON values

Values of the JSON data model as a dynamically typed program holds them: an object is the list of
its members in insertion order (`dict`), an integer is unbounded, a binary float is carried by its
`repr`. `render` is compact serialisation with sorted keys and unescaped non-ASCII characters.
-/

namespace NanFung

inductive Json where
  | null
  | bool (b : Bool)
  | int (i : Int)
  | float (text : String)
  | str (s : String)
  | arr (items : List Json)
  | obj (members : List (String × Json))
  deriving Repr, Inhabited

namespace Json

/-! ## Decidable equality -/

mutual

def decEq : (a b : Json) → Decidable (a = b)
  | .null, .null => isTrue rfl
  | .bool a, .bool b => decidable_of_iff (a = b) (by simp)
  | .int a, .int b => decidable_of_iff (a = b) (by simp)
  | .float a, .float b => decidable_of_iff (a = b) (by simp)
  | .str a, .str b => decidable_of_iff (a = b) (by simp)
  | .arr a, .arr b => @decidable_of_iff _ (a = b) (by simp) (decEqItems a b)
  | .obj a, .obj b => @decidable_of_iff _ (a = b) (by simp) (decEqMembers a b)
  | .null, .bool _ | .null, .int _ | .null, .float _ | .null, .str _ | .null, .arr _
  | .null, .obj _ | .bool _, .null | .bool _, .int _ | .bool _, .float _ | .bool _, .str _
  | .bool _, .arr _ | .bool _, .obj _ | .int _, .null | .int _, .bool _ | .int _, .float _
  | .int _, .str _ | .int _, .arr _ | .int _, .obj _ | .float _, .null | .float _, .bool _
  | .float _, .int _ | .float _, .str _ | .float _, .arr _ | .float _, .obj _ | .str _, .null
  | .str _, .bool _ | .str _, .int _ | .str _, .float _ | .str _, .arr _ | .str _, .obj _
  | .arr _, .null | .arr _, .bool _ | .arr _, .int _ | .arr _, .float _ | .arr _, .str _
  | .arr _, .obj _ | .obj _, .null | .obj _, .bool _ | .obj _, .int _ | .obj _, .float _
  | .obj _, .str _ | .obj _, .arr _ => isFalse (fun h => nomatch h)

def decEqItems : (a b : List Json) → Decidable (a = b)
  | [], [] => isTrue rfl
  | [], _ :: _ => isFalse (fun h => nomatch h)
  | _ :: _, [] => isFalse (fun h => nomatch h)
  | x :: xs, y :: ys =>
    @decidable_of_iff _ (x = y ∧ xs = ys) (by simp)
      (@instDecidableAnd _ _ (decEq x y) (decEqItems xs ys))

def decEqMembers : (a b : List (String × Json)) → Decidable (a = b)
  | [], [] => isTrue rfl
  | [], _ :: _ => isFalse (fun h => nomatch h)
  | _ :: _, [] => isFalse (fun h => nomatch h)
  | (k, x) :: xs, (l, y) :: ys =>
    @decidable_of_iff _ (k = l ∧ x = y ∧ xs = ys) (by simp [and_assoc])
      (@instDecidableAnd _ _ (instDecidableEqString k l)
        (@instDecidableAnd _ _ (decEq x y) (decEqMembers xs ys)))

end

instance : DecidableEq Json := decEq

/-! ## Objects -/

/-- The value stored under a key. -/
def lookup (key : String) (members : List (String × Json)) : Option Json :=
  (members.find? fun m => m.1 = key).map Prod.snd

/-- `value.get(key)` of a mapping; `none` for any other value. -/
def get? (key : String) : Json → Option Json
  | .obj members => lookup key members
  | _ => none

/-- `members[key] = value`: an existing key keeps its place. -/
def insert (key : String) (value : Json) : List (String × Json) → List (String × Json)
  | [] => [(key, value)]
  | m :: ms => if m.1 = key then (key, value) :: ms else m :: insert key value ms

/-- `{**base, **updates}`. -/
def merge (base updates : List (String × Json)) : List (String × Json) :=
  updates.foldl (fun acc m => insert m.1 m.2 acc) base

/-- `isinstance(value, int)`: a boolean is an integer. -/
def asInt? : Json → Option Int
  | .int i => some i
  | .bool b => some (if b then 1 else 0)
  | _ => none

/-- `isinstance(value, str)`. -/
def asStr? : Json → Option String
  | .str s => some s
  | _ => none

@[simp] theorem lookup_nil (key : String) : lookup key [] = none := rfl

theorem lookup_cons (key : String) (m : String × Json) (ms : List (String × Json)) :
    lookup key (m :: ms) = if m.1 = key then some m.2 else lookup key ms := by
  unfold lookup
  rw [List.find?_cons]
  by_cases h : m.1 = key <;> simp [h]

theorem lookup_insert_self (key : String) (value : Json) (ms : List (String × Json)) :
    lookup key (insert key value ms) = some value := by
  induction ms with
  | nil => simp [insert, lookup_cons]
  | cons m ms ih =>
    unfold insert
    split
    · simp [lookup_cons]
    · next h => rw [lookup_cons, if_neg h, ih]

theorem lookup_insert_of_ne {key key' : String} (h : key' ≠ key) (value : Json)
    (ms : List (String × Json)) : lookup key' (insert key value ms) = lookup key' ms := by
  induction ms with
  | nil => simp [insert, lookup_cons, h.symm]
  | cons m ms ih =>
    unfold insert
    split
    · next hm => rw [lookup_cons, lookup_cons, hm, if_neg h.symm, if_neg h.symm]
    · rw [lookup_cons, lookup_cons, ih]

/-! ## Serialisation -/

/-- Four lower-case hexadecimal digits. -/
def hex4 (n : Nat) : List Char :=
  [n / 4096 % 16, n / 256 % 16, n / 16 % 16, n % 16].map Nat.digitChar

/-- One character inside a string literal. -/
def escapeChar (c : Char) : List Char :=
  if c = '"' then ['\\', '"']
  else if c = '\\' then ['\\', '\\']
  else if c = '\n' then ['\\', 'n']
  else if c = '\r' then ['\\', 'r']
  else if c = '\t' then ['\\', 't']
  else if c = '\x0c' then ['\\', 'f']
  else if c = '\x08' then ['\\', 'b']
  else if c.toNat < 32 then '\\' :: 'u' :: hex4 c.toNat
  else [c]

def quote (s : String) : List Char := '"' :: s.toList.flatMap escapeChar ++ ['"']

/-- Texts joined by a comma. -/
def commaJoin : List (List Char) → List Char
  | [] => []
  | [t] => t
  | t :: u :: ts => t ++ ',' :: commaJoin (u :: ts)

mutual

/-- `json.dumps(value, sort_keys=True, separators=(",", ":"), ensure_ascii=False)`, as the list of
its characters. -/
def render : Json → List Char
  | .null => "null".toList
  | .bool true => "true".toList
  | .bool false => "false".toList
  | .int i => (toString i).toList
  | .float text => text.toList
  | .str s => quote s
  | .arr items => '[' :: commaJoin (renderItems items) ++ [']']
  | .obj members =>
    let entries := (renderMembers members).insertionSort fun a b => a.1 ≤ b.1
    '\x7b' :: commaJoin (entries.map fun e => quote e.1 ++ ':' :: e.2) ++ ['\x7d']

def renderItems : List Json → List (List Char)
  | [] => []
  | x :: xs => render x :: renderItems xs

def renderMembers : List (String × Json) → List (String × List Char)
  | [] => []
  | (k, x) :: xs => (k, render x) :: renderMembers xs

end

example : String.ofList (render (.obj [("b", .arr [.int (-3), .null]), ("a", .str "x\n")])) =
    "\x7b\"a\":\"x\\n\",\"b\":[-3,null]\x7d" := by decide +kernel

mutual

/-- `JSON.stringify(value)`: the members of an object stand in their own order. -/
def stringify : Json → List Char
  | .null => "null".toList
  | .bool true => "true".toList
  | .bool false => "false".toList
  | .int i => (toString i).toList
  | .float text => text.toList
  | .str s => quote s
  | .arr items => '[' :: commaJoin (stringifyItems items) ++ [']']
  | .obj members => '\x7b' :: commaJoin (stringifyMembers members) ++ ['\x7d']

def stringifyItems : List Json → List (List Char)
  | [] => []
  | x :: xs => stringify x :: stringifyItems xs

def stringifyMembers : List (String × Json) → List (List Char)
  | [] => []
  | (k, x) :: xs => (quote k ++ ':' :: stringify x) :: stringifyMembers xs

end

end Json

end NanFung
