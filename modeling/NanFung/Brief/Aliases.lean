import NanFung.Brief.Ledger
import NanFung.Lib.JsonText

/-!
# Handles and their aliases

`tools.ts`: before a result is shown to the model, the strings under four keys are replaced by short
aliases, which the arguments of later calls are read back through. The table of a session only grows.
-/

namespace NanFung.Brief

/-! ## The table -/

inductive HandleKind where
  | citation | cursor | job
  deriving DecidableEq, Repr

def HandleKind.text : HandleKind → String
  | .citation => "citation"
  | .cursor => "cursor"
  | .job => "job"

/-- `ModelHandleAliases`: the numbers are a map that is read with the default zero. -/
structure ModelHandleAliases where
  aliasToHandle : Dict String String
  handleToAlias : Dict String String
  next : HandleKind → Nat

namespace ModelHandleAliases

def empty : ModelHandleAliases := ⟨[], [], fun _ => 0⟩

def key (kind : HandleKind) (value : String) : String := kind.text ++ "\x00" ++ value

def resolve (a : ModelHandleAliases) (kind : HandleKind) (value : String) : String :=
  (a.aliasToHandle.get? (key kind value)).getD value

/-- The `n`-th alias of a kind. -/
def numbered (kind : HandleKind) (n : Nat) : String := kind.text ++ "_" ++ toString n

/-- `#alias(kind, handle)`. -/
def aliasOf (a : ModelHandleAliases) (kind : HandleKind) (handle : String) :
    String × ModelHandleAliases :=
  match a.handleToAlias.get? (key kind handle) with
  | some existing => (existing, a)
  | none =>
    let next := a.next kind + 1
    let fresh := numbered kind next
    (fresh,
      { aliasToHandle := a.aliasToHandle.set (key kind fresh) handle
        handleToAlias := a.handleToAlias.set (key kind handle) fresh
        next := Function.update a.next kind next })

/-- The keys under which a single handle stands. -/
def refKind (key : String) : Option HandleKind :=
  if key = "citation_ref" then some .citation
  else if key = "cursor_ref" then some .cursor
  else if key = "job_ref" then some .job
  else none

mutual

def present (a : ModelHandleAliases) : Json → Json × ModelHandleAliases
  | .arr items => let p := presentItems a items; (.arr p.1, p.2)
  | .obj members => let p := presentMembers a members; (.obj p.1, p.2)
  | .str s => (.str s, a)
  | v => (v, a)

def presentItems (a : ModelHandleAliases) : List Json → List Json × ModelHandleAliases
  | [] => ([], a)
  | v :: vs =>
    let p := present a v
    let ps := presentItems p.2 vs
    (p.1 :: ps.1, ps.2)

/-- The items of `citation_refs`. -/
def presentRefs (a : ModelHandleAliases) : List Json → List Json × ModelHandleAliases
  | [] => ([], a)
  | .str s :: vs =>
    let p := a.aliasOf .citation s
    let ps := presentRefs p.2 vs
    (.str p.1 :: ps.1, ps.2)
  | v :: vs =>
    let p := present a v
    let ps := presentRefs p.2 vs
    (p.1 :: ps.1, ps.2)

/-- `#presentField(key, value)` for each member. -/
def presentMembers (a : ModelHandleAliases) : Members → Members × ModelHandleAliases
  | [] => ([], a)
  | (k, .str s) :: ms =>
    match refKind k with
    | some kind =>
      let p := a.aliasOf kind s
      let ps := presentMembers p.2 ms
      ((k, .str p.1) :: ps.1, ps.2)
    | none =>
      let ps := presentMembers a ms
      ((k, .str s) :: ps.1, ps.2)
  | (k, .arr items) :: ms =>
    let p := if k = "citation_refs" then presentRefs a items else presentItems a items
    let ps := presentMembers p.2 ms
    ((k, .arr p.1) :: ps.1, ps.2)
  | (k, v) :: ms =>
    let p := present a v
    let ps := presentMembers p.2 ms
    ((k, p.1) :: ps.1, ps.2)

end

end ModelHandleAliases

/-! ## Results -/

inductive ToolStatus where
  | ok | partially | error
  deriving DecidableEq, Repr

def ToolStatus.text : ToolStatus → String
  | .ok => "ok"
  | .partially => "partial"
  | .error => "error"

/-- `ToolResult`, as far as the runtime reads it. -/
structure ToolResult where
  status : ToolStatus
  data : Option Members
  deriving DecidableEq, Repr

def hostOnlyQueryFields : List String :=
  ["capability_id", "datasource_ids", "normalized_filters", "result_count"]

def hideHostQueryMetadata : Option Members → Option Members
  | none => none
  | some data =>
    if (Json.lookup "records" data).isSome then
      some (data.filter fun m => m.1 ∉ hostOnlyQueryFields)
    else some data

/-- `result.data` as a value. -/
def dataJson : Option Members → Json
  | some data => .obj data
  | none => .null

/-- The text of a result's visible data. -/
def visibleText (status : ToolStatus) (data : Json) : List Char :=
  Json.stringify (.obj [("status", .str status.text), ("data", data)])

/-- `modelVisibleText(result, aliases)`. -/
def modelVisibleText (a : ModelHandleAliases) (result : ToolResult) :
    List Char × ModelHandleAliases :=
  let p := a.present (dataJson (hideHostQueryMetadata result.data))
  (visibleText result.status p.1, p.2)

/-- `modelVisibleBytes(result)`. -/
def modelVisibleBytes (result : ToolResult) : Nat :=
  ((visibleText result.status (dataJson (hideHostQueryMetadata result.data))).map
    Char.utf8Size).sum

/-- The texts that one session's tools show for some results, and the table after them. -/
def showAll (a : ModelHandleAliases) : List ToolResult → List (List Char) × ModelHandleAliases
  | [] => ([], a)
  | r :: rs =>
    let p := modelVisibleText a r
    let ps := showAll p.2 rs
    (p.1 :: ps.1, ps.2)

/-! ## Arguments -/

/-- `replaceField(value, field, replace)`. -/
def replaceField (value : Members) (field : String) (replace : Json → Json) : Members :=
  value.map fun m => (m.1, if m.1 = field then replace m.2 else m.2)

inductive ToolName where
  | describeMarketData | queryMarketData | getCitationMetadata | requestDataRefresh
  | getRefreshStatus | finalizeMarketBrief
  deriving DecidableEq, Repr

/-- An argument that may hold an alias. -/
def resolveString (a : ModelHandleAliases) (kind : HandleKind) : Json → Json
  | .str s => .str (a.resolve kind s)
  | v => v

/-- An argument that may hold a list of citation aliases. -/
def resolveRefs (a : ModelHandleAliases) : Json → Json
  | .arr items => .arr (items.map (resolveString a .citation))
  | v => v

def resolveFacadeAliases (a : ModelHandleAliases) (tool : ToolName) (args : Members) : Members :=
  match tool with
  | .queryMarketData => replaceField args "cursor_ref" (resolveString a .cursor)
  | .getCitationMetadata => replaceField args "citation_refs" (resolveRefs a)
  | .getRefreshStatus => replaceField args "job_ref" (resolveString a .job)
  | _ => args

mutual

def resolveFinalizerAliases (a : ModelHandleAliases) : Json → Json
  | .arr items => .arr (resolveFinalizerItems a items)
  | .obj members => .obj (resolveFinalizerMembers a members)
  | .str s => .str s
  | v => v

def resolveFinalizerItems (a : ModelHandleAliases) : List Json → List Json
  | [] => []
  | v :: vs => resolveFinalizerAliases a v :: resolveFinalizerItems a vs

def resolveFinalizerMembers (a : ModelHandleAliases) : Members → Members
  | [] => []
  | (k, .str s) :: ms =>
    (k, if k = "numeric_citation_ref" then .str (a.resolve .citation s) else .str s) ::
      resolveFinalizerMembers a ms
  | (k, .arr items) :: ms =>
    (k, if k = "supporting_citation_refs" then resolveRefs a (.arr items)
      else .arr (resolveFinalizerItems a items)) :: resolveFinalizerMembers a ms
  | (k, v) :: ms => (k, resolveFinalizerAliases a v) :: resolveFinalizerMembers a ms

end

end NanFung.Brief
