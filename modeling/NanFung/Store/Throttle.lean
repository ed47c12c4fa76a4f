import NanFung.Store.Basic

/-!
# Host throttle

`permit_host` and `record_host_response`: two timestamps for each rate limit group, one that spaces
requests and one that holds them back after a 429 response. No other operation touches their table.
-/

namespace NanFung

open Table

/-- What the standard library does with the texts of hosts and headers. -/
structure TextLibrary where
  /-- `str.lower`. -/
  lower : String → String
  /-- `unicodedata.decimal`. -/
  decimal : Char → Option Nat
  /-- `_as_utc(parsedate_to_datetime(·))`, where that is an aware instant; an exception the caller
  does not handle is an error. -/
  httpDate : String → Except StoreError (Option Time)

/-- `HostThrottleBlocked`, or an error of the store. -/
inductive ThrottleError where
  | blocked (group : String) (retryAt : Time)
  | store (e : StoreError)
  deriving DecidableEq, Repr

/-- A row of `host_throttle`. -/
structure ThrottleRow where
  rateLimitGroup : String
  nextAllowedAt : Option Time
  blockedUntil : Option Time
  lastHttpStatus : Option Int
  updatedAt : Time
  deriving DecidableEq, Repr

/-- `HostThrottleState`. -/
structure HostThrottleState where
  rateLimitGroup : String
  nextAllowedAt : Time
  blockedUntil : Option Time
  lastHttpStatus : Int
  updatedAt : Time
  deriving DecidableEq, Repr

/-- `_HOST_PERMIT_INTERVAL` in microseconds. -/
def hostPermitInterval : Nat := Time.second

/-- `str.isspace` on one character. -/
def isSpace (c : Char) : Bool :=
  (9 ≤ c.toNat && c.toNat ≤ 13) || (28 ≤ c.toNat && c.toNat ≤ 32) ||
    c.toNat ∈ [0x85, 0xa0, 0x1680, 0x2028, 0x2029, 0x202f, 0x205f, 0x3000] ||
      (0x2000 ≤ c.toNat && c.toNat ≤ 0x200a)

/-- `str.strip`. -/
def strip (s : List Char) : List Char :=
  ((s.dropWhile isSpace).reverse.dropWhile isSpace).reverse

/-- An exception of the store. -/
def asThrottle {α : Type} : Except StoreError α → Except ThrottleError α
  | .ok a => .ok a
  | .error e => .error (.store e)

section

variable (L : TextLibrary)

attribute [local instance] decidableChars

/-- `_rate_limit_group`. -/
def rateLimitGroup (host : String) : Except ThrottleError String := do
  let group := L.lower (String.ofList ((strip host.toList).reverse.dropWhile (· = '.')).reverse)
  require (group ≠ "" ∧ ∀ c ∈ group.toList, ¬ (isSpace c ∨ c ∈ "/:@?#[\\]".toList))
    (.store (.operational "host throttle requires a bare hostname"))
  .ok group

/-- `int` of a text of decimal digits; longer texts exceed the interpreter's limit. -/
def decimalValue (digits : List Nat) : Except StoreError Nat := do
  require (digits.length ≤ 4300)
    (.value ("Exceeds the limit (4300 digits) for integer string conversion: value has " ++
      toString digits.length ++ " digits; use sys.set_int_max_str_digits() to increase the limit"))
  .ok (digits.foldl (fun n d => 10 * n + d) 0)

/-- `_retry_after_deadline`. -/
def retryAfterDeadline (value : Option String) (now : Time) : Except StoreError (Option Time) :=
  match value.map fun v => strip v.toList with
  | none | some [] => .ok none
  | some candidate =>
    match candidate.mapM L.decimal with
    | some digits => do
      let seconds ← decimalValue digits
      -- an OverflowError of the sum is no deadline
      .ok (now.add? (seconds * Time.second))
    | none => do
      let parsed ← L.httpDate (String.ofList candidate)
      .ok (parsed.map fun t => max t now)

/-- `_latest_timestamp` of two values. -/
def latestTimestamp : Option Time → Option Time → Option Time
  | some a, some b => some (max a b)
  | some a, none => some a
  | none, b => b

/-- The row of a group. -/
def throttleRow? (group : String) (rows : List ThrottleRow) : Option ThrottleRow :=
  rows.find? fun r => r.rateLimitGroup = group

/-- `anchor + _HOST_PERMIT_INTERVAL`. -/
def permitDeadline (now : Time) : Except ThrottleError Time :=
  orThrow (now.add? hostPermitInterval) (.store .overflow)

/-- `permit_host`. -/
def permitHost (host : String) (continuation : Bool) (now : Time) (rows : List ThrottleRow) :
    Except ThrottleError (Unit × List ThrottleRow) := do
  let group ← rateLimitGroup L host
  match throttleRow? group rows with
  | none => do
    let next ← permitDeadline now
    .ok ((), rows ++ [⟨group, some next, none, none, now⟩])
  | some row =>
    match row.blockedUntil.filter (now < ·) with
    | some blockedUntil => .error (.blocked group blockedUntil)
    | none =>
      if continuation then .ok ((), rows)
      else match row.nextAllowedAt.filter (now < ·) with
        | some nextAllowedAt => .error (.blocked group nextAllowedAt)
        | none => do
          let next ← permitDeadline now
          .ok ((), updateWhere (fun r => r.rateLimitGroup = group)
            (fun r => { r with nextAllowedAt := some next, updatedAt := now }) rows)

/-- The block and the pace a response leaves, from those before it. -/
def throttleAfter (row : Option ThrottleRow) (retryUntil : Option Time) (now : Time) :
    Option Time × Option Time :=
  let blockedUntil := latestTimestamp ((row.bind (·.blockedUntil)).filter (now < ·)) retryUntil
  let previousNext := ((row.bind (·.nextAllowedAt)).filter (now < ·)).getD now
  (blockedUntil, latestTimestamp (some previousNext) blockedUntil)

/-- `record_host_response`. -/
def recordHostResponse (host : String) (status : Int) (retryAfter : Option String) (now : Time)
    (rows : List ThrottleRow) : Except ThrottleError (HostThrottleState × List ThrottleRow) := do
  require (100 ≤ status ∧ status ≤ 599)
    (.store (.operational "HTTP status must be an integer from 100 to 599"))
  let group ← rateLimitGroup L host
  let retryUntil ← asThrottle (if status = 429 then retryAfterDeadline L retryAfter now else .ok none)
  let (blockedUntil, next) := throttleAfter (throttleRow? group rows) retryUntil now
  let nextAllowedAt := next.getD now
  .ok (⟨group, nextAllowedAt, blockedUntil, status, now⟩,
    upsert ThrottleRow.rateLimitGroup
      ⟨group, some nextAllowedAt, blockedUntil, some status, now⟩ rows)

end

end NanFung
