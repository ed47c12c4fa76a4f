import Mathlib.Data.List.Sort
import NanFung.Lib.Base64
import NanFung.Lib.Numerals
import NanFung.Lib.Proc
import NanFung.Lib.PyText

/-!
# Schema migrations

`MigrationRunner` of `storage/db.py`: the numbered files of a package, the ledger of what was applied,
and the transactions that apply what is pending. The schema is any state on which a script acts or fails;
a script neither commits nor writes to the ledger.
-/

namespace NanFung

open Base64 PyText

/-- What the runner raises. -/
inductive MigrationFault where
  /-- `MigrationError` -/
  | migration (message : String)
  /-- `MigrationChecksumError` -/
  | checksum (message : String)
  /-- `UnicodeDecodeError` -/
  | unicodeDecode
  /-- `ValueError` -/
  | value
  /-- The error of a script. -/
  | script
  /-- `sqlite3.IntegrityError` -/
  | integrity (message : String)
  deriving DecidableEq, Repr

/-! ## The package -/

/-- A file of the package. -/
structure MigrationFile where
  name : String
  content : Bytes

/-- `Migration` -/
structure Migration where
  version : Nat
  name : String
  sql : List Char
  checksumSha256 : String
  deriving DecidableEq

/-- `AppliedMigration` -/
structure AppliedMigration where
  version : Nat
  name : String
  checksumSha256 : String
  appliedAt : String
  appVersion : String
  deriving DecidableEq

/-- `f"{version:04d}"` -/
def padVersion (version : Nat) : String := String.ofList ((Nat.toDigits 10 version).leftpad 4 '0')

/-- `Migration.filename` -/
def Migration.filename (m : Migration) : String := padVersion m.version ++ "_" ++ m.name ++ ".sql"

/-- A character of a migration's name after the first one. -/
def isNameChar (c : Char) : Bool := c.isAlphanum || c = '_' || c = '-'

/-- `MIGRATION_FILENAME`: the digits of the version, and the name. -/
def migrationFilename (text : String) : Option (List Char × List Char) :=
  let digits := text.toList.takeWhile Char.isDigit
  let rest := text.toList.drop digits.length
  let name := (rest.drop 1).take (rest.length - 5)
  if digits.any (· ≠ '0') && rest.take 1 = ['_'] && rest.drop (rest.length - 4) = ".sql".toList &&
      5 < rest.length && name.all isNameChar && (name.take 1).all Char.isAlphanum then
    some (digits, name)
  else none

section

variable {σ : Type} (sha256 : Bytes → String) (exec : List Char → σ → Option σ)

/-- The files from one on, after those that were found. -/
def discoverFiles (found : List Migration) : List MigrationFile → Except MigrationFault (List Migration)
  | [] => .ok found
  | file :: files =>
    if ".sql".toList <:+ file.name.toList then do
      let (digits, name) ← orThrow (migrationFilename file.name)
        (.migration ("invalid migration filename: " ++ file.name))
      -- `int` takes no more digits
      require (digits.length ≤ 4300) .value
      let version := Decimal.digitsValue digits
      require (∀ m ∈ found, m.version ≠ version)
        (.migration ("duplicate migration version: " ++ toString version))
      require (∀ m ∈ found, m.name ≠ String.ofList name)
        (.migration ("duplicate migration name: " ++ String.ofList name))
      let sql ← orThrow (utf8Decode file.content) .unicodeDecode
      discoverFiles (found ++ [⟨version, String.ofList name, sql, sha256 file.content⟩]) files
    else discoverFiles found files

/-- `discover` -/
def discover (directory : List MigrationFile) : Except MigrationFault (List Migration) := do
  let found ← discoverFiles sha256 [] directory
  require (found ≠ []) (.migration "no packaged migrations found")
  .ok (found.insertionSort fun a b => a.version ≤ b.version)

/-! ## The database -/

/-- A database: its schema, and the rows of `schema_migration` if there is the table. -/
structure Database (σ : Type) where
  schema : σ
  ledger : Option (List AppliedMigration)

namespace Database

variable (db : Database σ)

/-- The rows of the ledger as they were inserted. -/
def rows : List AppliedMigration := db.ledger.getD []

/-- `applied` -/
def applied : List AppliedMigration := db.rows.insertionSort fun a b => a.version ≤ b.version

/-- `_ensure_migration_table` -/
def ensureMigrationTable : Database σ := { db with ledger := some db.rows }

/-- `INSERT INTO schema_migration` -/
def insertRow (row : AppliedMigration) : Except MigrationFault (Database σ) := do
  -- a larger literal is a REAL, which the key does not take
  require (row.version < 2 ^ 63) (.integrity "datatype mismatch")
  require (0 < row.version) (.integrity "CHECK constraint failed: version > 0")
  require (row.checksumSha256.length = 64)
    (.integrity "CHECK constraint failed: length(checksum_sha256) = 64")
  require (∀ r ∈ db.rows, r.version ≠ row.version)
    (.integrity "UNIQUE constraint failed: schema_migration.version")
  require (∀ r ∈ db.rows, r.name ≠ row.name)
    (.integrity "UNIQUE constraint failed: schema_migration.name")
  .ok { db with ledger := some (db.rows ++ [row]) }

end Database

/-- What `_validate_applied_history` asks of one row. -/
def validateAppliedRow (migrations : List Migration) (row : AppliedMigration) :
    Except MigrationFault Unit := do
  let packaged ← orThrow (migrations.find? fun m => m.version = row.version)
    (.migration ("applied migration " ++ toString row.version ++ " is not packaged by this version"))
  require (packaged.name = row.name) (.migration ("migration " ++ toString row.version ++
    " was renamed from " ++ row.name ++ " to " ++ packaged.name))
  require (packaged.checksumSha256 = row.checksumSha256) (.checksum ("migration " ++
    packaged.filename ++ " checksum differs from applied history"))

/-- `_validate_applied_history` -/
def validateAppliedHistory (migrations : List Migration) :
    List AppliedMigration → Except MigrationFault Unit
  | [] => .ok ()
  | row :: rows => do
    validateAppliedRow migrations row
    validateAppliedHistory migrations rows

/-- The migrations whose version has not been applied. -/
def pendingOf (migrations : List Migration) (applied : List AppliedMigration) : List Migration :=
  migrations.filter fun m => m.version ∉ applied.map AppliedMigration.version

/-! ## The runner -/

/-- `MigrationRunner`; the clock is read once for each version. -/
structure MigrationRunner where
  directory : List MigrationFile
  appVersion : String
  clock : Nat → String

namespace MigrationRunner

variable (runner : MigrationRunner)

/-- The row of the ledger for a migration. -/
def ledgerRow (m : Migration) : AppliedMigration :=
  ⟨m.version, m.name, m.checksumSha256, runner.clock m.version, runner.appVersion⟩

/-- The transaction of `_apply_one`. -/
def applyOne (m : Migration) (db : Database σ) : Except MigrationFault (Unit × Database σ) := do
  let schema ← orThrow (exec m.sql db.schema) .script
  let db ← { db with schema }.insertRow (runner.ledgerRow m)
  .ok ((), db)

/-- The loop of `apply` from a migration on. -/
def applyPending (highest : Nat) : List Migration → Proc (Database σ) MigrationFault Unit
  | [] => pure ()
  | m :: ms => do
    if m.version < highest then
      throw (.migration ("migration " ++ m.filename ++
        " would be applied behind already applied version " ++ toString highest))
    Proc.atomically (runner.applyOne exec m)
    applyPending highest ms

/-- What `apply` checks before it applies anything: the pending migrations and the highest version. -/
def planMigrations (db : Database σ) : Except MigrationFault (List Migration × Nat) := do
  let migrations ← discover sha256 runner.directory
  let applied := db.applied
  validateAppliedHistory migrations applied
  .ok (pendingOf migrations applied, (applied.getLast?.map AppliedMigration.version).getD 0)

/-- `apply`, given how many pending migrations the process lives to apply. -/
def applyWithin (lives : List Migration → Nat) :
    Proc (Database σ) MigrationFault (List Migration) := do
  Proc.atomically fun db => .ok ((), db.ensureMigrationTable)
  let (pending, highest) ← Proc.query (runner.planMigrations sha256)
  runner.applyPending exec highest (pending.take (lives pending))
  pure pending

/-- `apply` -/
def apply : Proc (Database σ) MigrationFault (List Migration) :=
  runner.applyWithin sha256 exec List.length

/-- `validate` -/
def validate (db : Database σ) : Except MigrationFault (List Migration) := do
  let migrations ← discover sha256 runner.directory
  let applied := db.applied
  validateAppliedHistory migrations applied
  .ok (pendingOf migrations applied)

end MigrationRunner

end

end NanFung
