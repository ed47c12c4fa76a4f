import NanFung.Canonical
import NanFung.Lib.Base64
import NanFung.Lib.FileTree
import NanFung.Lib.JsonRead
import NanFung.Lib.Mortal
import NanFung.Lib.PyText
import NanFung.Store.Artifacts

/-!
# Backup sets

`backups.py`, and `backup_database` of `storage/db.py`. A path is the list of its names, resolved as the
code resolves it. Between its actions the process may die, and each action may fail with an `OSError`;
reads that follow each other are one action, as are the writes that fill a file. SQLite is a parameter.
-/

namespace NanFung

open Base64 PyText

/-- What the functions of `backups.py` raise. -/
inductive BackupFault where
  /-- `BackupError` -/
  | backup (message : String)
  /-- `FileExistsError` -/
  | fileExists (message : String)
  /-- Another `OSError`. -/
  | os
  /-- `sqlite3.Error` -/
  | sqlite
  /-- `ValueError` -/
  | value (message : String)
  /-- `UnicodeDecodeError` -/
  | unicodeDecode
  /-- What `json.loads` raises besides `JSONDecodeError`. -/
  | loads (error : Json.LoadsError)
  /-- What `canonical_json` raises. -/
  | store (error : StoreError)
  deriving DecidableEq, Repr

abbrev FsPath := List String

/-- The file system. -/
abbrev Fs := FileTree String Bytes

/-- A row of `content_object`. -/
structure ContentRow where
  contentSha256 : String
  byteSize : Int
  deriving DecidableEq, Repr

/-- `BackupSetReport` -/
structure BackupSetReport where
  schemaVersion : String
  directory : FsPath
  databaseSha256 : String
  contentCount : Nat
  verified : Bool
  deriving DecidableEq, Repr

/-- The functions of the host platform. -/
structure BackupHost where
  platform : Platform
  /-- Hex digest of some bytes. -/
  sha256 : Bytes → String
  /-- How a float is rounded when it is read. -/
  float : String → String
  /-- Whether a float equals an integer. -/
  floatIs : String → Int → Bool
  /-- `_timestamp()` -/
  timestamp : String
  /-- `uuid4().hex` as it is drawn for the temporary sibling of a path. -/
  draw : FsPath → String
  /-- `Connection.backup`, as the bytes of a database and of its copy. -/
  backup : Bytes → Option Bytes
  /-- `integrity_check(...).ok` -/
  integrity : Bytes → Option Bool
  /-- `SELECT content_sha256, byte_size FROM content_object ORDER BY content_sha256` -/
  contents : Bytes → Option (List ContentRow)
  /-- The transaction of `_record_backup_set`. -/
  recorded : BackupSetReport → Bytes → Option Bytes

/-! ## Names -/

/-- `str(path)` -/
def pathText (p : FsPath) : String := "/" ++ "/".intercalate p

/-- `path.with_name(f".{path.name}.{uuid4().hex}.tmp")` -/
def BackupHost.temporary (H : BackupHost) (p : FsPath) : FsPath :=
  p.dropLast ++ ["." ++ p.getLast?.getD "" ++ "." ++ H.draw p ++ ".tmp"]

def databasePath : FsPath := ["operational.sqlite3"]

def manifestPath : FsPath := ["manifest.json"]

/-- The directory of an object below a data directory. -/
def objectDirectory (digest : String) : FsPath :=
  ["evidence", "sha256", String.ofList (digest.toList.take 2)]

/-- `object_path` below a data directory. -/
def objectPath (digest : String) : FsPath := objectDirectory digest ++ [digest]

/-- `_validate_digest` -/
def requireDigest (digest : String) : Except BackupFault Unit :=
  require (validDigest digest)
    (.value "content_sha256 must be a lowercase SHA-256 hexadecimal digest")

/-- `_require_regular_file` -/
def requireRegularFile (t : Fs) (p : FsPath) (label : String) : Except BackupFault Unit :=
  match t p with
  | none => .error (.backup ("backup set is missing " ++ label))
  | some (.file _) => .ok ()
  | some _ => .error (.backup ("backup " ++ label ++ " must be a regular file"))

/-- `_require_regular_directory` -/
def requireRegularDirectory (t : Fs) (p : FsPath) (label : String) : Except BackupFault Unit :=
  match t p with
  | none => .error (.backup ("backup set is missing " ++ label))
  | some .directory => .ok ()
  | some _ => .error (.backup ("backup " ++ label ++ " must be a regular directory"))

namespace BackupHost

variable (H : BackupHost)

/-- `ArtifactStore(root).verify(digest)` -/
def verifyArtifact (t : Fs) (root : FsPath) (digest : String) : Except BackupFault Bool := do
  requireDigest digest
  .ok ((t.content? (root ++ objectPath digest)).any fun bytes => H.sha256 bytes = digest)

/-- `_referenced_content` -/
def referencedContent (t : Fs) (p : FsPath) : Except BackupFault (List ContentRow) := do
  let bytes ← orThrow (t.content? p) .sqlite
  orThrow (H.contents bytes) .sqlite

/-! ## Verifying a set -/

/-- The manifest as it is read. -/
def readManifest (bytes : Bytes) : Except BackupFault Json := do
  let text ← orThrow (utf8Decode bytes) .unicodeDecode
  match Json.loads H.float text with
  | .ok manifest => .ok manifest
  | .error .decode => .error (.backup "backup manifest is unreadable")
  | .error error => .error (.loads error)

/-- `==` of a value and an integer. -/
def equalsInt (n : Int) : Json → Bool
  | .int i => i = n
  | .bool b => (if b then 1 else 0) = n
  | .float text => H.floatIs text n
  | _ => false

/-- The pair of an item of the manifest's content. -/
def manifestPair (item : Json) : Except BackupFault (String × Option Json) := do
  let digest ← orThrow ((item.get? "sha256").bind Json.asStr?)
    (.backup "backup manifest content entry is invalid")
  .ok (digest, item.get? "byte_size")

/-- The pairs of the manifest are those of the database. -/
def samePairs : List (String × Option Json) → List ContentRow → Bool
  | [], [] => true
  | pair :: pairs, row :: rows =>
    pair.1 = row.contentSha256 && pair.2.any (H.equalsInt row.byteSize) && samePairs pairs rows
  | _, _ => false

/-- The items of a list. -/
def contentItems : Option Json → Except BackupFault (List Json)
  | some (.arr items) => .ok items
  | _ => .error (.backup "backup manifest content entry is invalid")

/-- What is asked of one object of a set. -/
def checkObject (set : Fs) (row : ContentRow) : Except BackupFault Unit := do
  requireRegularDirectory set (objectDirectory row.contentSha256) "CAS prefix directory"
  requireDigest row.contentSha256
  requireRegularFile set (objectPath row.contentSha256) "CAS object"
  let verified ← H.verifyArtifact set [] row.contentSha256
  require verified (.backup ("backup CAS object failed verification: " ++ row.contentSha256))
  require ((set.content? (objectPath row.contentSha256)).any fun bytes => bytes.length = row.byteSize)
    (.backup ("backup CAS object size changed: " ++ row.contentSha256))

/-- `verify_backup_set`, of the tree below its directory: the digest of the database and the number of
objects. -/
def verifySet (set : Fs) : Except BackupFault (String × Nat) := do
  requireRegularDirectory set [] "root"
  requireRegularFile set manifestPath "manifest.json"
  requireRegularFile set databasePath "operational.sqlite3"
  let text ← orThrow (set.content? manifestPath) (.backup "backup manifest is unreadable")
  let manifest ← H.readManifest text
  require (manifest.get? "schema_version" = some (.str "backup_set.v1"))
    (.backup "backup manifest schema is unsupported")
  let info := (manifest.get? "database").getD .null
  require (info.get? "path" = some (.str "operational.sqlite3"))
    (.backup "backup manifest database entry is invalid")
  let database ← orThrow (set.content? databasePath) .os
  require (info.get? "sha256" = some (.str (H.sha256 database)))
    (.backup "backup database hash does not match manifest")
  let sound ← orThrow (H.integrity database) .sqlite
  require sound (.backup "backup database integrity check failed")
  let expected ← orThrow (H.contents database) .sqlite
  let items ← contentItems (manifest.get? "content")
  let pairs ← items.mapM manifestPair
  require (H.samePairs pairs expected) (.backup "backup manifest content does not match database")
  if expected ≠ [] then
    requireRegularDirectory set ["evidence"] "evidence directory"
    requireRegularDirectory set ["evidence", "sha256"] "CAS directory"
  expected.forM (H.checkObject set)
  .ok (H.sha256 database, expected.length)

/-- `verify_backup_set` -/
def verifyBackupSet (t : Fs) (root : FsPath) : Except BackupFault BackupSetReport := do
  let (digest, count) ← H.verifySet (t.subtree root)
  .ok ⟨"backup_set.v1", root, digest, count, true⟩

/-! ## Writing files -/

/-- `path.mkdir(parents=True, exist_ok=True)` -/
def mkdirParents (p : FsPath) : Mortal Fs BackupFault Unit :=
  .action .os fun t => (orThrow (t.makeDirectories p) .os).map fun t => ((), t)

/-- `path.mkdir()` -/
def mkdir (p : FsPath) : Mortal Fs BackupFault Unit :=
  .action .os fun t => do
    require (t p.dropLast = some .directory) .os
    require (t p = none) (.fileExists (pathText p))
    .ok ((), t.put p .directory)

/-- Create a temporary file, fill it, and let it replace the file of a path. -/
def writeThrough (p : FsPath) (content : Bytes) : Mortal Fs BackupFault Unit :=
  tryCatch (do
    .action .os fun t => do
      require (t p.dropLast = some .directory) .os
      require (t (H.temporary p) = none) (.fileExists (pathText (H.temporary p)))
      .ok ((), t.put (H.temporary p) (.file []))
    .action .os fun t => .ok ((), t.put (H.temporary p) (.file content))
    .action .os fun t => do
      require (t p ≠ some .directory) .os
      .ok ((), (t.put p (.file content)).remove (H.temporary p))
    -- `_fsync_directory`
    .action .os fun t => .ok ((), t))
  fun error => do
    .action .os fun t => .ok ((), t.remove (H.temporary p))
    throw error

/-- `_copy_regular_file` -/
def copyRegularFile (source destination : FsPath) : Mortal Fs BackupFault Unit := do
  let content ← .look .os fun t =>
    match t source with
    | none => .error (.backup ("backup input is missing: " ++ pathText source))
    | some (.file content) => .ok content
    | some _ => .error (.backup ("backup input is not a regular file: " ++ pathText source))
  mkdirParents destination.dropLast
  .look .os fun t => require (t destination = none)
    (.backup ("backup destination already exists: " ++ pathText destination))
  H.writeThrough destination content

/-- `backup_database` -/
def backupDatabase (source target : FsPath) : Mortal Fs BackupFault Unit := do
  .look .os fun t => require (t target = none)
    (.fileExists ("backup target already exists: " ++ pathText target))
  mkdirParents target.dropLast
  let copy ← .look .os fun t => do
    let database ← orThrow (t.content? source) .sqlite
    orThrow (H.backup database) .sqlite
  H.writeThrough target copy

/-- `shutil.rmtree(path, ignore_errors=True)`; an error leaves all as it is. -/
def rmtree (p : FsPath) : Mortal Fs BackupFault Unit :=
  tryCatch (.action .os fun t => .ok ((), t.removeTree p)) fun _ => pure ()

/-- Build a directory beside its path and move it there; what raises removes what was built. -/
def publishDirectory {α : Type} (target : FsPath) (build : FsPath → Mortal Fs BackupFault α)
    (after : α → Mortal Fs BackupFault Unit) : Mortal Fs BackupFault α :=
  tryCatch (do
    mkdir (H.temporary target)
    let result ← build (H.temporary target)
    .action .os fun t => do
      require (t target = none) .os
      .ok ((), t.moveTree (H.temporary target) target)
    -- `_fsync_directory`
    .action .os fun t => .ok ((), t)
    after result
    pure result)
  fun error => do
    rmtree (H.temporary target)
    throw error

/-! ## Creating a set -/

/-- The manifest of a set. -/
def manifest (databaseSha256 : String) (content : List ContentRow) : Json :=
  .obj [("schema_version", .str "backup_set.v1"), ("created_at", .str H.timestamp),
    ("database", .obj [("path", .str "operational.sqlite3"), ("sha256", .str databaseSha256)]),
    ("content", .arr (content.map fun row =>
      .obj [("sha256", .str row.contentSha256), ("byte_size", .int row.byteSize)]))]

/-- `canonical_json(manifest).encode("utf-8")` -/
def manifestBytes (databaseSha256 : String) (content : List ContentRow) :
    Except BackupFault Bytes :=
  match H.platform.canonicalJson (H.manifest databaseSha256 content) with
  | .ok text => .ok (utf8Encode text)
  | .error error => .error (.store error)

/-- The copy of one object. -/
def copyObject (data staging : FsPath) (row : ContentRow) : Mortal Fs BackupFault Unit := do
  .look .os fun t => do
    let verified ← H.verifyArtifact t data row.contentSha256
    require verified (.backup ("source CAS object is missing or corrupt: " ++ row.contentSha256))
  H.copyRegularFile (data ++ objectPath row.contentSha256) (staging ++ objectPath row.contentSha256)
  .look .os fun t => do
    let verified ← H.verifyArtifact t staging row.contentSha256
    require verified (.backup ("copied CAS object failed verification: " ++ row.contentSha256))
    require ((t.content? (staging ++ objectPath row.contentSha256)).any
        fun bytes => bytes.length = row.byteSize)
      (.backup ("copied CAS object size changed: " ++ row.contentSha256))

/-- What `_create_backup_set` does in its staging directory. -/
def buildSet (data staging : FsPath) : Mortal Fs BackupFault BackupSetReport := do
  H.backupDatabase (data ++ databasePath) (staging ++ databasePath)
  let content ← .look .os fun t => H.referencedContent t (staging ++ databasePath)
  content.forM (H.copyObject data staging)
  let digest ← .look .os fun t =>
    (orThrow (t.content? (staging ++ databasePath)) .os).map H.sha256
  let text ← .ofExcept (H.manifestBytes digest content)
  H.writeThrough (staging ++ manifestPath) text
  .look .os fun t => H.verifyBackupSet t staging

/-- `_record_backup_set` -/
def recordBackupSet (data : FsPath) (report : BackupSetReport) : Mortal Fs BackupFault Unit :=
  .action .sqlite fun t => do
    let database ← orThrow (t.content? (data ++ databasePath)) .sqlite
    let written ← orThrow (H.recorded report database) .sqlite
    .ok ((), t.put (data ++ databasePath) (.file written))

/-- `_create_backup_set` -/
def createBackupSet (data target : FsPath) (record : Bool) : Mortal Fs BackupFault BackupSetReport := do
  .look .os fun t => require (t target = none)
    (.fileExists ("backup set target already exists: " ++ pathText target))
  mkdirParents target.dropLast
  H.publishDirectory target (fun staging => do
      let report ← H.buildSet data staging
      pure { report with directory := target })
    fun report => if record then H.recordBackupSet data report else pure ()

/-! ## Restoring a set -/

/-- What `restore_backup_set` does in its staging directory. -/
def restoreSet (source staging : FsPath) : Mortal Fs BackupFault BackupSetReport := do
  H.copyRegularFile (source ++ databasePath) (staging ++ databasePath)
  H.copyRegularFile (source ++ manifestPath) (staging ++ manifestPath)
  let content ← .look .os fun t => H.referencedContent t (source ++ databasePath)
  content.forM fun row => do
    .ofExcept (requireDigest row.contentSha256)
    H.copyRegularFile (source ++ objectPath row.contentSha256) (staging ++ objectPath row.contentSha256)
  .look .os fun t => H.verifyBackupSet t staging

/-- `restore_backup_set` -/
def restoreBackupSet (source target : FsPath) : Mortal Fs BackupFault BackupSetReport := do
  let _ ← .look .os fun t => H.verifyBackupSet t source
  .look .os fun t => require (t target = none)
    (.fileExists ("restore target already exists: " ++ pathText target))
  mkdirParents target.dropLast
  H.publishDirectory target (fun staging => do
      let report ← H.restoreSet source staging
      pure { report with directory := target })
    fun _ => pure ()

end BackupHost

end NanFung
