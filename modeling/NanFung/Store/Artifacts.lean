import NanFung.Lib.Files
import NanFung.Store.Records

/-!
# The artifact store

`put_stream` and `persist_evidence` step by step. A step is one action on the file system or one
transaction; after each the process may stop, other calls may move, and the environment says how
the action ends (`Answer`): an operating-system call may fail anywhere and a callback may raise. The
data directory is a tree of files with two kinds of names, private temporary ones and published
objects; the prefix directories of the object names are left out.

The bytes a call has read stand for its hasher and its size counter: the digest is `sha256` of them
and `byte_size` is their length.
-/

namespace NanFung

open Table

/-! ## The data directory -/

/-- A name under `evidence/`. -/
inductive Path where
  | temporary (name : String)
  | object (contentSha256 : String)
  deriving DecidableEq

/-- The tree `evidence/`. -/
abbrev Cas := Files Path UInt8

/-- `StoredArtifact`. -/
structure StoredArtifact extends Artifact where
  byteSize : Nat
  created : Bool
  deriving DecidableEq

/-- `StoredArtifact.artifact_uri`. -/
def StoredArtifact.artifactUri (a : StoredArtifact) : String :=
  "evidence/sha256/" ++ String.ofList (a.contentSha256.toList.take 2) ++ "/" ++ a.contentSha256

/-- `_validate_digest`. -/
def validDigest (contentSha256 : String) : Bool :=
  contentSha256.length = 64 && contentSha256.toList.all (fun c => "0123456789abcdef".toList.contains c)

namespace Cas

variable (sha256 : List UInt8 → String) (fs : Cas)

/-- The bytes of a published object. -/
def object (contentSha256 : String) : Option (List UInt8) := fs.read (.object contentSha256)

/-- The first half of `verify`: the object is there and `lstat` reports the size. -/
def sized (a : StoredArtifact) : Bool := (fs.object a.contentSha256).any fun b => b.length = a.byteSize

/-- The second half of `verify`: the object's bytes have the digest. -/
def hashed (a : StoredArtifact) : Bool :=
  (fs.object a.contentSha256).any fun b => sha256 b = a.contentSha256

end Cas

/-! ## `put_stream` -/

/-- How the environment answers the next action of a call: it succeeds, it raises, the stream yields
a chunk, or the buffered writer hands some bytes to the file. -/
inductive Answer where
  | ok
  | error
  | chunk (bytes : List UInt8)
  | flush (count : Nat)

/-- The arguments of `put_stream`. The bytes of a `BytesIO` are known, those of another stream are
whatever the environment answers. -/
structure PutArgs where
  body : Option (List UInt8) := none
  mediaType : Option String := none
  maxBytes : Option Int := none
  chunkSize : Int := 1048576

/-- How far a `put_stream` has come; `read` is what its stream has yielded. -/
inductive Put where
  | entered
  /-- Inside the `with` block: the open inode, what the hasher has seen, what is still buffered, and
  what is left of a `BytesIO`. -/
  | opened (inode : Nat) (read buffered : List UInt8) (rest : Option (List UInt8))
  | written (read : List UInt8)
  | validated (read : List UInt8)
  | publishing (read : List UInt8)
  | linked (read : List UInt8)
  | unlinked (read : List UInt8)
  | existing (read : List UInt8)
  | sizing (artifact : StoredArtifact)
  | hashing (artifact : StoredArtifact)
  | unwinding
  | returned (artifact : StoredArtifact)
  | raised

namespace Put

variable (sha256 : List UInt8 → String) (name : String) (args : PutArgs)

/-- The artifact a call describes once the stream is exhausted. -/
def artifact (read : List UInt8) (created : Bool) : StoredArtifact where
  contentSha256 := sha256 read
  mediaType := args.mediaType
  byteSize := read.length
  created

/-- The next action succeeds. -/
def proceed (fs : Cas) : Put → Option (Put × Cas)
  | .entered =>
    if (args.maxBytes.any fun m => m < 0) || args.chunkSize ≤ 0 then some (.raised, fs)
    -- `O_CREAT | O_EXCL`, before the `try`
    else if (fs.entry (.temporary name)).isSome then some (.raised, fs)
    else some (.opened fs.inodes.length [] [] args.body, fs.create (.temporary name))
  | .opened i read buffered rest =>
    if rest.getD [] = [] then some (.written read, fs.append i buffered) else none
  | .written read => some (.validated read, fs)
  | .validated read => some (.publishing read, fs)
  | .publishing read =>
    if !validDigest (sha256 read) then some (.unwinding, fs)
    else if (fs.entry (.temporary name)).isNone then some (.unwinding, fs)
    else if (fs.entry (.object (sha256 read))).isSome then some (.existing read, fs)
    else some (.linked read, fs.link (.temporary name) (.object (sha256 read)))
  | .linked read =>
    if (fs.entry (.temporary name)).isNone then some (.unwinding, fs)
    else some (.unlinked read, fs.unlink (.temporary name))
  | .unlinked read => some (.returned (artifact sha256 args read true), fs)
  | .existing read => some (.sizing (artifact sha256 args read false), fs.unlink (.temporary name))
  | .sizing a => some (if fs.sized a then .hashing a else .unwinding, fs)
  | .hashing a => some (if fs.hashed sha256 a then .returned a else .unwinding, fs)
  -- `except BaseException`
  | .unwinding => some (.raised, fs.unlink (.temporary name))
  | .returned _ | .raised => none

/-- The next action raises: the private file is removed next, if there is one. -/
def fail : Put → Option Put
  | .entered | .unwinding => some .raised
  | .returned _ | .raised => none
  | _ => some .unwinding

/-- The stream yields a chunk. -/
def readChunk (bytes : List UInt8) : Put → Option Put
  | .opened i read buffered rest =>
    if bytes = [] || rest.any (fun r => bytes ≠ r.take args.chunkSize.toNat) then none
    else if args.maxBytes.any fun m => m < ((read ++ bytes).length : Int) then some .unwinding
    else some (.opened i (read ++ bytes) (buffered ++ bytes)
      (rest.map (·.drop args.chunkSize.toNat)))
  | _ => none

/-- The buffered writer hands its first bytes to the file. -/
def flush (count : Nat) (fs : Cas) : Put → Option (Put × Cas)
  | .opened i read buffered rest =>
    some (.opened i read (buffered.drop count) rest, fs.append i (buffered.take count))
  | _ => none

/-- One step of `put_stream`. -/
def next (fs : Cas) (p : Put) : Answer → Option (Put × Cas)
  | .ok => p.proceed sha256 name args fs
  | .error => p.fail.map (·, fs)
  | .chunk bytes => (p.readChunk args bytes).map (·, fs)
  | .flush count => p.flush count fs

end Put

/-! ## `persist_evidence` -/

/-- `content_object`. -/
structure ContentObjectRow where
  contentSha256 : String
  byteSize : Nat
  artifactUri : String
  createdAt : Time
  verifiedAt : Time
  deriving DecidableEq

/-- What outlives a process. -/
structure Disk where
  files : Cas
  db : Db
  contentObjects : List ContentObjectRow

/-- What `persist_evidence` is given: a body, or an artifact stored before. -/
inductive Given where
  | body (body : List UInt8)
  | artifact (artifact : StoredArtifact)

def Given.evidenceBody : Given → EvidenceBody
  | .body b => .bytes b
  | .artifact a => .stored a.toArtifact

/-- The arguments of `persist_evidence`; the body of `args` is the one given. -/
structure PersistArgs where
  run : RunHandle
  given : Given
  args : EvidenceArgs
  now : Time

def PersistArgs.evidenceArgs (c : PersistArgs) : EvidenceArgs :=
  { c.args with body := c.given.evidenceBody }

/-- What the checks before the bytes determine. -/
structure Metadata where
  definition : DatasourceDefinition
  binding : SourceBinding
  retention : Option Time
  mediaType : Option String

/-- How far a `persist_evidence` has come. -/
inductive Persist where
  | waiting
  | preparing
  | sizing (metadata : Metadata) (artifact : StoredArtifact)
  | hashing (metadata : Metadata) (artifact : StoredArtifact)
  | validating (metadata : Metadata) (given : Given)
  | checking (metadata : Metadata) (given : Given)
  | putting (metadata : Metadata) (body : List UInt8) (put : Put)
  | committing (metadata : Metadata) (artifact : StoredArtifact)
  | returned (evidence : PersistedEvidence)
  | raised

/-- `INSERT OR IGNORE INTO content_object`. -/
def insertContentObject (a : StoredArtifact) (now : Time) (rows : List ContentObjectRow) :
    List ContentObjectRow :=
  if rows.any fun o => o.contentSha256 = a.contentSha256 || o.artifactUri = a.artifactUri then rows
  else rows ++ [⟨a.contentSha256, a.byteSize, a.artifactUri, now, now⟩]

section

variable (env : Env) (sha256 : List UInt8 → String)

/-- The checks of `persist_evidence` that read neither bytes nor the database. -/
def PersistArgs.prepare (c : PersistArgs) : Except StoreError Metadata := do
  let (definition, binding, retention) ← prepareEvidenceMetadata env c.run c.evidenceArgs c.now
  let mediaType ← effectiveMediaType c.evidenceArgs
  .ok ⟨definition, binding, retention, mediaType⟩

/-- The transaction of `persist_evidence`. -/
def PersistArgs.commit (c : PersistArgs) (m : Metadata) (a : StoredArtifact) (disk : Disk) :
    Except StoreError (PersistedEvidence × Disk) := do
  let (evidence, db) ← persistEvidenceTx env c.run c.evidenceArgs m.definition m.binding m.retention
    m.mediaType a.toArtifact c.now disk.db
  let contentObjects := insertContentObject a c.now disk.contentObjects
  require (∃ o ∈ contentObjects, o.contentSha256 = a.contentSha256)
    (.integrity "FOREIGN KEY constraint failed")
  .ok (evidence, { disk with db, contentObjects })

namespace Persist

/-- Where a call goes that has a body, once `put_bytes` has moved. -/
def afterPut (m : Metadata) (body : List UInt8) : Put → Persist
  | .returned a => .committing m a
  | .raised => .raised
  | p => .putting m body p

/-- The arguments of `put_bytes`. -/
def putArgs (m : Metadata) (body : List UInt8) : PutArgs where
  body := some body
  mediaType := m.mediaType

/-- The next action succeeds. -/
def proceed (name : String) (c : PersistArgs) (free : Bool) (disk : Disk) :
    Persist → Option (Persist × Disk)
  | .waiting => some (if free then .preparing else .raised, disk)
  | .preparing =>
    match c.prepare env, c.given with
    | .error _, _ => some (.raised, disk)
    | .ok m, .body b => some (.validating m (.body b), disk)
    | .ok m, .artifact a => some (if validDigest a.contentSha256 then .sizing m a else .raised, disk)
  | .sizing m a => some (if disk.files.sized a then .hashing m a else .raised, disk)
  | .hashing m a =>
    some (if disk.files.hashed sha256 a then .validating m (.artifact a) else .raised, disk)
  | .validating m given => some (.checking m given, disk)
  | .checking m given =>
    match requireRunningRun c.run c.now disk.db, given with
    | .error _, _ => some (.raised, disk)
    | .ok _, .body b => some (.putting m b .entered, disk)
    | .ok _, .artifact a => some (.committing m a, disk)
  | .putting m b p =>
    (p.proceed sha256 name (putArgs m b) disk.files).map fun (p, files) =>
      (afterPut m b p, { disk with files })
  | .committing m a =>
    match c.commit env m a disk with
    | .error _ => some (.raised, disk)
    | .ok (evidence, disk) => some (.returned evidence, disk)
  | .returned _ | .raised => none

/-- One step of `persist_evidence`; outside `put_bytes` an action succeeds or raises. -/
def next (name : String) (c : PersistArgs) (free : Bool) (disk : Disk) (p : Persist) :
    Answer → Option (Persist × Disk)
  | .ok => p.proceed env sha256 name c free disk
  | answer =>
    match p, answer with
    | .putting m b p, _ => (p.next sha256 name (putArgs m b) disk.files answer).map
        fun (p, files) => (afterPut m b p, { disk with files })
    | .returned _, _ | .raised, _ => none
    | _, .error => some (.raised, disk)
    | _, _ => none

/-- The call is inside its `writer_session`. -/
def holdsWriter : Persist → Bool
  | .waiting | .returned _ | .raised => false
  | _ => true

end Persist

/-! ## Calls side by side -/

/-- What a call is doing. -/
inductive Activity where
  | putStream (args : PutArgs) (phase : Put)
  | persistEvidence (args : PersistArgs) (phase : Persist)
  | stopped

/-- A call and the `uuid4().hex` that names its private file. -/
structure Call where
  name : String
  activity : Activity

namespace Call

/-- One step of a call; `free` says whether nobody holds `writer.lock`. -/
def next (c : Call) (free : Bool) (disk : Disk) (answer : Answer) : Option (Call × Disk) :=
  match c.activity with
  | .putStream args p => (p.next sha256 c.name args disk.files answer).map
      fun (p, files) => ({ c with activity := .putStream args p }, { disk with files })
  | .persistEvidence args p => (p.next env sha256 c.name args free disk answer).map
      fun (p, disk) => ({ c with activity := .persistEvidence args p }, disk)
  | .stopped => none

/-- The call is inside a `writer_session`. -/
def holdsWriter (c : Call) : Bool :=
  match c.activity with
  | .persistEvidence _ p => p.holdsWriter
  | _ => false

/-- The call has raised. -/
def raised (c : Call) : Bool :=
  match c.activity with
  | .putStream _ .raised | .persistEvidence _ .raised => true
  | _ => false

/-- The call has returned. -/
def returned (c : Call) : Bool :=
  match c.activity with
  | .putStream _ (.returned _) | .persistEvidence _ (.returned _) => true
  | _ => false

end Call

/-- A data directory, the holder of its `writer.lock`, and the calls begun so far. -/
structure Site where
  disk : Disk
  writer : Option Nat
  calls : List Call

/-- What happens next. A process that stops stops all its calls, one event each. `other` is any
other operation of the store: no other one writes `evidence_artifact` or `content_object`, and
triggers forbid to change their rows. -/
inductive Event where
  | putStream (name : String) (args : PutArgs)
  | persistEvidence (name : String) (args : PersistArgs)
  | advance (call : Nat) (answer : Answer)
  | stop (call : Nat)
  | other (db : Db)

/-- The call that acts. -/
def Event.actor : Event → Option Nat
  | .advance i _ => some i
  | _ => none

namespace Site

/-- A data directory before its first call. -/
def empty : Site := ⟨⟨.empty, {}, []⟩, none, []⟩

/-- One event. -/
def step (s : Site) : Event → Option Site
  | .putStream name args => some { s with calls := s.calls ++ [⟨name, .putStream args .entered⟩] }
  | .persistEvidence name args =>
    some { s with calls := s.calls ++ [⟨name, .persistEvidence args .waiting⟩] }
  | .advance i answer => do
    let c ← s.calls[i]?
    let (c, disk) ← c.next env sha256 s.writer.isNone s.disk answer
    some {
      disk
      writer := if c.holdsWriter then some i else if s.writer = some i then none else s.writer
      calls := s.calls.set i c }
  | .stop i => do
    let c ← s.calls[i]?
    if c.raised || c.returned then none
    else some { s with
      writer := if s.writer = some i then none else s.writer
      calls := s.calls.set i { c with activity := .stopped } }
  | .other db =>
    if s.writer.isSome then none
    else some { s with disk := { s.disk with db := { db with evidence := s.disk.db.evidence } } }

/-- One event of a run, with the states around it. -/
structure Move where
  actor : Option Nat
  before : Site
  after : Site

/-- The runs of a data directory. -/
inductive Run : List Move → Site → Prop
  | empty : Run [] .empty
  | step {moves : List Move} {s s' : Site} (event : Event) (run : Run moves s)
      (h : s.step env sha256 event = some s') : Run (moves ++ [⟨event.actor, s, s'⟩]) s'

end Site

end

end NanFung
