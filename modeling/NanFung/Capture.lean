import NanFung.Sample
import NanFung.Store.Artifacts

/-!
# Evidence is captured before it is referenced

A step of a call changes the tree of files in one of five ways (`FileStep`): it creates, extends or
removes its own private file, or gives it the name of its digest, or does nothing. What a call knows
about the files (`Put.Owns`, `Persist.Owns`) survives the steps of every other call, because private
names differ, and so a published object never changes and a row is only written for an object that
has been verified.
-/

namespace NanFung

/-- The object of an artifact is published, has its digest and its size. -/
def Cas.Holds (sha256 : List UInt8 → String) (fs : Cas) (contentSha256 : String) (byteSize : Nat) :
    Prop :=
  ∃ bytes, fs.object contentSha256 = some bytes ∧ sha256 bytes = contentSha256 ∧
    bytes.length = byteSize

section

variable {env : Env} {sha256 : List UInt8 → String}

/-! ## What a step does to the files -/

/-- A step of the call whose private file is `name`, and whether it publishes. -/
inductive FileStep (sha256 : List UInt8 → String) (name : String) (fs : Cas) : Bool → Cas → Prop where
  | same : FileStep sha256 name fs false fs
  | create : FileStep sha256 name fs false (fs.create (.temporary name))
  | append (i : Nat) (bytes : List UInt8) (own : fs.Private i (.temporary name)) :
      FileStep sha256 name fs false (fs.append i bytes)
  | publish (bytes : List UInt8) (content : fs.read (.temporary name) = some bytes)
      (absent : fs.entry (.object (sha256 bytes)) = none) :
      FileStep sha256 name fs true (fs.link (.temporary name) (.object (sha256 bytes)))
  | discard : FileStep sha256 name fs false (fs.unlink (.temporary name))

namespace FileStep

variable {name other : String} {publishes : Bool} {fs fs' : Cas}

/-- Nothing is published but by a link. -/
theorem object_eq (h : FileStep sha256 name fs false fs') (d : String) :
    fs'.object d = fs.object d := by
  cases h with
  | same => rfl
  | create => exact Files.read_create_ne (by simp)
  | append i more own =>
    refine Files.read_append_ne more ?_
    -- the open inode has no published name
    intro he
    exact absurd (own _ he) (by simp)
  | discard => exact Files.read_unlink_ne (by simp)

/-- A link publishes one object. -/
theorem object_eq_of_ne (h : FileStep sha256 name fs publishes fs') :
    ∃ d, ∀ e, e ≠ d → fs'.object e = fs.object e := by
  cases h with
  | publish content _ _ =>
    refine ⟨sha256 content, fun e he => Files.read_link_ne _ ?_⟩
    simpa using he
  | same => exact ⟨"", fun e _ => rfl⟩
  | create => exact ⟨"", fun e _ => @object_eq sha256 _ _ _ .create e⟩
  | append i more own => exact ⟨"", fun e _ => @object_eq sha256 _ _ _ (.append i more own) e⟩
  | discard => exact ⟨"", fun e _ => @object_eq sha256 _ _ _ .discard e⟩

/-- A published object keeps its bytes. -/
theorem object (h : FileStep sha256 name fs publishes fs') {d : String} {bytes : List UInt8}
    (hd : fs.object d = some bytes) : fs'.object d = some bytes := by
  cases publishes with
  | false => exact (h.object_eq d).trans hd
  | true =>
    cases h with
    | publish content _ absent =>
      rw [← hd]
      refine Files.read_link_ne _ ?_
      intro he
      have hnone := Files.read_eq_none.2 absent
      rw [← he] at hnone
      exact absurd (hd.symm.trans hnone) (by simp)

/-- Every object still has its digest. -/
theorem correct (h : FileStep sha256 name fs publishes fs')
    (hc : ∀ d bytes, fs.object d = some bytes → sha256 bytes = d) {d : String}
    {bytes : List UInt8} (hd : fs'.object d = some bytes) : sha256 bytes = d := by
  cases publishes with
  | false => exact hc d bytes ((h.object_eq d).symm.trans hd)
  | true =>
    cases h with
    | publish content hread _ =>
      by_cases he : d = sha256 content
      · subst he
        have hlink : fs.read (.temporary name) = some bytes := by simpa [Cas.object] using hd
        rw [hread] at hlink
        rw [Option.some.inj hlink]
      · refine hc d bytes (Eq.trans (Files.read_link_ne _ ?_).symm hd)
        intro h
        exact he (Path.object.inj h)

/-- The private files of others keep their inodes. -/
theorem entry_other (h : FileStep sha256 name fs publishes fs') (hne : other ≠ name) :
    fs'.entry (.temporary other) = fs.entry (.temporary other) := by
  cases h with
  | same => rfl
  | create => exact Files.entry_create_ne fs (by simpa using hne)
  | append i more own => rfl
  | publish content _ _ => exact Files.entry_link_ne fs _ (by simp)
  | discard => exact Files.entry_unlink_ne fs (by simpa using hne)

/-- The private files of others keep their bytes. -/
theorem inode_other (h : FileStep sha256 name fs publishes fs') (hne : other ≠ name) {i : Nat}
    {bytes : List UInt8} (he : fs.entry (.temporary other) = some i)
    (hi : fs.inodes[i]? = some bytes) : fs'.inodes[i]? = some bytes := by
  cases h with
  | same => exact hi
  | create => exact Files.inodes_create _ hi
  | append j more own =>
    rw [← hi]
    refine Files.inodes_append_ne more ?_
    intro hj
    subst hj
    exact hne (Path.temporary.inj (own _ he))
  | publish content _ _ => exact hi
  | discard => exact hi

theorem read_other (h : FileStep sha256 name fs publishes fs') (hne : other ≠ name) {bytes : List UInt8}
    (hr : fs.read (.temporary other) = some bytes) : fs'.read (.temporary other) = some bytes := by
  obtain ⟨i, he, hi⟩ := Files.read_eq_some.1 hr
  exact Files.read_eq_some.2 ⟨i, (h.entry_other hne).trans he, h.inode_other hne he hi⟩

/-- An inode only another call can name stays so. -/
theorem private_other (h : FileStep sha256 name fs publishes fs') (hne : other ≠ name) {i : Nat}
    (he : fs.entry (.temporary other) = some i) (hp : fs.Private i (.temporary other)) :
    fs'.Private i (.temporary other) := by
  have hi := fs.bounded _ i he
  intro q hq
  cases h with
  | same => exact hp q hq
  | create =>
    by_cases h : q = .temporary name
    · subst h
      rw [Files.entry_create] at hq
      have := Option.some.inj hq
      omega
    · rw [Files.entry_create_ne fs h] at hq
      exact hp q hq
  | append j more own => exact hp q hq
  | publish content _ _ =>
    by_cases h : q = .object (sha256 content)
    · subst h
      rw [Files.entry_link] at hq
      exact absurd (Path.temporary.inj (hp _ hq)).symm hne
    · rw [Files.entry_link_ne fs _ h] at hq
      exact hp q hq
  | discard =>
    by_cases h : q = .temporary name
    · subst h
      simp at hq
    · rw [Files.entry_unlink_ne fs h] at hq
      exact hp q hq

theorem holds (h : FileStep sha256 name fs publishes fs') {d : String} {size : Nat}
    (hd : fs.Holds sha256 d size) : fs'.Holds sha256 d size := by
  obtain ⟨bytes, ho, hs, hl⟩ := hd
  exact ⟨bytes, h.object ho, hs, hl⟩

end FileStep

/-! ## What a call knows -/

/-- What a `put_stream` relies on. -/
def Put.Owns (sha256 : List UInt8 → String) (name : String) (fs : Cas) : Put → Prop
  | .opened i read buffered _ =>
    fs.entry (.temporary name) = some i ∧ fs.Private i (.temporary name) ∧
      ∃ written, fs.inodes[i]? = some written ∧ written ++ buffered = read
  | .written read | .validated read | .publishing read => fs.read (.temporary name) = some read
  | .linked read | .unlinked read => fs.object (sha256 read) = some read
  | .hashing a => fs.sized a = true
  | .returned a => fs.Holds sha256 a.contentSha256 a.byteSize
  | _ => True

/-- What a `persist_evidence` relies on. -/
def Persist.Owns (sha256 : List UInt8 → String) (name : String) (fs : Cas) : Persist → Prop
  | .hashing _ a => fs.sized a = true
  | .validating _ (.artifact a) | .checking _ (.artifact a) | .committing _ a =>
    fs.Holds sha256 a.contentSha256 a.byteSize
  | .putting _ _ p => p.Owns sha256 name fs
  | _ => True

def Call.Owns (sha256 : List UInt8 → String) (fs : Cas) (c : Call) : Prop :=
  match c.activity with
  | .putStream _ p => p.Owns sha256 c.name fs
  | .persistEvidence _ p => p.Owns sha256 c.name fs
  | .stopped => True

theorem Cas.sized_iff {fs : Cas} {a : StoredArtifact} :
    fs.sized a = true ↔ ∃ bytes, fs.object a.contentSha256 = some bytes ∧
      bytes.length = a.byteSize := by
  simp [Cas.sized, Option.any_eq_true]

/-- Both halves of `verify`. -/
theorem Cas.holds_of_verify {fs : Cas} {a : StoredArtifact} (hs : fs.sized a = true)
    (hh : fs.hashed sha256 a = true) : fs.Holds sha256 a.contentSha256 a.byteSize := by
  obtain ⟨bytes, ho, hl⟩ := Cas.sized_iff.1 hs
  refine ⟨bytes, ho, ?_, hl⟩
  simpa [Cas.hashed, ho] using hh

theorem FileStep.sized {name : String} {publishes : Bool} {fs fs' : Cas} (h : FileStep sha256 name fs publishes fs')
    {a : StoredArtifact} (ha : fs.sized a = true) : fs'.sized a = true := by
  obtain ⟨bytes, ho, hl⟩ := Cas.sized_iff.1 ha
  exact Cas.sized_iff.2 ⟨bytes, h.object ho, hl⟩

/-- What a `put_stream` relies on survives the steps of others. -/
theorem Put.Owns.other {name other : String} {publishes : Bool} {fs fs' : Cas} {p : Put}
    (hp : p.Owns sha256 other fs) (h : FileStep sha256 name fs publishes fs') (hne : other ≠ name) :
    p.Owns sha256 other fs' := by
  cases p with
  | opened i read buffered rest =>
    obtain ⟨he, hpriv, written, hi, heq⟩ := hp
    exact ⟨(h.entry_other hne).trans he, h.private_other hne he hpriv, written,
      h.inode_other hne he hi, heq⟩
  | written read => exact h.read_other hne hp
  | validated read => exact h.read_other hne hp
  | publishing read => exact h.read_other hne hp
  | linked read => exact h.object hp
  | unlinked read => exact h.object hp
  | hashing a => exact h.sized hp
  | returned a => exact h.holds hp
  | _ => trivial

theorem Persist.Owns.other {name other : String} {publishes : Bool} {fs fs' : Cas} {p : Persist}
    (hp : p.Owns sha256 other fs) (h : FileStep sha256 name fs publishes fs') (hne : other ≠ name) :
    p.Owns sha256 other fs' := by
  cases p with
  | hashing m a => exact h.sized hp
  | validating m given =>
    cases given with
    | body b => trivial
    | artifact a => exact h.holds hp
  | checking m given =>
    cases given with
    | body b => trivial
    | artifact a => exact h.holds hp
  | putting m b p => exact Put.Owns.other hp h hne
  | committing m a => exact h.holds hp
  | _ => trivial

theorem Call.Owns.other {name : String} {publishes : Bool} {fs fs' : Cas} {c : Call} (hc : c.Owns sha256 fs)
    (h : FileStep sha256 name fs publishes fs') (hne : c.name ≠ name) : c.Owns sha256 fs' := by
  obtain ⟨n, activity⟩ := c
  cases activity with
  | putStream args p => exact Put.Owns.other hc h hne
  | persistEvidence args p => exact Persist.Owns.other hc h hne
  | stopped => trivial

/-! ## One step of `put_stream` -/

/-- The call has not reached its link. -/
def Put.pending : Put → Bool
  | .entered | .opened .. | .written _ | .validated _ | .publishing _ => true
  | _ => false

def Persist.pending : Persist → Bool
  | .putting _ _ p => p.pending
  | .committing .. | .returned _ | .raised => false
  | _ => true

def Call.pending (c : Call) : Bool :=
  match c.activity with
  | .putStream _ p => p.pending
  | .persistEvidence _ p => p.pending
  | .stopped => false

/-- A step on the files that publishes only if it passes the link, which is passed once. -/
def Advance (sha256 : List UInt8 → String) (name : String) (fs fs' : Cas)
    (pending pending' : Bool) : Prop :=
  ∃ publishes, FileStep sha256 name fs publishes fs' ∧
    (publishes = true → pending = true ∧ pending' = false) ∧ (pending' = true → pending = true)

theorem Advance.quiet {name : String} {fs fs' : Cas} {pending pending' : Bool}
    (h : FileStep sha256 name fs false fs') (hp : pending' = true → pending = true) :
    Advance sha256 name fs fs' pending pending' :=
  ⟨false, h, by simp, hp⟩

theorem Put.proceed_owns {name : String} {args : PutArgs} {fs fs' : Cas} {p p' : Put}
    (h : p.proceed sha256 name args fs = some (p', fs')) (hp : p.Owns sha256 name fs) :
    Advance sha256 name fs fs' p.pending p'.pending ∧ p'.Owns sha256 name fs' := by
  cases p with
  | entered =>
    simp only [Put.proceed] at h
    split at h
    · cases h
      exact ⟨.quiet .same fun _ => rfl, trivial⟩
    split at h
    · cases h
      exact ⟨.quiet .same fun _ => rfl, trivial⟩
    cases h
    refine ⟨.quiet .create fun _ => rfl, Files.entry_create _ _, ?_, [], ?_, rfl⟩
    · -- the new inode has no older name
      intro q hq
      by_contra hne
      rw [Files.entry_create_ne fs hne] at hq
      exact absurd (fs.bounded q _ hq) (lt_irrefl _)
    · simp [Files.create]
  | opened i read buffered rest =>
    obtain ⟨he, hpriv, written, hi, heq⟩ := hp
    simp only [Put.proceed] at h
    split at h
    · cases h
      refine ⟨.quiet (.append i buffered hpriv) fun _ => rfl, ?_⟩
      refine Files.read_eq_some.2 ⟨i, he, ?_⟩
      rw [← heq]
      exact Files.inodes_append_self buffered hi
    · exact absurd h (by simp)
  | written read =>
    cases h
    exact ⟨.quiet .same fun _ => rfl, hp⟩
  | validated read =>
    cases h
    exact ⟨.quiet .same fun _ => rfl, hp⟩
  | publishing read =>
    simp only [Put.proceed] at h
    split at h
    · cases h
      exact ⟨.quiet .same fun _ => rfl, trivial⟩
    split at h
    · cases h
      exact ⟨.quiet .same fun _ => rfl, trivial⟩
    split at h
    · cases h
      exact ⟨.quiet .same fun _ => rfl, trivial⟩
    next hfree =>
    cases h
    refine ⟨⟨true, .publish read hp ?_, fun _ => ⟨rfl, rfl⟩, fun _ => rfl⟩, ?_⟩
    · simpa using hfree
    · show Files.read _ _ = _
      rw [Files.read_link]
      exact hp
  | linked read =>
    simp only [Put.proceed] at h
    split at h
    · cases h
      exact ⟨.quiet .same id, trivial⟩
    · cases h
      have hstep : FileStep sha256 name fs false (fs.unlink (.temporary name)) := .discard
      exact ⟨.quiet hstep id, hstep.object hp⟩
  | unlinked read =>
    cases h
    exact ⟨.quiet .same id, read, hp, rfl, rfl⟩
  | existing read =>
    cases h
    exact ⟨.quiet .discard id, trivial⟩
  | sizing a =>
    simp only [Put.proceed] at h
    split at h
    · next hs =>
      cases h
      exact ⟨.quiet .same id, hs⟩
    · cases h
      exact ⟨.quiet .same id, trivial⟩
  | hashing a =>
    simp only [Put.proceed] at h
    split at h
    · next hh =>
      cases h
      exact ⟨.quiet .same id, Cas.holds_of_verify hp hh⟩
    · cases h
      exact ⟨.quiet .same id, trivial⟩
  | unwinding =>
    cases h
    exact ⟨.quiet .discard id, trivial⟩
  | returned a => cases h
  | raised => cases h

theorem Put.fail_owns {name : String} {fs : Cas} {p p' : Put} (h : p.fail = some p') :
    p'.pending = false ∧ p'.Owns sha256 name fs := by
  cases p <;> simp only [Put.fail, Option.some.injEq, reduceCtorEq] at h <;> subst h <;>
    exact ⟨rfl, trivial⟩

theorem Put.next_owns {name : String} {args : PutArgs} {fs fs' : Cas} {p p' : Put}
    {answer : Answer} (h : p.next sha256 name args fs answer = some (p', fs'))
    (hp : p.Owns sha256 name fs) :
    Advance sha256 name fs fs' p.pending p'.pending ∧ p'.Owns sha256 name fs' := by
  cases answer with
  | ok => exact Put.proceed_owns h hp
  | error =>
    obtain ⟨q, hq, he⟩ := Option.map_eq_some_iff.1 h
    cases he
    obtain ⟨hpending, howns⟩ := Put.fail_owns hq
    exact ⟨.quiet .same (by simp [hpending]), howns⟩
  | chunk bytes =>
    obtain ⟨q, hq, he⟩ := Option.map_eq_some_iff.1 h
    cases he
    cases p <;> simp only [Put.readChunk, reduceCtorEq] at hq
    next i read buffered rest =>
    obtain ⟨hentry, hpriv, written, hi, heq⟩ := hp
    split at hq
    · exact absurd hq (by simp)
    split at hq
    · cases hq
      exact ⟨.quiet .same fun _ => rfl, trivial⟩
    · cases hq
      refine ⟨.quiet .same fun _ => rfl, hentry, hpriv, written, hi, ?_⟩
      rw [← heq, List.append_assoc]
  | flush count =>
    cases p <;> simp only [Put.next, Put.flush, reduceCtorEq] at h
    next i read buffered rest =>
    obtain ⟨hentry, hpriv, written, hi, heq⟩ := hp
    cases h
    refine ⟨.quiet (.append i _ hpriv) fun _ => rfl, hentry, hpriv, _,
      Files.inodes_append_self _ hi, ?_⟩
    rw [List.append_assoc, List.take_append_drop]
    exact heq

/-! ## One step of `persist_evidence` -/

/-- What the transaction of `persist_evidence` writes. -/
theorem PersistArgs.commit_ok {c : PersistArgs} {m : Metadata} {a : StoredArtifact}
    {disk disk' : Disk} {evidence : PersistedEvidence}
    (h : c.commit env m a disk = .ok (evidence, disk')) :
    disk'.files = disk.files ∧
      (∃ e : EvidenceRow, e.contentSha256 = a.contentSha256 ∧
        disk'.db.evidence = disk.db.evidence ++ [e]) ∧
      disk'.contentObjects = insertContentObject a c.now disk.contentObjects ∧
      ∃ o ∈ disk'.contentObjects, o.contentSha256 = a.contentSha256 := by
  simp only [PersistArgs.commit, bind_ok, require_ok, Except.ok.injEq, Prod.mk.injEq] at h
  obtain ⟨⟨evidence', db⟩, hdb, -, hrow, -, rfl⟩ := h
  refine ⟨rfl, ?_, rfl, hrow⟩
  simp only [persistEvidenceTx, bind_ok, require_ok, Except.ok.injEq, Prod.mk.injEq] at hdb
  obtain ⟨-, -, request, -, response, -, -, -, -, -, -, rfl⟩ := hdb
  exact ⟨_, rfl, rfl⟩

/-- The transaction is the one of the store's `persist_evidence`, for the artifact that was stored. -/
theorem PersistArgs.commit_persistEvidence {c : PersistArgs} {m : Metadata} {a : StoredArtifact}
    {disk disk' : Disk} {evidence : PersistedEvidence} (hm : c.prepare env = .ok m)
    (h : c.commit env m a disk = .ok (evidence, disk')) :
    persistEvidence { env with publishArtifact := fun _ _ _ => .ok a.toArtifact } c.run
      c.evidenceArgs c.now disk.db = .ok (evidence, disk'.db) := by
  simp only [PersistArgs.prepare, bind_ok, Except.ok.injEq] at hm
  obtain ⟨⟨definition, binding, retention⟩, hprepare, mediaType, hmedia, rfl⟩ := hm
  simp only [PersistArgs.commit, bind_ok, require_ok, Except.ok.injEq, Prod.mk.injEq] at h
  obtain ⟨⟨evidence', db⟩, hdb, -, -, rfl, rfl⟩ := h
  simp only [persistEvidence, bind_ok]
  exact ⟨_, hprepare, mediaType, hmedia, _, rfl, hdb⟩

theorem mem_insertContentObject {a : StoredArtifact} {now : Time} {rows : List ContentObjectRow}
    {o : ContentObjectRow} (h : o ∈ insertContentObject a now rows) :
    o ∈ rows ∨ (o.contentSha256 = a.contentSha256 ∧ o.byteSize = a.byteSize) := by
  unfold insertContentObject at h
  split at h
  · exact .inl h
  · rcases List.mem_append.1 h with h | h
    · exact .inl h
    · obtain rfl := List.mem_singleton.1 h
      exact .inr ⟨rfl, rfl⟩

theorem subset_insertContentObject (a : StoredArtifact) (now : Time)
    (rows : List ContentObjectRow) : rows ⊆ insertContentObject a now rows := by
  unfold insertContentObject
  split
  · exact fun _ h => h
  · exact fun _ h => List.mem_append_left _ h

/-- The transaction of a call that holds the artifact it names. -/
structure Commits (env : Env) (sha256 : List UInt8 → String) (args : PersistArgs)
    (p p' : Persist) (disk disk' : Disk) : Prop where
  active : p.holdsWriter = true
  returned : ∃ evidence, p' = .returned evidence
  commit : ∃ m a evidence, disk.files.Holds sha256 a.contentSha256 a.byteSize ∧
    args.commit env m a disk = .ok (evidence, disk')

/-- What a step of `persist_evidence` does. -/
inductive Persist.Step (env : Env) (sha256 : List UInt8 → String) (name : String)
    (args : PersistArgs) (free : Bool) (p : Persist) (disk : Disk) (p' : Persist) :
    Disk → Prop where
  | files {files : Cas} (advance : Advance sha256 name disk.files files p.pending p'.pending)
      (owns : p'.Owns sha256 name files)
      (active : p'.holdsWriter = true → p.holdsWriter = true ∨ (free = true ∧ p.pending = true))
      (returned : ∀ evidence, p' ≠ .returned evidence) :
      Persist.Step env sha256 name args free p disk p' { disk with files }
  | commit {disk' : Disk} (h : Commits env sha256 args p p' disk disk') :
      Persist.Step env sha256 name args free p disk p' disk'

/-- A step outside `put_bytes` and the transaction. -/
theorem Persist.Step.quiet {name : String} {args : PersistArgs} {free : Bool} {p p' : Persist}
    {disk : Disk} (hp : p.holdsWriter = true) (hpending : p'.pending = true → p.pending = true)
    (howns : p'.Owns sha256 name disk.files) (hreturned : ∀ evidence, p' ≠ .returned evidence) :
    Persist.Step env sha256 name args free p disk p' disk :=
  .files (.quiet .same hpending) howns (fun _ => .inl hp) hreturned

/-- A step of `put_bytes`. -/
theorem Persist.step_put {name : String} {args : PersistArgs} {free : Bool} {disk : Disk}
    {m : Metadata} {b : List UInt8} {q : Put} {answer : Answer} {p' : Persist} {disk' : Disk}
    (hq : q.Owns sha256 name disk.files)
    (h : ((q.next sha256 name (putArgs m b) disk.files answer).map fun (q, files) =>
      (afterPut m b q, { disk with files })) = some (p', disk')) :
    Persist.Step env sha256 name args free (.putting m b q) disk p' disk' := by
  obtain ⟨⟨q', files⟩, hnext, he⟩ := Option.map_eq_some_iff.1 h
  cases he
  obtain ⟨hadvance, howns⟩ := Put.next_owns hnext hq
  have hpending : (afterPut m b q').pending = q'.pending := by
    cases q' <;> rfl
  refine .files ?_ ?_ (fun _ => .inl rfl) ?_
  · rw [hpending]
    exact hadvance
  · cases q' <;> exact howns
  · cases q' <;> exact fun _ => by simp [afterPut]

theorem Persist.proceed_step {name : String} {args : PersistArgs} {free : Bool} {disk disk' : Disk}
    {p p' : Persist} (h : p.proceed env sha256 name args free disk = some (p', disk'))
    (hp : p.Owns sha256 name disk.files) :
    Persist.Step env sha256 name args free p disk p' disk' := by
  cases p with
  | waiting =>
    cases h
    cases free with
    | true =>
      refine .files (.quiet .same fun _ => rfl) trivial (fun _ => .inr ⟨rfl, rfl⟩) ?_
      simp
    | false => exact .files (.quiet .same fun _ => rfl) trivial (by simp [holdsWriter]) (by simp)
  | preparing =>
    simp only [Persist.proceed] at h
    split at h
    · cases h
      exact .quiet rfl (fun _ => rfl) trivial (by simp)
    · cases h
      exact .quiet rfl (fun _ => rfl) trivial (by simp)
    · cases h
      refine .quiet rfl (fun _ => rfl) ?_ ?_
      · split <;> trivial
      · split <;> simp
  | sizing m a =>
    simp only [Persist.proceed] at h
    split at h
    · next hs =>
      cases h
      exact .quiet rfl (fun _ => rfl) hs (by simp)
    · cases h
      exact .quiet rfl (fun _ => rfl) trivial (by simp)
  | hashing m a =>
    simp only [Persist.proceed] at h
    split at h
    · next hh =>
      cases h
      exact .quiet rfl (fun _ => rfl) (Cas.holds_of_verify hp hh) (by simp)
    · cases h
      exact .quiet rfl (fun _ => rfl) trivial (by simp)
  | validating m given =>
    cases h
    refine .quiet rfl (fun _ => rfl) ?_ (by simp)
    cases given <;> exact hp
  | checking m given =>
    simp only [Persist.proceed] at h
    split at h
    · cases h
      exact .quiet rfl (fun _ => rfl) trivial (by simp)
    · cases h
      exact .quiet rfl (fun _ => rfl) trivial (by simp)
    · cases h
      exact .quiet rfl (by simp [Persist.pending]) hp (by simp)
  | putting m b q =>
    change (q.next sha256 name (putArgs m b) disk.files .ok).map _ = _ at h
    exact step_put hp h
  | committing m a =>
    simp only [Persist.proceed] at h
    split at h
    · cases h
      exact .quiet rfl (by simp [Persist.pending]) trivial (by simp)
    · next evidence disk' hc =>
      cases h
      exact .commit ⟨rfl, ⟨evidence, rfl⟩, m, a, evidence, hp, hc⟩
  | returned evidence => cases h
  | raised => cases h

theorem Persist.next_step {name : String} {args : PersistArgs} {free : Bool} {disk disk' : Disk}
    {p p' : Persist} {answer : Answer}
    (h : p.next env sha256 name args free disk answer = some (p', disk'))
    (hp : p.Owns sha256 name disk.files) :
    Persist.Step env sha256 name args free p disk p' disk' := by
  -- an action that raises leaves the disk alone, except inside `put_bytes`
  have hraise : Persist.Step env sha256 name args free p disk .raised disk :=
    .files (.quiet .same (by simp [Persist.pending])) trivial (by simp [holdsWriter]) (by simp)
  cases answer with
  | ok => exact proceed_step h hp
  | error =>
    cases p with
    | putting m b q => exact step_put hp h
    | returned evidence => cases h
    | raised => cases h
    | _ =>
      cases h
      exact hraise
  | chunk bytes =>
    cases p with
    | putting m b q => exact step_put hp h
    | _ => cases h
  | flush count =>
    cases p with
    | putting m b q => exact step_put hp h
    | _ => cases h

/-! ## One step of a call -/

/-- The call has committed its rows. -/
def Call.committed (c : Call) : Bool :=
  match c.activity with
  | .persistEvidence _ (.returned _) => true
  | _ => false

/-- What a step of a call does. -/
inductive Call.Step (env : Env) (sha256 : List UInt8 → String) (free : Bool) (c : Call)
    (disk : Disk) (c' : Call) : Disk → Prop where
  | files {files : Cas} (advance : Advance sha256 c.name disk.files files c.pending c'.pending)
      (owns : c'.Owns sha256 files)
      (active : c'.holdsWriter = true → c.holdsWriter = true ∨ (free = true ∧ c.pending = true))
      (committed : c'.committed = false) :
      Call.Step env sha256 free c disk c' { disk with files }
  | commit {disk' : Disk} {args : PersistArgs} {m : Metadata} {a : StoredArtifact}
      {evidence : PersistedEvidence} (active : c.holdsWriter = true)
      (committed : c'.committed = true)
      (holds : disk.files.Holds sha256 a.contentSha256 a.byteSize)
      (h : args.commit env m a disk = .ok (evidence, disk')) :
      Call.Step env sha256 free c disk c' disk'

theorem Call.next_name {c c' : Call} {free : Bool} {disk disk' : Disk} {answer : Answer}
    (h : c.next env sha256 free disk answer = some (c', disk')) : c'.name = c.name := by
  obtain ⟨name, activity⟩ := c
  cases activity with
  | putStream args p =>
    obtain ⟨q, -, he⟩ := Option.map_eq_some_iff.1 h
    cases he
    rfl
  | persistEvidence args p =>
    obtain ⟨q, -, he⟩ := Option.map_eq_some_iff.1 h
    cases he
    rfl
  | stopped => cases h

theorem Call.next_step {c c' : Call} {free : Bool} {disk disk' : Disk} {answer : Answer}
    (h : c.next env sha256 free disk answer = some (c', disk')) (hc : c.Owns sha256 disk.files) :
    Call.Step env sha256 free c disk c' disk' := by
  obtain ⟨name, activity⟩ := c
  cases activity with
  | putStream args p =>
    obtain ⟨⟨p', files⟩, hnext, he⟩ := Option.map_eq_some_iff.1 h
    cases he
    obtain ⟨hadvance, howns⟩ := Put.next_owns hnext hc
    exact .files hadvance howns (by simp [Call.holdsWriter]) rfl
  | persistEvidence args p =>
    obtain ⟨⟨p', disk'⟩, hnext, he⟩ := Option.map_eq_some_iff.1 h
    cases he
    cases Persist.next_step hnext hc with
    | files hadvance howns hactive hreturned =>
      refine .files hadvance howns hactive ?_
      cases p' with
      | returned evidence => exact absurd rfl (hreturned evidence)
      | _ => rfl
    | commit hcommit =>
      obtain ⟨hactive, ⟨evidence, rfl⟩, m, a, _, hholds, hok⟩ := hcommit
      exact .commit hactive rfl hholds hok
  | stopped => cases h

/-- A call that has committed is over. -/
theorem Call.next_committed {c c' : Call} {free : Bool} {disk disk' : Disk} {answer : Answer}
    (h : c.next env sha256 free disk answer = some (c', disk')) : c.committed = false := by
  obtain ⟨name, activity⟩ := c
  cases activity with
  | persistEvidence args p =>
    cases p with
    | returned evidence => cases answer <;> cases h
    | _ => rfl
  | _ => rfl

theorem Call.returned_of_committed {c : Call} (h : c.committed = true) : c.returned = true := by
  obtain ⟨name, activity⟩ := c
  cases activity with
  | persistEvidence args p =>
    cases p with
    | returned evidence => rfl
    | _ => cases h
  | _ => cases h

/-- Only a call that waits for its `writer_session` or is inside it can raise. -/
theorem Call.next_active {c : Call} {free : Bool} {disk disk' : Disk} {answer : Answer}
    {name : String} {args : PersistArgs} {p' : Persist}
    (h : c.next env sha256 free disk answer = some (⟨name, .persistEvidence args p'⟩, disk')) :
    c.holdsWriter = true ∨ c.pending = true := by
  obtain ⟨name, activity⟩ := c
  cases activity with
  | putStream args p =>
    obtain ⟨q, -, he⟩ := Option.map_eq_some_iff.1 h
    cases he
  | persistEvidence args p =>
    cases p with
    | waiting => exact .inr rfl
    | returned evidence => cases answer <;> cases h
    | raised => cases answer <;> cases h
    | _ => exact .inl rfl
  | stopped => cases h

theorem Call.not_active_of_committed {c : Call} (h : c.committed = true) :
    c.holdsWriter = false ∧ c.pending = false ∧ ∀ fs, c.Owns sha256 fs := by
  obtain ⟨name, activity⟩ := c
  cases activity with
  | persistEvidence args p =>
    cases p with
    | returned evidence => exact ⟨rfl, rfl, fun _ => trivial⟩
    | _ => cases h
  | _ => cases h

/-! ## Every state of a run -/

/-- The `uuid4` names of the calls differ. -/
def Site.Fresh (s : Site) : Prop := (s.calls.map Call.name).Nodup

theorem Site.Fresh.index_eq {s : Site} (h : s.Fresh) {i j : Nat} {c d : Call}
    (hi : s.calls[i]? = some c) (hj : s.calls[j]? = some d) (hn : c.name = d.name) : i = j := by
  obtain ⟨hlt, -⟩ := List.getElem?_eq_some_iff.1 hi
  refine (List.getElem?_inj (by simpa using hlt) h).1 ?_
  simp [hi, hj, hn]

/-- What holds of a data directory at any time. -/
structure Site.Inv (sha256 : List UInt8 → String) (s : Site) : Prop where
  correct : ∀ d bytes, s.disk.files.object d = some bytes → sha256 bytes = d
  owns : ∀ (i : Nat) c, s.calls[i]? = some c → c.Owns sha256 s.disk.files
  writer : ∀ (i : Nat) c, s.calls[i]? = some c → c.holdsWriter = true → s.writer = some i
  contents : ∀ o ∈ s.disk.contentObjects, s.disk.files.Holds sha256 o.contentSha256 o.byteSize
  evidence : ∀ e ∈ s.disk.db.evidence, ∃ o ∈ s.disk.contentObjects,
    o.contentSha256 = e.contentSha256

theorem Site.inv_empty : Site.empty.Inv sha256 where
  correct d bytes h := by simp [Site.empty, Cas.object, Files.empty, Files.read] at h
  owns i c h := by simp [Site.empty] at h
  writer i c h := by simp [Site.empty] at h
  contents o h := by simp [Site.empty] at h
  evidence e h := by simp [Site.empty] at h

/-- A call that begins knows nothing and holds nothing. -/
theorem Site.Inv.start {s : Site} (h : s.Inv sha256) {c : Call} (howns : c.Owns sha256 s.disk.files)
    (hactive : c.holdsWriter = false) :
    Site.Inv sha256 { s with calls := s.calls ++ [c] } where
  correct := h.correct
  owns i d hd := by
    rw [List.getElem?_append] at hd
    split at hd
    · exact h.owns i d hd
    · obtain rfl := List.mem_singleton.1 (List.mem_of_getElem? hd)
      exact howns
  writer i d hd hw := by
    rw [List.getElem?_append] at hd
    split at hd
    · exact h.writer i d hd hw
    · obtain rfl := List.mem_singleton.1 (List.mem_of_getElem? hd)
      rw [hactive] at hw
      exact absurd hw (by simp)
  contents := h.contents
  evidence := h.evidence

/-- The row of a call after one call has been replaced. -/
theorem getElem?_set_cases {α : Type} {l : List α} {i j : Nat} {a b : α}
    (h : (l.set i a)[j]? = some b) : (j = i ∧ b = a) ∨ (j ≠ i ∧ l[j]? = some b) := by
  by_cases hij : j = i
  · subst hij
    rw [List.getElem?_set_self'] at h
    obtain ⟨_, -, h⟩ := Option.map_eq_some_iff.1 h
    exact .inl ⟨rfl, h.symm⟩
  · rw [List.getElem?_set_ne (Ne.symm hij)] at h
    exact .inr ⟨hij, h⟩

/-- The writer's lock passes to the acting call, or is released by it. -/
theorem Site.Inv.writer_advance {s : Site} (h : s.Inv sha256) {i : Nat} {c c' : Call}
    (hc : s.calls[i]? = some c)
    (hactive : c'.holdsWriter = true →
      c.holdsWriter = true ∨ (s.writer.isNone = true ∧ c.pending = true)) :
    ∀ (j : Nat) d, (s.calls.set i c')[j]? = some d → d.holdsWriter = true →
      (if c'.holdsWriter then some i else if s.writer = some i then none else s.writer) =
        some j := by
  intro j d hd hw
  rcases getElem?_set_cases hd with ⟨rfl, rfl⟩ | ⟨hji, hd⟩
  · simp [hw]
  · have hj := h.writer j d hd hw
    have hne : s.writer ≠ some i := by
      rw [hj]
      simpa using hji
    -- the lock is with `j`, so the acting call cannot have it
    have hnot : c'.holdsWriter = false := by
      by_contra hc'
      rcases hactive (by simpa using hc') with hc' | ⟨hc', -⟩
      · exact hne (h.writer i c hc hc')
      · simp [hj] at hc'
    simp [hnot, hj, hji]

theorem Site.step_inv {s s' : Site} {event : Event} (h : s.Inv sha256) (fresh : s.Fresh)
    (hs : s.step env sha256 event = some s') : s'.Inv sha256 := by
  cases event with
  | putStream name args =>
    cases hs
    exact h.start trivial rfl
  | persistEvidence name args =>
    cases hs
    exact h.start trivial rfl
  | advance i answer =>
    simp only [Site.step, Option.bind_eq_bind, Option.bind_eq_some_iff] at hs
    obtain ⟨c, hc, ⟨c', disk⟩, hnext, hs⟩ := hs
    cases hs
    have hstep := Call.next_step hnext (h.owns i c hc)
    cases hstep with
    | files hadvance howns hactive hcommitted =>
      obtain ⟨publishes, hfile, -, -⟩ := hadvance
      refine ⟨fun d bytes hd => hfile.correct h.correct hd, ?_, h.writer_advance hc hactive,
        fun o ho => hfile.holds (h.contents o ho), h.evidence⟩
      intro j d hd
      rcases getElem?_set_cases hd with ⟨-, rfl⟩ | ⟨hji, hd⟩
      · exact howns
      · refine (h.owns j d hd).other hfile ?_
        intro hn
        exact hji (fresh.index_eq hd hc hn)
    | @commit _ args m a evidence hactive hcommitted hholds hok =>
      obtain ⟨hfiles, ⟨e, hdigest, hevidence⟩, hrows, o, ho, hod⟩ := PersistArgs.commit_ok hok
      obtain ⟨hnot, -, howns⟩ := Call.not_active_of_committed hcommitted
      refine ⟨?_, ?_, h.writer_advance hc (by simp [hnot]), ?_, ?_⟩
      · rw [hfiles]
        exact h.correct
      · intro j d hd
        rw [hfiles]
        rcases getElem?_set_cases hd with ⟨-, rfl⟩ | ⟨-, hd⟩
        · exact howns _
        · exact h.owns j d hd
      · intro o' ho'
        rw [hfiles]
        rw [hrows] at ho'
        rcases mem_insertContentObject ho' with ho' | ⟨hd, hsize⟩
        · exact h.contents o' ho'
        · rw [hd, hsize]
          exact hholds
      · intro e' he'
        rw [hevidence] at he'
        rcases List.mem_append.1 he' with he' | he'
        · obtain ⟨o', ho', hod'⟩ := h.evidence e' he'
          refine ⟨o', ?_, hod'⟩
          rw [hrows]
          exact subset_insertContentObject _ _ _ ho'
        · obtain rfl := List.mem_singleton.1 he'
          exact ⟨o, ho, hod.trans hdigest.symm⟩
  | stop i =>
    simp only [Site.step, Option.bind_eq_bind, Option.bind_eq_some_iff] at hs
    obtain ⟨c, hc, hs⟩ := hs
    split at hs
    · exact absurd hs (by simp)
    cases hs
    refine ⟨h.correct, ?_, ?_, h.contents, h.evidence⟩
    · intro j d hd
      rcases getElem?_set_cases hd with ⟨-, rfl⟩ | ⟨-, hd⟩
      · trivial
      · exact h.owns j d hd
    · exact h.writer_advance hc (by simp [Call.holdsWriter])
  | other db =>
    simp only [Site.step] at hs
    split at hs
    · exact absurd hs (by simp)
    cases hs
    exact ⟨h.correct, h.owns, h.writer, h.contents, h.evidence⟩

/-! ## Every run -/

namespace Site

/-- The move publishes an object. -/
def Move.Adds (m : Move) (contentSha256 : String) : Prop :=
  m.before.disk.files.object contentSha256 = none ∧
    m.after.disk.files.object contentSha256 ≠ none

/-- The rows are the same after a move. -/
def Move.KeepsRows (m : Move) : Prop :=
  m.after.disk.db = m.before.disk.db ∧
    m.after.disk.contentObjects = m.before.disk.contentObjects

/-- No row names an object. -/
def Unreferenced (s : Site) (contentSha256 : String) : Prop :=
  (∀ o ∈ s.disk.contentObjects, o.contentSha256 ≠ contentSha256) ∧
    ∀ e ∈ s.disk.db.evidence, e.contentSha256 ≠ contentSha256

/-- What the moves of a call that raised amount to: no row, and at most one object, which has the
digest it is named by and which no row named when it was added. -/
structure Harmless (sha256 : List UInt8 → String) (moves : List Move) (call : Nat) : Prop where
  rows : ∀ m ∈ moves, m.actor = some call → m.KeepsRows
  one : ∀ m ∈ moves, ∀ n ∈ moves, m.actor = some call → n.actor = some call →
    ∀ d e, m.Adds d → n.Adds e → d = e
  correct : ∀ m ∈ moves, m.actor = some call → ∀ d, m.Adds d →
    ∃ bytes, m.after.disk.files.object d = some bytes ∧ sha256 bytes = d
  unreferenced : ∀ m ∈ moves, m.actor = some call → ∀ d, m.Adds d → m.after.Unreferenced d

/-- What the moves so far say about the calls that made them. -/
structure History (sha256 : List UInt8 → String) (moves : List Move) (s : Site) : Prop where
  kept : ∀ m ∈ moves, ∀ d bytes, m.before.disk.files.object d = some bytes →
    m.after.disk.files.object d = some bytes
  actors : ∀ m ∈ moves, ∀ i, m.actor = some i → i < s.calls.length
  pending : ∀ (i : Nat) c, s.calls[i]? = some c → c.pending = true →
    ∀ m ∈ moves, m.actor = some i → ∀ d, ¬ m.Adds d
  rows : ∀ (i : Nat) c, s.calls[i]? = some c → c.committed = false →
    ∀ m ∈ moves, m.actor = some i → m.KeepsRows
  one : ∀ m ∈ moves, ∀ n ∈ moves, ∀ i, m.actor = some i → n.actor = some i →
    ∀ d e, m.Adds d → n.Adds e → d = e
  correct : ∀ m ∈ moves, ∀ d, m.Adds d →
    ∃ bytes, m.after.disk.files.object d = some bytes ∧ sha256 bytes = d
  unreferenced : ∀ m ∈ moves, ∀ d, m.Adds d → m.after.Unreferenced d
  exclusive : ∀ (i : Nat) c, s.calls[i]? = some c → c.holdsWriter = true →
    ∀ m ∈ moves, m.actor = some i → ∀ d, m.Adds d → s.Unreferenced d

/-- An object that is not there is named by no row. -/
theorem Inv.unreferenced {s : Site} (h : s.Inv sha256) {d : String}
    (hd : s.disk.files.object d = none) : s.Unreferenced d := by
  have hrow : ∀ o ∈ s.disk.contentObjects, o.contentSha256 ≠ d := by
    intro o ho hod
    obtain ⟨bytes, hb, -, -⟩ := h.contents o ho
    rw [hod, hd] at hb
    exact absurd hb (by simp)
  refine ⟨hrow, fun e he hed => ?_⟩
  obtain ⟨o, ho, hoe⟩ := h.evidence e he
  exact hrow o ho (hoe.trans hed)

/-- An event in which no call acts. -/
theorem History.quiet {moves : List Move} {s s' : Site} (h : History sha256 moves s)
    (hfiles : s'.disk.files = s.disk.files) (hrows : s'.disk.contentObjects = s.disk.contentObjects)
    (hevidence : s'.disk.db.evidence = s.disk.db.evidence)
    (hlength : s.calls.length ≤ s'.calls.length)
    (hcalls : ∀ (i : Nat) c, s'.calls[i]? = some c → s.calls[i]? = some c ∨
      s.calls.length ≤ i ∨ (c.pending = false ∧ c.holdsWriter = false ∧
        ∃ b, s.calls[i]? = some b ∧ (c.committed = false → b.committed = false))) :
    History sha256 (moves ++ [⟨none, s, s'⟩]) s' := by
  -- the new move has no actor and publishes nothing
  have hadds : ∀ d, ¬ (⟨none, s, s'⟩ : Move).Adds d := fun d hd => hd.2 (by
    show s'.disk.files.object d = none
    rw [hfiles]
    exact hd.1)
  have hold : ∀ {m : Move}, m ∈ moves ++ [⟨none, s, s'⟩] → ∀ {i}, m.actor = some i → m ∈ moves := by
    intro m hm i hi
    rcases List.mem_append.1 hm with hm | hm
    · exact hm
    · obtain rfl := List.mem_singleton.1 hm
      exact absurd hi (by simp)
  have hadded : ∀ {m : Move}, m ∈ moves ++ [⟨none, s, s'⟩] → ∀ {d}, m.Adds d → m ∈ moves := by
    intro m hm d hd
    rcases List.mem_append.1 hm with hm | hm
    · exact hm
    · obtain rfl := List.mem_singleton.1 hm
      exact absurd hd (hadds d)
  have hunref : ∀ {d}, s.Unreferenced d → s'.Unreferenced d := by
    intro d hd
    exact ⟨by rw [hrows]; exact hd.1, by rw [hevidence]; exact hd.2⟩
  refine ⟨?_, ?_, ?_, ?_, ?_, ?_, ?_, ?_⟩
  · intro m hm d bytes hd
    rcases List.mem_append.1 hm with hm | hm
    · exact h.kept m hm d bytes hd
    · obtain rfl := List.mem_singleton.1 hm
      show s'.disk.files.object d = some bytes
      rw [hfiles]
      exact hd
  · intro m hm i hi
    exact lt_of_lt_of_le (h.actors m (hold hm hi) i hi) hlength
  · intro i c hc hp m hm hi d hd
    have hm := hold hm hi
    rcases hcalls i c hc with hc | hge | ⟨hnot, -, -⟩
    · exact h.pending i c hc hp m hm hi d hd
    · exact absurd (h.actors m hm i hi) (by omega)
    · rw [hnot] at hp
      exact absurd hp (by simp)
  · intro i c hc hcom m hm hi
    have hm := hold hm hi
    rcases hcalls i c hc with hc | hge | ⟨-, -, b, hb, hcom'⟩
    · exact h.rows i c hc hcom m hm hi
    · exact absurd (h.actors m hm i hi) (by omega)
    · exact h.rows i b hb (hcom' hcom) m hm hi
  · intro m hm n hn i hi hj
    exact h.one m (hold hm hi) n (hold hn hj) i hi hj
  · intro m hm d hd
    exact h.correct m (hadded hm hd) d hd
  · intro m hm d hd
    exact h.unreferenced m (hadded hm hd) d hd
  · intro i c hc hw m hm hi d hd
    have hm := hold hm hi
    rcases hcalls i c hc with hc | hge | ⟨-, hnot, -⟩
    · exact hunref (h.exclusive i c hc hw m hm hi d hd)
    · exact absurd (h.actors m hm i hi) (by omega)
    · rw [hnot] at hw
      exact absurd hw (by simp)

/-- A call that has not passed its link, or is past its transaction, does not publish. -/
theorem adds_of_advance {name : String} {s s' : Site} {i : Option Nat} {pending pending' : Bool}
    (h : Advance sha256 name s.disk.files s'.disk.files pending pending') {d : String}
    (hd : (⟨i, s, s'⟩ : Move).Adds d) : pending = true ∧ pending' = false := by
  obtain ⟨publishes, hfile, hpass, -⟩ := h
  cases publishes with
  | false => exact absurd ((hfile.object_eq d).trans hd.1) hd.2
  | true => exact hpass rfl

/-- An event in which a call acts. -/
theorem History.advance {moves : List Move} {s : Site} (h : History sha256 moves s)
    (inv : s.Inv sha256) {i : Nat} {c c' : Call} {disk : Disk} {writer : Option Nat}
    (hc : s.calls[i]? = some c) (hcom : c.committed = false)
    (hstep : Call.Step env sha256 s.writer.isNone c s.disk c' disk) :
    History sha256 (moves ++ [⟨some i, s, ⟨disk, writer, s.calls.set i c'⟩⟩])
      ⟨disk, writer, s.calls.set i c'⟩ := by
  set s' : Site := ⟨disk, writer, s.calls.set i c'⟩ with hs'
  -- a move is an old one or this one
  have hold : ∀ {P : Move → Prop}, (∀ m ∈ moves, P m) → P ⟨some i, s, s'⟩ →
      ∀ m ∈ moves ++ [⟨some i, s, s'⟩], P m := by
    intro P hP hnew m hm
    rcases List.mem_append.1 hm with hm | hm
    · exact hP m hm
    · obtain rfl := List.mem_singleton.1 hm
      exact hnew
  have hactors : ∀ m ∈ moves ++ [(⟨some i, s, s'⟩ : Move)], ∀ j, m.actor = some j →
      j < s'.calls.length := by
    refine hold (fun m hm j hj => by simpa [hs'] using h.actors m hm j hj) ?_
    intro j hj
    cases hj
    simpa [hs'] using (List.getElem?_eq_some_iff.1 hc).1
  cases hstep with
  | @files files hadvance howns hactive hcommitted =>
    obtain ⟨publishes, hfile, hpass, hpending⟩ := id hadvance
    have hadds : ∀ {d}, (⟨some i, s, s'⟩ : Move).Adds d → c.pending = true ∧ c'.pending = false :=
      fun hd => adds_of_advance hadvance hd
    have hunref : ∀ {d}, s.Unreferenced d → s'.Unreferenced d := fun hd => hd
    refine ⟨hold h.kept fun d bytes hd => hfile.object hd, hactors, ?_, ?_, ?_, ?_, ?_, ?_⟩
    · intro j d hd hp
      rcases getElem?_set_cases hd with ⟨rfl, rfl⟩ | ⟨hji, hd⟩
      · refine hold (h.pending j c hc (hpending hp)) ?_
        intro _ e he
        rw [(hadds he).2] at hp
        exact absurd hp (by simp)
      · refine hold (h.pending j d hd hp) ?_
        intro hj
        exact absurd (Option.some.inj hj).symm hji
    · intro j d hd hp
      rcases getElem?_set_cases hd with ⟨rfl, rfl⟩ | ⟨hji, hd⟩
      · exact hold (h.rows j c hc hcom) fun _ => ⟨rfl, rfl⟩
      · refine hold (h.rows j d hd hp) ?_
        intro hj
        exact absurd (Option.some.inj hj).symm hji
    · -- two moves of one call: the link is passed once, and publishes one object
      refine hold (fun m hm => hold (h.one m hm) ?_) (hold ?_ ?_)
      · intro j hj hi d e hd he
        cases hi
        exact absurd hd (h.pending i c hc (hadds he).1 m hm hj d)
      · intro n hn j hi hj d e hd he
        cases hi
        exact absurd he (h.pending i c hc (hadds hd).1 n hn hj e)
      · intro j _ _ d e hd he
        obtain ⟨one, hone⟩ := hfile.object_eq_of_ne
        have hunique : ∀ {f}, (⟨some i, s, s'⟩ : Move).Adds f → f = one := by
          intro f hf
          by_contra hne
          exact hf.2 ((hone f hne).trans hf.1)
        rw [hunique hd, hunique he]
    · refine hold h.correct fun d hd => ?_
      cases hb : s'.disk.files.object d with
      | none => exact absurd hb hd.2
      | some bytes => exact ⟨bytes, rfl, hfile.correct inv.correct hb⟩
    · exact hold h.unreferenced fun d hd => hunref (inv.unreferenced hd.1)
    · intro j d hd hw
      rcases getElem?_set_cases hd with ⟨rfl, rfl⟩ | ⟨hji, hd⟩
      · refine hold (fun m hm hj e he => ?_) fun _ e he => hunref (inv.unreferenced he.1)
        rcases hactive hw with hw | ⟨-, hp⟩
        · exact hunref (h.exclusive j c hc hw m hm hj e he)
        · exact absurd he (h.pending j c hc hp m hm hj e)
      · refine hold (fun m hm hj e he => hunref (h.exclusive j d hd hw m hm hj e he)) ?_
        intro hj
        exact absurd (Option.some.inj hj).symm hji
  | @commit _ args m a evidence hactive hcommitted hholds hok =>
    obtain ⟨hfiles, -, -, -⟩ := PersistArgs.commit_ok hok
    obtain ⟨hnot, hpend, -⟩ := @Call.not_active_of_committed sha256 c' hcommitted
    have hadds : ∀ d, ¬ (⟨some i, s, s'⟩ : Move).Adds d := by
      intro d hd
      refine hd.2 ?_
      show disk.files.object d = none
      rw [hfiles]
      exact hd.1
    refine ⟨hold h.kept fun d bytes hd => ?_, hactors, ?_, ?_, ?_, ?_, ?_, ?_⟩
    · show disk.files.object d = some bytes
      rw [hfiles]
      exact hd
    · intro j d hd hp
      rcases getElem?_set_cases hd with ⟨rfl, rfl⟩ | ⟨-, hd⟩
      · rw [hpend] at hp
        exact absurd hp (by simp)
      · exact hold (h.pending j d hd hp) fun _ e => hadds e
    · intro j d hd hp
      rcases getElem?_set_cases hd with ⟨rfl, rfl⟩ | ⟨hji, hd⟩
      · rw [hcommitted] at hp
        exact absurd hp (by simp)
      · refine hold (h.rows j d hd hp) ?_
        intro hj
        exact absurd (Option.some.inj hj).symm hji
    · refine hold (fun m hm => hold (h.one m hm) ?_) (hold ?_ ?_)
      · exact fun _ _ _ _ e _ he => absurd he (hadds e)
      · exact fun _ _ _ _ _ d _ hd => absurd hd (hadds d)
      · exact fun _ _ _ d _ hd => absurd hd (hadds d)
    · exact hold h.correct fun d hd => absurd hd (hadds d)
    · exact hold h.unreferenced fun d hd => absurd hd (hadds d)
    · -- the lock is with the committing call
      intro j d hd hw
      rcases getElem?_set_cases hd with ⟨rfl, rfl⟩ | ⟨hji, hd⟩
      · rw [hnot] at hw
        exact absurd hw (by simp)
      · have hj := inv.writer j d hd hw
        rw [inv.writer i c hc hactive] at hj
        exact absurd (Option.some.inj hj).symm hji

/-- Replacing a call keeps the names. -/
theorem map_name_set {calls : List Call} {i : Nat} {c c' : Call} (hc : calls[i]? = some c)
    (hn : c'.name = c.name) : (calls.set i c').map Call.name = calls.map Call.name := by
  refine List.ext_getElem? fun j => ?_
  rw [List.getElem?_map, List.getElem?_map]
  by_cases hij : j = i
  · subst hij
    obtain ⟨hlt, hget⟩ := List.getElem?_eq_some_iff.1 hc
    simp [hlt, hget, hn]
  · rw [List.getElem?_set_ne (Ne.symm hij)]

/-- A name that is drawn stays. -/
theorem step_names {s s' : Site} {event : Event} (hs : s.step env sha256 event = some s') :
    (s.calls.map Call.name).Sublist (s'.calls.map Call.name) := by
  cases event with
  | putStream name args =>
    cases hs
    simp
  | persistEvidence name args =>
    cases hs
    simp
  | advance i answer =>
    simp only [Site.step, Option.bind_eq_bind, Option.bind_eq_some_iff] at hs
    obtain ⟨c, hc, ⟨c', disk⟩, hnext, hs⟩ := hs
    cases hs
    rw [map_name_set hc (Call.next_name hnext)]
  | stop i =>
    simp only [Site.step, Option.bind_eq_bind, Option.bind_eq_some_iff] at hs
    obtain ⟨c, hc, hs⟩ := hs
    split at hs
    · exact absurd hs (by simp)
    · cases hs
      have hn := @map_name_set s.calls i c { c with activity := .stopped } hc rfl
      rw [hn]
  | other db =>
    simp only [Site.step] at hs
    split at hs
    · exact absurd hs (by simp)
    · cases hs
      exact List.Sublist.refl _

theorem Fresh.before {s s' : Site} {event : Event} (h : s'.Fresh)
    (hs : s.step env sha256 event = some s') : s.Fresh :=
  List.Nodup.sublist (step_names hs) h

theorem Run.history {moves : List Move} {s : Site} (run : Run env sha256 moves s)
    (fresh : s.Fresh) : s.Inv sha256 ∧ History sha256 moves s := by
  induction run with
  | empty =>
    refine ⟨inv_empty, ?_, ?_, ?_, ?_, ?_, ?_, ?_, ?_⟩ <;> simp
  | @step moves s s' event run hs ih =>
    have hfresh : s.Fresh := fresh.before hs
    obtain ⟨hinv, hhist⟩ := ih hfresh
    refine ⟨step_inv hinv hfresh hs, ?_⟩
    cases event with
    | putStream name args =>
      cases hs
      refine hhist.quiet rfl rfl rfl (by simp) ?_
      intro i c hc
      rw [List.getElem?_append] at hc
      split at hc
      · exact .inl hc
      · exact .inr (.inl (by omega))
    | persistEvidence name args =>
      cases hs
      refine hhist.quiet rfl rfl rfl (by simp) ?_
      intro i c hc
      rw [List.getElem?_append] at hc
      split at hc
      · exact .inl hc
      · exact .inr (.inl (by omega))
    | advance i answer =>
      simp only [Site.step, Option.bind_eq_bind, Option.bind_eq_some_iff] at hs
      obtain ⟨c, hc, ⟨c', disk⟩, hnext, hs⟩ := hs
      cases hs
      exact hhist.advance hinv hc (Call.next_committed hnext)
        (Call.next_step hnext (hinv.owns i c hc))
    | stop i =>
      simp only [Site.step, Option.bind_eq_bind, Option.bind_eq_some_iff] at hs
      obtain ⟨c, hc, hs⟩ := hs
      split at hs
      · exact absurd hs (by simp)
      next hover =>
      cases hs
      refine hhist.quiet rfl rfl rfl (by simp) ?_
      intro j d hd
      rcases getElem?_set_cases hd with ⟨rfl, rfl⟩ | ⟨-, hd⟩
      · refine .inr (.inr ⟨rfl, rfl, c, hc, fun _ => ?_⟩)
        by_contra hcom
        exact hover (by simp [Call.returned_of_committed (by simpa using hcom)])
      · exact .inl hd
    | other db =>
      simp only [Site.step] at hs
      split at hs
      · exact absurd hs (by simp)
      cases hs
      exact hhist.quiet rfl rfl rfl (by simp) fun i c hc => .inl hc

/-- The last move of a run. -/
theorem Run.last {moves earlier : List Move} {last : Move} {s : Site}
    (run : Run env sha256 moves s) (h : moves = earlier ++ [last]) :
    ∃ event, Run env sha256 earlier last.before ∧
      last.before.step env sha256 event = some last.after ∧ last.actor = event.actor ∧
      last.after = s := by
  cases run with
  | empty => exact absurd h (by simp)
  | @step moves' s₀ _ event run hs =>
    obtain ⟨rfl, hlast⟩ := List.append_inj' h rfl
    obtain rfl := List.singleton_inj.1 hlast
    exact ⟨event, run, hs, rfl, rfl⟩

/-- When a `persist_evidence` raises, no row names what it has published. -/
theorem Run.unreferenced_of_raised {moves earlier : List Move} {last : Move} {s : Site}
    (run : Run env sha256 moves s) (fresh : s.Fresh) (h : moves = earlier ++ [last]) {i : Nat}
    (hi : last.actor = some i) {name : String} {args : PersistArgs}
    (hc : s.calls[i]? = some ⟨name, .persistEvidence args .raised⟩) :
    ∀ m ∈ moves, m.actor = some i → ∀ d, m.Adds d → s.Unreferenced d := by
  have hhist := (run.history fresh).2
  obtain ⟨event, hrun, hs, hactor, rfl⟩ := run.last h
  obtain ⟨hinv₀, hhist₀⟩ := hrun.history (fresh.before hs)
  have hkept := hhist.rows i _ hc rfl last (by simp [h]) hi
  intro m hm hmi d hd
  rw [h] at hm
  rcases List.mem_append.1 hm with hm | hm
  · -- an earlier move: the call is still inside its `writer_session`
    suffices hb : last.before.Unreferenced d by
      unfold Unreferenced
      rw [hkept.1, hkept.2]
      exact hb
    cases event with
    | advance j answer =>
      obtain rfl : i = j := Option.some.inj (hi.symm.trans hactor)
      simp only [Site.step, Option.bind_eq_bind, Option.bind_eq_some_iff] at hs
      obtain ⟨c, hb, ⟨c', disk⟩, hnext, hs⟩ := hs
      have hc' : c' = ⟨name, .persistEvidence args .raised⟩ := by
        rw [← Option.some.inj hs] at hc
        obtain ⟨hlt, -⟩ := List.getElem?_eq_some_iff.1 hb
        simpa [hlt] using hc
      subst hc'
      rcases Call.next_active hnext with hw | hp
      · exact hhist₀.exclusive i c hb hw m hm hmi d hd
      · exact absurd hd (hhist₀.pending i c hb hp m hm hmi d)
    | _ => exact absurd (hi.symm.trans hactor) (by simp [Event.actor])
  · obtain rfl := List.mem_singleton.1 hm
    exact hhist.unreferenced m (by simp [h]) d hd

theorem History.harmless {moves : List Move} {s : Site} (h : History sha256 moves s) {i : Nat}
    {c : Call} (hc : s.calls[i]? = some c) (hraised : c.raised = true) :
    Harmless sha256 moves i := by
  have hcom : c.committed = false := by
    obtain ⟨name, activity⟩ := c
    cases activity with
    | persistEvidence args p =>
      cases p with
      | returned evidence => cases hraised
      | _ => rfl
    | _ => rfl
  exact ⟨h.rows i c hc hcom, fun m hm n hn hi hj => h.one m hm n hn i hi hj,
    fun m hm _ => h.correct m hm, fun m hm _ => h.unreferenced m hm⟩

end Site

/-- Evidence is captured before it is referenced: in every state of every run each row names an
object that is published, has the digest and the recorded size; no step changes a published object;
and a call that raises has written no row and has added at most one object, a correct one that no row
named, and still no row names it when a `persist_evidence` raises. -/
theorem evidence_captured {moves : List Site.Move} {s : Site}
    (run : Site.Run env sha256 moves s) (fresh : s.Fresh) :
    (∀ o ∈ s.disk.contentObjects, s.disk.files.Holds sha256 o.contentSha256 o.byteSize) ∧
      (∀ e ∈ s.disk.db.evidence, ∃ o ∈ s.disk.contentObjects,
        o.contentSha256 = e.contentSha256) ∧
      (∀ m ∈ moves, ∀ d bytes, m.before.disk.files.object d = some bytes →
        m.after.disk.files.object d = some bytes) ∧
      (∀ (i : Nat) c, s.calls[i]? = some c → c.raised = true → Site.Harmless sha256 moves i) ∧
      ∀ earlier last (i : Nat) name args, moves = earlier ++ [last] → last.actor = some i →
        s.calls[i]? = some ⟨name, .persistEvidence args .raised⟩ →
        ∀ m ∈ moves, m.actor = some i → ∀ d, m.Adds d → s.Unreferenced d := by
  obtain ⟨hinv, hhist⟩ := run.history fresh
  refine ⟨hinv.contents, hinv.evidence, hhist.kept, ?_, ?_⟩
  · intro i c hc hraised
    exact hhist.harmless hc hraised
  · intro earlier last i name args h hi hc
    exact run.unreferenced_of_raised fresh h hi hc

/-- The run of a list of events. -/
def Site.play (env : Env) (sha256 : List UInt8 → String) :
    List Event → List Site.Move → Site → Option (List Site.Move × Site)
  | [], moves, s => some (moves, s)
  | event :: events, moves, s =>
    (s.step env sha256 event).bind fun s' =>
      play env sha256 events (moves ++ [⟨event.actor, s, s'⟩]) s'

theorem Site.play_run {events : List Event} {moves moves' : List Site.Move} {s s' : Site}
    (run : Site.Run env sha256 moves s)
    (h : Site.play env sha256 events moves s = some (moves', s')) :
    Site.Run env sha256 moves' s' := by
  induction events generalizing moves s with
  | nil =>
    cases h
    exact run
  | cons event events ih =>
    obtain ⟨s₁, hs, h⟩ := Option.bind_eq_some_iff.1 h
    exact ih (.step event run hs) h

end

namespace Sample

/-- The digest of the bytes of "abc". -/
def abcSha256 : List UInt8 → String :=
  fun _ => "ba7816bf8f01cfea414140de5dae2223b00361a396177a9cb410ff61f20015ad"

/-- A worker stores the page it has fetched. -/
def capture : List Event :=
  match started.last runReply with
  | none => []
  | some run => [.other started.db,
      .persistEvidence "0f0e7e3cbe3b4a6b8d8e2a8c8a1c0f5d" {
        run
        given := .body [97, 98, 99]
        args := {
          body := .bytes []
          request := [("method", .str "GET"), ("url", .str "https://example.org/rents")]
          response := [("final_url", .str "https://example.org/rents"), ("status", .int 200)] }
        now := tick 4 }] ++
      List.replicate 5 (.advance 0 .ok) ++ [.advance 0 (.chunk [97, 98, 99]), .advance 0 (.flush 2)] ++
      List.replicate 7 (.advance 0 .ok)

end Sample

theorem evidence_captured_page :
    ∃ moves s, Site.play Sample.env Sample.abcSha256 Sample.capture [] .empty = some (moves, s) ∧
      s.disk.db.evidence.length = 1 ∧
      (∀ o ∈ s.disk.contentObjects,
        s.disk.files.Holds Sample.abcSha256 o.contentSha256 o.byteSize) ∧
      ∀ e ∈ s.disk.db.evidence, ∃ o ∈ s.disk.contentObjects,
        o.contentSha256 = e.contentSha256 := by
  have h : (Site.play Sample.env Sample.abcSha256 Sample.capture [] .empty).any
      (fun p => p.2.disk.db.evidence.length = 1 ∧ (p.2.calls.map Call.name).Nodup) = true := by
    decide +kernel
  obtain ⟨⟨moves, s⟩, hplay, hs⟩ := Option.any_eq_true _ _ |>.1 h
  obtain ⟨hone, hfresh⟩ := of_decide_eq_true hs
  obtain ⟨hcontents, hevidence, -⟩ := evidence_captured (Site.play_run .empty hplay) hfresh
  exact ⟨moves, s, hplay, hone, hcontents, hevidence⟩

end NanFung
