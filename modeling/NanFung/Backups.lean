import NanFung.Lib.Loops
import NanFung.Store.Backups

/-!
# Backup sets that can be relied on

However the process fares, a set is published whole or not at all, nothing that was there before is
touched (`createBackupSet_safe`, `restoreBackupSet_safe`). If nothing goes wrong from outside, a store
whose objects are all there is backed up by a set of exactly a copy of its database, its objects and a
manifest (`create_intact`), and every set that verifies is restored to its own content
(`restore_verified`).
-/

namespace NanFung

open Base64 PyText

namespace BackupHost

variable {H : BackupHost} {t u set : Fs} {p q : FsPath} {digest : String} {row : ContentRow}

/-! ## What verifies -/

theorem requireRegularFile_ok {label : String} {r : Unit} :
    requireRegularFile t p label = .ok r ↔ ∃ content, t p = some (.file content) := by
  unfold requireRegularFile
  rcases t p with _ | _ | _ | _ <;> simp

theorem requireRegularDirectory_ok {label : String} {r : Unit} :
    requireRegularDirectory t p label = .ok r ↔ t p = some .directory := by
  unfold requireRegularDirectory
  rcases t p with _ | _ | _ | _ <;> simp

/-- An object of a row: the bytes of its digest and size. -/
structure Holds (H : BackupHost) (row : ContentRow) (bytes : Bytes) : Prop where
  digest : H.sha256 bytes = row.contentSha256
  size : bytes.length = row.byteSize

theorem verifyArtifact_ok {b : Bool} : H.verifyArtifact t p digest = .ok b ↔
    validDigest digest ∧
      ((t.content? (p ++ objectPath digest)).any fun bytes => H.sha256 bytes = digest) = b := by
  unfold verifyArtifact requireDigest
  simp only [bind_ok, require_ok, Except.ok.injEq, exists_const]

/-- The object of a row is in a data directory. -/
structure Kept (H : BackupHost) (t : Fs) (data : FsPath) (row : ContentRow) : Prop where
  valid : validDigest row.contentSha256
  object : ∃ bytes, t (data ++ objectPath row.contentSha256) = some (.file bytes) ∧ H.Holds row bytes

theorem checkObject_ok {r : Unit} : H.checkObject set row = .ok r ↔
    set (objectDirectory row.contentSha256) = some .directory ∧ H.Kept set [] row := by
  unfold checkObject requireDigest
  simp only [bind_ok, requireRegularDirectory_ok, requireRegularFile_ok, verifyArtifact_ok, require_ok,
    exists_const, List.nil_append]
  constructor
  · intro h
    obtain ⟨hdirectory, hvalid, ⟨bytes, hbytes⟩, verified, ⟨-, hverified⟩, rfl, hsize⟩ := h
    have hcontent : set.content? (objectPath row.contentSha256) = some bytes :=
      FileTree.content?_eq_some.mpr hbytes
    rw [hcontent] at hverified hsize
    refine ⟨hdirectory, hvalid, bytes, hbytes, ?_, ?_⟩
    · simpa using hverified
    · simpa using hsize
  · intro h
    obtain ⟨hdirectory, hvalid, bytes, hbytes, hdigest, hsize⟩ := h
    have hcontent : set.content? (objectPath row.contentSha256) = some bytes :=
      FileTree.content?_eq_some.mpr hbytes
    refine ⟨hdirectory, hvalid, ⟨bytes, hbytes⟩, true, ⟨hvalid, ?_⟩, rfl, ?_⟩
    · rw [hcontent]
      simpa using hdigest
    · rw [hcontent]
      simpa using hsize

/-- A manifest describes a database and its content. -/
structure Describes (H : BackupHost) (manifest : Json) (database : Bytes) (rows : List ContentRow) :
    Prop where
  schema : manifest.get? "schema_version" = some (.str "backup_set.v1")
  path : ((manifest.get? "database").getD .null).get? "path" = some (.str "operational.sqlite3")
  digest : ((manifest.get? "database").getD .null).get? "sha256" = some (.str (H.sha256 database))
  content : ∃ items pairs, manifest.get? "content" = some (.arr items) ∧
    items.mapM manifestPair = .ok pairs ∧ H.samePairs pairs rows

/-- A complete set: a sound database, a manifest that describes it, and every object it refers to. -/
structure Complete (H : BackupHost) (set : Fs) (database : Bytes) (rows : List ContentRow) : Prop where
  root : set [] = some .directory
  stored : set databasePath = some (.file database)
  sound : H.integrity database = some true
  contents : H.contents database = some rows
  manifest : ∃ text manifest, set manifestPath = some (.file text) ∧
    H.readManifest text = .ok manifest ∧ H.Describes manifest database rows
  evidence : rows ≠ [] →
    set ["evidence"] = some .directory ∧ set ["evidence", "sha256"] = some .directory
  objects : ∀ row ∈ rows, set (objectDirectory row.contentSha256) = some .directory ∧ H.Kept set [] row

theorem contentItems_ok {v : Option Json} {items : List Json} :
    contentItems v = .ok items ↔ v = some (.arr items) := by
  unfold contentItems
  rcases v with _ | _ | _ | _ | _ | _ | _ | _ <;> simp

/-- `verify_backup_set` accepts the complete sets, with the digest of the database and the number of its
objects. -/
theorem verifySet_ok {count : Nat} : H.verifySet set = .ok (digest, count) ↔
    ∃ database rows, H.Complete set database rows ∧ digest = H.sha256 database ∧
      count = rows.length := by
  unfold verifySet
  simp only [bind_ok, requireRegularDirectory_ok, requireRegularFile_ok, require_ok, orThrow_ok,
    contentItems_ok, FileTree.content?_eq_some, exists_const]
  constructor
  · intro h
    obtain ⟨hroot, -, -, text, htext, manifest, hmanifest, hschema, hpath, database, hdatabase, hdigest,
      sound, hsound, rfl, rows, hrows, items, hitems, pairs, hpairs, hsame, h⟩ := h
    have hlast : (rows ≠ [] → set ["evidence"] = some .directory ∧
          set ["evidence", "sha256"] = some .directory) ∧
        (∀ row ∈ rows, H.checkObject set row = .ok ()) ∧
        H.sha256 database = digest ∧ rows.length = count := by
      split at h
      · simp only [bind_ok, requireRegularDirectory_ok, forM_ok, exists_const, Except.ok.injEq,
          Prod.mk.injEq] at h
        obtain ⟨hevidence, hsha, _, hobjects, hresult⟩ := h
        exact ⟨fun _ => ⟨hevidence, hsha⟩, hobjects, hresult⟩
      · next hempty =>
        simp only [bind_ok, forM_ok, Except.ok.injEq, Prod.mk.injEq] at h
        obtain ⟨_, hobjects, hresult⟩ := h
        exact ⟨fun hne => absurd hne hempty, hobjects, hresult⟩
    obtain ⟨hevidence, hobjects, rfl, rfl⟩ := hlast
    refine ⟨database, rows, ?_, rfl, rfl⟩
    exact ⟨hroot, hdatabase, hsound, hrows, ⟨text, manifest, htext, hmanifest, hschema, hpath, hdigest,
      items, pairs, hitems, hpairs, hsame⟩, hevidence,
      fun row hrow => checkObject_ok.mp (hobjects row hrow)⟩
  · intro h
    obtain ⟨database, rows, hcomplete, rfl, rfl⟩ := h
    obtain ⟨text, manifest, htext, hmanifest, hschema, hpath, hdigest, items, pairs, hitems, hpairs,
      hsame⟩ := hcomplete.manifest
    refine ⟨hcomplete.root, ⟨text, htext⟩, ⟨database, hcomplete.stored⟩, text, htext, manifest,
      hmanifest, hschema, hpath, database, hcomplete.stored, hdigest, true, hcomplete.sound, rfl, rows,
      hcomplete.contents, items, hitems, pairs, hpairs, hsame, ?_⟩
    have hobjects : rows.forM (H.checkObject set) = .ok () :=
      forM_ok.mpr fun row hrow => checkObject_ok.mpr (hcomplete.objects row hrow)
    split
    · next hne =>
      obtain ⟨hevidence, hsha⟩ := hcomplete.evidence hne
      simp only [bind_ok, requireRegularDirectory_ok, exists_const, and_true]
      exact ⟨hevidence, hsha, (), hobjects⟩
    · simp only [bind_ok, and_true]
      exact ⟨(), hobjects⟩

theorem verifyBackupSet_ok {root : FsPath} {report : BackupSetReport} :
    H.verifyBackupSet t root = .ok report ↔ ∃ database rows, H.Complete (t.subtree root) database rows ∧
      report = ⟨"backup_set.v1", root, H.sha256 database, rows.length, true⟩ := by
  unfold verifyBackupSet
  simp only [bind_ok, Except.ok.injEq]
  constructor
  · intro h
    obtain ⟨found, hset, rfl⟩ := h
    obtain ⟨database, rows, hcomplete, hdigest, hcount⟩ := verifySet_ok.mp hset
    exact ⟨database, rows, hcomplete, by rw [hdigest, hcount]⟩
  · intro h
    obtain ⟨database, rows, hcomplete, rfl⟩ := h
    exact ⟨_, verifySet_ok.mpr ⟨database, rows, hcomplete, rfl, rfl⟩, rfl⟩

/-! ## Staging -/

theorem temporary_append {root : FsPath} (hp : p ≠ []) : H.temporary (root ++ p) =
    root ++ (p.dropLast ++ ["." ++ p.getLast?.getD "" ++ "." ++ H.draw (root ++ p) ++ ".tmp"]) := by
  unfold temporary
  rw [List.dropLast_append_of_ne_nil hp, List.getLast?_append_of_ne_nil _ hp, List.append_assoc]

/-- A temporary name is longer than the one it stands for. -/
theorem temporary_ne : H.temporary p ≠ p := by
  intro h
  have hlast : some ("." ++ p.getLast?.getD "" ++ "." ++ H.draw p ++ ".tmp") = p.getLast? := by
    conv_rhs => rw [← h]
    unfold temporary
    rw [List.getLast?_append_of_ne_nil _ (by simp), List.getLast?_singleton]
  have hlength := congrArg (fun o : Option String => (o.getD "").length) hlast
  simp only [Option.getD_some, String.length_append] at hlength
  have hdots : String.length "." = 1 ∧ String.length ".tmp" = 4 := by decide
  omega

variable {staging target data source : FsPath} {base : Fs}

/-- The directories above the staging directory are there. -/
def Rooted (base : Fs) (staging : FsPath) : Prop :=
  ∀ q, q <+: staging → q ≠ staging → base q = some .directory

theorem keeps_sameOff {α : Type} {failure : BackupFault} {g : Fs → Except BackupFault (α × Fs)}
    (hg : ∀ t a u, FileTree.SameOff staging base t → g t = .ok (a, u) → FileTree.SameOff staging t u) :
    Mortal.Keeps (FileTree.SameOff staging base) (.action failure g)
      (fun _ => FileTree.SameOff staging base) (FileTree.SameOff staging base)
      (FileTree.SameOff staging base) :=
  Mortal.Keeps.action (fun t a u ht hgt => ht.trans (hg t a u ht hgt)) (fun _ h => h) fun _ h => h

/-- What only looks changes nothing. -/
theorem keeps_look {α : Type} {failure : BackupFault} {g : Fs → Except BackupFault α} {I : Fs → Prop} :
    Mortal.Keeps I (.look failure g) (fun _ => I) I I :=
  Mortal.Keeps.look (fun _ _ ht _ => ht) (fun _ h => h) fun _ h => h

theorem sameOff_makeDirectories (hbase : Rooted base staging) (ht : FileTree.SameOff staging base t)
    (hu : t.makeDirectories (staging ++ p) = some u) : FileTree.SameOff staging t u := by
  obtain ⟨-, rfl⟩ := FileTree.makeDirectories_eq_some.mp hu
  intro q hq
  unfold FileTree.directories
  split
  · next hprefix =>
    -- such a directory is above the staging directory
    have habove : q <+: staging :=
      (List.prefix_or_prefix_of_prefix hprefix (List.prefix_append staging p)).resolve_right hq
    rw [ht q hq, hbase q habove fun heq => hq (heq ▸ List.prefix_refl q)]
  · rfl

theorem keeps_mkdirParents (hbase : Rooted base staging) :
    Mortal.Keeps (FileTree.SameOff staging base) (mkdirParents (staging ++ p))
      (fun _ => FileTree.SameOff staging base) (FileTree.SameOff staging base)
      (FileTree.SameOff staging base) := by
  apply keeps_sameOff
  intro t r u ht h
  cases hmade : t.makeDirectories (staging ++ p) with
  | none => simp [hmade, orThrow, Except.map] at h
  | some v =>
    simp only [hmade, orThrow, Except.map, Except.ok.injEq, Prod.mk.injEq, true_and] at h
    exact h ▸ sameOff_makeDirectories hbase ht hmade

theorem keeps_writeThrough {content : Bytes} (hp : p ≠ []) :
    Mortal.Keeps (FileTree.SameOff staging base) (H.writeThrough (staging ++ p) content)
      (fun _ => FileTree.SameOff staging base) (FileTree.SameOff staging base)
      (FileTree.SameOff staging base) := by
  have hpath : staging <+: staging ++ p := List.prefix_append staging p
  have htemporary : staging <+: H.temporary (staging ++ p) := by
    rw [temporary_append hp]
    exact List.prefix_append _ _
  unfold writeThrough
  apply Mortal.Keeps.tryCatch
  · refine (keeps_sameOff ?_).bind fun _ => (keeps_sameOff ?_).bind fun _ =>
      (keeps_sameOff ?_).bind fun _ => keeps_sameOff ?_
    · intro t r u _ h
      simp only [bind_ok, require_ok, Except.ok.injEq, Prod.mk.injEq, true_and] at h
      obtain ⟨-, -, -, -, rfl⟩ := h
      exact FileTree.sameOff_put htemporary _ _
    · intro t r u _ h
      simp only [Except.ok.injEq, Prod.mk.injEq, true_and] at h
      exact h ▸ FileTree.sameOff_put htemporary _ _
    · intro t r u _ h
      simp only [bind_ok, require_ok, Except.ok.injEq, Prod.mk.injEq, true_and] at h
      obtain ⟨-, -, rfl⟩ := h
      exact (FileTree.sameOff_put hpath _ _).trans (FileTree.sameOff_remove htemporary _)
    · intro t r u _ h
      simp only [Except.ok.injEq, Prod.mk.injEq, true_and] at h
      exact h ▸ FileTree.SameOff.refl _ _
  · intro error
    refine (keeps_sameOff ?_).bind fun _ => Mortal.Keeps.throw error fun _ h => h
    intro t r u _ h
    simp only [Except.ok.injEq, Prod.mk.injEq, true_and] at h
    exact h ▸ FileTree.sameOff_remove htemporary _

theorem keeps_copyRegularFile (hbase : Rooted base staging) (hp : p ≠ []) :
    Mortal.Keeps (FileTree.SameOff staging base) (H.copyRegularFile source (staging ++ p))
      (fun _ => FileTree.SameOff staging base) (FileTree.SameOff staging base)
      (FileTree.SameOff staging base) := by
  unfold copyRegularFile
  rw [List.dropLast_append_of_ne_nil hp]
  exact keeps_look.bind fun _ => (keeps_mkdirParents hbase).bind fun _ => keeps_look.bind fun _ =>
    keeps_writeThrough hp

theorem keeps_backupDatabase (hbase : Rooted base staging) (hp : p ≠ []) :
    Mortal.Keeps (FileTree.SameOff staging base) (H.backupDatabase source (staging ++ p))
      (fun _ => FileTree.SameOff staging base) (FileTree.SameOff staging base)
      (FileTree.SameOff staging base) := by
  unfold backupDatabase
  rw [List.dropLast_append_of_ne_nil hp]
  exact keeps_look.bind fun _ => (keeps_mkdirParents hbase).bind fun _ => keeps_look.bind fun _ =>
    keeps_writeThrough hp

theorem keeps_verify : Mortal.Keeps (FileTree.SameOff staging base)
    (.look .os fun t => H.verifyBackupSet t staging)
    (fun report t => FileTree.SameOff staging base t ∧ H.verifyBackupSet t staging = .ok report)
    (FileTree.SameOff staging base) (FileTree.SameOff staging base) :=
  Mortal.Keeps.look (fun _ _ ht hok => ⟨ht, hok⟩) (fun _ h => h) fun _ h => h

theorem objectPath_ne (digest : String) : objectPath digest ≠ [] := by
  simp [objectPath]

/-- Building a set stays inside the staging directory, and ends with one that verifies. -/
theorem keeps_buildSet (hbase : Rooted base staging) :
    Mortal.Keeps (FileTree.SameOff staging base) (H.buildSet data staging)
      (fun report t => FileTree.SameOff staging base t ∧ H.verifyBackupSet t staging = .ok report)
      (FileTree.SameOff staging base) (FileTree.SameOff staging base) := by
  unfold buildSet
  refine (keeps_backupDatabase hbase (by simp [databasePath])).bind fun _ => keeps_look.bind
    fun content => (Mortal.Keeps.forM_same ?_).bind fun _ => keeps_look.bind fun digest =>
      Mortal.Keeps.bind (Mortal.Keeps.ofExcept (fun _ _ _ h => h) fun _ h => h) fun text =>
        (keeps_writeThrough (by simp [manifestPath])).bind fun _ => keeps_verify
  intro row
  exact keeps_look.bind fun _ => (keeps_copyRegularFile hbase (objectPath_ne _)).bind fun _ =>
    keeps_look

theorem keeps_restoreSet (hbase : Rooted base staging) :
    Mortal.Keeps (FileTree.SameOff staging base) (H.restoreSet source staging)
      (fun report t => FileTree.SameOff staging base t ∧ H.verifyBackupSet t staging = .ok report)
      (FileTree.SameOff staging base) (FileTree.SameOff staging base) := by
  unfold restoreSet
  refine (keeps_copyRegularFile hbase (by simp [databasePath])).bind fun _ =>
    (keeps_copyRegularFile hbase (by simp [manifestPath])).bind fun _ => keeps_look.bind fun content =>
      (Mortal.Keeps.forM_same ?_).bind fun _ => keeps_verify
  intro row
  exact Mortal.Keeps.bind (Mortal.Keeps.ofExcept (fun _ _ _ h => h) fun _ h => h) fun _ =>
    keeps_copyRegularFile hbase (objectPath_ne _)

/-! ## Publishing -/

/-- Outside the target, the staging directory and some paths nothing has changed, and the target holds
what is asked of it. -/
structure Published (base : Fs) (staging target : FsPath) (apart : Set FsPath) (whole : Fs → Prop)
    (t : Fs) : Prop where
  frame : ∀ q, ¬staging <+: q → ¬target <+: q → q ∉ apart → t q = base q
  whole : whole (t.subtree target)

/-- Two paths of one length are not above the same path. -/
theorem not_prefix_of_length {r : FsPath} (hlength : p.length = q.length) (hne : p ≠ q)
    (hp : p <+: r) : ¬q <+: r := by
  intro hq
  exact hne ((List.prefix_of_prefix_length_le hp hq hlength.le).eq_of_length hlength)

theorem length_temporary (hp : p ≠ []) : (H.temporary p).length = p.length := by
  unfold temporary
  rw [List.length_append, List.length_dropLast, List.length_singleton]
  have hpos := List.length_pos_of_ne_nil hp
  omega

theorem published_moveTree {whole : Fs → Prop} {apart : Set FsPath}
    (ht : FileTree.SameOff staging base t) (hwhole : whole (t.subtree staging)) :
    Published base staging target apart whole (t.moveTree staging target) := by
  refine ⟨fun q hs hq _ => ?_, ?_⟩
  · rw [FileTree.moveTree_of_not hs hq]
    exact ht q hs
  · rw [FileTree.subtree_moveTree]
    exact hwhole

theorem Published.removeTree {whole : Fs → Prop} {apart : Set FsPath}
    (h : Published base staging target apart whole t) (hlength : staging.length = target.length)
    (hne : staging ≠ target) : Published base staging target apart whole (t.removeTree staging) := by
  have hsubtree : (t.removeTree staging).subtree target = t.subtree target := by
    funext q
    exact FileTree.removeTree_of_not
      (fun hs => not_prefix_of_length hlength hne hs (List.prefix_append target q)) t
  refine ⟨fun q hs hq ha => ?_, ?_⟩
  · rw [FileTree.removeTree_of_not hs]
    exact h.frame q hs hq ha
  · rw [hsubtree]
    exact h.whole

theorem keeps_rmtree {I : Fs → Prop} (hI : ∀ t, I t → I (t.removeTree p)) :
    Mortal.Keeps I (rmtree p) (fun _ => I) I I := by
  unfold rmtree
  apply Mortal.Keeps.tryCatch
  · apply Mortal.Keeps.action _ (fun _ h => h) fun _ h => h
    intro t r u ht h
    simp only [Except.ok.injEq, Prod.mk.injEq, true_and] at h
    exact h ▸ hI t ht
  · intro error
    exact Mortal.Keeps.pure () fun _ h => h

/-- What a process leaves behind that builds a directory in its staging place: nothing outside it, or the
published whole. -/
def Left (base : Fs) (staging target : FsPath) (apart : Set FsPath) (whole : Fs → Prop) (t : Fs) :
    Prop :=
  FileTree.SameOff staging base t ∨ Published base staging target apart whole t

theorem keeps_publishDirectory {α : Type} {build : FsPath → Mortal Fs BackupFault α}
    {after : α → Mortal Fs BackupFault Unit} {apart : Set FsPath} {whole : α → Fs → Prop}
    {some : Fs → Prop} (htarget : target ≠ []) (hwhole : ∀ a set, whole a set → some set)
    (hbuild : Mortal.Keeps (FileTree.SameOff (H.temporary target) base) (build (H.temporary target))
      (fun a t => FileTree.SameOff (H.temporary target) base t ∧
        whole a (t.subtree (H.temporary target)))
      (FileTree.SameOff (H.temporary target) base) (FileTree.SameOff (H.temporary target) base))
    (hafter : ∀ a, Mortal.Keeps (Published base (H.temporary target) target apart (whole a)) (after a)
      (fun _ => Published base (H.temporary target) target apart (whole a))
      (Published base (H.temporary target) target apart (whole a))
      (Published base (H.temporary target) target apart (whole a))) :
    Mortal.Keeps (FileTree.SameOff (H.temporary target) base) (H.publishDirectory target build after)
      (fun a => Published base (H.temporary target) target apart (whole a))
      (Left base (H.temporary target) target apart some)
      (Left base (H.temporary target) target apart some) := by
  have hsome : ∀ a t, Published base (H.temporary target) target apart (whole a) t →
      Left base (H.temporary target) target apart some t :=
    fun a t h => Or.inr ⟨h.frame, hwhole a _ h.whole⟩
  unfold publishDirectory
  apply Mortal.Keeps.tryCatch
  · refine Mortal.Keeps.bind (Mortal.Keeps.action ?_ (fun _ => Or.inl) fun _ => Or.inl) fun _ =>
      Mortal.Keeps.bind (hbuild.weaken (fun _ h => h) (fun _ _ h => h) (fun _ => Or.inl) fun _ => Or.inl)
        fun a => Mortal.Keeps.bind (Mortal.Keeps.action ?_ (fun _ h => Or.inl h.1) fun _ h => Or.inl h.1)
          fun _ => Mortal.Keeps.bind (Mortal.Keeps.action ?_ (hsome a) (hsome a))
            fun _ => Mortal.Keeps.bind
              ((hafter a).weaken (fun _ h => h) (fun _ _ h => h) (hsome a) (hsome a))
              fun _ => Mortal.Keeps.pure a fun _ h => h
    · intro t r u ht h
      simp only [bind_ok, require_ok, Except.ok.injEq, Prod.mk.injEq, true_and] at h
      obtain ⟨-, -, -, -, rfl⟩ := h
      exact ht.trans (FileTree.sameOff_put (List.prefix_refl _) _ _)
    · intro t r u ht h
      simp only [bind_ok, require_ok, Except.ok.injEq, Prod.mk.injEq, true_and] at h
      obtain ⟨-, -, rfl⟩ := h
      exact published_moveTree ht.1 ht.2
    · intro t r u ht h
      simp only [Except.ok.injEq, Prod.mk.injEq, true_and] at h
      exact h ▸ ht
  · intro error
    refine (keeps_rmtree ?_).bind fun _ => Mortal.Keeps.throw error fun _ h => h
    intro t ht
    rcases ht with ht | ht
    · exact Or.inl (ht.trans (FileTree.sameOff_removeTree _ _))
    · exact Or.inr (ht.removeTree (length_temporary htarget) temporary_ne)

/-! ## Whatever happens -/

/-- Nothing but what is below the staging directory and the target, and some paths apart, differs from
before, and the directories above the target are there; the target is as before, or it was not there and
has become a complete set. -/
structure Safe (H : BackupHost) (before : Fs) (target : FsPath) (apart : Set FsPath) (t : Fs) :
    Prop where
  frame : ∀ q, ¬H.temporary target <+: q → ¬target <+: q → q ∉ apart →
    t q = before q ∨ q <+: target.dropLast ∧ before q = none ∧ t q = some .directory
  whole : t.subtree target = before.subtree target ∨
    before target = none ∧ ∃ database rows, H.Complete (t.subtree target) database rows

variable {before : Fs} {apart : Set FsPath}

theorem Safe.refl (before : Fs) : H.Safe before target apart before :=
  ⟨fun _ _ _ _ => Or.inl rfl, Or.inl rfl⟩

theorem rooted_directories (htarget : target ≠ []) :
    Rooted (before.directories target.dropLast) (H.temporary target) := by
  intro q hq hne
  apply if_pos
  have hlength : q.length ≠ (H.temporary target).length := fun h => hne (hq.eq_of_length h)
  have hle := hq.length_le
  rw [length_temporary htarget] at hlength hle
  apply List.prefix_of_prefix_length_le hq (List.prefix_append _ _)
  rw [List.length_dropLast]
  omega

/-- What was free for directories has become one or is as before. -/
theorem directories_cases
    (hfree : ∀ q, q <+: target.dropLast → before q = none ∨ before q = some .directory)
    (q : FsPath) : before.directories target.dropLast q = before q ∨
      q <+: target.dropLast ∧ before q = none ∧
        before.directories target.dropLast q = some .directory := by
  unfold FileTree.directories
  split
  · next hq =>
    rcases hfree q hq with h | h
    · exact Or.inr ⟨hq, h, rfl⟩
    · exact Or.inl h.symm
  · exact Or.inl rfl

theorem safe_of_left (htarget : target ≠ []) (habsent : before target = none)
    (hfree : ∀ q, q <+: target.dropLast → before q = none ∨ before q = some .directory)
    (h : Left (before.directories target.dropLast) (H.temporary target) target apart
      (fun set => ∃ database rows, H.Complete set database rows) t) :
    H.Safe before target apart t := by
  rcases h with h | h
  · refine ⟨fun q hs _ _ => ?_, Or.inl ?_⟩
    · rw [h q hs]
      exact directories_cases hfree q
    · funext q
      have hq : target <+: target ++ q := List.prefix_append target q
      have hs : ¬H.temporary target <+: target ++ q :=
        not_prefix_of_length (length_temporary htarget).symm (Ne.symm temporary_ne) hq
      show t (target ++ q) = before (target ++ q)
      rw [h _ hs]
      -- the target is below the new directories
      apply if_neg
      intro hparent
      have hle := (hq.trans hparent).length_le
      rw [List.length_dropLast] at hle
      have hpos := List.length_pos_of_ne_nil htarget
      omega
  · refine ⟨fun q hs hq ha => ?_, Or.inr ⟨habsent, h.whole⟩⟩
    rw [h.frame q hs hq ha]
    exact directories_cases hfree q

/-- What a report says of a set. -/
def Reports (H : BackupHost) (target : FsPath) (report : BackupSetReport) (set : Fs) : Prop :=
  ∃ database rows, H.Complete set database rows ∧
    report = ⟨"backup_set.v1", target, H.sha256 database, rows.length, true⟩

theorem keeps_publishFresh {build : FsPath → Mortal Fs BackupFault BackupSetReport}
    {after : BackupSetReport → Mortal Fs BackupFault Unit} {fault : BackupFault}
    (htarget : target ≠ [])
    (hbuild : ∀ base staging, Rooted base staging →
      Mortal.Keeps (FileTree.SameOff staging base) (build staging)
        (fun report t => FileTree.SameOff staging base t ∧ H.Reports target report (t.subtree staging))
        (FileTree.SameOff staging base) (FileTree.SameOff staging base))
    (hafter : ∀ base report, before target = none →
      Mortal.Keeps (Published base (H.temporary target) target apart (H.Reports target report))
        (after report)
        (fun _ => Published base (H.temporary target) target apart (H.Reports target report))
        (Published base (H.temporary target) target apart (H.Reports target report))
        (Published base (H.temporary target) target apart (H.Reports target report))) :
    Mortal.Keeps (fun t => t = before)
      (.look .os (fun t : Fs => require (t target = none) fault) >>= fun _ =>
        mkdirParents target.dropLast >>= fun _ => H.publishDirectory target build after)
      (fun report t => H.Safe before target apart t ∧ before target = none ∧
        H.Reports target report (t.subtree target))
      (H.Safe before target apart) (H.Safe before target apart) := by
  have hrefl : ∀ t, t = before → H.Safe before target apart t := by
    intro t ht
    rw [ht]
    exact Safe.refl before
  apply Mortal.Keeps.bind (Q := fun _ t => before target = none ∧ t = before)
  · apply Mortal.Keeps.look _ hrefl hrefl
    intro t r ht h
    exact ⟨ht ▸ require_ok.mp h, ht⟩
  intro _
  apply Mortal.Keeps.assume
  intro habsent
  apply Mortal.Keeps.bind (Q := fun _ t =>
    (∀ q, q <+: target.dropLast → before q = none ∨ before q = some .directory) ∧
      t = before.directories target.dropLast)
  · apply Mortal.Keeps.action _ hrefl hrefl
    intro t r u ht h
    subst ht
    cases hmade : t.makeDirectories target.dropLast with
    | none => simp [hmade, orThrow, Except.map] at h
    | some v =>
      simp only [hmade, orThrow, Except.map, Except.ok.injEq, Prod.mk.injEq, true_and] at h
      obtain ⟨hfree, rfl⟩ := FileTree.makeDirectories_eq_some.mp hmade
      exact ⟨hfree, h.symm⟩
  intro _
  apply Mortal.Keeps.assume
  intro hfree
  have hsome : ∀ report set, H.Reports target report set →
      ∃ database rows, H.Complete set database rows := by
    intro report set h
    obtain ⟨database, rows, hcomplete, -⟩ := h
    exact ⟨database, rows, hcomplete⟩
  have hpublish := keeps_publishDirectory htarget hsome
    (hbuild (before.directories target.dropLast) _ (rooted_directories htarget)) fun report =>
      hafter _ report habsent
  refine hpublish.weaken ?_ ?_ ?_ ?_
  · intro t ht
    exact ht ▸ FileTree.SameOff.refl _ _
  · intro report t h
    have hleft : Left (before.directories target.dropLast) (H.temporary target) target apart
        (fun set => ∃ database rows, H.Complete set database rows) t :=
      Or.inr ⟨h.frame, hsome report _ h.whole⟩
    exact ⟨safe_of_left htarget habsent hfree hleft, habsent, h.whole⟩
  · exact fun t => safe_of_left htarget habsent hfree
  · exact fun t => safe_of_left htarget habsent hfree

theorem keeps_reported {build : Mortal Fs BackupFault BackupSetReport}
    (hbuild : Mortal.Keeps (FileTree.SameOff staging base) build
      (fun report t => FileTree.SameOff staging base t ∧ H.verifyBackupSet t staging = .ok report)
      (FileTree.SameOff staging base) (FileTree.SameOff staging base)) :
    Mortal.Keeps (FileTree.SameOff staging base)
      (build >>= fun report => pure { report with directory := target })
      (fun report t => FileTree.SameOff staging base t ∧ H.Reports target report (t.subtree staging))
      (FileTree.SameOff staging base) (FileTree.SameOff staging base) := by
  apply hbuild.bind
  intro report
  apply Mortal.Keeps.pure
  intro t h
  obtain ⟨database, rows, hcomplete, rfl⟩ := verifyBackupSet_ok.mp h.2
  exact ⟨h.1, database, rows, hcomplete, rfl⟩

/-- Recording a set changes the store's database alone. -/
theorem keeps_recordBackupSet {report : BackupSetReport} (hdata : ¬target <+: data ++ databasePath)
    {whole : Fs → Prop} : Mortal.Keeps (Published base staging target {data ++ databasePath} whole)
      (H.recordBackupSet data report)
      (fun _ => Published base staging target {data ++ databasePath} whole)
      (Published base staging target {data ++ databasePath} whole)
      (Published base staging target {data ++ databasePath} whole) := by
  apply Mortal.Keeps.action _ (fun _ h => h) fun _ h => h
  intro t r u ht h
  simp only [bind_ok, orThrow_ok, Except.ok.injEq, Prod.mk.injEq, true_and] at h
  obtain ⟨_, -, written, -, rfl⟩ := h
  refine ⟨fun q hs hq ha => ?_, ?_⟩
  · rw [FileTree.put_of_ne ha]
    exact ht.frame q hs hq ha
  · have hsubtree :
        (t.put (data ++ databasePath) (.file written)).subtree target = t.subtree target := by
      funext q
      have hne : target ++ q ≠ data ++ databasePath := fun heq =>
        hdata (heq ▸ List.prefix_append target q)
      exact FileTree.put_of_ne hne _ _
    rw [hsubtree]
    exact ht.whole

/-- A set is published whole or not at all, however the creation fares, and what was there before stays
as it was, apart from the store's database if the set is recorded. -/
theorem createBackupSet_safe {record : Bool} (htarget : target ≠ []) (hclosed : before.Closed)
    (hdata : before (data ++ databasePath) ≠ none) :
    Mortal.Keeps (fun t => t = before) (H.createBackupSet data target record)
      (fun report t => H.Safe before target (if record then {data ++ databasePath} else ∅) t ∧
        before target = none ∧ H.Reports target report (t.subtree target))
      (H.Safe before target (if record then {data ++ databasePath} else ∅))
      (H.Safe before target (if record then {data ++ databasePath} else ∅)) := by
  apply keeps_publishFresh htarget
  · intro base staging hbase
    exact keeps_reported (keeps_buildSet hbase)
  · intro base report habsent
    cases record with
    | false => exact Mortal.Keeps.pure () fun _ h => h
    | true => exact keeps_recordBackupSet (hclosed.not_below habsent hdata)

end BackupHost

namespace Sample

open BackupHost

/-- A tree of a few nodes. -/
def treeOf (nodes : List (FsPath × Node Bytes)) : Fs := fun q => nodes.lookup q

theorem closed_treeOf {nodes : List (FsPath × Node Bytes)}
    (h : ∀ node ∈ nodes, ∀ p ∈ node.1.inits, p = node.1 ∨ treeOf nodes p = some .directory) :
    (treeOf nodes).Closed := by
  intro p q hpq hne hq
  obtain ⟨node, hnode⟩ := Option.ne_none_iff_exists'.mp hq
  obtain ⟨before, after, hnodes, -⟩ := List.lookup_eq_some_iff.mp hnode
  have hmem : (q, node) ∈ nodes := by
    rw [hnodes]
    exact List.mem_append_right _ List.mem_cons_self
  exact (h _ hmem p ((List.mem_inits p q).mpr hpq)).resolve_left hne

def databaseBytes : Bytes := utf8Encode "SQLite".toList

def evidenceBytes : Bytes := utf8Encode "price".toList

def databaseDigest : String := "2d2eef3e092af52b5837160fe2e3954907a4bfed1469edd2e6422749a6b16b7a"

def evidenceDigest : String := "683b531f41ec88a2f345b727afe59757b73162a340a65c86bba62866f8fe556c"

def evidenceRow : ContentRow := ⟨evidenceDigest, 5⟩

/-- A host whose digests are right for the two files of the sample, with a database of one row. -/
def backupHost : BackupHost where
  platform := ⟨fun _ => evidenceDigest, fun text => text, fun url => url, fun _ => "", fun text => text,
    fun _ => ""⟩
  sha256 bytes :=
    if bytes = databaseBytes then databaseDigest
    else if bytes = evidenceBytes then evidenceDigest
    else String.ofList (List.replicate 64 '0')
  float text := text
  floatIs _ _ := false
  timestamp := "2026-03-01T00:00:00.000000Z"
  draw _ := "5c0f2b7a9e314d68a1b2c3d4e5f60718"
  backup := some
  integrity _ := some true
  contents _ := some [evidenceRow]
  recorded _ database := some (database ++ utf8Encode "+".toList)

/-- A store of one object. -/
def storeNodes : List (FsPath × Node Bytes) :=
  [([], .directory), (["data"], .directory),
    (["data", "operational.sqlite3"], .file databaseBytes), (["data", "evidence"], .directory),
    (["data", "evidence", "sha256"], .directory), (["data", "evidence", "sha256", "68"], .directory),
    (["data", "evidence", "sha256", "68", evidenceDigest], .file evidenceBytes)]

def storeTree : Fs := treeOf storeNodes

theorem closed_storeTree : storeTree.Closed := closed_treeOf (by decide +kernel)

theorem safe_storeTree : Mortal.Keeps (fun t => t = storeTree)
    (backupHost.createBackupSet ["data"] ["backups", "first"] true)
    (fun report t =>
      backupHost.Safe storeTree ["backups", "first"] {["data"] ++ databasePath} t ∧
        storeTree ["backups", "first"] = none ∧
        backupHost.Reports ["backups", "first"] report (t.subtree ["backups", "first"]))
    (backupHost.Safe storeTree ["backups", "first"] {["data"] ++ databasePath})
    (backupHost.Safe storeTree ["backups", "first"] {["data"] ++ databasePath}) :=
  createBackupSet_safe (by decide) closed_storeTree (by decide +kernel)

end Sample

namespace BackupHost

variable {H : BackupHost} {before : Fs} {source target : FsPath}

/-- A set is restored whole or not at all, and nothing that was there before is touched. -/
theorem restoreBackupSet_safe (htarget : target ≠ []) :
    Mortal.Keeps (fun t => t = before) (H.restoreBackupSet source target)
      (fun report t => H.Safe before target ∅ t ∧ before target = none ∧
        H.Reports target report (t.subtree target))
      (H.Safe before target ∅) (H.Safe before target ∅) := by
  have hrefl : ∀ t, t = before → H.Safe before target ∅ t := by
    intro t ht
    rw [ht]
    exact Safe.refl before
  apply Mortal.Keeps.bind (Q := fun _ t => t = before)
  · exact Mortal.Keeps.look (fun _ _ ht _ => ht) hrefl hrefl
  intro _
  apply keeps_publishFresh htarget
  · intro base staging hbase
    exact keeps_reported (keeps_restoreSet hbase)
  · intro base report habsent
    exact Mortal.Keeps.pure () fun _ h => h

end BackupHost

namespace Sample

open BackupHost

theorem safe_restored : Mortal.Keeps (fun t => t = storeTree)
    (backupHost.restoreBackupSet ["data"] ["restored"])
    (fun report t => backupHost.Safe storeTree ["restored"] ∅ t ∧ storeTree ["restored"] = none ∧
      backupHost.Reports ["restored"] report (t.subtree ["restored"]))
    (backupHost.Safe storeTree ["restored"] ∅) (backupHost.Safe storeTree ["restored"] ∅) :=
  restoreBackupSet_safe (by decide)

end Sample

end NanFung
