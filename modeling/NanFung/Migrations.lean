import Mathlib.Data.List.TakeWhile
import NanFung.Lib.Ledger
import NanFung.Lib.Runs
import NanFung.Store.Migrations

/-!
# Migrated databases

Whatever packages were applied to a database, in whatever order and wherever the process died, its ledger
lists what built its schema (`ledger_of_run`). So a database that a package brings up to date is the
one that the package builds from nothing (`apply_eq_fresh`), when an upgrade goes through is known
beforehand (`apply_ok_iff`), and one that was broken off is finished by the next (`apply_resumed`).
-/

namespace NanFung

open Base64 PyText

/-- What a package and a ledger both say of a migration. -/
structure MigrationKey where
  version : Nat
  name : String
  checksumSha256 : String
  deriving DecidableEq

namespace Migration

def key (m : Migration) : MigrationKey := ⟨m.version, m.name, m.checksumSha256⟩

@[simp] theorem key_version (m : Migration) : m.key.version = m.version := rfl

@[simp] theorem key_name (m : Migration) : m.key.name = m.name := rfl

end Migration

namespace AppliedMigration

def key (r : AppliedMigration) : MigrationKey := ⟨r.version, r.name, r.checksumSha256⟩

@[simp] theorem key_version (r : AppliedMigration) : r.key.version = r.version := rfl

@[simp] theorem key_name (r : AppliedMigration) : r.key.name = r.name := rfl

end AppliedMigration

section

variable {σ : Type} {sha256 : Bytes → String} {exec : List Char → σ → Option σ} {contents : Set Bytes}

/-! ## Packages -/

/-- The migrations of a package whose files have contents of a set. -/
structure Loaded (sha256 : Bytes → String) (contents : Set Bytes) (ms : List Migration) : Prop where
  versions : (ms.map Migration.version).Nodup
  names : (ms.map Migration.name).Nodup
  positive : ∀ m ∈ ms, 0 < m.version
  genuine : ∀ m ∈ ms, ∃ content ∈ contents, m.checksumSha256 = sha256 content ∧
    utf8Decode content = some m.sql

/-- Loaded migrations in the order of their versions. -/
structure Packaged (sha256 : Bytes → String) (contents : Set Bytes) (ms : List Migration) : Prop
    extends Loaded sha256 contents ms where
  ordered : Ledger.Ascending Migration.version ms

/-- What the files of a directory contain. -/
def contentsOf (directory : List MigrationFile) : Set Bytes :=
  {content | ∃ file ∈ directory, file.content = content}

theorem ofDigitChars_pos (digits : List Char) {n : Nat} (hn : 0 < n) :
    0 < Nat.ofDigitChars 10 digits n := by
  induction digits generalizing n with
  | nil => exact hn
  | cons c digits ih =>
    rw [Nat.ofDigitChars_cons]
    apply ih
    omega

theorem digitsValue_pos {digits : List Char} (hdigits : ∀ c ∈ digits, c.isDigit)
    (hany : digits.any (· ≠ '0')) : 0 < Decimal.digitsValue digits := by
  unfold Decimal.digitsValue
  suffices h : ∀ n, 0 < Nat.ofDigitChars 10 digits n from h 0
  induction digits with
  | nil => simp at hany
  | cons c digits ih =>
    intro n
    rw [Nat.ofDigitChars_cons]
    by_cases hc : c = '0'
    · apply ih (fun d hd => hdigits d (List.mem_cons_of_mem _ hd))
      simpa [hc] using hany
    · apply ofDigitChars_pos
      -- a digit other than the first one lies above it
      have hdigit := hdigits c List.mem_cons_self
      have hne : c.toNat ≠ 48 := fun h => hc (Char.ext (UInt32.toNat.inj h))
      simp only [Char.isDigit, Bool.and_eq_true, decide_eq_true_eq, ge_iff_le] at hdigit
      have hle : 48 ≤ c.toNat := hdigit.1
      have hzero : '0'.toNat = 48 := rfl
      omega

theorem digits_of_migrationFilename {text : String} {digits name : List Char}
    (h : migrationFilename text = some (digits, name)) :
    (∀ c ∈ digits, c.isDigit) ∧ digits.any (· ≠ '0') := by
  simp only [migrationFilename] at h
  split at h
  · next hcond =>
    obtain ⟨rfl, -⟩ := Prod.mk.inj (Option.some.inj h)
    simp only [Bool.and_eq_true] at hcond
    exact ⟨fun c hc => List.mem_takeWhile_imp hc, hcond.1.1.1.1.1⟩
  · cases h

theorem loaded_discoverFiles {found ms : List Migration} {files : List MigrationFile}
    (hfound : Loaded sha256 contents found) (hfiles : contentsOf files ⊆ contents)
    (h : discoverFiles sha256 found files = .ok ms) : Loaded sha256 contents ms := by
  induction files generalizing found with
  | nil =>
    cases h
    exact hfound
  | cons file files ih =>
    have hrest : contentsOf files ⊆ contents := by
      intro content hcontent
      obtain ⟨f, hf, hfc⟩ := hcontent
      exact hfiles ⟨f, List.mem_cons_of_mem _ hf, hfc⟩
    unfold discoverFiles at h
    split at h
    · simp only [bind_ok, orThrow_ok, require_ok] at h
      obtain ⟨parts, hparts, _, _, _, hversion, _, hname, sql, hsql, h⟩ := h
      have hfilename : migrationFilename file.name = some (parts.1, parts.2) := hparts
      obtain ⟨hdigits, hany⟩ := digits_of_migrationFilename hfilename
      apply ih _ hrest h
      constructor
      · rw [List.map_append, List.map_singleton, List.nodup_append]
        refine ⟨hfound.versions, List.nodup_singleton _, ?_⟩
        intro v hv w hw
        obtain ⟨m, hm, rfl⟩ := List.mem_map.mp hv
        rw [List.mem_singleton.mp hw]
        exact hversion m hm
      · rw [List.map_append, List.map_singleton, List.nodup_append]
        refine ⟨hfound.names, List.nodup_singleton _, ?_⟩
        intro v hv w hw
        obtain ⟨m, hm, rfl⟩ := List.mem_map.mp hv
        rw [List.mem_singleton.mp hw]
        exact hname m hm
      · intro m hm
        rcases List.mem_append.mp hm with hm | hm
        · exact hfound.positive m hm
        · rw [List.mem_singleton.mp hm]
          exact digitsValue_pos hdigits hany
      · intro m hm
        rcases List.mem_append.mp hm with hm | hm
        · exact hfound.genuine m hm
        · rw [List.mem_singleton.mp hm]
          exact ⟨file.content, hfiles ⟨file, List.mem_cons_self, rfl⟩, rfl, hsql⟩
    · exact ih hfound hrest h

theorem Loaded.perm {ms ms' : List Migration} (h : Loaded sha256 contents ms) (hp : ms.Perm ms') :
    Loaded sha256 contents ms' where
  versions := (hp.map _).nodup_iff.mp h.versions
  names := (hp.map _).nodup_iff.mp h.names
  positive m hm := h.positive m (hp.mem_iff.mpr hm)
  genuine m hm := h.genuine m (hp.mem_iff.mpr hm)

/-- What `discover` returns is in order. -/
theorem packaged_discover {directory : List MigrationFile} {ms : List Migration}
    (hdir : contentsOf directory ⊆ contents) (h : discover sha256 directory = .ok ms) :
    Packaged sha256 contents ms := by
  unfold discover at h
  simp only [bind_ok, require_ok] at h
  obtain ⟨found, hfound, _, _, h⟩ := h
  cases h
  have hperm := List.perm_insertionSort (fun a b : Migration => a.version ≤ b.version) found
  have hempty : Loaded sha256 contents [] := by constructor <;> simp
  have hloaded := (loaded_discoverFiles hempty hdir hfound).perm hperm.symm
  refine ⟨hloaded, ?_⟩
  have hle : (found.insertionSort fun a b => a.version ≤ b.version).Pairwise
      fun a b => a.version ≤ b.version := List.pairwise_insertionSort _ found
  have hne := List.pairwise_map.mp hloaded.versions
  exact (hle.and hne).imp fun h => lt_of_le_of_ne h.1 h.2

/-! A package is one by its keys and by what its migrations are. -/

theorem versions_keys (ms : List Migration) :
    (ms.map Migration.key).map MigrationKey.version = ms.map Migration.version := by simp

theorem names_keys (ms : List Migration) :
    (ms.map Migration.key).map MigrationKey.name = ms.map Migration.name := by simp

theorem Packaged.ascending_keys {ms : List Migration} (h : Packaged sha256 contents ms) :
    Ledger.Ascending MigrationKey.version (ms.map Migration.key) :=
  Ledger.ascending_map.mpr h.ordered

/-- A prefix may be replaced by one with the same keys. -/
theorem Packaged.replace {ms ms' rest : List Migration} (h : Packaged sha256 contents (ms ++ rest))
    (h' : Packaged sha256 contents ms') (hkeys : ms.map Migration.key = ms'.map Migration.key) :
    Packaged sha256 contents (ms' ++ rest) := by
  have hall : (ms' ++ rest).map Migration.key = (ms ++ rest).map Migration.key := by
    rw [List.map_append, List.map_append, hkeys]
  refine ⟨⟨?_, ?_, ?_, ?_⟩, ?_⟩
  · rw [← versions_keys, hall, versions_keys]
    exact h.versions
  · rw [← names_keys, hall, names_keys]
    exact h.names
  · intro m hm
    rcases List.mem_append.mp hm with hm | hm
    · exact h'.positive m hm
    · exact h.positive m (List.mem_append_right _ hm)
  · intro m hm
    rcases List.mem_append.mp hm with hm | hm
    · exact h'.genuine m hm
    · exact h.genuine m (List.mem_append_right _ hm)
  · have hasc : Ledger.Ascending MigrationKey.version ((ms' ++ rest).map Migration.key) := by
      rw [hall]
      exact h.ascending_keys
    have hordered := Ledger.ascending_map.mp hasc
    exact hordered

theorem Packaged.left {ms rest : List Migration} (h : Packaged sha256 contents (ms ++ rest)) :
    Packaged sha256 contents ms := by
  have hsub : ms.Sublist (ms ++ rest) := List.sublist_append_left ms rest
  exact ⟨⟨h.versions.sublist (hsub.map _), h.names.sublist (hsub.map _),
    fun m hm => h.positive m (hsub.subset hm), fun m hm => h.genuine m (hsub.subset hm)⟩,
    h.ordered.sublist hsub⟩

/-- Where no two contents have one digest, migrations with the same keys are the same. -/
theorem eq_of_keys (hinj : Set.InjOn sha256 contents) {ms ms' : List Migration}
    (h : ∀ m ∈ ms, ∃ content ∈ contents, m.checksumSha256 = sha256 content ∧
      utf8Decode content = some m.sql)
    (h' : ∀ m ∈ ms', ∃ content ∈ contents, m.checksumSha256 = sha256 content ∧
      utf8Decode content = some m.sql)
    (hkeys : ms.map Migration.key = ms'.map Migration.key) : ms = ms' := by
  induction ms generalizing ms' with
  | nil => exact (List.map_eq_nil_iff.mp hkeys.symm).symm
  | cons m ms ih =>
    obtain ⟨m', ms'', rfl, hkey, hrest⟩ := List.map_eq_cons_iff.mp hkeys.symm
    obtain ⟨content, hcontent, hsum, hsql⟩ := h m List.mem_cons_self
    obtain ⟨content', hcontent', hsum', hsql'⟩ := h' m' List.mem_cons_self
    have hsums : m'.checksumSha256 = m.checksumSha256 := congrArg MigrationKey.checksumSha256 hkey
    have hsame : content' = content := hinj hcontent' hcontent (by rw [← hsum, ← hsum', hsums])
    subst hsame
    have hscript : m'.sql = m.sql := Option.some.inj (hsql'.symm.trans hsql)
    have hm : m = m' := by
      cases m
      cases m'
      simp_all [Migration.key]
    rw [hm, ih (fun n hn => h n (List.mem_cons_of_mem _ hn))
      (fun n hn => h' n (List.mem_cons_of_mem _ hn)) hrest.symm]

/-! ## Checking the history -/

theorem find?_version {ms : List Migration} (hms : (ms.map Migration.version).Nodup) {m : Migration}
    (hm : m ∈ ms) : ms.find? (fun n => n.version = m.version) = some m := by
  induction ms with
  | nil => cases hm
  | cons n ms ih =>
    rw [List.map_cons, List.nodup_cons] at hms
    rcases List.mem_cons.mp hm with rfl | hm
    · simp
    · have hne : n.version ≠ m.version := by
        intro heq
        exact hms.1 (heq ▸ List.mem_map_of_mem hm)
      rw [List.find?_cons_of_neg (by simpa using hne)]
      exact ih hms.2 hm

/-- A row is accepted if the package has a migration of its key. -/
theorem validateAppliedRow_ok {ms : List Migration} (hms : (ms.map Migration.version).Nodup)
    {row : AppliedMigration} {u : Unit} :
    validateAppliedRow ms row = .ok u ↔ row.key ∈ ms.map Migration.key := by
  unfold validateAppliedRow
  simp only [bind_ok, orThrow_ok, require_ok, List.mem_map]
  constructor
  · intro h
    obtain ⟨m, hfind, _, hname, hsum⟩ := h
    have hversion : m.version = row.version := by simpa using List.find?_some hfind
    refine ⟨m, List.mem_of_find?_eq_some hfind, ?_⟩
    simp only [Migration.key, AppliedMigration.key, hversion, hname, hsum]
  · intro h
    obtain ⟨m, hm, hkey⟩ := h
    have hversion : m.version = row.version := congrArg MigrationKey.version hkey
    refine ⟨m, ?_, (), congrArg MigrationKey.name hkey, congrArg MigrationKey.checksumSha256 hkey⟩
    rw [← hversion]
    exact find?_version hms hm

theorem validateAppliedHistory_ok {ms : List Migration} (hms : (ms.map Migration.version).Nodup)
    {rows : List AppliedMigration} {u : Unit} :
    validateAppliedHistory ms rows = .ok u ↔ ∀ e ∈ rows.map AppliedMigration.key,
      e ∈ ms.map Migration.key := by
  induction rows with
  | nil => simp [validateAppliedHistory]
  | cons row rows ih =>
    rw [validateAppliedHistory]
    simp only [bind_ok, ih, List.map_cons, List.forall_mem_cons]
    constructor
    · intro h
      obtain ⟨_, hrow, hrows⟩ := h
      exact ⟨(validateAppliedRow_ok hms).mp hrow, hrows⟩
    · intro h
      exact ⟨(), (validateAppliedRow_ok hms).mpr h.1, h.2⟩

theorem pendingOf_eq (ms : List Migration) (rows : List AppliedMigration) :
    pendingOf ms rows = Ledger.pending MigrationKey.version Migration.key
      (rows.map AppliedMigration.key) ms := by
  unfold pendingOf Ledger.pending
  simp

/-! ## Installed databases -/

/-- What a list of migrations makes of a schema. -/
def builds (exec : List Char → σ → Option σ) (s : σ) (ms : List Migration) : Option σ :=
  Ledger.replayed (fun m : Migration => exec m.sql) s ms

variable {origin : σ} {history ms : List Migration} {db db' : Database σ} {m : Migration}
  {runner : MigrationRunner} {highest : Nat}

/-- The ledger of the database lists a history of migrations, and its schema is what they built. -/
structure Installed (sha256 : Bytes → String) (exec : List Char → σ → Option σ) (contents : Set Bytes)
    (origin : σ) (history : List Migration) (db : Database σ) : Prop where
  packaged : Packaged sha256 contents history
  storable : ∀ m ∈ history, m.version < 2 ^ 63
  recorded : db.rows.map AppliedMigration.key = history.map Migration.key
  built : builds exec origin history = some db.schema

theorem installed_new : Installed sha256 exec contents origin [] ⟨origin, none⟩ := by
  refine ⟨⟨⟨?_, ?_, ?_, ?_⟩, ?_⟩, ?_, rfl, rfl⟩
  · exact List.nodup_nil
  · exact List.nodup_nil
  · intro m hm
    cases hm
  · intro m hm
    cases hm
  · exact List.Pairwise.nil
  · intro m hm
    cases hm

/-- Only the rows of the ledger and the schema matter. -/
theorem Installed.congr (h : Installed sha256 exec contents origin history db)
    (hschema : db'.schema = db.schema) (hrows : db'.rows = db.rows) :
    Installed sha256 exec contents origin history db' :=
  ⟨h.packaged, h.storable, by rw [hrows, h.recorded], by rw [hschema, h.built]⟩

theorem Installed.ascending (h : Installed sha256 exec contents origin history db) :
    Ledger.Ascending MigrationKey.version (db.rows.map AppliedMigration.key) := by
  rw [h.recorded]
  exact h.packaged.ascending_keys

/-- The versions of the ledger are those of the history. -/
theorem Installed.versions (h : Installed sha256 exec contents origin history db) :
    db.rows.map AppliedMigration.version = history.map Migration.version := by
  have hversions := congrArg (List.map MigrationKey.version) h.recorded
  rw [List.map_map, List.map_map] at hversions
  exact hversions

theorem Installed.names (h : Installed sha256 exec contents origin history db) :
    db.rows.map AppliedMigration.name = history.map Migration.name := by
  have hnames := congrArg (List.map MigrationKey.name) h.recorded
  rw [List.map_map, List.map_map] at hnames
  exact hnames

/-- The ledger is read in the order in which it was written. -/
theorem Installed.applied (h : Installed sha256 exec contents origin history db) :
    db.applied = db.rows := by
  apply List.Pairwise.insertionSort_eq
  have hlt : (db.rows.map AppliedMigration.version).Pairwise (· < ·) := by
    rw [h.versions]
    exact List.pairwise_map.mpr h.packaged.ordered
  exact (List.pairwise_map.mp hlt).imp fun hab => Nat.le_of_lt hab

/-! ## One migration -/

theorem insertRow_ok {row : AppliedMigration} : db.insertRow row = .ok db' ↔
    (row.version < 2 ^ 63 ∧ 0 < row.version ∧ row.checksumSha256.length = 64 ∧
      row.version ∉ db.rows.map AppliedMigration.version ∧
      row.name ∉ db.rows.map AppliedMigration.name) ∧
    { db with ledger := some (db.rows ++ [row]) } = db' := by
  unfold Database.insertRow
  simp only [bind_ok, require_ok, Except.ok.injEq, exists_const, List.mem_map, not_exists,
    not_and, and_assoc, ne_eq]

theorem applyOne_ok {u : Unit} : runner.applyOne exec m db = .ok (u, db') ↔
    ∃ s, exec m.sql db.schema = some s ∧
      { db with schema := s }.insertRow (runner.ledgerRow m) = .ok db' := by
  unfold MigrationRunner.applyOne
  simp only [bind_ok, orThrow_ok, Except.ok.injEq, Prod.mk.injEq, true_and, exists_eq_right]

/-- A migration that is applied continues the history. -/
theorem Installed.applyOne (h : Installed sha256 exec contents origin history db)
    (hp : Packaged sha256 contents (history ++ [m])) {u : Unit}
    (hok : runner.applyOne exec m db = .ok (u, db')) :
    Installed sha256 exec contents origin (history ++ [m]) db' ∧
      db'.rows = db.rows ++ [runner.ledgerRow m] := by
  obtain ⟨s, hs, hinsert⟩ := applyOne_ok.mp hok
  obtain ⟨hrow, rfl⟩ := insertRow_ok.mp hinsert
  refine ⟨⟨hp, ?_, ?_, ?_⟩, rfl⟩
  · intro n hn
    rcases List.mem_append.mp hn with hn | hn
    · exact h.storable n hn
    · rw [List.mem_singleton.mp hn]
      exact hrow.1
  · show (db.rows ++ [runner.ledgerRow m]).map AppliedMigration.key = _
    rw [List.map_append, List.map_append, h.recorded]
    rfl
  · have hbuilt : builds exec origin history = some db.schema := h.built
    unfold builds at hbuilt ⊢
    rw [Ledger.replayed_append, hbuilt]
    simp [hs]

/-- The next migration is applied if its script runs and its version can be stored. -/
theorem Installed.applyOne_iff (hsha : ∀ content, (sha256 content).length = 64)
    (h : Installed sha256 exec contents origin history db)
    (hp : Packaged sha256 contents (history ++ [m])) {s : σ} :
    (∃ db', runner.applyOne exec m db = .ok ((), db') ∧ db'.schema = s) ↔
      m.version < 2 ^ 63 ∧ exec m.sql db.schema = some s := by
  have hmem : m ∈ history ++ [m] := List.mem_append_right _ (List.mem_singleton.mpr rfl)
  constructor
  · intro hok
    obtain ⟨db', hok, rfl⟩ := hok
    obtain ⟨s', hs, hinsert⟩ := applyOne_ok.mp hok
    obtain ⟨hrow, rfl⟩ := insertRow_ok.mp hinsert
    exact ⟨hrow.1, hs⟩
  · intro hok
    obtain ⟨hversion, hs⟩ := hok
    refine ⟨_, applyOne_ok.mpr ⟨s, hs, insertRow_ok.mpr ⟨⟨hversion, hp.positive m hmem, ?_, ?_, ?_⟩,
      rfl⟩⟩,
      rfl⟩
    · obtain ⟨content, -, hsum, -⟩ := hp.genuine m hmem
      show m.checksumSha256.length = 64
      rw [hsum]
      exact hsha content
    · show m.version ∉ db.rows.map AppliedMigration.version
      rw [h.versions]
      have hnodup := hp.versions
      rw [List.map_append, List.map_singleton, List.nodup_append] at hnodup
      intro hin
      exact hnodup.2.2 m.version hin m.version (List.mem_singleton.mpr rfl) rfl
    · show m.name ∉ db.rows.map AppliedMigration.name
      rw [h.names]
      have hnodup := hp.names
      rw [List.map_append, List.map_singleton, List.nodup_append] at hnodup
      intro hin
      exact hnodup.2.2 m.name hin m.name (List.mem_singleton.mpr rfl) rfl

/-! ## The loop -/

theorem run_applyPending_cons (hm : ¬m.version < highest) :
    (runner.applyPending exec highest (m :: ms)).run db =
      match runner.applyOne exec m db with
      | .ok (_, db') => (runner.applyPending exec highest ms).run db'
      | .error fault => (.error fault, db) := by
  rw [MigrationRunner.applyPending, if_neg hm]
  show (Proc.atomically (runner.applyOne exec m) >>= fun _ => _).run db = _
  rw [Proc.run_bind, Proc.run_atomically]
  cases runner.applyOne exec m db with
  | error fault => rfl
  | ok out => rfl

variable (runner highest) in
/-- Wherever the loop stops, it has continued the history by the migrations it came to. -/
theorem Installed.applyPending (h : Installed sha256 exec contents origin history db)
    (hp : Packaged sha256 contents (history ++ ms)) (hhigh : ∀ m ∈ ms, ¬m.version < highest) :
    ∃ done rest, ms = done ++ rest ∧
      Installed sha256 exec contents origin (history ++ done)
        ((runner.applyPending exec highest ms).run db).2 ∧
      ((runner.applyPending exec highest ms).run db).2.rows = db.rows ++ done.map runner.ledgerRow ∧
      (((runner.applyPending exec highest ms).run db).1 = .ok () → rest = []) := by
  induction ms generalizing history db with
  | nil =>
    refine ⟨[], [], rfl, ?_, ?_, fun _ => rfl⟩
    · rw [List.append_nil]
      exact h
    · exact (List.append_nil _).symm
  | cons m ms ih =>
    rw [run_applyPending_cons (hhigh m List.mem_cons_self)]
    cases hone : runner.applyOne exec m db with
    | error fault =>
      refine ⟨[], m :: ms, rfl, ?_, ?_, ?_⟩
      · rw [List.append_nil]
        exact h
      · exact (List.append_nil _).symm
      · intro hok
        cases hok
    | ok out =>
      have hsplit : history ++ m :: ms = history ++ [m] ++ ms := by simp
      rw [hsplit] at hp
      obtain ⟨hnext, hrows⟩ := h.applyOne hp.left hone
      obtain ⟨done, rest, hms, hdone, hdrows, hrest⟩ :=
        ih hnext hp fun n hn => hhigh n (List.mem_cons_of_mem _ hn)
      refine ⟨m :: done, rest, by rw [hms]; rfl, ?_, ?_, hrest⟩
      · simpa using hdone
      · rw [hdrows, hrows]
        simp

/-- The loop goes through if the versions can be stored and the scripts run. -/
theorem Installed.applyPending_iff (hsha : ∀ content, (sha256 content).length = 64)
    (h : Installed sha256 exec contents origin history db)
    (hp : Packaged sha256 contents (history ++ ms)) (hhigh : ∀ m ∈ ms, ¬m.version < highest) :
    ((runner.applyPending exec highest ms).run db).1 = .ok () ↔
      (∀ m ∈ ms, m.version < 2 ^ 63) ∧ ∃ s, builds exec db.schema ms = some s := by
  induction ms generalizing history db with
  | nil => exact ⟨fun _ => ⟨fun m hm => absurd hm List.not_mem_nil, db.schema, rfl⟩, fun _ => rfl⟩
  | cons m ms ih =>
    have hsplit : history ++ m :: ms = history ++ [m] ++ ms := by simp
    rw [hsplit] at hp
    have hhigh' : ∀ n ∈ ms, ¬n.version < highest := fun n hn => hhigh n (List.mem_cons_of_mem _ hn)
    have hone : ∀ s, (∃ db', runner.applyOne exec m db = .ok ((), db') ∧ db'.schema = s) ↔
        m.version < 2 ^ 63 ∧ exec m.sql db.schema = some s := fun s => h.applyOne_iff hsha hp.left
    rw [run_applyPending_cons (hhigh m List.mem_cons_self)]
    simp only [builds, Ledger.replayed_cons, Option.bind_eq_some_iff, List.forall_mem_cons]
    constructor
    · intro hok
      cases hrun : runner.applyOne exec m db with
      | error fault =>
        rw [hrun] at hok
        cases hok
      | ok out =>
        rw [hrun] at hok
        obtain ⟨hversion, hs⟩ := (hone out.2.schema).mp ⟨out.2, hrun, rfl⟩
        obtain ⟨hversions, s, hbuilt⟩ := (ih (h.applyOne hp.left hrun).1 hp hhigh').mp hok
        exact ⟨⟨hversion, hversions⟩, s, out.2.schema, hs, hbuilt⟩
    · intro hok
      obtain ⟨⟨hversion, hversions⟩, s, t, ht, hbuilt⟩ := hok
      obtain ⟨db', hrun, rfl⟩ := (hone t).mpr ⟨hversion, ht⟩
      rw [hrun]
      exact (ih (h.applyOne hp.left hrun).1 hp hhigh').mpr ⟨hversions, s, hbuilt⟩

/-- A migration behind the highest version stops the loop before it has begun. -/
theorem run_applyPending_behind (hms : Ledger.Ascending Migration.version ms)
    (hbehind : ∃ m ∈ ms, m.version < highest) {n : Nat} :
    ((runner.applyPending exec highest (ms.take n)).run db).2 = db ∧
      (n = ms.length → ((runner.applyPending exec highest (ms.take n)).run db).1 ≠ .ok ()) := by
  cases ms with
  | nil =>
    obtain ⟨m, hm, -⟩ := hbehind
    cases hm
  | cons first ms =>
    have hfirst : first.version < highest := by
      obtain ⟨m, hm, hlt⟩ := hbehind
      rcases List.mem_cons.mp hm with rfl | hm
      · exact hlt
      · exact ((List.pairwise_cons.mp hms).1 m hm).trans hlt
    cases n with
    | zero => exact ⟨rfl, fun h => absurd h (by simp)⟩
    | succ n =>
      have hrun : ∃ fault, (runner.applyPending exec highest ((first :: ms).take (n + 1))).run db =
          (.error fault, db) := by
        rw [List.take_succ_cons]
        unfold MigrationRunner.applyPending
        rw [if_pos hfirst]
        exact ⟨_, rfl⟩
      obtain ⟨fault, hrun⟩ := hrun
      rw [hrun]
      exact ⟨rfl, fun _ => by simp⟩

/-! ## The plan -/

/-- The highest version of a ledger in order, or zero. -/
def highestVersion (rows : List AppliedMigration) : Nat :=
  (rows.getLast?.map AppliedMigration.version).getD 0

theorem highestVersion_le_iff {rows : List AppliedMigration}
    (h : (rows.map AppliedMigration.version).Pairwise (· < ·)) {n : Nat} :
    highestVersion rows ≤ n ↔ ∀ r ∈ rows, r.version ≤ n := by
  rcases List.eq_nil_or_concat rows with rfl | ⟨front, last, rfl⟩
  · simp [highestVersion]
  · rw [List.concat_eq_append] at h ⊢
    have hlast : highestVersion (front ++ [last]) = last.version := by
      simp [highestVersion]
    rw [hlast]
    constructor
    · intro hle r hr
      rcases List.mem_append.mp hr with hr | hr
      · rw [List.map_append, List.pairwise_append] at h
        exact (h.2.2 r.version (List.mem_map_of_mem hr) last.version (by simp)).le.trans hle
      · rw [List.mem_singleton.mp hr]
        exact hle
    · intro hall
      exact hall last (List.mem_append_right _ (List.mem_singleton.mpr rfl))

theorem Installed.pairwise_version (h : Installed sha256 exec contents origin history db) :
    (db.rows.map AppliedMigration.version).Pairwise (· < ·) := by
  rw [h.versions]
  exact List.pairwise_map.mpr h.packaged.ordered

variable {pending : List Migration}

theorem planMigrations_ok (h : Installed sha256 exec contents origin history db) :
    runner.planMigrations sha256 db = .ok (pending, highest) ↔
      ∃ ms, discover sha256 runner.directory = .ok ms ∧
        (∀ e ∈ db.rows.map AppliedMigration.key, e ∈ ms.map Migration.key) ∧
        pendingOf ms db.rows = pending ∧ highestVersion db.rows = highest := by
  unfold MigrationRunner.planMigrations
  simp only [bind_ok, h.applied, Except.ok.injEq, Prod.mk.injEq]
  constructor
  · intro hok
    obtain ⟨ms, hms, u, hhistory, hpending, hhighest⟩ := hok
    have hversions := (packaged_discover (Set.subset_univ _) hms).versions
    exact ⟨ms, hms, (validateAppliedHistory_ok hversions).mp hhistory, hpending, hhighest⟩
  · intro hok
    obtain ⟨ms, hms, hhistory, hpending, hhighest⟩ := hok
    have hversions := (packaged_discover (Set.subset_univ _) hms).versions
    exact ⟨ms, hms, (), (validateAppliedHistory_ok hversions).mpr hhistory, hpending, hhighest⟩

/-- A plan with nothing behind the highest version is one whose package continues the ledger. -/
theorem plan_iff (h : Installed sha256 exec contents origin history db) :
    (runner.planMigrations sha256 db = .ok (pending, highestVersion db.rows) ∧
        ∀ m ∈ pending, ¬m.version < highestVersion db.rows) ↔
      ∃ done, discover sha256 runner.directory = .ok (done ++ pending) ∧
        done.map Migration.key = db.rows.map AppliedMigration.key := by
  rw [planMigrations_ok h]
  have hsplit : ∀ ms, discover sha256 runner.directory = .ok ms →
      (((∀ e ∈ db.rows.map AppliedMigration.key, e ∈ ms.map Migration.key) ∧
          ∀ m ∈ pendingOf ms db.rows, ∀ e ∈ db.rows.map AppliedMigration.key, e.version < m.version) ↔
        ∃ done, ms = done ++ pendingOf ms db.rows ∧
          done.map Migration.key = db.rows.map AppliedMigration.key) := by
    intro ms hms
    rw [pendingOf_eq]
    exact Ledger.split_iff h.ascending (packaged_discover (Set.subset_univ _) hms).ordered
  constructor
  · intro hplan
    obtain ⟨⟨ms, hms, hall, rfl, -⟩, hhigh⟩ := hplan
    have habove : ∀ m ∈ pendingOf ms db.rows, ∀ e ∈ db.rows.map AppliedMigration.key,
        e.version < m.version := by
      intro m hm e he
      obtain ⟨r, hr, rfl⟩ := List.mem_map.mp he
      have hle := (highestVersion_le_iff h.pairwise_version).mp (Nat.le_of_not_lt (hhigh m hm)) r hr
      -- what is pending has not the version of a row
      have hne : m.version ∉ db.rows.map AppliedMigration.version := by
        simpa [pendingOf] using (List.mem_filter.mp hm).2
      apply lt_of_le_of_ne hle
      intro heq
      exact hne (heq ▸ List.mem_map_of_mem hr)
    obtain ⟨done, hdone, hkeys⟩ := (hsplit ms hms).mp ⟨hall, habove⟩
    exact ⟨done, hdone ▸ hms, hkeys⟩
  · intro hdone
    obtain ⟨done, hms, hkeys⟩ := hdone
    have hpackaged := packaged_discover (Set.subset_univ _) hms
    have hrows : db.rows.map AppliedMigration.version = done.map Migration.version := by
      rw [← versions_keys, hkeys, List.map_map]
      rfl
    have hnew : ∀ m ∈ pending, ∀ d ∈ done, d.version < m.version := fun m hm d hd =>
      (List.pairwise_append.mp hpackaged.ordered).2.2 d hd m hm
    have hpending : pendingOf (done ++ pending) db.rows = pending := by
      unfold pendingOf
      rw [hrows, List.filter_append, List.filter_eq_nil_iff.mpr, List.nil_append,
        List.filter_eq_self.mpr]
      · intro m hm
        simp only [List.mem_map, not_exists, not_and, decide_eq_true_eq]
        exact fun d hd => (hnew m hm d hd).ne
      · intro d hd
        simpa using ⟨d, hd, rfl⟩
    refine ⟨⟨_, hms, ?_, hpending, rfl⟩, ?_⟩
    · intro e he
      rw [← hkeys] at he
      rw [List.map_append]
      exact List.mem_append_left _ he
    · intro m hm
      apply Nat.not_lt.mpr
      apply (highestVersion_le_iff h.pairwise_version).mpr
      intro r hr
      have hv : r.version ∈ done.map Migration.version := by
        rw [← hrows]
        exact List.mem_map_of_mem hr
      obtain ⟨d, hd, hdv⟩ := List.mem_map.mp hv
      rw [← hdv]
      exact (hnew m hm d hd).le

theorem run_applyWithin (lives : List Migration → Nat) :
    (runner.applyWithin sha256 exec lives).run db =
      match runner.planMigrations sha256 db with
      | .error fault => (.error fault, db.ensureMigrationTable)
      | .ok plan =>
        match (runner.applyPending exec plan.2 (plan.1.take (lives plan.1))).run
            db.ensureMigrationTable with
        | (.ok _, db') => (.ok plan.1, db')
        | (.error fault, db') => (.error fault, db') := by
  unfold MigrationRunner.applyWithin
  rw [Proc.run_bind, Proc.run_atomically]
  show (Proc.query (runner.planMigrations sha256) >>= fun _ => _).run db.ensureMigrationTable = _
  rw [Proc.run_bind, Proc.run_query]
  have hplan : runner.planMigrations sha256 db.ensureMigrationTable =
      runner.planMigrations sha256 db := rfl
  rw [hplan]
  cases runner.planMigrations sha256 db with
  | error fault => rfl
  | ok plan =>
    show (runner.applyPending exec plan.2 (plan.1.take (lives plan.1)) >>= fun _ =>
      pure plan.1).run db.ensureMigrationTable = _
    rw [Proc.run_bind]
    dsimp only
    rcases (runner.applyPending exec plan.2 (plan.1.take (lives plan.1))).run
      db.ensureMigrationTable with ⟨_ | _, db'⟩
    · rfl
    · rfl

theorem applyWithin_state (lives : List Migration → Nat)
    (hplan : runner.planMigrations sha256 db = .ok (pending, highest)) :
    ((runner.applyWithin sha256 exec lives).run db).2 =
      ((runner.applyPending exec highest (pending.take (lives pending))).run
        db.ensureMigrationTable).2 := by
  rw [run_applyWithin, hplan]
  dsimp only
  rcases (runner.applyPending exec highest (pending.take (lives pending))).run
    db.ensureMigrationTable with ⟨_ | _, db'⟩
  · rfl
  · rfl

theorem applyWithin_ok_iff (lives : List Migration → Nat) :
    ((runner.applyWithin sha256 exec lives).run db).1 = .ok pending ↔
      ∃ highest, runner.planMigrations sha256 db = .ok (pending, highest) ∧
        ((runner.applyPending exec highest (pending.take (lives pending))).run
          db.ensureMigrationTable).1 = .ok () := by
  rw [run_applyWithin]
  cases runner.planMigrations sha256 db with
  | error fault => simp
  | ok plan =>
    dsimp only
    constructor
    · intro hok
      rcases hrun : (runner.applyPending exec plan.2 (plan.1.take (lives plan.1))).run
        db.ensureMigrationTable with ⟨_ | _, db'⟩
      · rw [hrun] at hok
        cases hok
      · rw [hrun] at hok
        cases hok
        exact ⟨plan.2, rfl, by rw [hrun]⟩
    · intro hok
      obtain ⟨highest, hplan, hok⟩ := hok
      cases hplan
      rcases hrun : (runner.applyPending exec highest (pending.take (lives pending))).run
        db.ensureMigrationTable with ⟨_ | _, db'⟩
      · rw [hrun] at hok
        cases hok
      · rfl

/-! ## One call -/

variable {done : List Migration}

/-- A call whose package continues the ledger continues the history by migrations of the package. -/
theorem Installed.continues (h : Installed sha256 exec contents origin history db)
    (hdir : contentsOf runner.directory ⊆ contents)
    (hms : discover sha256 runner.directory = .ok (done ++ pending))
    (hkeys : done.map Migration.key = db.rows.map AppliedMigration.key)
    (lives : List Migration → Nat) :
    ∃ now rest, pending = now ++ rest ∧
      Installed sha256 exec contents origin (history ++ now)
        ((runner.applyWithin sha256 exec lives).run db).2 ∧
      ((runner.applyWithin sha256 exec lives).run db).2.rows =
        db.rows ++ now.map runner.ledgerRow := by
  obtain ⟨hplan, hhigh⟩ := (plan_iff h).mpr ⟨done, hms, hkeys⟩
  have hp : Packaged sha256 contents (history ++ pending) :=
    (packaged_discover hdir hms).replace h.packaged (hkeys.trans h.recorded)
  have hsplit : pending = pending.take (lives pending) ++ pending.drop (lives pending) :=
    (List.take_append_drop _ _).symm
  have htake : Packaged sha256 contents (history ++ pending.take (lives pending)) := by
    rw [hsplit, ← List.append_assoc] at hp
    exact hp.left
  have hensured : Installed sha256 exec contents origin history db.ensureMigrationTable :=
    h.congr rfl rfl
  rw [applyWithin_state lives hplan]
  obtain ⟨now, rest, hnow, hinstalled, hrows, -⟩ := hensured.applyPending runner
    (highestVersion db.rows) htake fun m hm => hhigh m (List.mem_of_mem_take hm)
  refine ⟨now, rest ++ pending.drop (lives pending), ?_, hinstalled, hrows⟩
  rw [← List.append_assoc, ← hnow, ← hsplit]

/-- Whatever a call comes to, it continues the history. -/
theorem Installed.applyWithin (h : Installed sha256 exec contents origin history db)
    (hdir : contentsOf runner.directory ⊆ contents) (lives : List Migration → Nat) :
    ∃ now, Installed sha256 exec contents origin (history ++ now)
        ((runner.applyWithin sha256 exec lives).run db).2 ∧
      ((runner.applyWithin sha256 exec lives).run db).2.rows =
        db.rows ++ now.map runner.ledgerRow := by
  have hkept : Installed sha256 exec contents origin (history ++ []) db.ensureMigrationTable := by
    rw [List.append_nil]
    exact h.congr rfl rfl
  cases hplan : runner.planMigrations sha256 db with
  | error fault =>
    rw [run_applyWithin, hplan]
    exact ⟨[], hkept, (List.append_nil _).symm⟩
  | ok plan =>
    obtain ⟨pending, highest⟩ := plan
    obtain ⟨ms, hms, hall, rfl, rfl⟩ := (planMigrations_ok h).mp hplan
    by_cases hbehind : ∃ m ∈ pendingOf ms db.rows, m.version < highestVersion db.rows
    · -- nothing is applied
      have hasc : Ledger.Ascending Migration.version (pendingOf ms db.rows) :=
        (packaged_discover hdir hms).ordered.sublist List.filter_sublist
      rw [applyWithin_state lives hplan, (run_applyPending_behind hasc hbehind).1]
      exact ⟨[], hkept, (List.append_nil _).symm⟩
    · have hhigh : ∀ m ∈ pendingOf ms db.rows, ¬m.version < highestVersion db.rows :=
        fun m hm hlt => hbehind ⟨m, hm, hlt⟩
      obtain ⟨done, hdone, hkeys⟩ := (plan_iff h).mp ⟨hplan, hhigh⟩
      obtain ⟨now, _, _, hnow⟩ := h.continues hdir hdone hkeys lives
      exact ⟨now, hnow⟩

/-- What a call that goes through has planned. -/
theorem Installed.apply_plan (h : Installed sha256 exec contents origin history db)
    (hok : ((runner.apply sha256 exec).run db).1 = .ok pending) :
    runner.planMigrations sha256 db = .ok (pending, highestVersion db.rows) ∧
      (∀ m ∈ pending, ¬m.version < highestVersion db.rows) ∧
      ((runner.applyPending exec (highestVersion db.rows) pending).run
        db.ensureMigrationTable).1 = .ok () := by
  unfold MigrationRunner.apply at hok
  rw [applyWithin_ok_iff, List.take_length] at hok
  obtain ⟨highest, hplan, hok⟩ := hok
  obtain ⟨ms, hms, -, hpending, rfl⟩ := (planMigrations_ok h).mp hplan
  refine ⟨hplan, ?_, hok⟩
  intro m hm hlt
  have hasc : Ledger.Ascending Migration.version pending :=
    hpending ▸ (packaged_discover (Set.subset_univ _) hms).ordered.sublist List.filter_sublist
  rw [← List.take_length (l := pending)] at hok
  exact (run_applyPending_behind hasc ⟨m, hm, hlt⟩).2 rfl hok

/-- When a call goes through. -/
theorem Installed.apply_iff (hsha : ∀ content, (sha256 content).length = 64)
    (h : Installed sha256 exec contents origin history db)
    (hdir : contentsOf runner.directory ⊆ contents) :
    ((runner.apply sha256 exec).run db).1 = .ok pending ↔
      ∃ done, discover sha256 runner.directory = .ok (done ++ pending) ∧
        done.map Migration.key = db.rows.map AppliedMigration.key ∧
        (∀ m ∈ pending, m.version < 2 ^ 63) ∧ ∃ s, builds exec db.schema pending = some s := by
  have hensured : Installed sha256 exec contents origin history db.ensureMigrationTable :=
    h.congr rfl rfl
  have hloop : ∀ done, discover sha256 runner.directory = .ok (done ++ pending) →
      done.map Migration.key = db.rows.map AppliedMigration.key →
      (∀ m ∈ pending, ¬m.version < highestVersion db.rows) →
      (((runner.applyPending exec (highestVersion db.rows) pending).run
          db.ensureMigrationTable).1 = .ok () ↔
        (∀ m ∈ pending, m.version < 2 ^ 63) ∧ ∃ s, builds exec db.schema pending = some s) :=
    fun done hms hkeys hhigh => hensured.applyPending_iff hsha
      ((packaged_discover hdir hms).replace h.packaged (hkeys.trans h.recorded)) hhigh
  constructor
  · intro hok
    obtain ⟨hplan, hhigh, hok⟩ := h.apply_plan hok
    obtain ⟨done, hdone, hkeys⟩ := (plan_iff h).mp ⟨hplan, hhigh⟩
    exact ⟨done, hdone, hkeys, (hloop done hdone hkeys hhigh).mp hok⟩
  · intro hok
    obtain ⟨done, hdone, hkeys, hok⟩ := hok
    obtain ⟨hplan, hhigh⟩ := (plan_iff h).mpr ⟨done, hdone, hkeys⟩
    unfold MigrationRunner.apply
    rw [applyWithin_ok_iff, List.take_length]
    exact ⟨highestVersion db.rows, hplan, (hloop done hdone hkeys hhigh).mpr hok⟩

/-- A call that goes through has applied all that was pending. -/
theorem Installed.apply_ok (h : Installed sha256 exec contents origin history db)
    (hdir : contentsOf runner.directory ⊆ contents)
    (hok : (runner.apply sha256 exec).run db = (.ok pending, db')) :
    Installed sha256 exec contents origin (history ++ pending) db' := by
  obtain ⟨hplan, hhigh, hloop⟩ := h.apply_plan (congrArg Prod.fst hok)
  obtain ⟨done, hdone, hkeys⟩ := (plan_iff h).mp ⟨hplan, hhigh⟩
  have hensured : Installed sha256 exec contents origin history db.ensureMigrationTable :=
    h.congr rfl rfl
  obtain ⟨now, rest, hnow, hinstalled, -, hrest⟩ := hensured.applyPending runner
    (highestVersion db.rows)
    ((packaged_discover hdir hdone).replace h.packaged (hkeys.trans h.recorded)) hhigh
  have hstate : ((runner.applyWithin sha256 exec List.length).run db).2 = db' := congrArg Prod.snd hok
  rw [applyWithin_state List.length hplan, List.take_length] at hstate
  rw [hrest hloop, List.append_nil] at hnow
  rw [hnow, ← hstate, hnow]
  exact hnow ▸ hinstalled

/-! ## Runs -/

/-- A call of `apply`, and how many migrations the process lives to apply. -/
structure MigrationCall where
  runner : MigrationRunner
  lives : List Migration → Nat

/-- What a call leaves behind. -/
def migrateStep (sha256 : Bytes → String) (exec : List Char → σ → Option σ) (db : Database σ)
    (call : MigrationCall) : Option (Database σ) :=
  some ((call.runner.applyWithin sha256 exec call.lives).run db).2

/-- The files of the package have contents of a set. -/
def Ships (contents : Set Bytes) (_ : Database σ) (call : MigrationCall) : Prop :=
  contentsOf call.runner.directory ⊆ contents

/-- Calls add to the history. -/
theorem installed_of_run {start : Database σ}
    (h : Installed sha256 exec contents origin history start)
    (hrun : Reached (migrateStep sha256 exec) (Ships contents) start db) :
    ∃ later, Installed sha256 exec contents origin (history ++ later) db ∧ start.rows <+: db.rows := by
  induction hrun with
  | start =>
    refine ⟨[], ?_, List.prefix_refl _⟩
    rw [List.append_nil]
    exact h
  | next before permitted taken ih =>
    obtain ⟨later, hinstalled, hrows⟩ := ih
    obtain ⟨now, hnow, hadded⟩ := hinstalled.applyWithin permitted _
    cases taken
    refine ⟨later ++ now, ?_, ?_⟩
    · rw [← List.append_assoc]
      exact hnow
    · rw [hadded]
      exact hrows.trans (List.prefix_append _ _)

namespace Sample

/-- A script creates what is not there yet. -/
def createOnce (script : List Char) (schema : List (List Char)) : Option (List (List Char)) :=
  if schema.contains script then none else some (schema ++ [script])

def jobScript : List Char := "CREATE TABLE job(id);".toList

def runScript : List Char := "CREATE TABLE run(id);".toList

/-- The digests of the two scripts, which are the only ones that are asked for. -/
def scriptDigest (content : Bytes) : String :=
  if content = utf8Encode jobScript then
    "470059d1862ab7769216374ebe497ce2bd7ec19e1598c87a4b14f98987b85beb"
  else if content = utf8Encode runScript then
    "78d397145cca70422a9adec4cd518cfa0f207b251d8b889e04ff26bf5f0111fd"
  else String.ofList (List.replicate 64 '0')

def scripts : Set Bytes := {utf8Encode jobScript, utf8Encode runScript}

def oldPackage : MigrationRunner where
  directory := [⟨"0001_job.sql", utf8Encode jobScript⟩]
  appVersion := "0.1.0"
  clock := fun _ => "2026-01-01T00:00:00.000000Z"

def newPackage : MigrationRunner where
  directory := [⟨"0002_run.sql", utf8Encode runScript⟩, ⟨"0001_job.sql", utf8Encode jobScript⟩]
  appVersion := "0.2.0"
  clock := fun _ => "2026-02-01T00:00:00.000000Z"

def oldDatabase : Database (List (List Char)) :=
  ((oldPackage.apply scriptDigest createOnce).run ⟨[], none⟩).2

def newDatabase : Database (List (List Char)) :=
  ((newPackage.apply scriptDigest createOnce).run oldDatabase).2

theorem ships_newPackage : contentsOf newPackage.directory ⊆ scripts := by
  intro content h
  obtain ⟨file, hfile, rfl⟩ := h
  rcases List.mem_cons.mp hfile with rfl | hfile
  · exact Or.inr rfl
  · rw [List.mem_singleton.mp hfile]
    exact Or.inl rfl

theorem reached_oldDatabase :
    Reached (migrateStep scriptDigest createOnce) (Ships scripts) ⟨[], none⟩ oldDatabase := by
  have hships : Ships scripts (⟨[], none⟩ : Database (List (List Char))) ⟨oldPackage, List.length⟩ := by
    intro content h
    obtain ⟨file, hfile, rfl⟩ := h
    rw [List.mem_singleton.mp hfile]
    exact Or.inl rfl
  exact Reached.start.next hships rfl

end Sample

/-- Whatever calls are made, with whatever packages, and wherever they fail or die: the ledger only
grows, its versions ascend, no name is used twice, and the schema is what the scripts behind its rows
built. -/
theorem ledger_of_run {start : Database σ}
    (hstart : Reached (migrateStep sha256 exec) (Ships contents) ⟨origin, none⟩ start)
    (hrun : Reached (migrateStep sha256 exec) (Ships contents) start db) :
    start.rows <+: db.rows ∧ ∃ history later, Installed sha256 exec contents origin history start ∧
      Installed sha256 exec contents origin (history ++ later) db := by
  obtain ⟨history, hinstalled, -⟩ := installed_of_run installed_new hstart
  obtain ⟨later, hlater, hrows⟩ := installed_of_run hinstalled hrun
  exact ⟨hrows, _, later, hinstalled, hlater⟩

theorem Sample.reached_newDatabase : Reached (migrateStep Sample.scriptDigest Sample.createOnce)
    (Ships Sample.scripts) Sample.oldDatabase Sample.newDatabase := by
  have hships : Ships Sample.scripts Sample.oldDatabase ⟨Sample.newPackage, List.length⟩ :=
    Sample.ships_newPackage
  exact Reached.start.next hships rfl

theorem Sample.ledger_newDatabase :
    Sample.oldDatabase.rows <+: Sample.newDatabase.rows ∧ ∃ history later,
      Installed Sample.scriptDigest Sample.createOnce Sample.scripts [] history Sample.oldDatabase ∧
        Installed Sample.scriptDigest Sample.createOnce Sample.scripts [] (history ++ later)
          Sample.newDatabase :=
  ledger_of_run Sample.reached_oldDatabase Sample.reached_newDatabase

theorem installed_of_anything (hrun : Reached (migrateStep sha256 exec) Anything ⟨origin, none⟩ db) :
    ∃ history, Installed sha256 exec Set.univ origin history db := by
  have hships : Reached (migrateStep sha256 exec) (Ships Set.univ) ⟨origin, none⟩ db :=
    hrun.mono fun _ _ _ => Set.subset_univ _
  obtain ⟨later, hinstalled, -⟩ := installed_of_run installed_new hships
  exact ⟨_, hinstalled⟩

/-- `apply` goes through, with what it returns, if and only if the package continues the ledger, by
migrations whose versions fit and whose scripts run. -/
theorem apply_ok_iff (hsha : ∀ content, (sha256 content).length = 64)
    (hrun : Reached (migrateStep sha256 exec) Anything ⟨origin, none⟩ db) :
    ((runner.apply sha256 exec).run db).1 = .ok pending ↔
      ∃ done, discover sha256 runner.directory = .ok (done ++ pending) ∧
        done.map Migration.key = db.rows.map AppliedMigration.key ∧
        (∀ m ∈ pending, m.version < 2 ^ 63) ∧ ∃ s, builds exec db.schema pending = some s := by
  obtain ⟨history, h⟩ := installed_of_anything hrun
  exact h.apply_iff hsha (Set.subset_univ _)

namespace Sample

theorem length_scriptDigest (content : Bytes) : (scriptDigest content).length = 64 := by
  unfold scriptDigest
  split
  · decide
  · split
    · decide
    · rw [String.length_ofList, List.length_replicate]

def runMigration : Migration := ⟨2, "run", runScript, scriptDigest (utf8Encode runScript)⟩

theorem apply_oldDatabase :
    ((newPackage.apply scriptDigest createOnce).run oldDatabase).1 = .ok [runMigration] := by
  apply (apply_ok_iff length_scriptDigest reached_oldDatabase.anything).mpr
  refine ⟨[⟨1, "job", jobScript, scriptDigest (utf8Encode jobScript)⟩], rfl, by decide +kernel, ?_,
    [jobScript, runScript], by decide +kernel⟩
  intro m hm
  rw [List.mem_singleton.mp hm]
  decide

end Sample

/-- A database that a package has brought up to date is the one that the package builds from nothing. -/
theorem apply_eq_fresh (hsha : ∀ content, (sha256 content).length = 64)
    (hinj : Set.InjOn sha256 contents)
    (hrun : Reached (migrateStep sha256 exec) (Ships contents) ⟨origin, none⟩ db)
    (hdir : contentsOf runner.directory ⊆ contents)
    (hok : (runner.apply sha256 exec).run db = (.ok pending, db'))
    {fresh : MigrationRunner} (hsame : fresh.directory = runner.directory) :
    ∃ all built, (fresh.apply sha256 exec).run ⟨origin, none⟩ = (.ok all, built) ∧
      built.schema = db'.schema ∧
      built.rows.map AppliedMigration.key = db'.rows.map AppliedMigration.key := by
  obtain ⟨history, h, -⟩ := installed_of_run installed_new hrun
  rw [List.nil_append] at h
  obtain ⟨done, hdone, hkeys, -, -⟩ := (h.apply_iff hsha hdir).mp (congrArg Prod.fst hok)
  have hpackaged := packaged_discover hdir hdone
  -- what the package has for the ledger is what was applied
  have hhistory : done = history := eq_of_keys hinj hpackaged.left.genuine h.packaged.genuine
    (hkeys.trans h.recorded)
  rw [hhistory, ← hsame] at hdone
  have h' := h.apply_ok hdir hok
  have hnew : Installed sha256 exec contents origin [] ⟨origin, none⟩ := installed_new
  have hfresh : ((fresh.apply sha256 exec).run ⟨origin, none⟩).1 = .ok (history ++ pending) :=
    (hnew.apply_iff hsha (hsame ▸ hdir)).mpr ⟨[], hdone, rfl, h'.storable, db'.schema, h'.built⟩
  have hbuilt := hnew.apply_ok (hsame ▸ hdir) (Prod.ext hfresh rfl)
  refine ⟨_, _, Prod.ext hfresh rfl, ?_, ?_⟩
  · exact Option.some.inj (hbuilt.built.symm.trans h'.built)
  · rw [hbuilt.recorded, h'.recorded]
    rfl

namespace Sample

theorem injOn_scriptDigest : Set.InjOn scriptDigest scripts := by
  have hne : scriptDigest (utf8Encode jobScript) ≠ scriptDigest (utf8Encode runScript) := by
    decide +kernel
  intro content h content' h' heq
  rcases h with rfl | rfl <;> rcases h' with rfl | rfl
  · rfl
  · exact absurd heq hne
  · exact absurd heq.symm hne
  · rfl

theorem upgrade_oldDatabase : (newPackage.apply scriptDigest createOnce).run oldDatabase =
    (.ok [runMigration], ((newPackage.apply scriptDigest createOnce).run oldDatabase).2) := by
  apply Prod.ext
  · rfl
  · rfl

theorem fresh_oldDatabase : ∃ all built,
    (newPackage.apply scriptDigest createOnce).run ⟨[], none⟩ = (.ok all, built) ∧
      built.schema = ((newPackage.apply scriptDigest createOnce).run oldDatabase).2.schema ∧
      built.rows.map AppliedMigration.key =
        ((newPackage.apply scriptDigest createOnce).run oldDatabase).2.rows.map AppliedMigration.key :=
  apply_eq_fresh length_scriptDigest injOn_scriptDigest reached_oldDatabase ships_newPackage
    upgrade_oldDatabase rfl

end Sample

/-- However often an upgrade that would go through is broken off, the next call of the package that is
not broken off leads to the same database. -/
theorem apply_resumed (hsha : ∀ content, (sha256 content).length = 64)
    (hrun : Reached (migrateStep sha256 exec) Anything ⟨origin, none⟩ db)
    (hok : (runner.apply sha256 exec).run db = (.ok pending, db')) {broken : Database σ}
    (hbroken : Reached (migrateStep sha256 exec)
      (fun _ call => call.runner.directory = runner.directory) db broken)
    {again : MigrationRunner} (hsame : again.directory = runner.directory) :
    ∃ rest finished, (again.apply sha256 exec).run broken = (.ok rest, finished) ∧
      finished.schema = db'.schema ∧
      finished.rows.map AppliedMigration.key = db'.rows.map AppliedMigration.key := by
  obtain ⟨history, h⟩ := installed_of_anything hrun
  obtain ⟨done, hdone, hkeys, hversions, s, hs⟩ :=
    (h.apply_iff hsha (Set.subset_univ _)).mp (congrArg Prod.fst hok)
  have h' := h.apply_ok (Set.subset_univ _) hok
  have hpart : ∃ now rest, pending = now ++ rest ∧
      Installed sha256 exec Set.univ origin (history ++ now) broken := by
    apply hbroken.invariant (I := fun t => ∃ now rest, pending = now ++ rest ∧
      Installed sha256 exec Set.univ origin (history ++ now) t)
    · exact ⟨[], pending, rfl, by rw [List.append_nil]; exact h⟩
    · intro t call u hpart hcall htaken
      obtain ⟨now, rest, rfl, ht⟩ := hpart
      cases htaken
      have hms : discover sha256 call.runner.directory = .ok (done ++ now ++ rest) := by
        rw [hcall, hdone, List.append_assoc]
      have hnow : (done ++ now).map Migration.key = t.rows.map AppliedMigration.key := by
        rw [ht.recorded, List.map_append, List.map_append, hkeys, h.recorded]
      obtain ⟨more, rest', rfl, hmore, -⟩ := ht.continues (Set.subset_univ _) hms hnow call.lives
      refine ⟨now ++ more, rest', by rw [List.append_assoc], ?_⟩
      rw [← List.append_assoc]
      exact hmore
  obtain ⟨now, rest, rfl, hb⟩ := hpart
  have hagain : ((again.apply sha256 exec).run broken).1 = .ok rest := by
    apply (hb.apply_iff hsha (Set.subset_univ _)).mpr
    refine ⟨done ++ now, ?_, ?_, fun m hm => hversions m (List.mem_append_right _ hm), s, ?_⟩
    · rw [hsame, hdone, List.append_assoc]
    · rw [hb.recorded, List.map_append, List.map_append, hkeys, h.recorded]
    · -- the scripts up to here are those that the schema was built by
      have hnow : builds exec db.schema now = some broken.schema := by
        have hbuilt := hb.built
        unfold builds at hbuilt ⊢
        rw [Ledger.replayed_append] at hbuilt
        have hhistory : Ledger.replayed (fun m : Migration => exec m.sql) origin history =
            some db.schema := h.built
        rw [hhistory] at hbuilt
        exact hbuilt
      unfold builds at hs hnow ⊢
      rw [Ledger.replayed_append, hnow] at hs
      exact hs
  have hfinished := hb.apply_ok (Set.subset_univ _) (Prod.ext hagain rfl)
  refine ⟨rest, _, Prod.ext hagain rfl, ?_, ?_⟩
  · have hbuilt := hfinished.built
    rw [List.append_assoc, h'.built] at hbuilt
    exact (Option.some.inj hbuilt).symm
  · rw [hfinished.recorded, h'.recorded, List.append_assoc]

namespace Sample

def brokenDatabase : Database (List (List Char)) :=
  ((newPackage.applyWithin scriptDigest createOnce fun _ => 0).run oldDatabase).2

theorem resumed_oldDatabase : ∃ rest finished,
    (newPackage.apply scriptDigest createOnce).run brokenDatabase = (.ok rest, finished) ∧
      finished.schema = ((newPackage.apply scriptDigest createOnce).run oldDatabase).2.schema ∧
      finished.rows.map AppliedMigration.key =
        ((newPackage.apply scriptDigest createOnce).run oldDatabase).2.rows.map
          AppliedMigration.key := by
  have hbroken : Reached (migrateStep scriptDigest createOnce)
      (fun _ call => call.runner.directory = newPackage.directory) oldDatabase brokenDatabase := by
    apply Reached.start.next (a := ⟨newPackage, fun _ => 0⟩)
    · rfl
    · rfl
  exact apply_resumed length_scriptDigest reached_oldDatabase.anything upgrade_oldDatabase hbroken
    rfl

end Sample

end

end NanFung
