import NanFung.Backups

/-!
# What a backup set holds

The tree of a set is given by a database, a manifest and objects (`setTree`). A store whose objects are
all there is backed up by the tree of a copy of its database and of those objects (`create_intact`), and
a set that verifies is restored to the tree of its own (`restore_verified`), so that backing up and
restoring loses nothing. Both hold up to the point where something goes wrong from outside.
-/

namespace NanFung

open Base64 PyText

namespace BackupHost

variable {H : BackupHost} {database manifest : Option Bytes} {objects : List (String × Bytes)}
  {p q : FsPath} {digest : String} {bytes : Bytes}

/-! ## The tree of a set -/

/-- A set of a database, a manifest and objects by their digests, and nothing else. -/
def setTree (database manifest : Option Bytes) (objects : List (String × Bytes)) : Fs := fun q =>
  if q = [] then some .directory
  else if q = databasePath then database.map .file
  else if q = manifestPath then manifest.map .file
  else if q = ["evidence"] ∨ q = ["evidence", "sha256"] then
    if objects = [] then none else some .directory
  else match objects.find? fun object => objectPath object.1 = q with
    | some object => some (.file object.2)
    | none => if ∃ object ∈ objects, objectDirectory object.1 = q then some .directory else none

theorem objectPath_injective : Function.Injective objectPath := by
  intro a b h
  have hlast := congrArg List.getLast? h
  simpa [objectPath] using hlast

@[simp] theorem length_objectPath (digest : String) : (objectPath digest).length = 4 := rfl

@[simp] theorem length_objectDirectory (digest : String) : (objectDirectory digest).length = 3 := rfl

@[simp] theorem setTree_root : setTree database manifest objects [] = some .directory := rfl

@[simp] theorem setTree_database :
    setTree database manifest objects databasePath = database.map .file := by
  simp [setTree, databasePath]

@[simp] theorem setTree_manifest :
    setTree database manifest objects manifestPath = manifest.map .file := by
  simp [setTree, databasePath, manifestPath]

theorem setTree_evidence (h : objects ≠ []) :
    setTree database manifest objects ["evidence"] = some .directory ∧
      setTree database manifest objects ["evidence", "sha256"] = some .directory := by
  simp [setTree, databasePath, manifestPath, h]

/-- Below the root there are objects and their directories. -/
theorem setTree_of_length (h : 3 ≤ q.length) : setTree database manifest objects q =
    match objects.find? fun object => objectPath object.1 = q with
    | some object => some (.file object.2)
    | none => if ∃ object ∈ objects, objectDirectory object.1 = q then some .directory else none := by
  have hshort : ∀ r : FsPath, r.length < 3 → q ≠ r := fun r hr heq => by
    rw [heq] at h
    omega
  unfold setTree
  rw [if_neg (hshort [] (by decide)), if_neg (hshort databasePath (by decide)),
    if_neg (hshort manifestPath (by decide)),
    if_neg (not_or.mpr ⟨hshort ["evidence"] (by decide), hshort ["evidence", "sha256"] (by decide)⟩)]

theorem find?_object (hnodup : (objects.map Prod.fst).Nodup) (h : (digest, bytes) ∈ objects) :
    objects.find? (fun object => objectPath object.1 = objectPath digest) = some (digest, bytes) := by
  induction objects with
  | nil => cases h
  | cons object objects ih =>
    rw [List.map_cons, List.nodup_cons] at hnodup
    rcases List.mem_cons.mp h with rfl | h
    · simp
    · have hne : objectPath object.1 ≠ objectPath digest := by
        intro heq
        rw [objectPath_injective heq] at hnodup
        exact hnodup.1 (List.mem_map_of_mem h)
      rw [List.find?_cons_of_neg (by simpa using hne)]
      exact ih hnodup.2 h

theorem setTree_object (hnodup : (objects.map Prod.fst).Nodup) (h : (digest, bytes) ∈ objects) :
    setTree database manifest objects (objectPath digest) = some (.file bytes) := by
  rw [setTree_of_length (by simp), find?_object hnodup h]

theorem find?_directory : objects.find? (fun object => objectPath object.1 = objectDirectory digest) =
    none := by
  apply List.find?_eq_none.mpr
  intro object _ heq
  have hlength := congrArg List.length (of_decide_eq_true heq)
  simp at hlength

theorem setTree_objectDirectory (h : (digest, bytes) ∈ objects) :
    setTree database manifest objects (objectDirectory digest) = some .directory := by
  rw [setTree_of_length (by simp), find?_directory]
  exact if_pos ⟨_, h, rfl⟩

theorem find?_absent (h : digest ∉ objects.map Prod.fst) :
    objects.find? (fun object => objectPath object.1 = objectPath digest) = none := by
  apply List.find?_eq_none.mpr
  intro object hobject heq
  rw [← objectPath_injective (of_decide_eq_true heq)] at h
  exact h (List.mem_map_of_mem hobject)

theorem setTree_absent (h : digest ∉ objects.map Prod.fst) :
    setTree database manifest objects (objectPath digest) = none := by
  rw [setTree_of_length (by simp), find?_absent h]
  apply if_neg
  intro hdirectory
  obtain ⟨object, -, heq⟩ := hdirectory
  have hlength := congrArg List.length heq
  simp at hlength

/-- The directories above an object. -/
theorem prefix_objectDirectory (h : q <+: objectDirectory digest) :
    q = [] ∨ q = ["evidence"] ∨ q = ["evidence", "sha256"] ∨ q = objectDirectory digest := by
  have hle : q.length ≤ 3 := h.length_le
  rw [List.prefix_iff_eq_take] at h
  rcases hlength : q.length with _ | _ | _ | _ | n
  · exact Or.inl (List.length_eq_zero_iff.mp hlength)
  · rw [hlength] at h
    exact Or.inr (Or.inl h)
  · rw [hlength] at h
    exact Or.inr (Or.inr (Or.inl h))
  · rw [hlength] at h
    exact Or.inr (Or.inr (Or.inr h))
  · omega

/-- What is on the way to an object is a directory, if it is there. -/
theorem setTree_above (h : q <+: objectDirectory digest) : setTree database manifest objects q = none ∨
    setTree database manifest objects q = some .directory := by
  rcases prefix_objectDirectory h with rfl | rfl | rfl | rfl
  · exact Or.inr rfl
  · by_cases hempty : objects = []
    · simp [setTree, databasePath, manifestPath, hempty]
    · exact Or.inr (setTree_evidence hempty).1
  · by_cases hempty : objects = []
    · simp [setTree, databasePath, manifestPath, hempty]
    · exact Or.inr (setTree_evidence hempty).2
  · rw [setTree_of_length (by simp), find?_directory]
    dsimp only
    split
    · exact Or.inr rfl
    · exact Or.inl rfl

theorem setTree_onWay {object : String × Bytes} (h : object ∈ objects)
    (hq : q <+: objectDirectory object.1) :
    setTree database manifest objects q = some .directory := by
  rcases prefix_objectDirectory hq with rfl | rfl | rfl | rfl
  · rfl
  · exact (setTree_evidence (List.ne_nil_of_mem h)).1
  · exact (setTree_evidence (List.ne_nil_of_mem h)).2
  · exact setTree_objectDirectory h

/-- What a set consists of. -/
theorem setTree_ne_none (h : setTree database manifest objects q ≠ none) : q.length ≤ 1 ∨
    ∃ object ∈ objects, q <+: objectPath object.1 := by
  by_cases hshort : q.length ≤ 1
  · exact Or.inl hshort
  right
  by_cases hlong : 3 ≤ q.length
  · rw [setTree_of_length hlong] at h
    split at h
    · next object hfind =>
      have hpath : objectPath object.1 = q := by simpa using List.find?_some hfind
      exact ⟨object, List.mem_of_find?_eq_some hfind, hpath ▸ List.prefix_refl _⟩
    · split at h
      · next hdirectory =>
        obtain ⟨object, hobject, rfl⟩ := hdirectory
        exact ⟨object, hobject, List.prefix_append _ _⟩
      · exact absurd rfl h
  · have hsha : q = ["evidence", "sha256"] ∧ objects ≠ [] := by
      have hne : ∀ r : FsPath, r.length ≤ 1 ∨ 3 ≤ r.length → q ≠ r := fun r hr heq => by
        rw [heq] at hshort hlong
        omega
      have hfind : objects.find? (fun object => decide (objectPath object.1 = q)) = none :=
        List.find?_eq_none.mpr fun object _ heq =>
          hne _ (Or.inr (by simp)) (of_decide_eq_true heq).symm
      have hdirectory : ¬∃ object ∈ objects, objectDirectory object.1 = q := by
        intro hexists
        obtain ⟨object, -, heq⟩ := hexists
        exact hne _ (Or.inr (by simp)) heq.symm
      simp only [setTree, hne [] (by simp), hne databasePath (by simp [databasePath]),
        hne manifestPath (by simp [manifestPath]), hne ["evidence"] (by simp), hfind, hdirectory,
        if_false, false_or] at h
      grind
    obtain ⟨rfl, hne⟩ := hsha
    obtain ⟨object, rest, rfl⟩ := List.exists_cons_of_ne_nil hne
    exact ⟨object, List.mem_cons_self, ⟨_, rfl⟩⟩

theorem closed_setTree : (setTree database manifest objects).Closed := by
  intro p q hpq hne hq
  have hlt : p.length < q.length :=
    lt_of_le_of_ne hpq.length_le fun heq => hne (hpq.eq_of_length heq)
  rcases setTree_ne_none hq with hshort | ⟨object, hobject, hbelow⟩
  · rw [List.length_eq_zero_iff.mp (show p.length = 0 by omega)]
    rfl
  · apply setTree_onWay hobject
    apply List.prefix_of_prefix_length_le (hpq.trans hbelow) (List.prefix_append _ _)
    have hle := hbelow.length_le
    rw [length_objectPath] at hle
    rw [length_objectDirectory]
    omega

/-! ## Putting one together -/

theorem setTree_put_database : (setTree none manifest objects).put databasePath (.file bytes) =
    setTree (some bytes) manifest objects := by
  funext q
  by_cases hq : q = databasePath
  · rw [hq, FileTree.put_self, setTree_database]
    rfl
  · rw [FileTree.put_of_ne hq]
    simp [setTree, hq]

theorem setTree_put_manifest : (setTree database none objects).put manifestPath (.file bytes) =
    setTree database (some bytes) objects := by
  funext q
  by_cases hq : q = manifestPath
  · rw [hq, FileTree.put_self, setTree_manifest]
    rfl
  · rw [FileTree.put_of_ne hq]
    simp [setTree, hq]

theorem setTree_directories_root : (setTree database manifest objects).directories [] =
    setTree database manifest objects := by
  funext q
  by_cases hq : q = []
  · rw [hq, FileTree.directories_above (List.prefix_refl _)]
    rfl
  · exact FileTree.directories_of_not (fun h => hq (List.prefix_nil.mp h)) _

/-- The directory of an object and the object, added to a set. -/
theorem setTree_put_object (h : digest ∉ objects.map Prod.fst) :
    ((setTree database manifest objects).directories (objectDirectory digest)).put (objectPath digest)
        (.file bytes) = setTree database manifest (objects ++ [(digest, bytes)]) := by
  funext q
  by_cases hobject : q = objectPath digest
  · rw [hobject, FileTree.put_self, setTree_of_length (by simp), List.find?_append, find?_absent h]
    simp
  rw [FileTree.put_of_ne hobject]
  by_cases habove : q <+: objectDirectory digest
  · rw [FileTree.directories_above habove]
    have hne : objects ++ [(digest, bytes)] ≠ [] := by simp
    rcases prefix_objectDirectory habove with rfl | rfl | rfl | rfl
    · rfl
    · exact (setTree_evidence hne).1.symm
    · exact (setTree_evidence hne).2.symm
    · exact (setTree_objectDirectory (List.mem_append_right _ (List.mem_singleton.mpr rfl))).symm
  · rw [FileTree.directories_of_not habove]
    have hdirectory : objectDirectory digest ≠ q := fun heq => habove (heq ▸ List.prefix_refl _)
    have hevidence : ¬(q = ["evidence"] ∨ q = ["evidence", "sha256"]) := by
      rintro (rfl | rfl)
      · exact habove ⟨["sha256", String.ofList (digest.toList.take 2)], rfl⟩
      · exact habove ⟨[String.ofList (digest.toList.take 2)], rfl⟩
    have hfind : (objects ++ [(digest, bytes)]).find? (fun object => decide (objectPath object.1 = q)) =
        objects.find? fun object => decide (objectPath object.1 = q) := by
      rw [List.find?_append]
      have hlast : [(digest, bytes)].find? (fun object => decide (objectPath object.1 = q)) = none := by
        simp [Ne.symm hobject]
      rw [hlast, Option.or_none]
    have hmem : (∃ object ∈ objects ++ [(digest, bytes)], objectDirectory object.1 = q) ↔
        ∃ object ∈ objects, objectDirectory object.1 = q := by
      simp [hdirectory, or_and_right, exists_or]
    simp only [setTree, hevidence, if_false, hfind, hmem]

/-! No name in a set starts with a dot, as those of temporary files do. -/

theorem head?_validDigest (h : validDigest digest) : digest.toList.head? ≠ some '.' := by
  intro hdot
  simp only [validDigest, Bool.and_eq_true, List.all_eq_true] at h
  have hhex := h.2 '.' (List.mem_of_mem_head? (Option.mem_def.mpr hdot))
  exact absurd hhex (by decide)

theorem setTree_hidden {name : String} (hname : name.toList.head? = some '.')
    (hvalid : ∀ object ∈ objects, validDigest object.1) :
    setTree database manifest objects (p ++ [name]) = none := by
  have hne : ∀ (r : FsPath) (last : String), last.toList.head? ≠ some '.' →
      p ++ [name] ≠ r ++ [last] := by
    intro r last hlast heq
    rw [(List.append_inj' heq rfl).2 |> List.singleton_inj.mp] at hname
    exact hlast hname
  have hfind : objects.find? (fun object => decide (objectPath object.1 = p ++ [name])) = none := by
    apply List.find?_eq_none.mpr
    intro object hobject heq
    exact hne _ _ (head?_validDigest (hvalid object hobject)) (of_decide_eq_true heq).symm
  have hdirectory : ¬∃ object ∈ objects, objectDirectory object.1 = p ++ [name] := by
    intro h
    obtain ⟨object, hobject, heq⟩ := h
    apply hne ["evidence", "sha256"] _ _ heq.symm
    rw [String.toList_ofList, List.head?_take]
    simpa using head?_validDigest (hvalid object hobject)
  have hdatabase : p ++ [name] ≠ databasePath := hne [] _ (by decide)
  have hmanifest : p ++ [name] ≠ manifestPath := hne [] _ (by decide)
  have hevidence : p ++ [name] ≠ ["evidence"] := hne [] _ (by decide)
  have hsha : p ++ [name] ≠ ["evidence", "sha256"] := hne ["evidence"] _ (by decide)
  simp [setTree, hdatabase, hmanifest, hevidence, hsha, hfind, hdirectory]

/-! ## Actions below the staging directory -/

variable {staging source : FsPath} {base t : Fs} {S : Fs} {content : Bytes}

/-- Outside the staging directory all is as before, and inside it is a tree. -/
structure At (base : Fs) (staging : FsPath) (S t : Fs) : Prop where
  off : FileTree.SameOff staging base t
  inside : t.subtree staging = S

theorem At.put (h : At base staging S t) (p : FsPath) (node : Node Bytes) :
    At base staging (S.put p node) (t.put (staging ++ p) node) := by
  refine ⟨h.off.trans (FileTree.sameOff_put (List.prefix_append _ _) _ _), ?_⟩
  rw [FileTree.subtree_put, h.inside]

theorem At.remove (h : At base staging S t) (p : FsPath) :
    At base staging (S.remove p) (t.remove (staging ++ p)) := by
  refine ⟨h.off.trans (FileTree.sameOff_remove (List.prefix_append _ _) _), ?_⟩
  rw [FileTree.subtree_remove, h.inside]

theorem At.apply (h : At base staging S t) (p : FsPath) : t (staging ++ p) = S p := by
  rw [← h.inside]
  rfl

theorem At.content? (h : At base staging S t) (p : FsPath) :
    t.content? (staging ++ p) = S.content? p := by
  unfold FileTree.content?
  rw [h.apply p]

/-- The name of a file's temporary sibling. -/
def temporaryName (H : BackupHost) (staging p : FsPath) : String :=
  "." ++ p.getLast?.getD "" ++ "." ++ H.draw (staging ++ p) ++ ".tmp"

theorem temporary_below (hp : p ≠ []) :
    H.temporary (staging ++ p) = staging ++ (p.dropLast ++ [H.temporaryName staging p]) :=
  temporary_append hp

theorem head?_temporaryName : (H.temporaryName staging p).toList.head? = some '.' := by
  unfold temporaryName
  simp [String.toList_append]

theorem does_mkdirParents (hbase : Rooted base staging)
    (hfree : ∀ q, q <+: p → S q = none ∨ S q = some .directory) :
    Mortal.Does (At base staging S) (mkdirParents (staging ++ p))
      (fun _ => At base staging (S.directories p)) (FileTree.SameOff staging base)
      (FileTree.SameOff staging base) := by
  apply Mortal.Does.action _ (fun _ h => h.off) fun _ h => h.off
  intro t ht
  have hmade : t.makeDirectories (staging ++ p) = some (t.directories (staging ++ p)) := by
    apply FileTree.makeDirectories_eq_some.mpr
    refine ⟨?_, rfl⟩
    intro q hq
    rcases List.prefix_or_prefix_of_prefix hq (List.prefix_append staging p) with habove | hbelow
    · by_cases heq : q = staging
      · rw [heq]
        have hroot := hfree [] List.nil_prefix
        rw [← ht.apply [], List.append_nil] at hroot
        exact hroot
      · have hoff : ¬staging <+: q := fun h =>
          heq (habove.eq_of_length (Nat.le_antisymm habove.length_le h.length_le))
        rw [ht.off q hoff]
        exact Or.inr (hbase q habove heq)
    · obtain ⟨r, rfl⟩ := hbelow
      rw [ht.apply r]
      exact hfree r ((List.prefix_append_right_inj staging).mp hq)
  refine ⟨(), t.directories (staging ++ p), by rw [hmade]; rfl, ?_, ?_⟩
  · exact ht.off.trans (sameOff_makeDirectories hbase ht.off hmade)
  · rw [FileTree.subtree_directories, ht.inside]

theorem does_writeThrough (hp : p ≠ []) (hparent : S p.dropLast = some .directory)
    (hfree : S p ≠ some .directory) (hhidden : S (p.dropLast ++ [H.temporaryName staging p]) = none) :
    Mortal.Does (At base staging S) (H.writeThrough (staging ++ p) content)
      (fun _ => At base staging (S.put p (.file content))) (FileTree.SameOff staging base)
      (FileTree.SameOff staging base) := by
  have hne : p.dropLast ++ [H.temporaryName staging p] ≠ p := by
    intro heq
    apply temporary_ne (H := H) (p := staging ++ p)
    rw [temporary_below hp, heq]
  unfold writeThrough
  rw [temporary_below hp, List.dropLast_append_of_ne_nil hp]
  generalize p.dropLast ++ [H.temporaryName staging p] = sibling at hhidden hne ⊢
  apply Mortal.Does.tryCatch
  · apply Mortal.Does.bind (Q := fun _ => At base staging (S.put sibling (.file [])))
    · apply Mortal.Does.action _ (fun _ h => h.off) fun _ h => h.off
      intro t ht
      refine ⟨(), t.put (staging ++ sibling) (.file []), ?_, ht.put sibling _⟩
      simp only [bind_ok, require_ok, exists_const, and_true]
      refine ⟨?_, ?_⟩
      · rw [ht.apply, hparent]
      · rw [ht.apply, hhidden]
    intro _
    apply Mortal.Does.bind (Q := fun _ => At base staging (S.put sibling (.file content)))
    · apply Mortal.Does.action _ (fun _ h => h.off) fun _ h => h.off
      intro t ht
      refine ⟨(), t.put (staging ++ sibling) (.file content), rfl, ?_⟩
      have hput := ht.put sibling (.file content)
      rw [FileTree.put, FileTree.put, Function.update_idem] at hput
      exact hput
    intro _
    apply Mortal.Does.bind (Q := fun _ => At base staging (S.put p (.file content)))
    · apply Mortal.Does.action _ (fun _ h => h.off) fun _ h => h.off
      intro t ht
      refine ⟨(), (t.put (staging ++ p) (.file content)).remove (staging ++ sibling), ?_, ?_⟩
      · simp only [bind_ok, require_ok, exists_const, and_true]
        rw [ht.apply, FileTree.put_of_ne (Ne.symm hne)]
        exact hfree
      · have hdone := (ht.put p (.file content)).remove sibling
        have hsame : ((S.put sibling (.file content)).put p (.file content)).remove sibling =
            S.put p (.file content) := by
          funext q
          by_cases hq : q = sibling
          · rw [hq, FileTree.remove_self, FileTree.put_of_ne hne, hhidden]
          · rw [FileTree.remove_of_ne hq]
            by_cases hqp : q = p
            · rw [hqp, FileTree.put_self, FileTree.put_self]
            · rw [FileTree.put_of_ne hqp, FileTree.put_of_ne hqp, FileTree.put_of_ne hq]
        rw [hsame] at hdone
        exact hdone
    intro _
    exact Mortal.Does.action (fun t ht => ⟨(), t, rfl, ht⟩) (fun _ h => h.off) fun _ h => h.off
  · intro error
    refine (keeps_sameOff ?_).bind fun _ => Mortal.Keeps.throw error fun _ h => h
    intro t r u _ h
    simp only [Except.ok.injEq, Prod.mk.injEq, true_and] at h
    exact h ▸ FileTree.sameOff_remove (List.prefix_append _ _) _

theorem does_look {α : Type} {g : Fs → Except BackupFault α} {a : α}
    (hg : ∀ t, At base staging S t → g t = .ok a) :
    Mortal.Does (At base staging S) (.look .os g) (fun b t => b = a ∧ At base staging S t)
      (FileTree.SameOff staging base) (FileTree.SameOff staging base) :=
  Mortal.Does.look (fun t ht => ⟨a, hg t ht, rfl, ht⟩) (fun _ h => h.off) fun _ h => h.off

/-- The copy of a file from outside the staging directory. -/
theorem does_copyRegularFile (hbase : Rooted base staging) (hp : p ≠ [])
    (hsource : base source = some (.file content)) (hout : ¬staging <+: source)
    (habove : ∀ q, q <+: p.dropLast → S q = none ∨ S q = some .directory) (habsent : S p = none)
    (hhidden : S (p.dropLast ++ [H.temporaryName staging p]) = none) :
    Mortal.Does (At base staging S) (H.copyRegularFile source (staging ++ p))
      (fun _ => At base staging ((S.directories p.dropLast).put p (.file content)))
      (FileTree.SameOff staging base) (FileTree.SameOff staging base) := by
  have hnot : ∀ r : String, ¬p.dropLast ++ [r] <+: p.dropLast := by
    intro r h
    have hle := h.length_le
    rw [List.length_append, List.length_singleton] at hle
    omega
  have hself : ¬p <+: p.dropLast := by
    intro h
    have hle := h.length_le
    rw [List.length_dropLast] at hle
    have hpos := List.length_pos_of_ne_nil hp
    omega
  unfold copyRegularFile
  rw [List.dropLast_append_of_ne_nil hp]
  apply Mortal.Does.bind (does_look (a := content) ?_)
  · intro copied
    apply Mortal.Does.assume
    rintro rfl
    refine (does_mkdirParents hbase habove).bind fun _ => ?_
    apply Mortal.Does.bind (does_look (a := ()) ?_)
    · intro _
      apply Mortal.Does.assume
      intro _
      apply does_writeThrough hp (FileTree.directories_above (List.prefix_refl _) _)
      · rw [FileTree.directories_of_not hself, habsent]
        simp
      · rw [FileTree.directories_of_not (hnot _), hhidden]
    · intro t ht
      rw [require_ok, ht.apply, FileTree.directories_of_not hself, habsent]
  · intro t ht
    rw [ht.off source hout, hsource]

/-- The copy of a database from outside the staging directory. -/
theorem does_backupDatabase {database : Bytes} (hsource : base source = some (.file database))
    (hout : ¬staging <+: source) (hcopy : H.backup database = some content)
    (hbase : Rooted base staging) :
    Mortal.Does (At base staging (setTree none none []))
      (H.backupDatabase source (staging ++ databasePath))
      (fun _ => At base staging (setTree (some content) none []))
      (FileTree.SameOff staging base) (FileTree.SameOff staging base) := by
  have hp : databasePath ≠ [] := by simp [databasePath]
  unfold backupDatabase
  rw [List.dropLast_append_of_ne_nil hp]
  apply Mortal.Does.bind (does_look (a := ()) ?_)
  · intro _
    apply Mortal.Does.assume
    intro _
    apply Mortal.Does.bind (does_mkdirParents hbase ?_)
    · intro _
      apply Mortal.Does.bind (does_look (a := content) ?_)
      · intro copied
        apply Mortal.Does.assume
        rintro rfl
        show Mortal.Does (At base staging ((setTree none none []).directories [])) _ _ _ _
        rw [setTree_directories_root, ← setTree_put_database]
        apply does_writeThrough hp
        · rfl
        · simp
        · exact setTree_hidden head?_temporaryName fun _ h => absurd h List.not_mem_nil
      · intro t ht
        simp only [bind_ok, orThrow_ok, FileTree.content?_eq_some]
        exact ⟨database, by rw [ht.off source hout, hsource], hcopy⟩
    · intro q hq
      rw [List.prefix_nil.mp hq]
      exact Or.inr rfl
  · intro t ht
    rw [require_ok, ht.apply, setTree_database]
    rfl

/-! ## Objects -/

variable {row : ContentRow} {rows : List ContentRow} {data : FsPath} {store : Fs}

/-- The objects of some rows in a data directory. -/
def objectsOf (store : Fs) (data : FsPath) (rows : List ContentRow) : List (String × Bytes) :=
  rows.map fun row =>
    (row.contentSha256, (store.content? (data ++ objectPath row.contentSha256)).getD [])

theorem digests_objectsOf :
    (objectsOf store data rows).map Prod.fst = rows.map ContentRow.contentSha256 := by
  unfold objectsOf
  rw [List.map_map]
  rfl

theorem objectsOf_eq_nil : objectsOf store data rows = [] ↔ rows = [] := List.map_eq_nil_iff

theorem valid_objectsOf (h : ∀ row ∈ rows, validDigest row.contentSha256) :
    ∀ object ∈ objectsOf store data rows, validDigest object.1 := by
  intro object hobject
  obtain ⟨row, hrow, rfl⟩ := List.mem_map.mp hobject
  exact h row hrow

/-- A row whose object is kept has it among the objects. -/
theorem mem_objectsOf (hrow : row ∈ rows)
    (hobject : store (data ++ objectPath row.contentSha256) = some (.file bytes)) :
    (row.contentSha256, bytes) ∈ objectsOf store data rows := by
  have hcontent : store.content? (data ++ objectPath row.contentSha256) = some bytes :=
    FileTree.content?_eq_some.mpr hobject
  apply List.mem_map.mpr
  exact ⟨row, hrow, by rw [hcontent]; rfl⟩

/-- Copying one more object. -/
theorem does_copyObject_file {done : List ContentRow} (hbase : Rooted base staging)
    (hvalid : ∀ row ∈ done, validDigest row.contentSha256)
    (hdigest : row.contentSha256 ∉ done.map ContentRow.contentSha256)
    (hobject : base (data ++ objectPath row.contentSha256) = some (.file bytes))
    (hout : ¬staging <+: data ++ objectPath row.contentSha256) :
    Mortal.Does (At base staging (setTree database manifest (objectsOf base data done)))
      (H.copyRegularFile (data ++ objectPath row.contentSha256)
        (staging ++ objectPath row.contentSha256))
      (fun _ => At base staging (setTree database manifest (objectsOf base data (done ++ [row]))))
      (FileTree.SameOff staging base) (FileTree.SameOff staging base) := by
  have habsent : row.contentSha256 ∉ (objectsOf base data done).map Prod.fst := by
    rw [digests_objectsOf]
    exact hdigest
  have hdrop : (objectPath row.contentSha256).dropLast = objectDirectory row.contentSha256 := rfl
  have hlast : objectsOf base data (done ++ [row]) =
      objectsOf base data done ++ [(row.contentSha256, bytes)] := by
    have hcontent : base.content? (data ++ objectPath row.contentSha256) = some bytes :=
      FileTree.content?_eq_some.mpr hobject
    unfold objectsOf
    rw [List.map_append, List.map_singleton, hcontent]
    rfl
  rw [hlast, ← setTree_put_object habsent, ← hdrop]
  apply does_copyRegularFile hbase (objectPath_ne _) hobject hout
  · intro q hq
    exact setTree_above hq
  · exact setTree_absent habsent
  · exact setTree_hidden head?_temporaryName (valid_objectsOf hvalid)

/-- The rows before a row in a list of distinct digests have other ones. -/
theorem digest_notMem {done rest : List ContentRow}
    (hnodup : (rows.map ContentRow.contentSha256).Nodup) (hrows : rows = done ++ row :: rest) :
    row.contentSha256 ∉ done.map ContentRow.contentSha256 := by
  rw [hrows, List.map_append, List.map_cons, List.nodup_append] at hnodup
  intro h
  exact hnodup.2.2 row.contentSha256 h row.contentSha256 List.mem_cons_self rfl

/-- A kept object passes for itself. -/
theorem Kept.verified (h : H.Kept t data row) : H.verifyArtifact t data row.contentSha256 = .ok true ∧
    (t.content? (data ++ objectPath row.contentSha256)).any
      (fun bytes => bytes.length = row.byteSize) := by
  obtain ⟨bytes, hbytes, hholds⟩ := h.object
  have hcontent : t.content? (data ++ objectPath row.contentSha256) = some bytes :=
    FileTree.content?_eq_some.mpr hbytes
  rw [verifyArtifact_ok, hcontent]
  refine ⟨⟨h.valid, ?_⟩, ?_⟩
  · simpa using hholds.digest
  · simpa using hholds.size

theorem does_copyObject {done rest : List ContentRow} (hbase : Rooted base staging)
    (hkept : ∀ row ∈ rows, H.Kept base data row) (hrows : rows = done ++ row :: rest)
    (hnodup : (rows.map ContentRow.contentSha256).Nodup)
    (hout : ∀ row ∈ rows, ¬staging <+: data ++ objectPath row.contentSha256) :
    Mortal.Does (At base staging (setTree database manifest (objectsOf base data done)))
      (H.copyObject data staging row)
      (fun _ => At base staging (setTree database manifest (objectsOf base data (done ++ [row]))))
      (FileTree.SameOff staging base) (FileTree.SameOff staging base) := by
  have hrow : row ∈ rows := by
    rw [hrows]
    simp
  have hvalid : ∀ r ∈ done, validDigest r.contentSha256 := by
    intro r hr
    apply (hkept r _).valid
    rw [hrows]
    exact List.mem_append_left _ hr
  have hnew := digest_notMem hnodup hrows
  obtain ⟨bytes, hbytes, hholds⟩ := (hkept row hrow).object
  have hsame : ∀ t, FileTree.SameOff staging base t → H.Kept t data row := by
    intro t ht
    refine ⟨(hkept row hrow).valid, bytes, ?_, hholds⟩
    rw [ht _ (hout row hrow), hbytes]
  have hcopied : ∀ t,
      At base staging (setTree database manifest (objectsOf base data (done ++ [row]))) t →
      H.Kept t staging row := by
    intro t ht
    refine ⟨(hkept row hrow).valid, bytes, ?_, hholds⟩
    rw [ht.apply]
    apply setTree_object
    · have hsublist : (done ++ [row]).Sublist rows := by
        rw [hrows]
        exact (List.singleton_sublist.mpr List.mem_cons_self).append_left done
      rw [digests_objectsOf]
      exact hnodup.sublist (hsublist.map _)
    · exact mem_objectsOf (List.mem_append_right _ (List.mem_singleton.mpr rfl)) hbytes
  unfold copyObject
  apply Mortal.Does.bind (does_look (a := ()) ?_)
  · intro _
    apply Mortal.Does.assume
    intro _
    apply Mortal.Does.bind (does_copyObject_file hbase hvalid hnew hbytes (hout row hrow))
    intro _
    refine (does_look (a := ()) ?_).weaken (fun _ h => h) (fun _ _ h => h.2) (fun _ h => h) fun _ h => h
    intro t ht
    obtain ⟨hverified, hsize⟩ := (hcopied t ht).verified
    simp only [bind_ok, require_ok]
    exact ⟨true, hverified, (), rfl, hsize⟩
  · intro t ht
    simp only [bind_ok, require_ok]
    exact ⟨true, (hsame t ht.off).verified.1, rfl⟩

/-! ## The manifest -/

/-- What is known of the host: NFC leaves ASCII alone and a timestamp is ASCII, digests are in hex, and
the rows of `content_object` have distinct digests and sizes of 64 bits. -/
structure Lawful (H : BackupHost) : Prop where
  ascii : ∀ text : String, IsAscii text.toList → H.platform.nfc text = text
  timestamp : IsAscii H.timestamp.toList
  hex : ∀ bytes, validDigest (H.sha256 bytes)
  keyed : ∀ database rows, H.contents database = some rows →
    (rows.map ContentRow.contentSha256).Nodup ∧ ∀ row ∈ rows, row.byteSize.natAbs < 2 ^ 64

theorem ascii_validDigest (h : validDigest digest) : IsAscii digest.toList := by
  simp only [validDigest, Bool.and_eq_true, List.all_eq_true, List.contains_iff_mem] at h
  intro c hc
  have hall : IsAscii "0123456789abcdef".toList := by decide
  exact hall c (h.2 c hc)

/-- The item of a row. -/
def manifestItem (row : ContentRow) : Json :=
  .obj [("sha256", .str row.contentSha256), ("byte_size", .int row.byteSize)]

theorem normalizeItems_manifest (hlaw : H.Lawful)
    (hvalid : ∀ row ∈ rows, validDigest row.contentSha256) :
    H.platform.normalizeItems (rows.map manifestItem) = .ok (rows.map manifestItem) := by
  have hsha : H.platform.nfc "sha256" = "sha256" := hlaw.ascii _ (by decide)
  have hsize : H.platform.nfc "byte_size" = "byte_size" := hlaw.ascii _ (by decide)
  induction rows with
  | nil => rfl
  | cons row rows ih =>
    have hdigest := hlaw.ascii _ (ascii_validDigest (hvalid row List.mem_cons_self))
    have hrest := ih fun r hr => hvalid r (List.mem_cons_of_mem _ hr)
    have hitem : H.platform.normalizeJson (manifestItem row) = .ok (manifestItem row) := by
      simp [manifestItem, Platform.normalizeJson, Platform.normalizeMembers, hsha, hsize, hdigest,
        require, bind, Except.bind]
    rw [List.map_cons, Platform.normalizeItems, hitem, hrest]
    rfl

theorem normalizeJson_manifest (hlaw : H.Lawful) (hvalid : ∀ row ∈ rows, validDigest row.contentSha256)
    (bytes : Bytes) :
    H.platform.normalizeJson (H.manifest (H.sha256 bytes) rows) =
      .ok (H.manifest (H.sha256 bytes) rows) := by
  have hkeys : ∀ key ∈ ["schema_version", "created_at", "database", "content", "path", "sha256",
      "backup_set.v1", "operational.sqlite3"], H.platform.nfc key = key := by
    intro key hkey
    apply hlaw.ascii
    have hall : ∀ key ∈ ["schema_version", "created_at", "database", "content", "path", "sha256",
      "backup_set.v1", "operational.sqlite3"], IsAscii key.toList := by decide
    exact hall key hkey
  have hdigest := hlaw.ascii _ (ascii_validDigest (hlaw.hex bytes))
  have htimestamp := hlaw.ascii _ hlaw.timestamp
  have hitems := normalizeItems_manifest hlaw hvalid
  simp only [List.forall_mem_cons] at hkeys
  obtain ⟨h1, h2, h3, h4, h5, h6, h7, h8, -⟩ := hkeys
  show H.platform.normalizeJson (.obj [("schema_version", .str "backup_set.v1"),
    ("created_at", .str H.timestamp),
    ("database", .obj [("path", .str "operational.sqlite3"), ("sha256", .str (H.sha256 bytes))]),
    ("content", .arr (rows.map manifestItem))]) = _
  simp [Platform.normalizeJson, Platform.normalizeMembers, h1, h2, h3, h4, h5, h6, h7, h8, hdigest,
    htimestamp, hitems, require, bind, Except.bind]
  rfl

theorem nodup_manifestKeys : ["schema_version", "created_at", "database", "content"].Nodup := by decide

theorem nodup_infoKeys : ["path", "sha256"].Nodup := by decide

theorem nodup_itemKeys : ["sha256", "byte_size"].Nodup := by decide

theorem readable_manifest (hsize : ∀ row ∈ rows, row.byteSize.natAbs < 2 ^ 64) (text : String) :
    Json.Readable H.float (H.manifest text rows) := by
  have hitems : Json.ReadableItems H.float (rows.map manifestItem) := by
    induction rows with
    | nil => trivial
    | cons row rows ih =>
      have hfew : Json.FewDigits row.byteSize := by
        have hlength := Nat.repr_length row.byteSize.natAbs 20 (by decide)
          (lt_of_lt_of_le (hsize row List.mem_cons_self) (by decide))
        exact hlength.trans (by decide)
      exact ⟨⟨nodup_itemKeys, trivial, hfew, trivial⟩,
        ih fun r hr => hsize r (List.mem_cons_of_mem _ hr)⟩
  exact ⟨nodup_manifestKeys, trivial, trivial, ⟨nodup_infoKeys, trivial, trivial, trivial⟩, hitems,
    trivial⟩

/-- What the pairs of the items are. -/
theorem mapM_manifestPair : (Json.sortedItems (rows.map manifestItem)).mapM manifestPair =
    .ok (rows.map fun row => (row.contentSha256, some (.int row.byteSize))) := by
  induction rows with
  | nil => rfl
  | cons row rows ih =>
    have hnodup : ([("sha256", Json.str row.contentSha256), ("byte_size", Json.int row.byteSize)].map
        Prod.fst).Nodup := nodup_itemKeys
    have hpair : manifestPair (Json.sorted (manifestItem row)) =
        .ok (row.contentSha256, some (.int row.byteSize)) := by
      unfold manifestPair manifestItem
      rw [Json.get?_sorted hnodup, Json.get?_sorted hnodup]
      rfl
    rw [List.map_cons, Json.sortedItems, List.mapM_cons, hpair, ih]
    rfl

theorem samePairs_rows : H.samePairs (rows.map fun row => (row.contentSha256, some (.int row.byteSize)))
    rows = true := by
  induction rows with
  | nil => rfl
  | cons row rows ih => simp [samePairs, equalsInt, ih]

theorem readManifest_encode {text : List Char} {v : Json} (h : Json.loads H.float text = .ok v) :
    H.readManifest (utf8Encode text) = .ok v := by
  simp only [readManifest, utf8Decode_encode, orThrow, bind, Except.bind, h]

/-- The manifest that is written describes the set when it is read. -/
theorem manifest_described {copy : Bytes} (hlaw : H.Lawful)
    (hvalid : ∀ row ∈ rows, validDigest row.contentSha256)
    (hsize : ∀ row ∈ rows, row.byteSize.natAbs < 2 ^ 64) :
    ∃ text, H.manifestBytes (H.sha256 copy) rows = .ok text ∧
      ∃ manifest, H.readManifest text = .ok manifest ∧ H.Describes manifest copy rows := by
  have hcanonical : H.platform.canonicalJson (H.manifest (H.sha256 copy) rows) =
      .ok (H.manifest (H.sha256 copy) rows).render := by
    rw [Platform.canonicalJson, normalizeJson_manifest hlaw hvalid copy]
    rfl
  have hloads := Json.loads_render (readable_manifest (H := H) hsize (H.sha256 copy))
  refine ⟨_, by rw [manifestBytes, hcanonical], (H.manifest (H.sha256 copy) rows).sorted, ?_, ?_⟩
  · exact readManifest_encode hloads
  · have hget : ∀ key, (H.manifest (H.sha256 copy) rows).sorted.get? key =
        (Json.lookup key [("schema_version", .str "backup_set.v1"), ("created_at", .str H.timestamp),
          ("database", .obj [("path", .str "operational.sqlite3"), ("sha256", .str (H.sha256 copy))]),
          ("content", .arr (rows.map manifestItem))]).map Json.sorted :=
      fun key => Json.get?_sorted nodup_manifestKeys
    have hdatabase : ∀ key, (Json.sorted (.obj [("path", .str "operational.sqlite3"),
        ("sha256", .str (H.sha256 copy))])).get? key =
        (Json.lookup key [("path", .str "operational.sqlite3"), ("sha256", .str (H.sha256 copy))]).map
          Json.sorted := fun key => Json.get?_sorted nodup_infoKeys
    have hentry : ((H.manifest (H.sha256 copy) rows).sorted.get? "database").getD .null =
        Json.sorted (.obj [("path", .str "operational.sqlite3"), ("sha256", .str (H.sha256 copy))]) := by
      rw [hget]
      rfl
    refine ⟨?_, ?_, ?_, Json.sortedItems (rows.map manifestItem), _, ?_, mapM_manifestPair,
      samePairs_rows⟩
    · rw [hget]
      rfl
    · rw [hentry, hdatabase]
      rfl
    · rw [hentry, hdatabase]
      rfl
    · rw [hget]
      rfl

/-! ## Sets that are built -/

variable {target : FsPath} {copy text : Bytes} {before : Fs}

/-- The tree of a sound database, a manifest that describes it and its objects is a complete set. -/
theorem complete_setTree (hsound : H.integrity copy = some true)
    (hcontents : H.contents copy = some rows)
    (hnodup : (rows.map ContentRow.contentSha256).Nodup)
    (hmanifest : ∃ manifest, H.readManifest text = .ok manifest ∧ H.Describes manifest copy rows)
    (hkept : ∀ row ∈ rows, H.Kept store data row) :
    H.Complete (setTree (some copy) (some text) (objectsOf store data rows)) copy rows where
  root := rfl
  stored := setTree_database
  sound := hsound
  contents := hcontents
  manifest := by
    obtain ⟨manifest, hread, hdescribes⟩ := hmanifest
    exact ⟨text, manifest, setTree_manifest, hread, hdescribes⟩
  evidence hne := setTree_evidence (mt objectsOf_eq_nil.mp hne)
  objects row hrow := by
    obtain ⟨bytes, hbytes, hholds⟩ := (hkept row hrow).object
    have hmem := mem_objectsOf hrow hbytes
    refine ⟨setTree_objectDirectory hmem, (hkept row hrow).valid, bytes, ?_, hholds⟩
    apply setTree_object _ hmem
    rw [digests_objectsOf]
    exact hnodup

/-- A store that can be backed up: its database, a sound copy of it, and every object the copy
refers to. -/
structure Intact (H : BackupHost) (store : Fs) (data : FsPath) (copy : Bytes) (rows : List ContentRow) :
    Prop where
  database : ∃ database, store (data ++ databasePath) = some (.file database) ∧
    H.backup database = some copy
  sound : H.integrity copy = some true
  contents : H.contents copy = some rows
  kept : ∀ row ∈ rows, H.Kept store data row

/-- Nothing of a store is below a path. -/
structure Outside (store : Fs) (data : FsPath) (rows : List ContentRow) (p : FsPath) : Prop where
  database : ¬p <+: data ++ databasePath
  manifest : store (data ++ manifestPath) ≠ none → ¬p <+: data ++ manifestPath
  objects : ∀ row ∈ rows, ¬p <+: data ++ objectPath row.contentSha256

theorem verified_setTree {report : BackupSetReport}
    (hcomplete : H.Complete (setTree (some copy) (some text) objects) copy rows)
    (hreport : report = ⟨"backup_set.v1", staging, H.sha256 copy, rows.length, true⟩)
    (ht : At base staging (setTree (some copy) (some text) objects) t) :
    H.verifyBackupSet t staging = .ok report := by
  rw [verifyBackupSet_ok, ht.inside]
  exact ⟨copy, rows, hcomplete, hreport⟩

theorem does_buildSet (hlaw : H.Lawful) (hbase : Rooted base staging)
    (hstore : H.Intact base data copy rows)
    (hout : Outside base data rows staging) (htext : H.manifestBytes (H.sha256 copy) rows = .ok text)
    (hmanifest : ∃ manifest, H.readManifest text = .ok manifest ∧ H.Describes manifest copy rows) :
    Mortal.Does (At base staging (setTree none none [])) (H.buildSet data staging)
      (fun report t => report = ⟨"backup_set.v1", staging, H.sha256 copy, rows.length, true⟩ ∧
        At base staging (setTree (some copy) (some text) (objectsOf base data rows)) t)
      (FileTree.SameOff staging base) (FileTree.SameOff staging base) := by
  have hnodup := (hlaw.keyed copy rows hstore.contents).1
  have hvalid : ∀ row ∈ rows, validDigest row.contentSha256 := fun row hrow =>
    (hstore.kept row hrow).valid
  have hcomplete := complete_setTree hstore.sound hstore.contents hnodup hmanifest hstore.kept
  obtain ⟨database, hdatabase, hcopy⟩ := hstore.database
  unfold buildSet
  refine (does_backupDatabase hdatabase hout.database hcopy hbase).bind fun _ => ?_
  apply Mortal.Does.bind (does_look (a := rows) ?_)
  · intro content
    apply Mortal.Does.assume
    rintro rfl
    apply Mortal.Does.bind (Q := fun _ =>
      At base staging (setTree (some copy) none (objectsOf base data content)))
    · apply Mortal.Does.forM (I := fun done =>
        At base staging (setTree (some copy) none (objectsOf base data done)))
      intro done row rest hrows
      exact does_copyObject hbase hstore.kept hrows hnodup hout.objects
    intro _
    apply Mortal.Does.bind (does_look (a := H.sha256 copy) ?_)
    · intro digest
      apply Mortal.Does.assume
      rintro rfl
      apply Mortal.Does.bind (Q := fun written t => written = text ∧
        At base staging (setTree (some copy) none (objectsOf base data content)) t)
      · exact Mortal.Does.ofExcept htext fun _ h => ⟨rfl, h⟩
      intro written
      apply Mortal.Does.assume
      rintro rfl
      apply Mortal.Does.bind (Q := fun _ =>
        At base staging (setTree (some copy) (some written) (objectsOf base data content)))
      · rw [← setTree_put_manifest]
        apply does_writeThrough (by simp [manifestPath])
        · rfl
        · simp
        · exact setTree_hidden head?_temporaryName (valid_objectsOf hvalid)
      intro _
      exact does_look fun t ht => verified_setTree hcomplete rfl ht
    · intro t ht
      rw [ht.content?, FileTree.content?, setTree_database]
      rfl
  · intro t ht
    unfold referencedContent
    rw [ht.content?, FileTree.content?, setTree_database]
    simp only [bind_ok, orThrow_ok]
    exact ⟨copy, rfl, hstore.contents⟩

/-- The copy of a file at the root of a set. -/
theorem does_copyRoot {name : String} (hbase : Rooted base staging)
    (hsource : base source = some (.file content)) (hout : ¬staging <+: source)
    (habsent : setTree database manifest [] [name] = none) :
    Mortal.Does (At base staging (setTree database manifest []))
      (H.copyRegularFile source (staging ++ [name]))
      (fun _ => At base staging ((setTree database manifest []).put [name] (.file content)))
      (FileTree.SameOff staging base) (FileTree.SameOff staging base) := by
  have hcopy := does_copyRegularFile (H := H) (S := setTree database manifest []) hbase
    (List.cons_ne_nil name []) hsource hout ?_ habsent ?_
  · rw [show [name].dropLast = [] from rfl, setTree_directories_root] at hcopy
    exact hcopy
  · intro q hq
    rw [List.prefix_nil.mp hq]
    exact Or.inr rfl
  · exact setTree_hidden head?_temporaryName fun _ h => absurd h List.not_mem_nil

theorem does_restoreSet (hlaw : H.Lawful) (hbase : Rooted base staging)
    (hdatabase : base (source ++ databasePath) = some (.file copy))
    (hmanifest : base (source ++ manifestPath) = some (.file text))
    (hcomplete : H.Complete (base.subtree source) copy rows) (hout : Outside base source rows staging) :
    Mortal.Does (At base staging (setTree none none [])) (H.restoreSet source staging)
      (fun report t => report = ⟨"backup_set.v1", staging, H.sha256 copy, rows.length, true⟩ ∧
        At base staging (setTree (some copy) (some text) (objectsOf base source rows)) t)
      (FileTree.SameOff staging base) (FileTree.SameOff staging base) := by
  have hnodup := (hlaw.keyed copy rows hcomplete.contents).1
  have hkept : ∀ row ∈ rows, H.Kept base source row := by
    intro row hrow
    obtain ⟨hvalid, bytes, hbytes, hholds⟩ := (hcomplete.objects row hrow).2
    exact ⟨hvalid, bytes, hbytes, hholds⟩
  have hdescribed : ∃ manifest, H.readManifest text = .ok manifest ∧ H.Describes manifest copy rows := by
    obtain ⟨text', manifest, htext, hread, hdescribes⟩ := hcomplete.manifest
    have hsame : text' = text := by
      have heq : some (Node.file text') = some (Node.file text) := htext.symm.trans hmanifest
      cases heq
      rfl
    exact ⟨manifest, hsame ▸ hread, hdescribes⟩
  have hwhole := complete_setTree hcomplete.sound hcomplete.contents hnodup hdescribed hkept
  unfold restoreSet
  apply Mortal.Does.bind (Q := fun _ => At base staging (setTree (some copy) none []))
  · rw [← setTree_put_database]
    exact does_copyRoot hbase hdatabase hout.database setTree_database
  intro _
  apply Mortal.Does.bind (Q := fun _ => At base staging (setTree (some copy) (some text) []))
  · rw [← setTree_put_manifest]
    exact does_copyRoot hbase hmanifest (hout.manifest (by simp [hmanifest])) setTree_manifest
  intro _
  apply Mortal.Does.bind (does_look (a := rows) ?_)
  · intro found
    apply Mortal.Does.assume
    rintro rfl
    apply Mortal.Does.bind (Q := fun _ =>
      At base staging (setTree (some copy) (some text) (objectsOf base source found)))
    · apply Mortal.Does.forM (I := fun done =>
        At base staging (setTree (some copy) (some text) (objectsOf base source done)))
      intro done row rest hrows
      have hrow : row ∈ found := by
        rw [hrows]
        simp
      obtain ⟨bytes, hbytes, -⟩ := (hkept row hrow).object
      apply Mortal.Does.bind (Q := fun _ =>
        At base staging (setTree (some copy) (some text) (objectsOf base source done)))
      · exact Mortal.Does.ofExcept (a := ()) (require_ok.mpr (hkept row hrow).valid) fun _ h => h
      intro _
      apply does_copyObject_file hbase _ (digest_notMem hnodup hrows) hbytes (hout.objects row hrow)
      intro r hr
      apply (hkept r _).valid
      rw [hrows]
      exact List.mem_append_left _ hr
    intro _
    exact does_look fun t ht => verified_setTree hwhole rfl ht
  · intro t ht
    unfold referencedContent
    simp only [bind_ok, orThrow_ok, FileTree.content?_eq_some]
    exact ⟨copy, by rw [ht.off _ hout.database, hdatabase], hcomplete.contents⟩

/-! ## Sets that are published -/

/-- A path holds a tree, or nothing at all. -/
def Holding (target : FsPath) (S : Fs) (t : Fs) : Prop :=
  t.subtree target = S ∨ ∀ q, t (target ++ q) = none

theorem does_publishDirectory {build : FsPath → Mortal Fs BackupFault BackupSetReport}
    {after : BackupSetReport → Mortal Fs BackupFault Unit} {result : BackupSetReport}
    (htarget : target ≠ []) (hbase : Rooted base (H.temporary target))
    (hstaging : ∀ q, base (H.temporary target ++ q) = none) (habsent : ∀ q, base (target ++ q) = none)
    (hbuild : Mortal.Does (At base (H.temporary target) (setTree none none []))
      (build (H.temporary target)) (fun report t => report = result ∧ At base (H.temporary target) S t)
      (FileTree.SameOff (H.temporary target) base) (FileTree.SameOff (H.temporary target) base))
    (hafter : Mortal.Does (Published base (H.temporary target) target ∅ (· = S)) (after result)
      (fun _ t => t.subtree target = S) (fun t => t.subtree target = S)
      (fun t => t.subtree target = S)) :
    Mortal.Does (fun t => t = base) (H.publishDirectory target build after)
      (fun report t => report = result ∧ t.subtree target = S) (Holding target S)
      (Holding target S) := by
  have hlength := length_temporary (H := H) htarget
  have hne := temporary_ne (H := H) (p := target)
  have hoff : ∀ q, ¬H.temporary target <+: target ++ q := fun q =>
    not_prefix_of_length hlength.symm (Ne.symm hne) (List.prefix_append target q)
  have hsame : ∀ t, FileTree.SameOff (H.temporary target) base t → Holding target S t := by
    intro t ht
    refine Or.inr fun q => ?_
    rw [ht _ (hoff q), habsent q]
  have hpublished : ∀ t, Published base (H.temporary target) target ∅ (· = S) t → Holding target S t :=
    fun t ht => Or.inl ht.whole
  have hdrop : base (H.temporary target).dropLast = some .directory := by
    have hnil : H.temporary target ≠ [] := by
      intro heq
      rw [heq] at hlength
      exact htarget (List.length_eq_zero_iff.mp hlength.symm)
    apply hbase _ (List.dropLast_prefix _)
    intro heq
    have hlen := congrArg List.length heq
    rw [List.length_dropLast] at hlen
    have hpos := List.length_pos_of_ne_nil hnil
    omega
  unfold publishDirectory
  apply Mortal.Does.tryCatch
  · -- the staging directory
    apply Mortal.Does.bind (Q := fun _ => At base (H.temporary target) (setTree none none []))
    · have hstart : ∀ t, t = base → Holding target S t := by
        intro t ht
        rw [ht]
        exact hsame base (FileTree.SameOff.refl _ _)
      apply Mortal.Does.action _ hstart hstart
      intro t ht
      subst ht
      have hnone : t (H.temporary target) = none := by
        have := hstaging []
        rwa [List.append_nil] at this
      refine ⟨(), t.put (H.temporary target) .directory, ?_, ?_, ?_⟩
      · simp only [bind_ok, require_ok, exists_const, and_true]
        exact ⟨hdrop, hnone⟩
      · exact FileTree.sameOff_put (List.prefix_refl _) _ _
      · funext q
        show t.put (H.temporary target) .directory (H.temporary target ++ q) = _
        by_cases hq : q = []
        · rw [hq, List.append_nil, FileTree.put_self]
          rfl
        · rw [FileTree.put_of_ne (by simpa using hq), hstaging q]
          simp [setTree, hq]
    intro _
    apply Mortal.Does.bind (hbuild.weaken (fun _ h => h) (fun _ _ h => h) hsame hsame)
    intro report
    apply Mortal.Does.assume
    rintro rfl
    apply Mortal.Does.bind (Q := fun _ => Published base (H.temporary target) target ∅ (· = S))
    · apply Mortal.Does.action _ (fun t ht => hsame t ht.off) fun t ht => hsame t ht.off
      intro t ht
      refine ⟨(), t.moveTree (H.temporary target) target, ?_, published_moveTree ht.off ht.inside⟩
      simp only [bind_ok, require_ok, exists_const, and_true]
      have hnone := habsent []
      rw [List.append_nil] at hnone
      rw [ht.off target (by simpa using hoff []), hnone]
    intro _
    apply Mortal.Does.bind (Q := fun _ => Published base (H.temporary target) target ∅ (· = S))
    · exact Mortal.Does.action (fun t ht => ⟨(), t, rfl, ht⟩) hpublished hpublished
    intro _
    apply Mortal.Does.bind (hafter.weaken (fun _ h => h) (fun _ _ h => h) (fun _ => Or.inl)
      fun _ => Or.inl)
    intro _
    exact Mortal.Does.pure report fun _ h => ⟨rfl, h⟩
  · intro error
    refine (keeps_rmtree ?_).bind fun _ => Mortal.Keeps.throw error fun _ h => h
    intro t ht
    have hsubtree : (t.removeTree (H.temporary target)).subtree target = t.subtree target := by
      funext q
      exact FileTree.removeTree_of_not (hoff q) t
    rcases ht with ht | ht
    · exact Or.inl (hsubtree.trans ht)
    · refine Or.inr fun q => ?_
      rw [FileTree.removeTree_of_not (hoff q), ht q]

/-- The directories above a target change nothing that is there. -/
theorem directories_of_ne
    (hfree : ∀ q, q <+: target.dropLast → before q = none ∨ before q = some .directory)
    (hq : before q ≠ none) : before.directories target.dropLast q = before q := by
  rcases directories_cases hfree q with h | ⟨-, hnone, -⟩
  · exact h
  · exact absurd hnone hq

/-- They are not below a sibling of the target. -/
theorem directories_below {sibling : FsPath} (htarget : target ≠ []) (hclosed : before.Closed)
    (hlength : sibling.length = target.length) (habsent : before sibling = none) (q : FsPath) :
    before.directories target.dropLast (sibling ++ q) = none := by
  rw [FileTree.directories_of_not, hclosed.absent habsent (List.prefix_append sibling q)]
  intro h
  have hle := h.length_le
  rw [List.length_append, List.length_dropLast] at hle
  have hpos := List.length_pos_of_ne_nil htarget
  omega

/-- What a directory needs to be published beside nothing of its name. -/
structure Free (H : BackupHost) (before : Fs) (target : FsPath) : Prop where
  named : target ≠ []
  absent : before target = none
  parents : ∀ q, q <+: target.dropLast → before q = none ∨ before q = some .directory
  fresh : before (H.temporary target) = none

theorem does_publishFresh {build : FsPath → Mortal Fs BackupFault BackupSetReport}
    {after : BackupSetReport → Mortal Fs BackupFault Unit} {result : BackupSetReport}
    {fault : BackupFault} (hclosed : before.Closed) (hfree : H.Free before target)
    (hbuild : Mortal.Does
      (At (before.directories target.dropLast) (H.temporary target) (setTree none none []))
      (build (H.temporary target))
      (fun report t => report = result ∧
        At (before.directories target.dropLast) (H.temporary target) S t)
      (FileTree.SameOff (H.temporary target) (before.directories target.dropLast))
      (FileTree.SameOff (H.temporary target) (before.directories target.dropLast)))
    (hafter : Mortal.Does
      (Published (before.directories target.dropLast) (H.temporary target) target ∅ (· = S))
      (after result) (fun _ t => t.subtree target = S) (fun t => t.subtree target = S)
      (fun t => t.subtree target = S)) :
    Mortal.Does (fun t => t = before)
      (.look .os (fun t : Fs => require (t target = none) fault) >>= fun _ =>
        mkdirParents target.dropLast >>= fun _ => H.publishDirectory target build after)
      (fun report t => report = result ∧ t.subtree target = S) (Holding target S)
      (Holding target S) := by
  have hstart : ∀ t, t = before → Holding target S t := by
    intro t ht
    rw [ht]
    exact Or.inr fun q => hclosed.absent hfree.absent (List.prefix_append target q)
  apply Mortal.Does.bind (Q := fun _ t => t = before)
  · apply Mortal.Does.look _ hstart hstart
    intro t ht
    exact ⟨(), require_ok.mpr (ht ▸ hfree.absent), ht⟩
  intro _
  apply Mortal.Does.bind (Q := fun _ t => t = before.directories target.dropLast)
  · apply Mortal.Does.action _ hstart hstart
    intro t ht
    subst ht
    have hmade := FileTree.makeDirectories_eq_some.mpr ⟨hfree.parents, rfl⟩
    exact ⟨(), t.directories target.dropLast, by rw [hmade]; rfl, rfl⟩
  intro _
  exact does_publishDirectory hfree.named (rooted_directories hfree.named)
    (directories_below hfree.named hclosed (length_temporary hfree.named) hfree.fresh)
    (directories_below hfree.named hclosed rfl hfree.absent) hbuild hafter

/-- The objects of a store are not touched by what is made above a target. -/
theorem objectsOf_directories (hfree : H.Free before target)
    (hkept : ∀ row ∈ rows, H.Kept before data row) :
    objectsOf (before.directories target.dropLast) data rows = objectsOf before data rows := by
  apply List.map_congr_left
  intro row hrow
  obtain ⟨bytes, hbytes, -⟩ := (hkept row hrow).object
  unfold FileTree.content?
  rw [directories_of_ne hfree.parents (by simp [hbytes])]

/-- The manifest of a store that can be backed up. -/
theorem Intact.described (h : H.Intact before data copy rows) (hlaw : H.Lawful) :
    ∃ text, H.manifestBytes (H.sha256 copy) rows = .ok text ∧
      ∃ manifest, H.readManifest text = .ok manifest ∧ H.Describes manifest copy rows :=
  manifest_described hlaw (fun row hrow => (h.kept row hrow).valid)
    (hlaw.keyed copy rows h.contents).2

theorem does_createBackupSet (record : Bool) (hlaw : H.Lawful) (hclosed : before.Closed)
    (hfree : H.Free before target) (hstore : H.Intact before data copy rows)
    (hrecord : ∀ report database, before (data ++ databasePath) = some (.file database) →
      (H.recorded report database).isSome)
    (htext : H.manifestBytes (H.sha256 copy) rows = .ok text)
    (hmanifest : ∃ manifest, H.readManifest text = .ok manifest ∧ H.Describes manifest copy rows) :
    Mortal.Does (fun t => t = before) (H.createBackupSet data target record)
      (fun report t => report = ⟨"backup_set.v1", target, H.sha256 copy, rows.length, true⟩ ∧
        t.subtree target = setTree (some copy) (some text) (objectsOf before data rows))
      (Holding target (setTree (some copy) (some text) (objectsOf before data rows)))
      (Holding target (setTree (some copy) (some text) (objectsOf before data rows))) := by
  obtain ⟨database, hdatabase, hcopy⟩ := hstore.database
  have hthere : before (data ++ databasePath) ≠ none := by simp [hdatabase]
  have hbase : H.Intact (before.directories target.dropLast) data copy rows := by
    refine ⟨⟨database, ?_, hcopy⟩, hstore.sound, hstore.contents, fun row hrow => ?_⟩
    · rw [directories_of_ne hfree.parents hthere, hdatabase]
    · obtain ⟨hrowvalid, bytes, hbytes, hholds⟩ := hstore.kept row hrow
      exact ⟨hrowvalid, bytes, by rw [directories_of_ne hfree.parents (by simp [hbytes]), hbytes],
        hholds⟩
  have hout : Outside (before.directories target.dropLast) data rows (H.temporary target) := by
    refine ⟨hclosed.not_below hfree.fresh hthere, fun h => ?_, fun row hrow => ?_⟩
    · intro hbelow
      obtain ⟨q, hq⟩ := hbelow
      rw [← hq] at h
      exact h (directories_below hfree.named hclosed (length_temporary hfree.named) hfree.fresh q)
    · obtain ⟨bytes, hbytes, -⟩ := (hstore.kept row hrow).object
      exact hclosed.not_below hfree.fresh (by simp [hbytes])
  apply does_publishFresh hclosed hfree
  · have hbuild := does_buildSet hlaw (rooted_directories hfree.named) hbase hout htext hmanifest
    rw [objectsOf_directories hfree hstore.kept] at hbuild
    apply hbuild.bind
    intro report
    apply Mortal.Does.pure
    intro t ht
    exact ⟨by rw [ht.1], ht.2⟩
  · cases record with
    | false => exact Mortal.Does.pure () fun _ h => h.whole
    | true =>
      apply Mortal.Does.action _ (fun _ h => h.whole) fun _ h => h.whole
      intro t ht
      have hstill : t.content? (data ++ databasePath) = some database := by
        apply FileTree.content?_eq_some.mpr
        rw [ht.frame _ (hclosed.not_below hfree.fresh hthere) (hclosed.not_below hfree.absent hthere)
          (Set.notMem_empty _), directories_of_ne hfree.parents hthere, hdatabase]
      obtain ⟨written, hwritten⟩ := Option.isSome_iff_exists.mp (hrecord _ database hdatabase)
      refine ⟨(), t.put (data ++ databasePath) (.file written), ?_, ?_⟩
      · simp only [bind_ok, orThrow_ok]
        exact ⟨database, hstill, written, hwritten, rfl⟩
      · have hwhole := ht.whole
        rw [← hwhole]
        funext q
        apply FileTree.put_of_ne
        intro heq
        exact hclosed.not_below hfree.absent hthere (heq ▸ List.prefix_append target q)

/-- A set is still complete in a tree that leads to all that was there. -/
theorem Complete.of_same {set set' : Fs} (h : H.Complete set copy rows)
    (hsame : ∀ q, set q ≠ none → set' q = set q) : H.Complete set' copy rows := by
  have hnode : ∀ {q : FsPath} {node : Node Bytes}, set q = some node → set' q = some node := by
    intro q node hq
    rw [hsame q (by simp [hq]), hq]
  refine ⟨hnode h.root, hnode h.stored, h.sound, h.contents, ?_, fun hne => ?_, fun row hrow => ?_⟩
  · obtain ⟨text, manifest, htext, hread, hdescribes⟩ := h.manifest
    exact ⟨text, manifest, hnode htext, hread, hdescribes⟩
  · exact ⟨hnode (h.evidence hne).1, hnode (h.evidence hne).2⟩
  · obtain ⟨hdirectory, hvalid, bytes, hbytes, hholds⟩ := h.objects row hrow
    exact ⟨hnode hdirectory, hvalid, bytes, hnode hbytes, hholds⟩

theorem does_restoreBackupSet (hlaw : H.Lawful) (hclosed : before.Closed) (hfree : H.Free before target)
    (hcomplete : H.Complete (before.subtree source) copy rows)
    (hmanifest : before (source ++ manifestPath) = some (.file text)) :
    Mortal.Does (fun t => t = before) (H.restoreBackupSet source target)
      (fun report t => report = ⟨"backup_set.v1", target, H.sha256 copy, rows.length, true⟩ ∧
        t.subtree target = setTree (some copy) (some text) (objectsOf before source rows))
      (Holding target (setTree (some copy) (some text) (objectsOf before source rows)))
      (Holding target (setTree (some copy) (some text) (objectsOf before source rows))) := by
  have hdatabase : before (source ++ databasePath) = some (.file copy) := hcomplete.stored
  have hkept : ∀ row ∈ rows, H.Kept before source row := by
    intro row hrow
    obtain ⟨hvalid, bytes, hbytes, hholds⟩ := (hcomplete.objects row hrow).2
    exact ⟨hvalid, bytes, hbytes, hholds⟩
  have hstill : ∀ {q : FsPath} {node : Node Bytes}, before q = some node →
      before.directories target.dropLast q = some node := by
    intro q node hq
    rw [directories_of_ne hfree.parents (by simp [hq]), hq]
  have hbase : H.Complete ((before.directories target.dropLast).subtree source) copy rows :=
    hcomplete.of_same fun q hq => directories_of_ne hfree.parents hq
  have hout : Outside (before.directories target.dropLast) source rows (H.temporary target) := by
    refine ⟨hclosed.not_below hfree.fresh (by simp [hdatabase]), fun _ => ?_, fun row hrow => ?_⟩
    · exact hclosed.not_below hfree.fresh (by simp [hmanifest])
    · obtain ⟨bytes, hbytes, -⟩ := (hkept row hrow).object
      exact hclosed.not_below hfree.fresh (by simp [hbytes])
  have hstart : ∀ t, t = before →
      Holding target (setTree (some copy) (some text) (objectsOf before source rows)) t := by
    intro t ht
    rw [ht]
    exact Or.inr fun q => hclosed.absent hfree.absent (List.prefix_append target q)
  apply Mortal.Does.bind (Q := fun _ t => t = before)
  · apply Mortal.Does.look _ hstart hstart
    intro t ht
    exact ⟨_, verifyBackupSet_ok.mpr ⟨copy, rows, ht ▸ hcomplete, rfl⟩, ht⟩
  intro _
  apply does_publishFresh hclosed hfree
  · have hrestore := does_restoreSet hlaw (rooted_directories hfree.named) (hstill hdatabase)
      (hstill hmanifest) hbase hout
    rw [objectsOf_directories hfree hkept] at hrestore
    apply hrestore.bind
    intro report
    apply Mortal.Does.pure
    intro t ht
    exact ⟨by rw [ht.1], ht.2⟩
  · exact Mortal.Does.pure () fun _ h => h.whole

/-- The objects of a set are those it was made of. -/
theorem objectsOf_setTree (hnodup : (rows.map ContentRow.contentSha256).Nodup)
    (hkept : ∀ row ∈ rows, H.Kept store data row)
    (hset : t.subtree source = setTree database manifest (objectsOf store data rows)) :
    objectsOf t source rows = objectsOf store data rows := by
  apply List.map_congr_left
  intro row hrow
  obtain ⟨bytes, hbytes, -⟩ := (hkept row hrow).object
  have hthere : t (source ++ objectPath row.contentSha256) = some (.file bytes) := by
    show t.subtree source (objectPath row.contentSha256) = _
    rw [hset]
    apply setTree_object _ (mem_objectsOf hrow hbytes)
    rw [digests_objectsOf]
    exact hnodup
  unfold FileTree.content?
  rw [hthere, hbytes]

/-- A store whose objects are all there is backed up by a copy of its database, a manifest that describes
it and exactly the objects that it refers to, unless something goes wrong from outside; the target holds
all of that or nothing. -/
theorem create_intact {record : Bool} (hlaw : H.Lawful) (hclosed : before.Closed)
    (hfree : H.Free before target) (hstore : H.Intact before data copy rows)
    (hrecord : ∀ report database, before (data ++ databasePath) = some (.file database) →
      (H.recorded report database).isSome) :
    ∃ text, H.manifestBytes (H.sha256 copy) rows = .ok text ∧
      Mortal.Does (fun t => t = before) (H.createBackupSet data target record)
        (fun report t => report = ⟨"backup_set.v1", target, H.sha256 copy, rows.length, true⟩ ∧
          t.subtree target = setTree (some copy) (some text) (objectsOf before data rows))
        (Holding target (setTree (some copy) (some text) (objectsOf before data rows)))
        (Holding target (setTree (some copy) (some text) (objectsOf before data rows))) := by
  obtain ⟨text, htext, hmanifest⟩ := hstore.described hlaw
  exact ⟨text, htext, does_createBackupSet record hlaw hclosed hfree hstore hrecord htext hmanifest⟩

end BackupHost

namespace Sample

open BackupHost

theorem valid_evidenceDigest : validDigest evidenceDigest := by decide +kernel

theorem lawful_backupHost : backupHost.Lawful where
  ascii _ _ := rfl
  timestamp := by decide +kernel
  hex bytes := by
    show validDigest (if bytes = databaseBytes then databaseDigest
      else if bytes = evidenceBytes then evidenceDigest
      else String.ofList (List.replicate 64 '0'))
    split
    · decide +kernel
    · split
      · exact valid_evidenceDigest
      · decide +kernel
  keyed _ rows h := by
    obtain rfl := Option.some.inj h
    exact ⟨by simp, by decide⟩

theorem free_storeTree : backupHost.Free storeTree ["backups", "first"] where
  named := by simp
  absent := by decide +kernel
  parents q hq := by
    have hall : ∀ q ∈ ["backups"].inits, storeTree q = none ∨ storeTree q = some .directory := by
      decide +kernel
    exact hall q ((List.mem_inits _ _).mpr hq)
  fresh := by decide +kernel

theorem intact_storeTree : backupHost.Intact storeTree ["data"] databaseBytes [evidenceRow] where
  database := ⟨databaseBytes, by decide +kernel, rfl⟩
  sound := rfl
  contents := rfl
  kept row hrow := by
    rw [List.mem_singleton.mp hrow]
    exact ⟨valid_evidenceDigest, evidenceBytes, by decide +kernel, by decide +kernel, by decide +kernel⟩

theorem intact_backup : ∃ text, backupHost.manifestBytes databaseDigest [evidenceRow] = .ok text ∧
    Mortal.Does (fun t => t = storeTree)
      (backupHost.createBackupSet ["data"] ["backups", "first"] true)
      (fun report t => report = ⟨"backup_set.v1", ["backups", "first"], databaseDigest, 1, true⟩ ∧
        t.subtree ["backups", "first"] =
          setTree (some databaseBytes) (some text) (objectsOf storeTree ["data"] [evidenceRow]))
      (Holding ["backups", "first"]
        (setTree (some databaseBytes) (some text) (objectsOf storeTree ["data"] [evidenceRow])))
      (Holding ["backups", "first"]
        (setTree (some databaseBytes) (some text) (objectsOf storeTree ["data"] [evidenceRow]))) :=
  create_intact lawful_backupHost closed_storeTree free_storeTree intact_storeTree fun _ _ _ => rfl

end Sample

namespace BackupHost

variable {H : BackupHost} {before : Fs} {data source target : FsPath} {copy : Bytes}
  {rows : List ContentRow}

/-- A set that verifies is restored to a set of the same database, manifest and objects and nothing else,
unless something goes wrong from outside; the target holds all of that or nothing. -/
theorem restore_verified {report : BackupSetReport} (hlaw : H.Lawful) (hclosed : before.Closed)
    (hfree : H.Free before target) (hverified : H.verifyBackupSet before source = .ok report) :
    ∃ copy text rows, before (source ++ databasePath) = some (.file copy) ∧
      before (source ++ manifestPath) = some (.file text) ∧ H.contents copy = some rows ∧
      Mortal.Does (fun t => t = before) (H.restoreBackupSet source target)
        (fun restored t => restored = { report with directory := target } ∧
          t.subtree target = setTree (some copy) (some text) (objectsOf before source rows))
        (Holding target (setTree (some copy) (some text) (objectsOf before source rows)))
        (Holding target (setTree (some copy) (some text) (objectsOf before source rows))) := by
  obtain ⟨copy, rows, hcomplete, rfl⟩ := verifyBackupSet_ok.mp hverified
  obtain ⟨text, manifest, htext, -⟩ := hcomplete.manifest
  exact ⟨copy, text, rows, hcomplete.stored, htext, hcomplete.contents,
    does_restoreBackupSet hlaw hclosed hfree hcomplete htext⟩

end BackupHost

namespace Sample

open BackupHost

/-- A tree at a path, and nothing else. -/
def mounted (root : FsPath) (S : Fs) : Fs := fun q =>
  if root <+: q then S (q.drop root.length) else if q <+: root then some .directory else none

theorem subtree_mounted (root : FsPath) (S : Fs) : (mounted root S).subtree root = S := by
  funext q
  show mounted root S (root ++ q) = S q
  rw [mounted, if_pos (List.prefix_append root q), List.drop_left]

theorem closed_mounted {root : FsPath} {S : Fs} (h : S.Closed) (hroot : S [] = some .directory) :
    (mounted root S).Closed := by
  intro p q hpq hne hq
  by_cases hrq : root <+: q
  · obtain ⟨r, rfl⟩ := hrq
    rcases List.prefix_or_prefix_of_prefix hpq (List.prefix_append root r) with hp | hp
    · by_cases heq : p = root
      · rw [heq, mounted, if_pos (List.prefix_refl _), List.drop_length, hroot]
      · have hnot : ¬root <+: p := fun h =>
          heq (hp.eq_of_length (Nat.le_antisymm hp.length_le h.length_le))
        rw [mounted, if_neg hnot, if_pos hp]
    · obtain ⟨r', rfl⟩ := hp
      rw [mounted, if_pos (List.prefix_append _ _), List.drop_left] at hq ⊢
      exact h r' r ((List.prefix_append_right_inj root).mp hpq) (fun heq => hne (heq ▸ rfl)) hq
  · have hqr : q <+: root := by
      by_contra hnot
      exact hq (by rw [mounted, if_neg hrq, if_neg hnot])
    have hnot : ¬root <+: p := fun h => hrq (h.trans hpq)
    rw [mounted, if_neg hnot, if_pos (hpq.trans hqr)]

theorem free_mounted (S : Fs) : backupHost.Free (mounted ["backups", "first"] S) ["restored"] where
  named := by simp
  absent := rfl
  parents q hq := by
    rw [List.prefix_nil.mp hq]
    exact Or.inr rfl
  fresh := rfl

/-- The set of the sample store. -/
def backedUp (text : Bytes) : Fs :=
  setTree (some databaseBytes) (some text) (objectsOf storeTree ["data"] [evidenceRow])

theorem verified_backup : ∃ copy text rows,
    backupHost.verifyBackupSet (mounted ["backups", "first"] (backedUp text)) ["backups", "first"] =
        .ok ⟨"backup_set.v1", ["backups", "first"], databaseDigest, 1, true⟩ ∧
      Mortal.Does (fun t => t = mounted ["backups", "first"] (backedUp text))
        (backupHost.restoreBackupSet ["backups", "first"] ["restored"])
        (fun report t => report = ⟨"backup_set.v1", ["restored"], databaseDigest, 1, true⟩ ∧
          t.subtree ["restored"] = setTree (some copy) (some text)
            (objectsOf (mounted ["backups", "first"] (backedUp text)) ["backups", "first"] rows))
        (Holding ["restored"] (setTree (some copy) (some text)
          (objectsOf (mounted ["backups", "first"] (backedUp text)) ["backups", "first"] rows)))
        (Holding ["restored"] (setTree (some copy) (some text)
          (objectsOf (mounted ["backups", "first"] (backedUp text)) ["backups", "first"] rows))) := by
  obtain ⟨text, -, hmanifest⟩ := intact_storeTree.described lawful_backupHost
  have hverified : backupHost.verifyBackupSet (mounted ["backups", "first"] (backedUp text))
      ["backups", "first"] = .ok ⟨"backup_set.v1", ["backups", "first"], databaseDigest, 1, true⟩ := by
    refine verifyBackupSet_ok.mpr ⟨databaseBytes, [evidenceRow], ?_, rfl⟩
    rw [subtree_mounted]
    exact complete_setTree rfl rfl (List.nodup_singleton _) hmanifest intact_storeTree.kept
  obtain ⟨copy, text', rows, -, htext, -, hdoes⟩ := restore_verified lawful_backupHost
    (closed_mounted closed_setTree rfl) (free_mounted (backedUp text)) hverified
  have hsame : text = text' := by
    have hset : (mounted ["backups", "first"] (backedUp text)).subtree ["backups", "first"]
        manifestPath = some (.file text') := htext
    rw [subtree_mounted, backedUp, setTree_manifest] at hset
    cases hset
    rfl
  subst hsame
  exact ⟨copy, text, rows, hverified, hdoes⟩

end Sample

namespace BackupHost

variable {H : BackupHost} {before : Fs} {data source target : FsPath} {copy : Bytes}
  {rows : List ContentRow}

/-- Whenever a store whose objects are all there has been backed up, the set is later restored to a copy
of the database and the objects as they were when the set was made. -/
theorem restore_created {record : Bool} {backup : FsPath} (hlaw : H.Lawful) (hclosed : before.Closed)
    (hfree : H.Free before backup) (hstore : H.Intact before data copy rows)
    (hrecord : ∀ report database, before (data ++ databasePath) = some (.file database) →
      (H.recorded report database).isSome)
    {fates rest : List Fate} {report : BackupSetReport} {after later : Fs}
    (hcreated : (H.createBackupSet data backup record).run fates before =
      (.returned report, rest, after))
    (hsame : later.subtree backup = after.subtree backup) (hlater : later.Closed)
    (htarget : H.Free later target) :
    ∃ text, Mortal.Does (fun t => t = later) (H.restoreBackupSet backup target)
      (fun restored t => restored = { report with directory := target } ∧
        t.subtree target = setTree (some copy) (some text) (objectsOf before data rows))
      (Holding target (setTree (some copy) (some text) (objectsOf before data rows)))
      (Holding target (setTree (some copy) (some text) (objectsOf before data rows))) := by
  have hnodup := (hlaw.keyed copy rows hstore.contents).1
  obtain ⟨text, htext, hmanifest⟩ := hstore.described hlaw
  have hcreate := does_createBackupSet record hlaw hclosed hfree hstore hrecord htext hmanifest
  have hend := hcreate.1 fates before rfl
  rw [hcreated] at hend
  obtain ⟨hreport, hset⟩ := hend
  rw [← hsame] at hset
  have hcomplete : H.Complete (later.subtree backup) copy rows := by
    rw [hset]
    exact complete_setTree hstore.sound hstore.contents hnodup hmanifest hstore.kept
  have htext' : later (backup ++ manifestPath) = some (.file text) := by
    show later.subtree backup manifestPath = _
    rw [hset, setTree_manifest]
    rfl
  have hrestore := does_restoreBackupSet hlaw hlater htarget hcomplete htext'
  rw [objectsOf_setTree hnodup hstore.kept hset] at hrestore
  refine ⟨text, ?_⟩
  rw [hreport]
  exact hrestore

end BackupHost

namespace Sample

open BackupHost

theorem restored_backup : ∃ report after text,
    (backupHost.createBackupSet ["data"] ["backups", "first"] true).run [] storeTree =
        (.returned report, [], after) ∧
      Mortal.Does (fun t => t = mounted ["backups", "first"] (after.subtree ["backups", "first"]))
        (backupHost.restoreBackupSet ["backups", "first"] ["restored"])
        (fun restored t => restored = { report with directory := ["restored"] } ∧
          t.subtree ["restored"] = backedUp text)
        (Holding ["restored"] (backedUp text)) (Holding ["restored"] (backedUp text)) := by
  obtain ⟨text, htext, hmanifest⟩ := intact_storeTree.described lawful_backupHost
  have hrecord : ∀ report database, storeTree (["data"] ++ databasePath) = some (.file database) →
      (backupHost.recorded report database).isSome := fun _ _ _ => rfl
  obtain ⟨report, after, hrun, -, hset⟩ := (does_createBackupSet true lawful_backupHost closed_storeTree
    free_storeTree intact_storeTree hrecord htext hmanifest).returns rfl
  have hclosed : (mounted ["backups", "first"] (after.subtree ["backups", "first"])).Closed := by
    rw [hset]
    exact closed_mounted closed_setTree rfl
  obtain ⟨text', hdoes⟩ := restore_created lawful_backupHost closed_storeTree free_storeTree
    intact_storeTree hrecord hrun (subtree_mounted _ _) hclosed (free_mounted _)
  exact ⟨report, after, text', hrun, hdoes⟩

end Sample

end NanFung
