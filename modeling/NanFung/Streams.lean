import NanFung.Lib.Chain
import NanFung.Sample

/-!
# Revision streams

The revisions of a stream form a chain that starts with an upsert numbered one: numbers without gap,
each revision superseding the one before, no upsert of the content that is already there, a
tombstone only after an upsert. The stream head, a row of its own, is the chain's last revision.
`persist_observation` and `finalize_full_snapshot` look at the head only, so the chain is maintained
because the head agrees with it.
-/

namespace NanFung

open Table

variable {env : Env} {G : Guard} {t : Time} {db db' : Db}

/-! ## The chain of a stream -/

/-- The revisions of a stream, in the order they were written. -/
def Db.revisionsOf (db : Db) (s : StreamKey) : List RevisionRow :=
  db.revisions.filter fun o => o.stream = s

/-- The head of a stream. -/
def Db.headOf? (db : Db) (s : StreamKey) : Option HeadRow := db.heads.find? fun h => h.stream = s

/-- A revision that may begin a stream. -/
structure RevisionRow.Starts (o : RevisionRow) : Prop where
  number : o.revisionNo = 1
  supersedes : o.supersedesId = none
  action : o.revisionAction = .upsert

/-- A revision that may come after another one. -/
structure RevisionRow.Follows (o q : RevisionRow) : Prop where
  number : q.revisionNo = o.revisionNo + 1
  supersedes : q.supersedesId = some o.observationId
  changes : ¬ (o.revisionAction = .upsert ∧ q.revisionAction = .upsert ∧
    o.recordHash = q.recordHash)
  deletes : q.revisionAction = .tombstone → o.revisionAction = .upsert

/-- What a head repeats of a revision. -/
structure HeadRow.Of (h : HeadRow) (o : RevisionRow) : Prop where
  observation : h.observationId = o.observationId
  hash : h.recordHash = o.recordHash
  number : h.revisionNo = o.revisionNo
  action : h.revisionAction = o.revisionAction

/-- The head of a stream is its last revision, and a stream without revisions has no head. -/
def HeadMatches (head : Option HeadRow) (last : Option RevisionRow) : Prop :=
  match head, last with
  | some h, some o => h.Of o
  | none, none => True
  | _, _ => False

/-- The representation invariant of a stream. -/
structure StreamInv (db : Db) (s : StreamKey) : Prop where
  chain : Chain RevisionRow.Starts RevisionRow.Follows (db.revisionsOf s)
  head : HeadMatches (db.headOf? s) (db.revisionsOf s).getLast?

/-! ## Preservation -/

theorem StreamInv.empty (s : StreamKey) : StreamInv {} s := ⟨Chain.nil, trivial⟩

/-- A revision that extends a head continues the chain that ends there. -/
theorem Extends.continued {o : RevisionRow} {last : Option RevisionRow} (h : Extends db.heads o)
    (hhead : HeadMatches (db.headOf? o.stream) last) :
    Continued RevisionRow.Starts RevisionRow.Follows last o := by
  unfold Db.headOf? at hhead
  cases hfind : db.heads.find? fun g => g.stream = o.stream with
  | none =>
    rw [hfind] at hhead
    cases last with
    | some q => exact hhead.elim
    | none =>
      refine ⟨by rw [h.number, hfind]; rfl, by rw [h.supersedes, hfind]; rfl, ?_⟩
      -- a tombstone needs a head
      cases haction : o.revisionAction with
      | upsert => rfl
      | tombstone =>
        obtain ⟨g, hg, -⟩ := h.deletes haction
        rw [hfind] at hg
        exact nomatch hg
  | some g =>
    rw [hfind] at hhead
    cases last with
    | none => exact hhead.elim
    | some q =>
      obtain ⟨hid, hhash, hno, haction⟩ : g.Of q := hhead
      refine ⟨?_, ?_, ?_, fun htombstone => ?_⟩
      · rw [h.number, hfind, ← hno]
        rfl
      · rw [h.supersedes, hfind, ← hid]
        rfl
      · rintro ⟨hq, ho, hsame⟩
        exact h.changes ho g hfind ⟨hhash.trans hsame, haction.trans hq⟩
      · obtain ⟨g', hg', hupsert⟩ := h.deletes htombstone
        rw [hfind, Option.mem_some_iff] at hg'
        rw [← haction, hg', hupsert]

/-- One more revision, with its head. -/
theorem StreamInv.revise (hkeyed : Keyed HeadRow.stream db.heads) {o : RevisionRow}
    (h : ∀ s, StreamInv db s) (hextends : Extends db.heads o)
    (hrevisions : db'.revisions = db.revisions ++ [o])
    (hheads : db'.heads = upsertHead (headOf o t) db.heads) (s : StreamKey) : StreamInv db' s := by
  have hhead : db'.headOf? s = if o.stream = s then some (headOf o t) else db.headOf? s := by
    unfold Db.headOf?
    rw [hheads, find?_upsertHead hkeyed]
    rfl
  by_cases hs : o.stream = s
  · subst hs
    have hrows : db'.revisionsOf o.stream = db.revisionsOf o.stream ++ [o] := by
      simp [Db.revisionsOf, hrevisions]
    constructor
    · rw [hrows]
      exact (h o.stream).chain.append (hextends.continued (h o.stream).head)
    · rw [hhead, if_pos rfl, hrows, List.getLast?_concat]
      exact ⟨rfl, rfl, rfl, rfl⟩
  · have hrows : db'.revisionsOf s = db.revisionsOf s := by
      simp [Db.revisionsOf, hrevisions, hs]
    constructor
    · rw [hrows]
      exact (h s).chain
    · rw [hhead, if_neg hs, hrows]
      exact (h s).head

/-- Every effect preserves the invariant of every stream. -/
theorem Effect.streams (e : Effect env G t db db') (hinv : RefInv env db)
    (h : ∀ s, StreamInv db s) (s : StreamKey) : StreamInv db' s := by
  cases e with
  | revise hd j a r o active datasource lane scope declared extends_ =>
    exact StreamInv.revise hinv.heads_keyed h extends_ rfl rfl s
  | _ => exact ⟨(h s).chain, (h s).head⟩

/-- In a reachable store every stream satisfies its invariant. -/
theorem Effects.streams (es : Effects env G db db') (hinv : StoreInv env db)
    (h : ∀ s, StreamInv db s) (s : StreamKey) : StreamInv db' s :=
  (es.preserve (I := fun s => StoreInv env s ∧ ∀ k, StreamInv s k)
    (fun _ he hI => ⟨he.storeInv hI.1, he.streams hI.1.references hI.2⟩) ⟨hinv, h⟩).2 s

theorem Reachable.streams (hu : Function.Injective env.platform.uuid)
    {allowed : World → Op → Prop} {w : World} (h : Reachable env allowed w) (s : StreamKey) :
    StreamInv w.db s :=
  ((h.mono fun w op _ => op.respects_any w.db).effects hu (World.Sound.init env)).streams
    (StoreInv.empty env) StreamInv.empty s

/-! ## The theorem -/

/-- The representation invariant of a stream, read off its rows. -/
structure StreamSound (db : Db) (s : StreamKey) : Prop where
  numbered : (db.revisionsOf s).map (·.revisionNo) = List.range' 1 (db.revisionsOf s).length
  first : ∀ o ∈ (db.revisionsOf s).head?, o.supersedesId = none ∧ o.revisionAction ≠ .tombstone
  supersedes : ∀ k o q, (db.revisionsOf s)[k]? = some o → (db.revisionsOf s)[k + 1]? = some q →
    q.supersedesId = some o.observationId
  one_head : Keyed HeadRow.stream db.heads
  head : (db.headOf? s).map (fun h => (h.observationId, h.recordHash, h.revisionNo, h.revisionAction)) =
    (db.revisionsOf s).getLast?.map fun o =>
      (o.observationId, o.recordHash, o.revisionNo, o.revisionAction)
  changes : ∀ k o q, (db.revisionsOf s)[k]? = some o → (db.revisionsOf s)[k + 1]? = some q →
    ¬ (o.revisionAction = .upsert ∧ q.revisionAction = .upsert ∧ o.recordHash = q.recordHash)
  deletes : ∀ k o q, (db.revisionsOf s)[k]? = some o → (db.revisionsOf s)[k + 1]? = some q →
    ¬ (o.revisionAction = .tombstone ∧ q.revisionAction = .tombstone)

theorem StreamInv.sound {s : StreamKey} (h : StreamInv db s) (hkeyed : Keyed HeadRow.stream db.heads) :
    StreamSound db s where
  numbered := h.chain.numbered (fun _ hs => hs.number) fun _ _ hf => hf.number
  first := fun o ho => by
    obtain ⟨-, hsup, haction⟩ := h.chain.first o ho
    exact ⟨hsup, by simp [haction]⟩
  supersedes := fun _ _ _ ho hq => (h.chain.follows_of_get? ho hq).supersedes
  one_head := hkeyed
  head := by
    have hhead := h.head
    revert hhead
    cases db.headOf? s with
    | none => cases (db.revisionsOf s).getLast? with
      | none => exact fun _ => rfl
      | some o => exact False.elim
    | some g => cases (db.revisionsOf s).getLast? with
      | none => exact False.elim
      | some o =>
        rintro ⟨hid, hhash, hno, haction⟩
        simp [hid, hhash, hno, haction]
  changes := fun _ _ _ ho hq => (h.chain.follows_of_get? ho hq).changes
  deletes := fun _ _ _ ho hq ⟨htombstone, htombstone'⟩ => by
    have hupsert := (h.chain.follows_of_get? ho hq).deletes htombstone'
    rw [htombstone] at hupsert
    exact nomatch hupsert

/-- A call of `persist_observation` or `finalize_full_snapshot`. -/
def Op.writesStreams : Op → Prop
  | .persistObservation .. | .finalizeFullSnapshot .. => True
  | _ => False

/-- Both are one transaction: an exception leaves the store as it was. -/
theorem Op.unchanged_of_error {op : Op} (hop : op.writesStreams) {e : StoreError}
    (h : ((op.exec env).run db).1 = .error e) : ((op.exec env).run db).2 = db := by
  have wrapped : ∀ {α : Type} {tx : Db → Except StoreError (α × Db)} {f : α → Reply},
      ((Proc.atomically tx >>= fun a => pure (f a)).run db).1 = .error e →
      ((Proc.atomically tx >>= fun a => pure (f a)).run db).2 = db := by
    intro α tx f h
    cases htx : tx db with
    | error e => rw [Proc.run_bind_of_error (Proc.run_atomically_of_error htx)]
    | ok r =>
      rw [Proc.run_bind_of_ok (Proc.run_atomically_of_ok (show tx db = .ok (r.1, r.2) from htx))] at h
      exact nomatch h
  cases op with
  | persistObservation | finalizeFullSnapshot => exact wrapped h
  | _ => exact hop.elim

/-- In every reachable store every stream is sound, and a writer of streams that raises changes
nothing. -/
theorem streams_sound (hu : Function.Injective env.platform.uuid) {w : World}
    (h : Reachable env anyCall w) :
    (∀ s, StreamSound w.db s) ∧ ∀ op : Op, op.writesStreams → ∀ e,
      ((op.exec env).run w.db).1 = .error e → (w.step env op).db = w.db :=
  ⟨fun s => (h.streams hu s).sound (h.sound hu).store.references.heads_keyed,
    fun _ hop _ he => Op.unchanged_of_error hop he⟩

theorem streams_sound_promoted :
    (∀ s, StreamSound Sample.promoted.db s) ∧ ∀ op : Op, op.writesStreams → ∀ e,
      ((op.exec Sample.env).run Sample.promoted.db).1 = .error e →
        (Sample.promoted.step Sample.env op).db = Sample.promoted.db :=
  streams_sound Sample.uuid_injective Sample.promoted_reachable

end NanFung
