import NanFung.Lib.Paging
import NanFung.Read.Cursors

/-!
# Reading all pages

A reader follows `next_cursor` from page to page while the store grows and the clock goes on. The pages
show the store as it was at the anchor of the first request. The in-memory path compares sort keys only,
so records of one sort key on both sides of a page boundary are lost; the storage path refuses them.
-/

namespace NanFung

open Base64 PyText

variable {P : Platform} {svc : ReadService} {clock : ServiceClock} {context : ReadContext}
  {q : ReadQuery} {fp : String} {anchor : Time} {records : List ServiceRecord}

/-! ## Following cursors -/

/-- The bounds of a cursor in `ReadQuery.__post_init__`. -/
def CursorBounds (cursor : Option PyText) : Prop :=
  ∀ c ∈ cursor, 1 ≤ c.length ∧ c.length ≤ 4096

/-- The same query with another cursor. -/
def ReadQuery.withCursor (q : ReadQuery) (cursor : Option PyText) (h : CursorBounds cursor) :
    ReadQuery :=
  { q with cursor, cursor_bounds := h }

/-- The query of the next page, as its constructor takes it. -/
def ReadQuery.resume (q : ReadQuery) (cursor : List Char) : Except ServiceError ReadQuery :=
  if h : 1 ≤ (ofChars cursor).length ∧ (ofChars cursor).length ≤ 4096 then
    .ok (q.withCursor (some (ofChars cursor)) fun _ hc => Option.some.inj hc ▸ h)
  else .error (.invalidReadRequest "cursor must be non-empty when supplied")

/-- What one request finds: the store, and what the clock shows. -/
structure Visit where
  repository : ReadRepository
  clock : ServiceClock

/-- The service over the store of a visit. -/
def ReadService.over (svc : ReadService) (repository : ReadRepository) : ReadService :=
  { svc with repository }

/-- The responses to a reader that asks for the next page as long as there is a cursor. -/
def ReadService.follow (P : Platform) (svc : ReadService) (context : ReadContext) :
    List Visit → ReadQuery → Except ServiceError (List ReadResponse)
  | [], _ => .ok []
  | v :: visits, q => do
    let response ← (svc.over v.repository).query P v.clock context q
    match response.nextCursor with
    | none => .ok [response]
    | some cursor => do
      let q' ← q.resume cursor
      let responses ← svc.follow P context visits q'
      .ok (response :: responses)

/-- The sort key as pages compare it. -/
def ServiceRecord.key (r : ServiceRecord) : String ×ₗ String := toLex r.sortKey

/-- `sorted(records, key=_sort_key, reverse=True)` -/
def newestFirst (records : List ServiceRecord) : List ServiceRecord :=
  records.insertionSort fun a b =>
    toLex (b.availableAt, b.observationId) ≤ toLex (a.availableAt, a.observationId)

theorem key_le_iff {a b : ServiceRecord} : a.key ≤ b.key ↔
    toLex (a.availableAt, a.observationId) ≤ toLex (b.availableAt, b.observationId) := by
  simp only [ServiceRecord.key, ServiceRecord.sortKey, Prod.Lex.toLex_le_toLex, isoformat_lt_iff,
    isoformat_injective.eq_iff]

/-- The texts of the sort key are in the order of what they stand for. -/
theorem descending_newestFirst (records : List ServiceRecord) :
    Paging.Descending ServiceRecord.key (newestFirst records) := by
  have hsorted : (newestFirst records).Pairwise fun a b =>
      toLex (b.availableAt, b.observationId) ≤ toLex (a.availableAt, a.observationId) := by
    have : Std.Total fun a b : ServiceRecord =>
        toLex (b.availableAt, b.observationId) ≤ toLex (a.availableAt, a.observationId) :=
      ⟨fun a b => le_total _ _⟩
    have : IsTrans ServiceRecord fun a b =>
        toLex (b.availableAt, b.observationId) ≤ toLex (a.availableAt, a.observationId) :=
      ⟨fun a b c hab hbc => le_trans hbc hab⟩
    exact List.pairwise_insertionSort _ _
  exact hsorted.imp fun {a b} h => key_le_iff.mpr h

/-- Sort keys fall. -/
def StrictlyFalling (records : List ServiceRecord) : Prop :=
  records.Pairwise fun a b => b.key < a.key

theorem strictlyFalling_newestFirst (hdistinct : (records.map ServiceRecord.sortKey).Nodup) :
    StrictlyFalling (newestFirst records) := by
  have hperm : (newestFirst records).Perm records := List.perm_insertionSort _ _
  have hne : (newestFirst records).Pairwise fun a b => a.sortKey ≠ b.sortKey :=
    List.pairwise_map.mp ((hperm.map _).nodup_iff.mpr hdistinct)
  refine ((descending_newestFirst records).and hne).imp ?_
  intro a b h
  exact lt_of_le_of_ne h.1 fun heq => h.2 (toLex.injective heq).symm

/-! ## One request -/

/-- What a request that goes on after a key asks for: the query itself, or the query with a cursor that
was issued for it. -/
def Asks (P : Platform) (svc : ReadService) (context : ReadContext) (q : ReadQuery) (fp : String)
    (anchor : Time) (clock : ServiceClock) (q' : ReadQuery) : Option (String × String) → Prop
  | none => q' = q ∧ q.asOf.getD clock.anchor = anchor
  | some key => ∃ lastAvailableAt lastObservationId issuedAt h,
    let call := ⟨context.policyFingerprint P, fp, anchor, lastAvailableAt, lastObservationId, issuedAt⟩
    key = (isoformat lastAvailableAt, lastObservationId) ∧
      q' = q.withCursor (some (ofChars (makeCursor svc call))) h ∧
      (∀ asOf ∈ q.asOf, asOf = anchor) ∧ clock.validate.val ≤ issuedAt.val + svc.cursorMaxAge

theorem cursorKey_payload (call : CursorCall) : cursorKey (Json.sorted (.obj call.payload)) =
    (isoformat call.lastAvailableAt, call.lastObservationId) := by
  have hlast : (Json.sorted (.obj call.payload)).get? "last_available_at" = _ := get?_payload rfl
  have hid : (Json.sorted (.obj call.payload)).get? "last_observation_id" = _ := get?_payload rfl
  rw [cursorKey, hlast, hid]
  rfl

/-- A query with an issued cursor reaches its page if the cursor is timely. -/
theorem query_withCursor (call : CursorCall) (hfp : queryFingerprint P q = .ok fp)
    (hcall : call.queryFingerprint = fp) (hpolicy : call.policyFingerprint = context.policyFingerprint P)
    (hasOf : ∀ asOf ∈ q.asOf, asOf = call.anchorAsOf)
    (hfresh : clock.validate.val ≤ call.issuedAt.val + svc.cursorMaxAge)
    (h : CursorBounds (some (ofChars (makeCursor svc call)))) :
    svc.query P clock context (q.withCursor _ h) = queryPage P svc clock context (q.withCursor _ h) fp
      call.anchorAsOf (some (Json.sorted (.obj call.payload))) := by
  have hfp' : queryFingerprint P (q.withCursor _ h) = .ok fp := hfp
  have hasOf' : ∀ asOf ∈ (q.withCursor _ h).asOf, asOf = call.anchorAsOf := hasOf
  have hvalid : validateCursor P svc clock context (Json.sorted (.obj call.payload)) fp
      call.anchorAsOf = .ok () := by
    apply (validateCursor_payload hfp' hasOf').mpr
    exact ⟨hfp'.trans (congrArg _ hcall.symm), hpolicy, hasOf', hfresh⟩
  rw [ReadService.query, hfp', ok_bind]
  dsimp only [ReadQuery.withCursor]
  rw [decodeCursor_makeCursor, ok_bind, anchorAsOf_payload, require, if_pos hasOf, ok_bind, ok_bind,
    hvalid, ok_bind]

/-- Such a request reaches its page. -/
theorem query_of_asks (hfp : queryFingerprint P q = .ok fp) (hc : q.cursor = none)
    {q' : ReadQuery} {after : Option (String × String)}
    (h : Asks P svc context q fp anchor clock q' after) :
    ∃ cursor : Option Json, cursor.map cursorKey = after ∧
      svc.query P clock context q' = queryPage P svc clock context q' fp anchor cursor := by
  cases after with
  | none =>
    obtain ⟨rfl, hanchor⟩ := h
    refine ⟨none, rfl, ?_⟩
    rw [ReadService.query, hfp, ok_bind, hc]
    dsimp only
    rw [anchorAsOf, ok_bind, hanchor]
  | some key =>
    obtain ⟨lastAvailableAt, lastObservationId, issuedAt, hbounds, rfl, rfl, hasOf, hfresh⟩ := h
    refine ⟨some (Json.sorted (.obj (CursorCall.payload ⟨context.policyFingerprint P, fp, anchor,
      lastAvailableAt, lastObservationId, issuedAt⟩))), ?_, ?_⟩
    · rw [Option.map_some, cursorKey_payload]
    · exact query_withCursor _ hfp rfl rfl hasOf hfresh hbounds

/-- The response for what is left after a key. -/
theorem respond_nextCursor (asOf : Time) (rs : List ServiceRecord) (total : Nat) :
    (respond P svc clock context q fp asOf rs total).nextCursor =
      (((rs.take q.limit).getLast?.filter fun _ => (rs.take q.limit).length < rs.length).map
        fun last => makeCursor svc ⟨context.policyFingerprint P, fp, asOf, last.availableAt,
          last.observationId, clock.issue⟩) := rfl

/-- What remains after a key, as pages see it. -/
def remaining (records : List ServiceRecord) (after : Option (String × String)) :
    List ServiceRecord :=
  Paging.rest ServiceRecord.key (newestFirst records) (after.map toLex)

/-- The cursor of a response stands for the key that pages go on with. -/
theorem nextCursor_cases (clock : ServiceClock) (asOf : Time) (after : Option (String × String))
    (total : Nat) :
    ((respond P svc clock context q fp asOf (remaining records after) total).nextCursor = none ∧
        Paging.next ServiceRecord.key q.limit (newestFirst records) (after.map toLex) = none) ∨
      ∃ last ∈ remaining records after,
        (respond P svc clock context q fp asOf (remaining records after) total).nextCursor =
          some (makeCursor svc ⟨context.policyFingerprint P, fp, asOf, last.availableAt,
            last.observationId, clock.issue⟩) ∧
        Paging.next ServiceRecord.key q.limit (newestFirst records) (after.map toLex) =
          some last.key := by
  rw [respond_nextCursor]
  change _ ∧ ((_ : Option ServiceRecord).map _) = none ∨ _
  rw [Paging.next, Paging.page]
  rw [← remaining]
  cases hlast : (((remaining records after).take q.limit).getLast?.filter fun _ =>
    ((remaining records after).take q.limit).length < (remaining records after).length) with
  | none => exact Or.inl ⟨rfl, rfl⟩
  | some last =>
    refine Or.inr ⟨last, ?_, rfl, rfl⟩
    have hmem := (Option.filter_eq_some_iff.mp hlast).1
    exact List.mem_of_mem_take (List.mem_of_getLast? hmem)

/-! ## The in-memory path -/

/-- The repository has no storage pages for the query. -/
def Plain (q : ReadQuery) (repository : ReadRepository) : Prop :=
  repository.queryPage = none ∨ q.queryKind = "health"

/-- At the anchor these are the records of the store that the query asks for, whatever its cursor. -/
def Offers (P : Platform) (svc : ReadService) (context : ReadContext) (q : ReadQuery) (anchor : Time)
    (records : List ServiceRecord) (repository : ReadRepository) : Prop :=
  ∀ cursor h, ∃ loaded,
    loadRecords (svc.over repository) context (q.withCursor cursor h) anchor = .ok loaded ∧
      loaded.filter (fun r => r.satisfies P q) = records

theorem queryPage_plain {repository : ReadRepository} (hplain : Plain q repository)
    (hoffers : Offers P svc context q anchor records repository) (cursor : Option PyText)
    (h : CursorBounds cursor) (decoded : Option Json) :
    queryPage P (svc.over repository) clock context (q.withCursor cursor h) fp anchor decoded =
      .ok (respond P svc clock context q fp anchor (remaining records (decoded.map cursorKey))
        records.length) := by
  obtain ⟨loaded, hloaded, rfl⟩ := hoffers cursor h
  have hlength : (newestFirst (loaded.filter fun r => r.satisfies P q)).length =
      (loaded.filter fun r => r.satisfies P q).length := List.length_insertionSort _ _
  unfold queryPage
  split
  · next load hload hkind =>
    rcases hplain with hnone | hhealth
    · cases hnone.symm.trans hload
    · exact absurd hhealth (of_decide_eq_true hkind)
  · rw [hloaded, ok_bind]
    cases decoded with
    | none => exact congrArg (fun n => Except.ok (respond P svc clock context q fp anchor _ n)) hlength
    | some decoded =>
      exact congrArg (fun n => Except.ok (respond P svc clock context q fp anchor _ n)) hlength

/-- A request finds the cursor of the response before it still valid. -/
def Timely (svc : ReadService) (u v : Visit) : Prop :=
  v.clock.validate.val ≤ u.clock.issue.val + svc.cursorMaxAge

/-- The cursors for these records are no longer than a query may hold. -/
def CursorsFit (P : Platform) (svc : ReadService) (context : ReadContext) (fp : String) (anchor : Time)
    (records : List ServiceRecord) (visits : List Visit) : Prop :=
  ∀ r ∈ records, ∀ v ∈ visits, (makeCursor svc ⟨context.policyFingerprint P, fp, anchor, r.availableAt,
    r.observationId, v.clock.issue⟩).length ≤ 4096

theorem length_makeCursor_pos (call : CursorCall) : 1 ≤ (makeCursor svc call).length := by
  rw [makeCursor, List.length_append, List.length_cons]
  omega

theorem resume_ok {cursor : List Char} (hpos : 1 ≤ cursor.length) (hle : cursor.length ≤ 4096) :
    ∃ h, q.resume cursor = .ok (q.withCursor (some (ofChars cursor)) h) := by
  have hbounds : 1 ≤ (ofChars cursor).length ∧ (ofChars cursor).length ≤ 4096 := by
    rw [ofChars, List.length_map]
    exact ⟨hpos, hle⟩
  exact ⟨_, dif_pos hbounds⟩

/-- What a reader gets from any request on, and the pages that this is. -/
theorem follow_of_asks (hfp : queryFingerprint P q = .ok fp) (hc : q.cursor = none)
    (hasOf : ∀ asOf ∈ q.asOf, asOf = anchor) : ∀ (visits : List Visit) (q' : ReadQuery)
    (after : Option (String × String)),
    (∀ v ∈ visits, Plain q v.repository ∧ Offers P svc context q anchor records v.repository) →
    visits.IsChain (Timely svc) → CursorsFit P svc context fp anchor records visits →
    (∀ v ∈ visits.head?, Asks P svc context q fp anchor v.clock q' after) →
    ∃ responses, svc.follow P context visits q' = .ok responses ∧
      responses.map (·.records) = Paging.follow ServiceRecord.key q.limit (newestFirst records)
        visits.length (after.map toLex) ∧
      ∀ response ∈ responses, response.anchorAsOf = anchor ∧ response.totalCount = records.length := by
  intro visits
  induction visits with
  | nil => exact fun _ _ _ _ _ _ => ⟨[], rfl, rfl, List.forall_mem_nil _⟩
  | cons v visits ih =>
    intro q' after hstore htimely hfit hasks
    obtain ⟨hplain, hoffers⟩ := hstore v List.mem_cons_self
    have hask := hasks v rfl
    -- the first request reaches its page
    obtain ⟨cursor, hcursor, hquery⟩ : ∃ cursor : Option Json, cursor.map cursorKey = after ∧
        (svc.over v.repository).query P v.clock context q' =
          queryPage P (svc.over v.repository) v.clock context q' fp anchor cursor :=
      query_of_asks hfp hc hask
    obtain ⟨c, hbounds, rfl⟩ : ∃ c h, q' = q.withCursor c h := by
      cases after with
      | none => exact ⟨q.cursor, q.cursor_bounds, hask.1⟩
      | some key =>
        obtain ⟨_, _, _, h, -, rfl, -⟩ := hask
        exact ⟨_, h, rfl⟩
    rw [queryPage_plain hplain hoffers, hcursor] at hquery
    have hlimit : 0 < q.limit := q.limit_bounds.1
    rw [ReadService.follow, hquery, ok_bind]
    rcases nextCursor_cases v.clock anchor after records.length with
      ⟨hnone, hnext⟩ | ⟨last, hmem, hsome, hnext⟩
    · rw [hnone]
      refine ⟨_, rfl, ?_, ?_⟩
      · rw [List.length_cons, Paging.follow, hnext]
        rfl
      · intro response hresponse
        rw [List.mem_singleton.mp hresponse]
        exact ⟨rfl, rfl⟩
    · rw [hsome]
      have hlast : last ∈ records := by
        have hsorted : last ∈ newestFirst records := by
          cases after with
          | none => exact hmem
          | some k => exact List.mem_of_mem_filter hmem
        exact (List.mem_insertionSort _).mp hsorted
      obtain ⟨h', hresume⟩ := resume_ok (q := q.withCursor c hbounds) (length_makeCursor_pos _)
        (hfit last hlast v List.mem_cons_self)
      have hchain := List.isChain_cons.mp htimely
      obtain ⟨responses, hfollow, hpages, hsame⟩ := ih _
        (some (isoformat last.availableAt, last.observationId))
        (fun u hu => hstore u (List.mem_cons_of_mem _ hu)) hchain.2
        (fun r hr u hu => hfit r hr u (List.mem_cons_of_mem _ hu))
        (fun u hu => ⟨_, _, v.clock.issue, h', rfl, rfl, hasOf, hchain.1 u hu⟩)
      refine ⟨respond P svc v.clock context q fp anchor (remaining records after) records.length ::
        responses, ?_, ?_, ?_⟩
      · dsimp only
        rw [hresume, ok_bind]
        exact congrArg (· >>= _) hfollow
      · rw [List.map_cons, List.length_cons, Paging.follow, hnext, hpages]
        rfl
      · exact List.forall_mem_cons.mpr ⟨⟨rfl, rfl⟩, hsame⟩

/-- A reader with enough requests sees the records as they were at the anchor of the first one: never one
twice, always in order, and all of them exactly if no page boundary has one sort key on both sides. -/
theorem follow_plain (v : Visit) (visits : List Visit) (hfp : queryFingerprint P q = .ok fp)
    (hc : q.cursor = none)
    (hstore : ∀ u ∈ v :: visits, Plain q u.repository ∧
      Offers P svc context q (q.asOf.getD v.clock.anchor) records u.repository)
    (htimely : (v :: visits).IsChain (Timely svc))
    (hfit : CursorsFit P svc context fp (q.asOf.getD v.clock.anchor) records (v :: visits))
    (hmany : records.length ≤ visits.length) :
    ∃ responses, svc.follow P context (v :: visits) q = .ok responses ∧
      (∀ response ∈ responses, response.anchorAsOf = q.asOf.getD v.clock.anchor ∧
        response.totalCount = records.length) ∧
      (responses.flatMap (·.records)).Sublist (newestFirst records) ∧
      (responses.flatMap (·.records) = newestFirst records ↔
        Paging.Separated ServiceRecord.key q.limit (newestFirst records)) := by
  have hasOf : ∀ asOf ∈ q.asOf, asOf = q.asOf.getD v.clock.anchor := by
    intro asOf h
    rw [Option.mem_def.mp h]
    rfl
  have hask : ∀ u ∈ (v :: visits).head?,
      Asks P svc context q fp (q.asOf.getD v.clock.anchor) u.clock q none := by
    intro u hu
    obtain rfl := Option.some.inj hu
    exact ⟨rfl, rfl⟩
  obtain ⟨responses, hfollow, hpages, hsame⟩ :=
    follow_of_asks hfp hc hasOf (v :: visits) q none hstore htimely hfit hask
  have hflat : responses.flatMap (·.records) = (Paging.follow ServiceRecord.key q.limit
      (newestFirst records) (visits.length + 1) none).flatten := congrArg List.flatten hpages
  have hlength : (newestFirst records).length < visits.length + 1 := by
    rw [newestFirst, List.length_insertionSort]
    exact Nat.lt_succ_of_le hmany
  refine ⟨responses, hfollow, hsame, ?_, ?_⟩
  · rw [hflat]
    exact Paging.flatten_follow_sublist (descending_newestFirst records)
  · rw [hflat]
    exact Paging.flatten_follow_eq_iff q.limit_bounds.1 (descending_newestFirst records) hlength

/-! ## The in-memory repository -/

/-- `InMemoryReadRepository`; `results` are its run-scoped records. -/
def inMemoryReadRepository (canonical : List ServiceRecord)
    (results : PyText → List ServiceRecord) : ReadRepository where
  queryCanonical _ asOf context := canonical.filter fun r =>
    decide (r.availableAt ≤ asOf) && context.allows r.accessClass
  queryResult := some fun ref _ asOf context => (results ref).filter fun r =>
    decide (r.availableAt ≤ asOf) && context.allows r.accessClass
  queryPage := none

/-- Records that become available after the anchor change nothing. -/
theorem offers_inMemory (canonical later : List ServiceRecord)
    (results : PyText → List ServiceRecord) (href : q.resultRef = none)
    (hlater : ∀ r ∈ later, anchor < r.availableAt) :
    Offers P svc context q anchor (canonical.filter fun r =>
      r.eligible context anchor && r.satisfies P q)
      (inMemoryReadRepository (canonical ++ later) results) := by
  intro cursor h
  have hload : loadRecords (svc.over (inMemoryReadRepository (canonical ++ later) results)) context
      (q.withCursor cursor h) anchor = .ok (((canonical ++ later).filter fun r =>
        decide (r.availableAt ≤ anchor) && context.allows r.accessClass).filter fun r =>
          r.eligible context anchor) := by
    have hnone : (q.withCursor cursor h).resultRef = none := href
    rw [loadRecords, hnone]
    rfl
  refine ⟨_, hload, ?_⟩
  have hdrop : later.filter (fun r => r.eligible context anchor && r.satisfies P q) = [] := by
    apply List.filter_eq_nil_iff.mpr
    intro r hr heligible
    have hle : ¬ r.availableAt ≤ anchor := not_le.mpr (hlater r hr)
    simp [ServiceRecord.eligible, hle] at heligible
  have hall : (canonical ++ later).filter (fun r => r.eligible context anchor && r.satisfies P q) =
      canonical.filter (fun r => r.eligible context anchor && r.satisfies P q) := by
    rw [List.filter_append, hdrop, List.append_nil]
  rw [← hall, List.filter_filter, List.filter_filter]
  apply List.filter_congr
  intro r _
  simp only [ServiceRecord.eligible]
  cases r.canonical <;> cases r.satisfies P q <;> cases context.allows r.accessClass <;> simp

namespace Sample

/-- A published price, by its identifier and the second it became available at. -/
def price (id : String) (availableAt : Time) : ServiceRecord where
  observationId := id
  datasourceId := "ons.prices"
  queryKind := "metrics"
  category := "prices"
  recordType := "metric"
  accessClass := .open_
  availableAt
  payload := []
  evidenceIds := ["ev_1"]
  sourceDate := none
  canonical := true
  lane := "production_ingestion"

theorem small_le {n : Nat} (h : n < 100) : n ≤ maxMicros := h.le.trans (by decide)

theorem metrics_known : "metrics" ∈ queryKinds := by decide

theorem single_bounds : 1 ≤ 1 ∧ 1 ≤ 100 := by decide

theorem no_cursor : ∀ c ∈ (none : Option PyText), 1 ≤ c.length ∧ c.length ≤ 4096 := by simp

theorem no_ref : ∀ ref ∈ (none : Option PyText), 1 ≤ ref.length ∧ ref.length ≤ 512 := by simp

theorem no_filters : ∀ f ∈ ([] : List (String × List PyText)), f.1 ∈ allowedFilters ∧ f.2 ≠ [] := by
  simp

/-- Metrics, one a page. -/
def pageQuery : ReadQuery where
  queryKind := "metrics"
  filters := []
  asOf := none
  cursor := none
  limit := 1
  resultRef := none
  kind_known := metrics_known
  limit_bounds := single_bounds
  cursor_bounds := no_cursor
  ref_bounds := no_ref
  filters_allowed := no_filters
  filters_nodup := List.nodup_nil

def pageFingerprint : String := ((queryFingerprint platform pageQuery).toOption).getD ""

theorem queryFingerprint_pageQuery : queryFingerprint platform pageQuery = .ok pageFingerprint := by
  decide +kernel

/-- Two prices of one instant, and one published while the reader reads. -/
def prices : List ServiceRecord :=
  [price "obs_1" ⟨1, one_le_maxMicros⟩, price "obs_2" ⟨1, one_le_maxMicros⟩]

def latePrice : ServiceRecord := price "obs_3" ⟨50, small_le (by decide)⟩

/-- A request that finds these records besides the prices. -/
def visitWith (later : List ServiceRecord) : Visit where
  repository := inMemoryReadRepository (prices ++ later) fun _ => []
  clock := ⟨⟨10, small_le (by decide)⟩, ⟨10, small_le (by decide)⟩, ⟨10, small_le (by decide)⟩⟩

def firstVisit : Visit := visitWith []

def laterVisits : List Visit := [visitWith [latePrice], visitWith [latePrice]]

theorem cursorsFit_prices : CursorsFit platform readService readContext pageFingerprint
    firstVisit.clock.anchor prices (firstVisit :: laterVisits) := by
  have hfit : ∀ r ∈ prices, (makeCursor readService ⟨readContext.policyFingerprint platform,
      pageFingerprint, firstVisit.clock.anchor, r.availableAt, r.observationId,
      firstVisit.clock.issue⟩).length ≤ 4096 := by decide +kernel
  intro r hr v hv
  have hclock : v.clock = firstVisit.clock := by
    simp only [laterVisits, List.mem_cons, List.not_mem_nil, or_false] at hv
    rcases hv with rfl | rfl | rfl <;> rfl
  rw [hclock]
  exact hfit r hr

theorem prices_eq : prices.filter (fun r => r.eligible readContext firstVisit.clock.anchor &&
    r.satisfies platform pageQuery) = prices := by
  apply List.filter_eq_self.mpr
  decide +kernel

/-- Both prices are read. -/
theorem follow_plain_prices : ∃ responses,
    readService.follow platform readContext (firstVisit :: laterVisits) pageQuery = .ok responses ∧
      responses.flatMap (·.records) = newestFirst prices := by
  have hoffers : ∀ later : List ServiceRecord, (∀ r ∈ later, firstVisit.clock.anchor < r.availableAt) →
      Offers platform readService readContext pageQuery firstVisit.clock.anchor prices
        (inMemoryReadRepository (prices ++ later) fun _ => []) := by
    intro later hlater
    have hall := @offers_inMemory platform readService readContext pageQuery
      firstVisit.clock.anchor prices later (fun _ => []) rfl hlater
    rwa [prices_eq] at hall
  have hlate : ∀ r ∈ [latePrice], firstVisit.clock.anchor < r.availableAt := by decide
  obtain ⟨responses, hfollow, -, -, hall⟩ := follow_plain firstVisit laterVisits
    queryFingerprint_pageQuery rfl
    (by
      simp only [laterVisits, List.forall_mem_cons]
      exact ⟨⟨Or.inl rfl, hoffers [] (List.forall_mem_nil _)⟩, ⟨Or.inl rfl, hoffers _ hlate⟩,
        ⟨Or.inl rfl, hoffers _ hlate⟩, List.forall_mem_nil _⟩)
    (by unfold laterVisits Timely; decide) cursorsFit_prices (by decide)
  refine ⟨responses, hfollow, hall.mpr (Paging.separated_of_strict ?_)⟩
  exact strictlyFalling_newestFirst (by decide +kernel)

end Sample

/-! ## The storage path -/

/-- What `_query_storage_page` accepts of a row. -/
def AdmissibleRow (P : Platform) (context : ReadContext) (q : ReadQuery) (anchor : Time)
    (r : ServiceRecord) : Prop :=
  (if q.resultRef = none then r.eligible context anchor = true
    else r.canonical = false ∧ r.availableAt ≤ anchor ∧ context.allows r.accessClass = true) ∧
    r.satisfies P q = true

theorem strictlyFalling_iff : StrictlyFalling records ↔
    ∀ p ∈ records.zip records.tail, ¬ toLex p.1.sortKey ≤ toLex p.2.sortKey := by
  have htrans : IsTrans ServiceRecord fun a b => b.key < a.key := ⟨fun a b c hab hbc => hbc.trans hab⟩
  rw [StrictlyFalling, ← List.isChain_iff_pairwise]
  induction records with
  | nil => simp
  | cons a rs ih =>
    cases rs with
    | nil => simp
    | cons b rs =>
      rw [List.isChain_cons_cons, List.tail_cons, List.zip_cons_cons, List.forall_mem_cons]
      exact and_congr not_le.symm ih

/-- A page of the storage, and what the service has made sure of it. -/
structure Accepted (P : Platform) (context : ReadContext) (q : ReadQuery) (anchor : Time)
    (after : Option (String × String)) (page : ReadPage) : Prop where
  bounded : page.records.length ≤ q.limit + 1
  counted : page.records.length ≤ page.totalCount
  admissible : ∀ r ∈ page.records, AdmissibleRow P context q anchor r
  falling : StrictlyFalling page.records
  beyond : ∀ key ∈ after, ∀ r ∈ page.records, r.key < toLex key

theorem queryStoragePage_ok
    {load : ReadQuery → Time → ReadContext → Option (String × String) → Option ReadPage}
    {decoded : Option Json} {response : ReadResponse} :
    queryStoragePage P svc clock context q load fp anchor decoded = .ok response ↔
      (∀ ref ∈ q.resultRef, context.grants ref = true) ∧ ∃ page,
        load q anchor context (decoded.map cursorKey) = some page ∧
        Accepted P context q anchor (decoded.map cursorKey) page ∧
        respond P svc clock context q fp anchor page.records page.totalCount = response := by
  have hsplit : ∀ page : ReadPage,
      (∀ p ∈ page.records.zip page.records.tail, ¬ toLex p.1.sortKey ≤ toLex p.2.sortKey) ↔
        StrictlyFalling page.records := fun page => strictlyFalling_iff.symm
  rw [queryStoragePage]
  by_cases href : q.resultRef = none
  · simp only [href, bind_ok, require_ok, orThrow_ok, if_true, hsplit]
    constructor
    · rintro ⟨_, hgrant, page, hload, _, hbounded, _, hcounted, _, hrows, _, hfalling, _, hbeyond, h⟩
      refine ⟨hgrant, page, hload, ⟨hbounded, hcounted, fun r hr => ?_, hfalling, hbeyond⟩, ?_⟩
      · rw [AdmissibleRow, if_pos href]
        exact hrows r hr
      · exact Except.ok.inj h
    · rintro ⟨hgrant, page, hload, hpage, h⟩
      refine ⟨(), hgrant, page, hload, (), hpage.bounded, (), hpage.counted, (), fun r hr => ?_, (),
        hpage.falling, (), hpage.beyond, congrArg Except.ok h⟩
      have hadmissible := hpage.admissible r hr
      rwa [AdmissibleRow, if_pos href] at hadmissible
  · simp only [href, bind_ok, require_ok, orThrow_ok, if_false, hsplit]
    constructor
    · rintro ⟨_, hgrant, page, hload, _, hbounded, _, hcounted, _, hrows, _, hfalling, _, hbeyond, h⟩
      refine ⟨hgrant, page, hload, ⟨hbounded, hcounted, fun r hr => ?_, hfalling, hbeyond⟩, ?_⟩
      · rw [AdmissibleRow, if_neg href]
        obtain ⟨hrun, havailable, hallowed, hmatches⟩ := hrows r hr
        exact ⟨⟨hrun, havailable, hallowed⟩, hmatches⟩
      · exact Except.ok.inj h
    · rintro ⟨hgrant, page, hload, hpage, h⟩
      refine ⟨(), hgrant, page, hload, (), hpage.bounded, (), hpage.counted, (), fun r hr => ?_, (),
        hpage.falling, (), hpage.beyond, congrArg Except.ok h⟩
      have hadmissible := hpage.admissible r hr
      rw [AdmissibleRow, if_neg href] at hadmissible
      obtain ⟨⟨hrun, havailable, hallowed⟩, hmatches⟩ := hadmissible
      exact ⟨hrun, havailable, hallowed, hmatches⟩

theorem Offers.admissible {repository : ReadRepository}
    (h : Offers P svc context q anchor records repository) :
    ∀ r ∈ records, AdmissibleRow P context q anchor r := by
  intro r hr
  obtain ⟨loaded, hload, rfl⟩ := h q.cursor q.cursor_bounds
  obtain ⟨hloaded, hmatches⟩ := List.mem_filter.mp hr
  refine ⟨?_, hmatches⟩
  have hsame : (q.withCursor q.cursor q.cursor_bounds).resultRef = q.resultRef := rfl
  rw [loadRecords, hsame] at hload
  cases href : q.resultRef with
  | none =>
    rw [href] at hload
    rw [← Except.ok.inj hload] at hloaded
    exact (List.mem_filter.mp hloaded).2
  | some ref =>
    rw [href] at hload
    simp only [bind_ok, require_ok, orThrow_ok] at hload
    obtain ⟨_, -, load, -, _, hrun, hload⟩ := hload
    rw [← Except.ok.inj hload] at hloaded
    obtain ⟨hmem, heligible⟩ := List.mem_filter.mp hloaded
    obtain ⟨havailable, hallowed⟩ := Bool.and_eq_true_iff.mp heligible
    rw [if_neg (Option.some_ne_none ref)]
    exact ⟨hrun r hmem, of_decide_eq_true havailable, hallowed⟩

/-- One record more than the page tells whether any is left. -/
theorem respond_take (asOf : Time) (rs : List ServiceRecord) (total : Nat) :
    respond P svc clock context q fp asOf (rs.take (q.limit + 1)) total =
      respond P svc clock context q fp asOf rs total := by
  have hpage : (rs.take (q.limit + 1)).take q.limit = rs.take q.limit := by
    rw [List.take_take, Nat.min_eq_left (Nat.le_succ _)]
  have hmore : (rs.take q.limit).length < (rs.take (q.limit + 1)).length ↔
      (rs.take q.limit).length < rs.length := by
    simp only [List.length_take]
    omega
  simp only [respond, hpage, hmore]

/-- A loader that reads from storage what a page of these records is, with one record more. -/
def LawfulLoader (context : ReadContext) (q : ReadQuery) (records : Time → List ServiceRecord)
    (load : ReadQuery → Time → ReadContext → Option (String × String) → Option ReadPage) : Prop :=
  ∀ anchor cursor h after, load (q.withCursor cursor h) anchor context after =
    some ⟨(remaining (records anchor) after).take (q.limit + 1), (records anchor).length⟩

theorem accepted_remaining (hadmissible : ∀ r ∈ records, AdmissibleRow P context q anchor r)
    (hdistinct : (records.map ServiceRecord.sortKey).Nodup) (after : Option (String × String)) :
    Accepted P context q anchor after
      ⟨(remaining records after).take (q.limit + 1), records.length⟩ := by
  have hsub : (remaining records after).Sublist (newestFirst records) := by
    cases after with
    | none => exact List.Sublist.refl _
    | some key => exact List.filter_sublist
  have hmem : ∀ r ∈ (remaining records after).take (q.limit + 1), r ∈ remaining records after :=
    fun r hr => List.mem_of_mem_take hr
  constructor
  · exact List.length_take_le _ _
  · have hlength := hsub.length_le
    rw [newestFirst, List.length_insertionSort] at hlength
    exact (List.length_take_le' _ _).trans hlength
  · intro r hr
    exact hadmissible r ((List.mem_insertionSort _).mp (hsub.subset (hmem r hr)))
  · exact ((strictlyFalling_newestFirst hdistinct).sublist hsub).sublist (List.take_sublist _ _)
  · intro key hkey r hr
    obtain rfl := Option.mem_def.mp hkey
    exact of_decide_eq_true (List.mem_filter.mp (hmem r hr)).2

theorem Accepted.withCursor {after : Option (String × String)} {page : ReadPage}
    (hpage : Accepted P context q anchor after page) (cursor : Option PyText)
    (h : CursorBounds cursor) : Accepted P context (q.withCursor cursor h) anchor after page :=
  ⟨hpage.bounded, hpage.counted, hpage.admissible, hpage.falling, hpage.beyond⟩

/-- A result reference that is not granted is refused before the store is looked at. -/
theorem queryPage_of_not_granted (decoded : Option Json)
    (hgrant : ¬ ∀ ref ∈ q.resultRef, context.grants ref = true) :
    queryPage P svc clock context q fp anchor decoded =
      .error (.accessDenied "result reference is not granted to this context") := by
  unfold queryPage
  split
  · exact bind_of_error (if_neg hgrant)
  · apply bind_of_error
    cases href : q.resultRef with
    | none =>
      rw [href] at hgrant
      exact absurd (fun ref h => by cases h) hgrant
    | some ref =>
      have hnot : ¬ context.grants ref = true := by
        intro h
        apply hgrant
        rw [href]
        intro ref' h'
        rw [← Option.some.inj h']
        exact h
      rw [loadRecords, href]
      exact bind_of_error (if_neg hnot)

/-- The same store without storage pages. -/
def ReadRepository.withoutPages (repository : ReadRepository) : ReadRepository :=
  { repository with queryPage := none }

namespace Sample

/-- The prices that a query of the sample may see at an anchor. -/
def pricesAt (anchor : Time) : List ServiceRecord :=
  prices.filter fun r => r.eligible readContext anchor && r.satisfies platform pageQuery

/-- The prices, paged in storage. -/
def pagedRepository : ReadRepository :=
  { inMemoryReadRepository prices fun _ => [] with
    queryPage := some fun q asOf _ after =>
      some ⟨(remaining (pricesAt asOf) after).take (q.limit + 1), (pricesAt asOf).length⟩ }

end Sample

/-! ## Any storage -/

/-- The repository pages the query in storage, by whatever loader. -/
def Paged (q : ReadQuery) (repository : ReadRepository) : Prop :=
  repository.queryPage.isSome = true ∧ q.queryKind ≠ "health"

theorem follow_cons {v : Visit} {visits : List Visit} {responses : List ReadResponse} :
    svc.follow P context (v :: visits) q = .ok responses ↔
      ∃ response, (svc.over v.repository).query P v.clock context q = .ok response ∧
        (response.nextCursor = none ∧ responses = [response] ∨
          ∃ cursor q' later, response.nextCursor = some cursor ∧ q.resume cursor = .ok q' ∧
            svc.follow P context visits q' = .ok later ∧ responses = response :: later) := by
  rw [ReadService.follow]
  constructor
  · intro h
    obtain ⟨response, hresponse, h⟩ := bind_ok.mp h
    refine ⟨response, hresponse, ?_⟩
    cases hcursor : response.nextCursor with
    | none =>
      rw [hcursor] at h
      exact Or.inl ⟨rfl, (Except.ok.inj h).symm⟩
    | some cursor =>
      rw [hcursor] at h
      obtain ⟨q', hresume, h⟩ := bind_ok.mp h
      obtain ⟨later, hlater, h⟩ := bind_ok.mp h
      exact Or.inr ⟨cursor, q', later, rfl, hresume, hlater, (Except.ok.inj h).symm⟩
  · rintro ⟨response, hresponse, ⟨hcursor, rfl⟩ | ⟨cursor, q', later, hcursor, hresume, hlater, rfl⟩⟩
    · rw [hresponse, ok_bind, hcursor]
    · rw [hresponse, ok_bind, hcursor]
      dsimp only
      rw [hresume, ok_bind]
      exact bind_ok.mpr ⟨later, hlater, rfl⟩

/-- A page that was returned was accepted. -/
theorem queryPage_paged (hpaged : Paged q svc.repository) {decoded : Option Json}
    {response : ReadResponse}
    (h : queryPage P svc clock context q fp anchor decoded = .ok response) :
    ∃ page, Accepted P context q anchor (decoded.map cursorKey) page ∧
      respond P svc clock context q fp anchor page.records page.totalCount = response := by
  obtain ⟨load, hload⟩ := Option.isSome_iff_exists.mp hpaged.1
  have hdecide : decide (q.queryKind ≠ "health") = true := decide_eq_true hpaged.2
  rw [queryPage, hload, hdecide] at h
  obtain ⟨-, page, -, hpage, hresponse⟩ := queryStoragePage_ok.mp h
  exact ⟨page, hpage, hresponse⟩

theorem query_first (hpaged : Paged q svc.repository) (hc : q.cursor = none)
    {response : ReadResponse} (h : svc.query P clock context q = .ok response) :
    ∃ fp page, Accepted P context q (q.asOf.getD clock.anchor) none page ∧
      respond P svc clock context q fp (q.asOf.getD clock.anchor) page.records page.totalCount =
        response := by
  rw [ReadService.query] at h
  obtain ⟨fp, -, h⟩ := bind_ok.mp h
  rw [hc] at h
  obtain ⟨page, hpage, hresponse⟩ := queryPage_paged hpaged h
  exact ⟨fp, page, hpage, hresponse⟩

theorem query_resumed (hpaged : Paged q svc.repository) (call : CursorCall)
    (hc : q.cursor = some (ofChars (makeCursor svc call))) {response : ReadResponse}
    (h : svc.query P clock context q = .ok response) :
    ∃ fp page, Accepted P context q call.anchorAsOf
        (some (isoformat call.lastAvailableAt, call.lastObservationId)) page ∧
      respond P svc clock context q fp call.anchorAsOf page.records page.totalCount = response := by
  rw [ReadService.query] at h
  obtain ⟨fp, -, h⟩ := bind_ok.mp h
  rw [hc] at h
  dsimp only at h
  rw [decodeCursor_makeCursor, ok_bind, anchorAsOf_payload] at h
  obtain ⟨anchor, hanchor, h⟩ := bind_ok.mp h
  obtain ⟨-, -, hanchor⟩ := bind_ok.mp hanchor
  obtain rfl := Except.ok.inj hanchor
  obtain ⟨-, -, h⟩ := bind_ok.mp h
  obtain ⟨page, hpage, hresponse⟩ := queryPage_paged hpaged h
  rw [Option.map_some, cursorKey_payload] at hpage
  exact ⟨fp, page, hpage, hresponse⟩

/-- The records of one request and those of the requests after it. -/
structure Followed (P : Platform) (context : ReadContext) (q : ReadQuery) (anchor : Time)
    (responses : List ReadResponse) : Prop where
  falling : StrictlyFalling (responses.flatMap (·.records))
  anchored : ∀ response ∈ responses, response.anchorAsOf = anchor
  admissible : ∀ r ∈ responses.flatMap (·.records), AdmissibleRow P context q anchor r

/-- The last record of a page is not above the others. -/
theorem StrictlyFalling.last_le {last : ServiceRecord} (h : StrictlyFalling records)
    (hlast : records.getLast? = some last) : ∀ r ∈ records, last.key ≤ r.key := by
  obtain ⟨front, rfl⟩ := List.getLast?_eq_some_iff.mp hlast
  intro r hr
  rcases List.mem_append.mp hr with hr | hr
  · exact ((List.pairwise_append.mp h).2.2 r hr last (List.mem_singleton.mpr rfl)).le
  · rw [List.mem_singleton.mp hr]

/-- One page more in front. -/
theorem Followed.cons {page : ReadPage} {after : Option (String × String)} {later : List ReadResponse}
    (hpage : Accepted P context q anchor after page) (hlater : Followed P context q anchor later)
    (hbelow : ∀ last, (page.records.take q.limit).getLast? = some last →
      ∀ r ∈ later.flatMap (·.records), r.key < last.key) :
    Followed P context q anchor
      (respond P svc clock context q fp anchor page.records page.totalCount :: later) := by
  have hfalling : StrictlyFalling (page.records.take q.limit) :=
    List.Pairwise.sublist (List.take_sublist _ _) hpage.falling
  constructor
  · show StrictlyFalling (page.records.take q.limit ++ later.flatMap (·.records))
    apply List.pairwise_append.mpr
    refine ⟨hfalling, hlater.falling, fun a ha b hb => ?_⟩
    cases hlast : (page.records.take q.limit).getLast? with
    | none => rw [List.getLast?_eq_none_iff.mp hlast] at ha; cases ha
    | some last => exact (hbelow last hlast b hb).trans_le (hfalling.last_le hlast a ha)
  · exact List.forall_mem_cons.mpr ⟨rfl, hlater.anchored⟩
  · intro r hr
    rcases List.mem_append.mp hr with hr | hr
    · exact hpage.admissible r (List.mem_of_mem_take hr)
    · exact hlater.admissible r hr

theorem resume_eq {cursor : List Char} {q' : ReadQuery} (h : q.resume cursor = .ok q') :
    ∃ hbounds, q' = q.withCursor (some (ofChars cursor)) hbounds := by
  by_cases hbounds : 1 ≤ (ofChars cursor).length ∧ (ofChars cursor).length ≤ 4096
  · rw [ReadQuery.resume, dif_pos hbounds] at h
    exact ⟨_, (Except.ok.inj h).symm⟩
  · rw [ReadQuery.resume, dif_neg hbounds] at h
    cases h

/-- The responses from a request with an issued cursor on. -/
theorem follow_resumed (hkind : q.queryKind ≠ "health") : ∀ (visits : List Visit) (call : CursorCall)
    (h : CursorBounds (some (ofChars (makeCursor svc call)))) (responses : List ReadResponse),
    (∀ v ∈ visits, v.repository.queryPage.isSome = true) →
    svc.follow P context visits (q.withCursor _ h) = .ok responses →
    Followed P context q call.anchorAsOf responses ∧
      ∀ r ∈ responses.flatMap (·.records),
        r.key < toLex (isoformat call.lastAvailableAt, call.lastObservationId) := by
  intro visits
  induction visits with
  | nil =>
    intro call h responses _ hfollow
    obtain rfl := Except.ok.inj hfollow
    exact ⟨⟨List.Pairwise.nil, List.forall_mem_nil _, List.forall_mem_nil _⟩, List.forall_mem_nil _⟩
  | cons v visits ih =>
    intro call h responses hstorage hfollow
    obtain ⟨response, hquery, hrest⟩ := follow_cons.mp hfollow
    have hpaged : Paged (q.withCursor _ h) (svc.over v.repository).repository :=
      ⟨hstorage v List.mem_cons_self, hkind⟩
    obtain ⟨fp, page, hpage, rfl⟩ := query_resumed hpaged call rfl hquery
    replace hpage : Accepted P context q call.anchorAsOf _ page :=
      ⟨hpage.bounded, hpage.counted, hpage.admissible, hpage.falling, hpage.beyond⟩
    have hfirst : ∀ r ∈ page.records.take q.limit,
        r.key < toLex (isoformat call.lastAvailableAt, call.lastObservationId) := fun r hr =>
      hpage.beyond _ rfl r (List.mem_of_mem_take hr)
    rcases hrest with ⟨-, rfl⟩ | ⟨cursor, q', later, hcursor, hresume, hlater, rfl⟩
    · have hnone : Followed P context q call.anchorAsOf [] :=
        ⟨List.Pairwise.nil, List.forall_mem_nil _, List.forall_mem_nil _⟩
      refine ⟨hnone.cons hpage fun _ _ => List.forall_mem_nil _, ?_⟩
      intro r hr
      rw [List.flatMap_singleton] at hr
      exact hfirst r hr
    · -- the cursor stands for the last record of this page
      rw [respond_nextCursor] at hcursor
      obtain ⟨last, hlast, rfl⟩ := Option.map_eq_some_iff.mp hcursor
      replace hlast := (Option.filter_eq_some_iff.mp hlast).1
      obtain ⟨hbounds, rfl⟩ := resume_eq hresume
      obtain ⟨hfollowed, hbelow⟩ := ih _ hbounds later
        (fun u hu => hstorage u (List.mem_cons_of_mem _ hu)) hlater
      refine ⟨hfollowed.cons hpage fun last' hlast' => ?_, ?_⟩
      · obtain rfl := Option.some.inj (hlast.symm.trans hlast')
        exact hbelow
      · intro r hr
        rcases List.mem_append.mp hr with hr | hr
        · exact hfirst r hr
        · exact (hbelow r hr).trans (hfirst last (List.mem_of_getLast? hlast))

/-- Whatever the storage returns, and however it changes between the requests, a reader that gets to an
end has seen no record twice and all in order, all at the anchor of the first request and all admissible
to it. -/
theorem follow_storage (v : Visit) (visits : List Visit) (hc : q.cursor = none)
    (hkind : q.queryKind ≠ "health")
    (hstorage : ∀ u ∈ v :: visits, u.repository.queryPage.isSome = true)
    {responses : List ReadResponse} (hfollow : svc.follow P context (v :: visits) q = .ok responses) :
    Followed P context q (q.asOf.getD v.clock.anchor) responses := by
  obtain ⟨response, hquery, hrest⟩ := follow_cons.mp hfollow
  have hpaged : Paged q (svc.over v.repository).repository :=
    ⟨hstorage v List.mem_cons_self, hkind⟩
  obtain ⟨fp, page, hpage, rfl⟩ := query_first hpaged hc hquery
  rcases hrest with ⟨-, rfl⟩ | ⟨cursor, q', later, hcursor, hresume, hlater, rfl⟩
  · have hnone : Followed P context q (q.asOf.getD v.clock.anchor) [] :=
      ⟨List.Pairwise.nil, List.forall_mem_nil _, List.forall_mem_nil _⟩
    exact hnone.cons hpage fun _ _ => List.forall_mem_nil _
  · rw [respond_nextCursor] at hcursor
    obtain ⟨last, hlast, rfl⟩ := Option.map_eq_some_iff.mp hcursor
    replace hlast := (Option.filter_eq_some_iff.mp hlast).1
    obtain ⟨hbounds, rfl⟩ := resume_eq hresume
    obtain ⟨hfollowed, hbelow⟩ := @follow_resumed P svc context q hkind visits _ hbounds later
      (fun u hu => hstorage u (List.mem_cons_of_mem _ hu)) hlater
    refine hfollowed.cons hpage fun last' hlast' => ?_
    obtain rfl := Option.some.inj (hlast.symm.trans hlast')
    exact hbelow

namespace Sample

/-- A request while a page is in storage. -/
def storageVisit : Visit where
  repository := pagedRepository
  clock := firstVisit.clock

theorem follow_storage_prices : ∃ responses,
    readService.follow platform readContext [storageVisit] pageQuery = .ok responses ∧
      Followed platform readContext pageQuery storageVisit.clock.anchor responses := by
  have hok : (readService.follow platform readContext [storageVisit] pageQuery).isOk = true := by
    decide +kernel
  obtain ⟨responses, hfollow⟩ := ok_of_isOk hok
  refine ⟨responses, hfollow, ?_⟩
  exact follow_storage storageVisit [] rfl (by decide) (by decide) hfollow

end Sample

end NanFung
