import NanFung.Store.Throttle

/-!
# Throttle safety

Each group's row is a pair of deadlines, one for the pace of requests and one for the block a 429
response asks for. The first never moves back, whatever the clock does, which spaces the permits; the
second holds until it is past if the clock does not run backward.
-/

namespace NanFung

open Table

/-! ## Histories -/

/-- A call on the throttle. -/
inductive HostCall where
  | permit (host : String) (continuation : Bool) (now : Time)
  | response (host : String) (status : Int) (retryAfter : Option String) (now : Time)

namespace HostCall

/-- The clock reading of a call. -/
def now : HostCall → Time
  | permit _ _ now | response _ _ _ now => now

def host : HostCall → String
  | permit host _ _ | response host _ _ _ => host

variable (L : TextLibrary)

/-- Whether a transaction commits, and the table it leaves. -/
def outcome {α : Type} (rows : List ThrottleRow) :
    Except ThrottleError (α × List ThrottleRow) → Bool × List ThrottleRow
  | .ok r => (true, r.2)
  | .error _ => (false, rows)

/-- Whether a call succeeds, and the table it leaves. -/
def exec (rows : List ThrottleRow) : HostCall → Bool × List ThrottleRow
  | permit host continuation now => outcome rows (permitHost L host continuation now rows)
  | response host status retryAfter now =>
    outcome rows (recordHostResponse L host status retryAfter now rows)

/-- The table after a sequence of calls. -/
def runAll (rows : List ThrottleRow) (calls : List HostCall) : List ThrottleRow :=
  calls.foldl (fun rows c => (c.exec L rows).2) rows

/-- The calls of a sequence that succeed, in order. -/
def accepted (rows : List ThrottleRow) : List HostCall → List HostCall
  | [] => []
  | c :: calls =>
    let rest := accepted (c.exec L rows).2 calls
    if (c.exec L rows).1 then c :: rest else rest

/-- A granted call is a permit for a group. -/
def permits (group : String) : HostCall → Prop
  | permit host _ _ => rateLimitGroup L host = .ok group
  | _ => False

/-- A granted call is a permit for a group that is not a redirect's continuation. -/
def permitsFirst (group : String) : HostCall → Prop
  | permit host continuation _ => continuation = false ∧ rateLimitGroup L host = .ok group
  | _ => False

/-- A recorded response is a 429 of a group with a deadline. -/
def blocks (group : String) (deadline : Time) : HostCall → Prop
  | response host status retryAfter now => status = 429 ∧ rateLimitGroup L host = .ok group ∧
      retryAfterDeadline L retryAfter now = .ok (some deadline)
  | _ => False

end HostCall

variable {L : TextLibrary} {rows rows' : List ThrottleRow} {group : String} {now : Time}

/-! ## The row of a group -/

/-- The pace of a group: no first permit is granted before it. -/
def paceOf (group : String) (rows : List ThrottleRow) : Option Time :=
  (throttleRow? group rows).bind (·.nextAllowedAt)

/-- The block of a group: no permit is granted before it. -/
def blockOf (group : String) (rows : List ThrottleRow) : Option Time :=
  (throttleRow? group rows).bind (·.blockedUntil)

theorem throttleRow?_group {row : ThrottleRow} (h : throttleRow? group rows = some row) :
    row.rateLimitGroup = group := by
  simpa using List.find?_some h

/-- The rows of the groups after a change of the row of one group. -/
theorem throttleRow?_updateWhere {key : String} {f : ThrottleRow → ThrottleRow} {row : ThrottleRow}
    (hf : ∀ r, (f r).rateLimitGroup = r.rateLimitGroup) (hrow : throttleRow? key rows = some row)
    (group : String) :
    throttleRow? group (updateWhere (fun r => r.rateLimitGroup = key) f rows) =
      if key = group then some (f row) else throttleRow? group rows := by
  have hfind := find?_updateWhere (fun r (_ : decide (r.rateLimitGroup = key) = true) => hf r) rows group
  unfold throttleRow?
  rw [hfind]
  change (throttleRow? group rows).map _ = _
  by_cases hg : key = group
  · subst hg
    rw [hrow, if_pos rfl, Option.map_some, if_pos (by simp [throttleRow?_group hrow])]
  · rw [if_neg hg]
    cases hother : throttleRow? group rows with
    | none => exact hother.symm
    | some r =>
      rw [Option.map_some, if_neg (by simpa [throttleRow?_group hother] using fun h => hg h.symm)]
      exact hother.symm

/-! ## One call -/

/-- What a granted permit does: the first one of a group sets its pace, a continuation changes
nothing, another one moves the pace. -/
theorem permitHost_ok {host : String} {continuation : Bool} {u : Unit}
    (h : permitHost L host continuation now rows = .ok (u, rows')) :
    ∃ key, rateLimitGroup L host = .ok key ∧ (∀ b ∈ blockOf key rows, b ≤ now) ∧
      (rows' = rows ∧ continuation = true ∨
        ∃ next, now.add? hostPermitInterval = some next ∧ (∀ n ∈ paceOf key rows, n ≤ now) ∧
          ∀ group, throttleRow? group rows' = if key = group then
            some (((throttleRow? key rows).map fun r =>
              { r with nextAllowedAt := some next, updatedAt := now }).getD
                ⟨key, some next, none, none, now⟩)
            else throttleRow? group rows) := by
  simp only [permitHost, bind_ok] at h
  obtain ⟨key, hkey, h⟩ := h
  refine ⟨key, hkey, ?_⟩
  cases hrow : throttleRow? key rows with
  | none =>
    rw [hrow] at h
    simp only [bind_ok, Except.ok.injEq, Prod.mk.injEq, permitDeadline, orThrow_ok] at h
    obtain ⟨next, hnext, -, rfl⟩ := h
    refine ⟨fun b hb => by simp [blockOf, hrow] at hb, Or.inr ⟨next, hnext, ?_, ?_⟩⟩
    · intro n hn
      simp [paceOf, hrow] at hn
    · intro group
      have hnew : ∀ r ∈ rows, r.rateLimitGroup ≠ key := by
        unfold throttleRow? at hrow
        exact find?_key_eq_none.mp hrow
      exact find?_append_new hnew group
  | some row =>
    rw [hrow] at h
    simp only at h
    split at h
    · cases h
    · next hblock =>
      have hblock : ∀ b ∈ blockOf key rows, b ≤ now := by
        intro b hb
        simp only [blockOf, hrow, Option.bind_some] at hb
        have := Option.filter_eq_none_iff.mp hblock b hb
        simpa using this
      refine ⟨hblock, ?_⟩
      split at h
      · next hcontinuation =>
        cases h
        exact Or.inl ⟨rfl, hcontinuation⟩
      · split at h
        · cases h
        · next hpace =>
          simp only [bind_ok, Except.ok.injEq, Prod.mk.injEq, permitDeadline, orThrow_ok] at h
          obtain ⟨next, hnext, -, rfl⟩ := h
          refine Or.inr ⟨next, hnext, ?_, ?_⟩
          · intro n hn
            simp only [paceOf, hrow, Option.bind_some] at hn
            have := Option.filter_eq_none_iff.mp hpace n hn
            simpa using this
          · intro group
            refine throttleRow?_updateWhere ?_ hrow group
            exact fun _ => rfl

/-- What a recorded response does: it writes the row of its group. -/
theorem recordHostResponse_ok {host : String} {status : Int} {retryAfter : Option String}
    {state : HostThrottleState}
    (h : recordHostResponse L host status retryAfter now rows = .ok (state, rows')) :
    ∃ key retryUntil, rateLimitGroup L host = .ok key ∧
      (status = 429 → retryAfterDeadline L retryAfter now = .ok retryUntil) ∧
      ∀ group, throttleRow? group rows' = if key = group then
        some ⟨key, some ((throttleAfter (throttleRow? key rows) retryUntil now).2.getD now),
          (throttleAfter (throttleRow? key rows) retryUntil now).1, some status, now⟩
        else throttleRow? group rows := by
  simp only [recordHostResponse, bind_ok, require_ok, Except.ok.injEq, Prod.mk.injEq] at h
  obtain ⟨-, -, key, hkey, retryUntil, hretry, -, rfl⟩ := h
  refine ⟨key, retryUntil, hkey, ?_, fun group => find?_upsert _ _ _ group⟩
  intro hstatus
  rw [if_pos hstatus] at hretry
  cases hdeadline : retryAfterDeadline L retryAfter now with
  | error e =>
    rw [hdeadline] at hretry
    cases hretry
  | ok d =>
    rw [hdeadline] at hretry
    exact congrArg _ (Except.ok.inj hretry)

/-! ## The two deadlines -/

theorem le_latestTimestamp {a b : Option Time} {t : Time} (h : t ∈ a ∨ t ∈ b) :
    ∃ u ∈ latestTimestamp a b, t ≤ u := by
  cases a <;> cases b <;> rcases h with h | h <;>
    simp_all [latestTimestamp]

/-- A response does not move the pace back. -/
theorem le_throttleAfter_pace {row : Option ThrottleRow} {n : Time}
    (hn : n ∈ row.bind (·.nextAllowedAt)) (retryUntil : Option Time) (now : Time) :
    n ≤ (throttleAfter row retryUntil now).2.getD now := by
  have hn : row.bind (·.nextAllowedAt) = some n := hn
  have hprevious : n ≤ ((row.bind (·.nextAllowedAt)).filter (now < ·)).getD now := by
    rw [hn, Option.filter_some]
    split
    · exact le_rfl
    · next h => exact le_of_not_gt (by simpa using h)
  obtain ⟨u, hu, hle⟩ := le_latestTimestamp (t := ((row.bind (·.nextAllowedAt)).filter (now < ·)).getD now)
    (b := (throttleAfter row retryUntil now).1) (Or.inl rfl)
  have hu : (throttleAfter row retryUntil now).2 = some u := hu
  rw [hu]
  exact hprevious.trans hle

/-- A response keeps a block that is not past. -/
theorem le_throttleAfter_block {row : Option ThrottleRow} {b : Time}
    (hb : b ∈ row.bind (·.blockedUntil)) (hlt : now < b) (retryUntil : Option Time) :
    ∃ b' ∈ (throttleAfter row retryUntil now).1, b ≤ b' := by
  have hb : row.bind (·.blockedUntil) = some b := hb
  apply le_latestTimestamp
  left
  rw [hb, Option.filter_some, if_pos (by simpa using hlt)]
  rfl

/-- A response keeps its own deadline. -/
theorem le_throttleAfter_deadline (row : Option ThrottleRow) (deadline now : Time) :
    ∃ b' ∈ (throttleAfter row (some deadline) now).1, deadline ≤ b' := by
  apply le_latestTimestamp
  exact Or.inr rfl

namespace HostCall

variable {c : HostCall} {calls : List HostCall}

theorem outcome_true {α : Type} {x : Except ThrottleError (α × List ThrottleRow)}
    (h : (outcome rows x).1 = true) : ∃ a, x = .ok (a, (outcome rows x).2) := by
  cases x with
  | error e => exact nomatch h
  | ok r => exact ⟨r.1, rfl⟩

theorem outcome_false {α : Type} {x : Except ThrottleError (α × List ThrottleRow)}
    (h : (outcome rows x).1 = false) : (outcome rows x).2 = rows := by
  cases x with
  | error e => rfl
  | ok r => exact nomatch h

/-- A call that succeeds, as the operation it is. -/
theorem exec_permit {host : String} {continuation : Bool}
    (h : (exec L rows (permit host continuation now)).1 = true) :
    ∃ u, permitHost L host continuation now rows =
      .ok (u, (exec L rows (permit host continuation now)).2) :=
  outcome_true h

theorem exec_response {host : String} {status : Int} {retryAfter : Option String}
    (h : (exec L rows (response host status retryAfter now)).1 = true) :
    ∃ state, recordHostResponse L host status retryAfter now rows =
      .ok (state, (exec L rows (response host status retryAfter now)).2) :=
  outcome_true h

/-- A call that fails changes nothing. -/
theorem exec_failed (h : (c.exec L rows).1 = false) : (c.exec L rows).2 = rows := by
  cases c with
  | permit | response => exact outcome_false h

/-- No call moves the pace of a group back. -/
theorem exec_pace {n : Time} (hn : n ∈ paceOf group rows) (c : HostCall) :
    ∃ m ∈ paceOf group (c.exec L rows).2, n ≤ m := by
  cases hok : (c.exec L rows).1 with
  | false => exact ⟨n, by rw [exec_failed hok]; exact hn, le_rfl⟩
  | true =>
    cases c with
    | permit host continuation now =>
      obtain ⟨_, hcall⟩ := exec_permit hok
      obtain ⟨key, -, -, ⟨hsame, -⟩ | ⟨next, hnext, hpace, hrows⟩⟩ := permitHost_ok hcall
      · rw [hsame]
        exact ⟨n, hn, le_rfl⟩
      · unfold paceOf
        rw [hrows group]
        split
        · next hkey =>
          subst hkey
          refine ⟨next, ?_, (hpace n hn).trans (Time.le_of_add?_eq_some hnext)⟩
          cases throttleRow? key rows <;> rfl
        · exact ⟨n, hn, le_rfl⟩
    | response host status retryAfter now =>
      obtain ⟨state, hcall⟩ := exec_response hok
      obtain ⟨key, retryUntil, -, -, hrows⟩ := recordHostResponse_ok hcall
      unfold paceOf
      rw [hrows group]
      split
      · next hkey =>
        subst hkey
        exact ⟨_, rfl, le_throttleAfter_pace hn retryUntil now⟩
      · exact ⟨n, hn, le_rfl⟩

/-- A call made before a block is over leaves it in place. -/
theorem exec_block {b : Time} (hb : b ∈ blockOf group rows) (c : HostCall) (hlt : c.now < b) :
    ∃ b' ∈ blockOf group (c.exec L rows).2, b ≤ b' := by
  cases hok : (c.exec L rows).1 with
  | false => exact ⟨b, by rw [exec_failed hok]; exact hb, le_rfl⟩
  | true =>
    cases c with
    | permit host continuation now =>
      obtain ⟨_, hcall⟩ := exec_permit hok
      obtain ⟨key, -, -, ⟨hsame, -⟩ | ⟨next, -, -, hrows⟩⟩ := permitHost_ok hcall
      · rw [hsame]
        exact ⟨b, hb, le_rfl⟩
      · refine ⟨b, ?_, le_rfl⟩
        unfold blockOf at hb ⊢
        rw [hrows group]
        split
        · next hkey =>
          subst hkey
          cases hrow : throttleRow? key rows with
          | none =>
            rw [hrow] at hb
            exact nomatch hb
          | some row =>
            rw [hrow] at hb
            exact hb
        · exact hb
    | response host status retryAfter now =>
      obtain ⟨state, hcall⟩ := exec_response hok
      obtain ⟨key, retryUntil, -, -, hrows⟩ := recordHostResponse_ok hcall
      unfold blockOf
      rw [hrows group]
      split
      · next hkey =>
        subst hkey
        exact le_throttleAfter_block hb hlt retryUntil
      · exact ⟨b, hb, le_rfl⟩

/-- A first permit is granted no earlier than the pace, and moves it. -/
theorem exec_permitsFirst (hok : (c.exec L rows).1 = true) (hc : c.permitsFirst L group) :
    (∀ n ∈ paceOf group rows, n ≤ c.now) ∧
      ∃ m ∈ paceOf group (c.exec L rows).2, c.now.val + hostPermitInterval = m.val := by
  cases c with
  | response => exact hc.elim
  | permit host continuation now =>
    obtain ⟨hfirst, hgroup⟩ := hc
    obtain ⟨_, hcall⟩ := exec_permit hok
    obtain ⟨key, hkey, -, ⟨-, hcontinuation⟩ | ⟨next, hnext, hpace, hrows⟩⟩ := permitHost_ok hcall
    · rw [hfirst] at hcontinuation
      exact nomatch hcontinuation
    · obtain rfl : key = group := Except.ok.inj (hkey.symm.trans hgroup)
      refine ⟨hpace, next, ?_, ?_⟩
      · unfold paceOf
        rw [hrows key, if_pos rfl]
        cases throttleRow? key rows <;> rfl
      · unfold Time.add? at hnext
        split at hnext
        · rw [← Option.some.inj hnext]
          rfl
        · exact nomatch hnext

/-- A permit is granted no earlier than the block. -/
theorem exec_permits (hok : (c.exec L rows).1 = true) (hc : c.permits L group) :
    ∀ b ∈ blockOf group rows, b ≤ c.now := by
  cases c with
  | response => exact hc.elim
  | permit host continuation now =>
    obtain ⟨_, hcall⟩ := exec_permit hok
    obtain ⟨key, hkey, hblock, -⟩ := permitHost_ok hcall
    obtain rfl : key = group := Except.ok.inj (hkey.symm.trans hc)
    exact hblock

/-- A 429 response with a deadline blocks its group until then. -/
theorem exec_blocks {deadline : Time} (hok : (c.exec L rows).1 = true)
    (hc : c.blocks L group deadline) :
    ∃ b ∈ blockOf group (c.exec L rows).2, deadline ≤ b := by
  cases c with
  | permit => exact hc.elim
  | response host status retryAfter now =>
    obtain ⟨hstatus, hgroup, hdeadline⟩ := hc
    obtain ⟨state, hcall⟩ := exec_response hok
    obtain ⟨key, retryUntil, hkey, hretry, hrows⟩ := recordHostResponse_ok hcall
    obtain rfl : key = group := Except.ok.inj (hkey.symm.trans hgroup)
    obtain rfl : retryUntil = some deadline := Except.ok.inj ((hretry hstatus).symm.trans hdeadline)
    unfold blockOf
    rw [hrows key, if_pos rfl]
    exact le_throttleAfter_deadline _ deadline now

/-! ## Sequences of calls -/

theorem mem_accepted {d : HostCall} (h : d ∈ accepted L rows calls) : d ∈ calls := by
  induction calls generalizing rows with
  | nil => exact h
  | cons c calls ih =>
    simp only [accepted] at h
    split at h
    · rcases List.mem_cons.mp h with rfl | h
      · exact List.mem_cons_self
      · exact List.mem_cons_of_mem _ (ih h)
    · exact List.mem_cons_of_mem _ (ih h)

theorem runAll_pace {n : Time} (hn : n ∈ paceOf group rows) (calls : List HostCall) :
    ∃ m ∈ paceOf group (runAll L rows calls), n ≤ m := by
  induction calls generalizing rows n with
  | nil => exact ⟨n, hn, le_rfl⟩
  | cons c calls ih =>
    obtain ⟨m, hm, hnm⟩ := exec_pace (L := L) hn c
    obtain ⟨k, hk, hmk⟩ := ih hm
    exact ⟨k, hk, hnm.trans hmk⟩

/-- Every first permit granted later is no earlier than the pace now. -/
theorem pace_le {n : Time} (hn : n ∈ paceOf group rows) {d : HostCall}
    (hd : d ∈ accepted L rows calls) (hfirst : d.permitsFirst L group) : n ≤ d.now := by
  induction calls generalizing rows n with
  | nil => exact nomatch hd
  | cons c calls ih =>
    obtain ⟨m, hm, hnm⟩ := exec_pace (L := L) hn c
    simp only [accepted] at hd
    split at hd
    · next hok =>
      rcases List.mem_cons.mp hd with rfl | hd
      · exact (exec_permitsFirst hok hfirst).1 n hn
      · exact hnm.trans (ih hm hd)
    · exact hnm.trans (ih hm hd)

/-- Every permit granted later is no earlier than the block now, if the clock does not run
backward. -/
theorem block_le {b : Time} (hb : b ∈ blockOf group rows)
    (hclock : calls.Pairwise fun c d => c.now ≤ d.now) {d : HostCall}
    (hd : d ∈ accepted L rows calls) (hpermit : d.permits L group) : b ≤ d.now := by
  induction calls generalizing rows b with
  | nil => exact nomatch hd
  | cons c calls ih =>
    obtain ⟨hle, hclock⟩ := List.pairwise_cons.mp hclock
    have hlater : d ∈ accepted L (c.exec L rows).2 calls → b ≤ d.now := by
      intro hd
      rcases le_or_gt b c.now with hpast | hopen
      · exact hpast.trans (hle d (mem_accepted hd))
      · obtain ⟨b', hb', hbb'⟩ := exec_block (L := L) hb c hopen
        exact hbb'.trans (ih hb' hclock hd)
    simp only [accepted] at hd
    split at hd
    · next hok =>
      rcases List.mem_cons.mp hd with rfl | hd
      · exact exec_permits hok hpermit b hb
      · exact hlater hd
    · exact hlater hd

theorem accepted_paced (rows : List ThrottleRow) (calls : List HostCall) (group : String) :
    (accepted L rows calls).Pairwise fun c d => c.permitsFirst L group → d.permitsFirst L group →
      c.now.val + hostPermitInterval ≤ d.now.val := by
  induction calls generalizing rows with
  | nil => exact List.Pairwise.nil
  | cons c calls ih =>
    simp only [accepted]
    split
    · next hok =>
      refine List.pairwise_cons.mpr ⟨fun d hd hc hfirst => ?_, ih _⟩
      obtain ⟨-, m, hm, heq⟩ := exec_permitsFirst hok hc
      rw [heq]
      exact pace_le hm hd hfirst
    · exact ih _

theorem accepted_honoured (rows : List ThrottleRow) {calls : List HostCall}
    (hclock : calls.Pairwise fun c d => c.now ≤ d.now) (group : String) :
    (accepted L rows calls).Pairwise fun c d => ∀ deadline, c.blocks L group deadline →
      d.permits L group → deadline ≤ d.now := by
  induction calls generalizing rows with
  | nil => exact List.Pairwise.nil
  | cons c calls ih =>
    obtain ⟨-, hclock⟩ := List.pairwise_cons.mp hclock
    simp only [accepted]
    split
    · next hok =>
      refine List.pairwise_cons.mpr ⟨fun d hd deadline hc hpermit => ?_, ih _ hclock⟩
      obtain ⟨b, hb, hle⟩ := exec_blocks hok hc
      exact hle.trans (block_le hb hclock hd hpermit)
    · exact ih _ hclock

end HostCall

/-- What the throttle guarantees a group over a sequence of calls. -/
structure ThrottleSafe (L : TextLibrary) (rows : List ThrottleRow) (calls : List HostCall)
    (group : String) : Prop where
  /-- `next_allowed_at` never decreases. -/
  monotone : ∀ before after, calls = before ++ after →
    ∀ n ∈ paceOf group (HostCall.runAll L rows before),
      ∃ m ∈ paceOf group (HostCall.runAll L rows calls), n ≤ m
  /-- Permits that are not continuations are an interval apart. -/
  paced : (HostCall.accepted L rows calls).Pairwise fun c d => c.permitsFirst L group →
    d.permitsFirst L group → c.now.val + hostPermitInterval ≤ d.now.val
  /-- After a 429 response no permit is granted before its deadline. -/
  honoured : (calls.Pairwise fun c d => c.now ≤ d.now) →
    (HostCall.accepted L rows calls).Pairwise fun c d => ∀ deadline,
      c.blocks L group deadline → d.permits L group → deadline ≤ d.now

/-- Throttle safety, for any sequence of calls on any table. -/
theorem throttle_safe (L : TextLibrary) (rows : List ThrottleRow) (calls : List HostCall)
    (group : String) : ThrottleSafe L rows calls group := by
  refine ⟨?_, HostCall.accepted_paced rows calls group,
    fun hclock => HostCall.accepted_honoured rows hclock group⟩
  rintro before after rfl n hn
  have happend : HostCall.runAll L rows (before ++ after) =
      HostCall.runAll L (HostCall.runAll L rows before) after := List.foldl_append
  rw [happend]
  exact HostCall.runAll_pace hn after

end NanFung
