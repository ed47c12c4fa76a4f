import NanFung.Brief.Provenance

/-!
# Proxy-claim guards

`guardPlanningClaims` and `guardCapabilityClaims` look at the first mention of a prohibited pattern in
a text. What the host's regular expressions match further on is the list of all positions at which a
pattern matches, of which `exec` finds the first.
-/

namespace NanFung.Brief

/-- The positions, in order, at which a pattern matches in a text. -/
structure MatchPositions (engine : TextEngine) where
  positions : RegExp → String → List Nat
  sorted : ∀ pattern text, (positions pattern text).Pairwise (· < ·)
  first : ∀ pattern text, (engine.exec pattern text).map Prod.fst = (positions pattern text).head?

/-- The patterns that a draft must not claim when it cites an entry of the capability. -/
def prohibited (capabilityId : String) : List RegExp :=
  (if capabilityId = planningCapabilityId then planningClaimTerms else []) ++
    ((capabilityClaimGuards.get? capabilityId).getD []).map Prod.fst

/-- A reference of the draft resolves to an entry of the capability. -/
def Cites (references : Dict String CitationResolution) (capabilityId : String) : Prop :=
  ∃ e ∈ references, e.2.entry.capabilityId = some capabilityId

/-- The mentions of prohibited patterns, at the positions that are picked from each text, are negated. -/
def EachNegated (engine : TextEngine) (draft : MarketBriefDraft)
    (references : Dict String CitationResolution) (mentions : RegExp → String → List Nat) : Prop :=
  ∀ capabilityId, Cites references capabilityId → ∀ pattern ∈ prohibited capabilityId,
    ∀ text ∈ draft.texts, ∀ i ∈ mentions pattern text, isNegatedClaim engine text i = true

variable {engine : TextEngine} {ledger : Ledger} {draft : MarketBriefDraft} {host : HostLedger}
  {references : Dict String CitationResolution}

/-! ## What the guards pass -/

theorem guardCapabilityClaims_ok {terms : List RegExp} {code : String} {u : Unit}
    (h : guardCapabilityClaims engine draft terms code = .ok u) :
    ∀ text ∈ draft.texts, ∀ term ∈ terms, Claims engine term text = false := by
  simp only [guardCapabilityClaims, require_ok] at h
  exact h

theorem guardCapability_ok {capabilityId : String} {u : Unit}
    (h : guardCapability engine draft (some capabilityId) = .ok u) {pattern : RegExp}
    (hpattern : pattern ∈ ((capabilityClaimGuards.get? capabilityId).getD []).map Prod.fst) :
    ∀ text ∈ draft.texts, Claims engine pattern text = false := by
  unfold guardCapability at h
  dsimp only at h
  cases hguards : capabilityClaimGuards.get? capabilityId with
  | none =>
    rw [hguards] at hpattern
    exact nomatch hpattern
  | some guards =>
    rw [hguards] at hpattern h
    obtain ⟨g, hg, rfl⟩ := List.mem_map.mp hpattern
    intro text htext
    exact guardCapabilityClaims_ok (forM_ok.mp h g hg) text htext g.1 List.mem_cons_self

/-- An accepted draft makes no prohibited claim at the first mention of a pattern. -/
theorem finalizeBrief_guarded {input : Json} {brief : MarketBrief}
    (h : finalizeBrief engine input ledger = .ok brief) (hdraft : parseDraft input = .ok draft)
    (hhost : hostLedger ledger = .ok host) (hreferences : resolveReferences draft host = .ok references)
    {capabilityId : String} (hcites : Cites references capabilityId) {pattern : RegExp}
    (hpattern : pattern ∈ prohibited capabilityId) :
    ∀ text ∈ draft.texts, Claims engine pattern text = false := by
  simp only [finalizeBrief, bind_ok] at h
  obtain ⟨d, hd, _, _, l, hl, _, _, r, hr, h⟩ := h
  obtain rfl : d = draft := Except.ok.inj (hd.symm.trans hdraft)
  obtain rfl : l = host := Except.ok.inj (hl.symm.trans hhost)
  obtain rfl : r = references := Except.ok.inj (hr.symm.trans hreferences)
  obtain ⟨e, he, hcapability⟩ := hcites
  cases List.mem_append.mp hpattern with
  | inl hplanning =>
    split at hplanning
    · next hid =>
      have hbacked : (r.any fun e => e.2.entry.capabilityId = some planningCapabilityId) = true :=
        List.any_eq_true.mpr ⟨e, he, decide_eq_true (hid ▸ hcapability)⟩
      rw [if_pos hbacked] at h
      simp only [bind_ok] at h
      obtain ⟨_, hguard, -⟩ := h
      intro text htext
      exact guardCapabilityClaims_ok hguard text htext pattern hplanning
    · cases hplanning
  | inr hguards =>
    have hmem : some capabilityId ∈ (r.map fun e => e.2.entry.capabilityId).eraseDups := by
      rw [List.mem_eraseDups]
      exact hcapability ▸ List.mem_map_of_mem (f := fun e => e.2.entry.capabilityId) he
    have hloop : ∃ u, ((r.map fun e => e.2.entry.capabilityId).eraseDups).forM
        (guardCapability engine d) = .ok u := by
      split at h
      · simp only [bind_ok] at h
        obtain ⟨_, _, u, hloop, -⟩ := h
        exact ⟨u, hloop⟩
      · simp only [bind_ok] at h
        obtain ⟨u, hloop, -⟩ := h
        exact ⟨u, hloop⟩
    obtain ⟨u, hloop⟩ := hloop
    exact guardCapability_ok (forM_ok.mp hloop _ hmem) hguards

/-- No claim at the first mention: it is negated, if there is one. -/
theorem negated_of_first (M : MatchPositions engine) {pattern : RegExp} {text : String}
    (h : Claims engine pattern text = false) {i : Nat}
    (hi : (M.positions pattern text).head? = some i) : isNegatedClaim engine text i = true := by
  rw [← M.first] at hi
  obtain ⟨⟨j, found⟩, hexec, rfl⟩ := Option.map_eq_some_iff.mp hi
  rw [Claims, hexec] at h
  simpa using h

/-! ## Every mention -/

/-- In an accepted draft every mention of a pattern that its citations prohibit is negated, exactly
when every mention after the first one is. -/
theorem guards_cover_iff (engine : TextEngine) (M : MatchPositions engine) {input : Json}
    {brief : MarketBrief} (h : finalizeBrief engine input ledger = .ok brief)
    (hdraft : parseDraft input = .ok draft) (hhost : hostLedger ledger = .ok host)
    (hreferences : resolveReferences draft host = .ok references) :
    EachNegated engine draft references M.positions ↔
      EachNegated engine draft references fun pattern text => (M.positions pattern text).tail := by
  constructor
  · intro hall capabilityId hcites pattern hpattern text htext i hi
    exact hall capabilityId hcites pattern hpattern text htext i (List.mem_of_mem_tail hi)
  · intro hlater capabilityId hcites pattern hpattern text htext i hi
    have hguarded := finalizeBrief_guarded h hdraft hhost hreferences hcites hpattern text htext
    cases hpositions : M.positions pattern text with
    | nil =>
      rw [hpositions] at hi
      exact nomatch hi
    | cons j rest =>
      rw [hpositions] at hi
      cases List.mem_cons.mp hi with
      | inl he =>
        rw [he]
        exact negated_of_first M hguarded (by rw [hpositions]; rfl)
      | inr hi =>
        refine hlater capabilityId hcites pattern hpattern text htext i ?_
        show i ∈ (M.positions pattern text).tail
        rw [hpositions]
        exact hi

/-! ## A claim behind a negation -/

/-- A text that negates a prohibited pattern, then claims it. -/
def hiddenClaim : String := "Not office demand. Office demand rose."

/-- A text that negates it and leaves it at that. -/
def scopeNote : String := "Not office demand."

def occupancyClaims : RegExp := ⟨"office occupancy|office demand|building access", "iu"⟩

/-- Where the host's expressions match in the texts of the drafts below. -/
def hybridMatches (pattern : RegExp) (text : String) : List (Nat × String) :=
  if pattern = occupancyClaims ∧ text = hiddenClaim then [(4, "office demand"), (19, "Office demand")]
  else if pattern = occupancyClaims ∧ text = scopeNote then [(4, "office demand")]
  else if (pattern = negatedClaim ∨ pattern = negatedArticle) ∧ text = "Not " then [(0, "Not ")]
  else []

def hybridEngine : TextEngine where
  nfkc := id
  exec := fun pattern text => (hybridMatches pattern text).head?

def hybridPositions : MatchPositions hybridEngine where
  positions := fun pattern text => (hybridMatches pattern text).map Prod.fst
  sorted := by
    intro pattern text
    unfold hybridMatches
    split
    · decide
    · split
      · decide
      · split <;> simp
  first := fun pattern text => List.head?_map.symm

def hybridQuery : Members :=
  [("anchor_as_of", .str "2026-08-02T00:00:00Z"), ("capability_id", .str "uk.hybrid-working"),
    ("records", .arr [bankRateRecord "observation" "h1.hybrid" (some "28")])]

/-- The ledger of a hybrid-working query and the metadata of its reference. -/
def hybridLedger : Ledger :=
  enrichQueryLedger
    (addQueryLedger [] hybridQuery (recordArray (Json.lookup "records" hybridQuery)))
    (bankRateCitation "h1.hybrid" "observation" "Office for National Statistics")

def hybridDraft (limitation : String) : MarketBriefDraft :=
  ⟨"Hybrid working", .complete, [.numeric ⟨"hybrid", .high, "h1.hybrid"⟩], [], [limitation]⟩

def hybridInput (limitation : String) : Json :=
  .obj [("schema_version", .str "market_brief_draft.v1"), ("title", .str "Hybrid working"),
    ("status", .str "complete"), ("facts", .arr [bankRateFact "hybrid" "h1.hybrid"]),
    ("inferences", .arr []), ("limitations", .arr [.str limitation])]

/-- What the reference of the drafts resolves to. -/
theorem hybrid_resolved (limitation : String) : ∃ host references,
    hostLedger hybridLedger = .ok host ∧
    resolveReferences (hybridDraft limitation) host = .ok references ∧
    Cites references "uk.hybrid-working" := by
  have hcapabilities : (do
      let host ← hostLedger hybridLedger
      let references ← resolveReferences (hybridDraft "") host
      pure (references.map fun e => e.2.entry.capabilityId) : Finalize (List (Option String))) =
      .ok [some "uk.hybrid-working"] := by decide +kernel
  simp only [bind_ok, pure_ok] at hcapabilities
  obtain ⟨host, hhost, references, hreferences, hmap⟩ := hcapabilities
  refine ⟨host, references, hhost, hreferences, ?_⟩
  have hmem : some "uk.hybrid-working" ∈ references.map fun e => e.2.entry.capabilityId := by
    rw [hmap]
    exact List.mem_cons_self
  exact List.mem_map.mp hmem

/-- The accepted draft claims, behind a negation, what its citation prohibits. -/
theorem not_guards_cover : ∃ brief draft host references,
    finalizeBrief hybridEngine (hybridInput hiddenClaim) hybridLedger = .ok brief ∧
    parseDraft (hybridInput hiddenClaim) = .ok draft ∧ hostLedger hybridLedger = .ok host ∧
    resolveReferences draft host = .ok references ∧
    ¬ EachNegated hybridEngine draft references hybridPositions.positions := by
  obtain ⟨brief, hbrief⟩ := ok_of_isOk (x := finalizeBrief hybridEngine (hybridInput hiddenClaim)
    hybridLedger) (by decide +kernel)
  obtain ⟨host, references, hhost, hreferences, hcites⟩ := hybrid_resolved hiddenClaim
  refine ⟨brief, hybridDraft hiddenClaim, host, references, hbrief, rfl, hhost, hreferences,
    fun h => ?_⟩
  have hasserted : isNegatedClaim hybridEngine hiddenClaim 19 = false := by decide +kernel
  have hnegated := h "uk.hybrid-working" hcites occupancyClaims (by decide) hiddenClaim (by decide) 19
    (by decide)
  exact nomatch hasserted.symm.trans hnegated

/-- A draft whose texts have no later mention is covered. -/
theorem guards_cover_iff_scopeNote : ∃ host references,
    hostLedger hybridLedger = .ok host ∧
    resolveReferences (hybridDraft scopeNote) host = .ok references ∧
    Cites references "uk.hybrid-working" ∧
    4 ∈ hybridPositions.positions occupancyClaims scopeNote ∧
    EachNegated hybridEngine (hybridDraft scopeNote) references hybridPositions.positions := by
  obtain ⟨brief, hbrief⟩ := ok_of_isOk (x := finalizeBrief hybridEngine (hybridInput scopeNote)
    hybridLedger) (by decide +kernel)
  obtain ⟨host, references, hhost, hreferences, hcites⟩ := hybrid_resolved scopeNote
  refine ⟨host, references, hhost, hreferences, hcites, by decide, ?_⟩
  refine (guards_cover_iff hybridEngine hybridPositions hbrief rfl hhost hreferences).mpr ?_
  intro capabilityId _ pattern _ text htext i hi
  have hlater : ((hybridMatches pattern text).map Prod.fst).tail = [] := by
    have htexts : ∀ text ∈ (hybridDraft scopeNote).texts, text ≠ hiddenClaim := by decide
    unfold hybridMatches
    rw [if_neg fun h => htexts text htext h.2]
    split
    · rfl
    · split <;> rfl
  have hmention : i ∈ ((hybridMatches pattern text).map Prod.fst).tail := hi
  rw [hlater] at hmention
  exact nomatch hmention

end NanFung.Brief
