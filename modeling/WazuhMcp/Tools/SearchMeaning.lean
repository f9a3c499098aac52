import WazuhMcp.Tools.HuntSemantics
import WazuhMcp.Tools.Paging

/-!
# What the search tools look for

What each search tool asks the indexer for, against what its arguments ask for.

* `PagedCall.Valid` and `PagedCall.Wants`: which arguments a tool accepts, and which documents it is asked for.
* `Meets`: a builder rejects what is not valid, and otherwise builds a query that finds what is wanted. It is put
  together along the checks of the builder (`Meets.bind`).
* `PagedCall.asks_for`: every search tool asks its index for the documents that are wanted.
-/

namespace WazuhMcp

variable {Doc : Type}

/-- A reading of the leaf queries on which `terms` stands for any of its terms. -/
structure TermsMeaning (Doc : Type) extends LeafMeaning Doc where
  terms_eq : ∀ field values doc, terms field (.arr values) doc = values.any fun value => term field value doc

/-! ## What is wanted -/

namespace TermsMeaning

variable (m : TermsMeaning Doc) (doc : Doc)

/-- The document is no older than the lookback. -/
def Recent (timeRange : String) : Prop := m.range "@timestamp" .gte (.str ("now-" ++ timeRange)) doc = true

/-- The document has this text in this field. -/
def Has (field text : String) : Prop := m.term field (.str text) doc = true

/-- The severity of the vulnerability is this one or a higher one. -/
def AtLeast (minSeverity : String) : Prop :=
  ∃ severity ∈ severities, severities.idxOf (Text.capitalize minSeverity) ≤ severities.idxOf severity ∧
    m.Has doc "vulnerability.severity" severity

end TermsMeaning

namespace PagedCall

/-- The lookback that is asked for. -/
def InTime (timeRange : String) : Prop := validateTimeRange timeRange = .ok ()

/-- The severity that is asked for, if one is. -/
def IsSeverity (minSeverity : Option String) : Prop := ∀ s ∈ minSeverity, Text.capitalize s ∈ severities

/-- The arguments that the tool accepts. -/
def Valid {Row : Type} : PagedCall Row → Prop
  | searchAlerts args => InTime args.timeRange
  | alertsByAgent args => agentIdMatches args.agentId = true ∧ InTime args.timeRange
  | alertsByMitre args => mitreIdMatches args.techniqueId = true ∧ InTime args.timeRange
  | listVulnerabilitiesByAgent args => agentIdMatches args.agentId = true ∧ IsSeverity args.minSeverity
  | searchVulnerabilities args => (args.cveId.isSome || args.minSeverity.isSome) = true ∧
      args.cveId.all cveIdMatches = true ∧ IsSeverity args.minSeverity
  | fimHistoryForPath args => InTime args.timeRange
  | fimChangesByAgent args => agentIdMatches args.agentId = true ∧ InTime args.timeRange
  | huntQuery _ => True
  | pivotByIoc args => InTime args.timeRange

/-- The documents that the arguments ask for. -/
def Wants {Row : Type} (m : TermsMeaning Doc) (doc : Doc) : PagedCall Row → Prop
  | searchAlerts args => m.Recent doc args.timeRange ∧
      (∀ level ∈ args.minLevel, m.range "rule.level" .gte (.int level) doc = true) ∧
      ∀ id ∈ args.agentId, m.Has doc "agent.id" id
  | alertsByAgent args => m.Recent doc args.timeRange ∧ m.Has doc "agent.id" args.agentId
  | alertsByMitre args => m.Recent doc args.timeRange ∧ m.Has doc "rule.mitre.id" args.techniqueId
  | listVulnerabilitiesByAgent args => m.Has doc "agent.id" args.agentId ∧ ∀ s ∈ args.minSeverity, m.AtLeast doc s
  | searchVulnerabilities args =>
      (∀ id ∈ args.cveId, m.Has doc "vulnerability.id" id) ∧ ∀ s ∈ args.minSeverity, m.AtLeast doc s
  | fimHistoryForPath args => m.Recent doc args.timeRange ∧ m.Has doc "syscheck.path" args.path
  | fimChangesByAgent args => m.Recent doc args.timeRange ∧ m.Has doc "agent.id" args.agentId ∧
      m.exists_ "syscheck.path" doc = true
  | huntQuery args => m.Recent doc args.timeRange ∧ (∀ c ∈ args.must, c.holds m.toLeafMeaning doc = true) ∧
      ∀ c ∈ args.mustNot, c.holds m.toLeafMeaning doc = false
  | pivotByIoc args => m.Recent doc args.timeRange ∧ m.Has doc args.kind.primaryField args.value

end PagedCall

/-! ## The clauses -/

section Clauses

variable {m : TermsMeaning Doc} {doc : Doc}

@[simp] theorem matches_since {timeRange : String} :
    matchesQuery m.toLeafMeaning doc (since timeRange) = true ↔ m.Recent doc timeRange := by
  rw [matchesQuery_since]
  rfl

@[simp] theorem matches_term {field text : String} :
    matchesQuery m.toLeafMeaning doc (term field (.str text)) = true ↔ m.Has doc field text := by
  simp [term, matchesQuery, matchesLeaf, TermsMeaning.Has]

@[simp] theorem matches_gte {field : String} {value : Json} :
    matchesQuery m.toLeafMeaning doc (range field "gte" value) = m.range field .gte value doc := by
  simp [range, matchesQuery, matchesLeaf, RangeBound.ofText?]

@[simp] theorem matches_exists {field : String} :
    matchesQuery m.toLeafMeaning doc (.obj [("exists", .obj [("field", .str field)])]) = m.exists_ field doc := by
  simp [matchesQuery, matchesLeaf]

theorem matches_terms {field : String} {values : List Json} :
    matchesQuery m.toLeafMeaning doc (.obj [("terms", .obj [(field, .arr values)])]) =
      values.any fun value => m.term field value doc := by
  rw [← m.terms_eq]
  simp [matchesQuery, matchesLeaf]

/-- A query of `must` clauses finds what all of them match. -/
theorem searchFinds_must {must : List Json} {size : ℤ} {sortKey : String} {source : List String}
    {cursor : Option (List Json)} :
    searchFinds m.toLeafMeaning doc (boolQuery [("must", .arr must)] size sortKey source cursor) = true ↔
      ∀ q ∈ must, matchesQuery m.toLeafMeaning doc q = true := by
  have hquery : searchFinds m.toLeafMeaning doc (boolQuery [("must", .arr must)] size sortKey source cursor) =
      matchesQuery m.toLeafMeaning doc (.obj [("bool", .obj [("must", .arr must)])]) := rfl
  rw [hquery]
  exact (@matchesQuery_bool _ _ doc must []).trans (and_iff_left (List.forall_mem_nil _))

/-- A hunt finds what is recent enough and meets its clauses. -/
theorem searchFinds_hunt {args : HuntQueryArgs} :
    searchFinds m.toLeafMeaning doc (buildHuntDsl args) = true ↔ m.Recent doc args.timeRange ∧
      (∀ c ∈ args.must, c.holds m.toLeafMeaning doc = true) ∧
      ∀ c ∈ args.mustNot, c.holds m.toLeafMeaning doc = false := by
  have hquery : searchFinds m.toLeafMeaning doc (buildHuntDsl args) =
      matchesQuery m.toLeafMeaning doc (.obj [("bool", .obj (huntBool args))]) := rfl
  have hmust := forall_op_cases args.must fun c => c.holds m.toLeafMeaning doc = true
  have hmustNot := forall_op_cases args.mustNot fun c => c.holds m.toLeafMeaning doc = false
  rw [hquery, huntBool, matchesQuery_bool, forall_huntMust, forall_huntMustNot, hmust, hmustNot,
    TermsMeaning.Recent]
  tauto

end Clauses

/-- What is left of a list from one of its members on is what does not come before it. -/
theorem mem_dropWhile_ne {α : Type} [DecidableEq α] {l : List α} (hl : l.Nodup) {a : α} (ha : a ∈ l) (b : α) :
    b ∈ l.dropWhile (· != a) ↔ b ∈ l ∧ l.idxOf a ≤ l.idxOf b := by
  induction l with
  | nil => cases ha
  | cons c l ih =>
    obtain ⟨hc, hl⟩ := List.nodup_cons.mp hl
    by_cases hca : c = a
    · subst hca
      simp
    · have hal : a ∈ l := (List.mem_cons.mp ha).resolve_left (Ne.symm hca)
      rw [List.dropWhile_cons_of_pos (by simpa using hca), ih hl hal, List.idxOf_cons_ne _ hca]
      by_cases hcb : c = b
      · subst hcb
        simp [hc]
      · rw [List.idxOf_cons_ne _ hcb, List.mem_cons]
        simp [Ne.symm hcb]

/-! ## The builders -/

/-- The builder rejects what is not valid, and otherwise builds a query, at this page size and cursor, that finds
what is wanted. -/
def Meets (size : Ranged 1 100) (cursor : Option (List Json)) (valid : Prop)
    (wants : ∀ {Doc : Type}, TermsMeaning Doc → Doc → Prop) (build : Except Exn Json) : Prop :=
  (¬valid ∧ ∃ x, build = .error x) ∨
    (valid ∧ ∃ bool sortKey source, build = .ok (boolQuery bool size sortKey source cursor) ∧
      ∀ {Doc : Type} (m : TermsMeaning Doc) (doc : Doc),
        searchFinds m.toLeafMeaning doc (boolQuery bool size sortKey source cursor) = true ↔ wants m doc)

section Meets

variable {size : Ranged 1 100} {cursor : Option (List Json)} {valid : Prop}
  {wants : ∀ {Doc : Type}, TermsMeaning Doc → Doc → Prop}

/-- A check before the query is built. -/
theorem Meets.bind {α : Type} {check : Except Exn α} {passes : Prop} (hpasses : passes ↔ ∃ a, check = .ok a)
    {build : α → Except Exn Json} (h : ∀ a, check = .ok a → Meets size cursor valid wants (build a)) :
    Meets size cursor (passes ∧ valid) wants (check >>= build) := by
  cases hcheck : check with
  | error x =>
    refine .inl ⟨fun hvalid => ?_, x, rfl⟩
    obtain ⟨a, ha⟩ := hpasses.mp hvalid.1
    rw [hcheck] at ha
    cases ha
  | ok a =>
    have hpassed : passes := hpasses.mpr ⟨a, hcheck⟩
    rcases h a hcheck with ⟨hinvalid, hfails⟩ | ⟨hvalid, hbuilds⟩
    · exact .inl ⟨fun h => hinvalid h.2, hfails⟩
    · exact .inr ⟨⟨hpassed, hvalid⟩, hbuilds⟩

theorem require_passes {check : Bool} : check = true ↔ ∃ a, require check = .ok a := by
  cases check with
  | true => exact iff_of_true rfl ⟨(), rfl⟩
  | false => exact iff_of_false Bool.false_ne_true fun ⟨_, h⟩ => nomatch h

theorem validateTimeRange_passes {timeRange : String} :
    PagedCall.InTime timeRange ↔ ∃ a, validateTimeRange timeRange = .ok a :=
  ⟨fun h => ⟨(), h⟩, fun ⟨_, h⟩ => h⟩

/-- A query of `must` clauses that match what is wanted. -/
theorem Meets.must {must : List Json} {sortKey : String} {source : List String}
    (h : ∀ {Doc : Type} (m : TermsMeaning Doc) (doc : Doc),
      (∀ q ∈ must, matchesQuery m.toLeafMeaning doc q = true) ↔ wants m doc) :
    Meets size cursor True wants
      (.ok (boolQuery [("must", .arr must)] (clampSize size) sortKey source cursor)) := by
  rw [clampSize_ranged]
  exact .inr ⟨trivial, _, _, _, rfl, fun m doc => searchFinds_must.trans (h m doc)⟩

/-- What a tool with this builder asks its index for. -/
def AsksFor {Row : Type} (size : Ranged 1 100) (cursor : Option (List Json)) (valid : Prop)
    (wants : ∀ {Doc : Type}, TermsMeaning Doc → Doc → Prop) (py : Pydantic) (index : String)
    (fromHit : Json → Except Exn Row) (prog : UpProg (Rows Row)) : Prop :=
  (¬valid ∧ ∃ x, prog = .raise x) ∨
    (valid ∧ ∃ bool sortKey source,
      prog = searchRows py index (.ok (boolQuery bool size sortKey source cursor)) fromHit size ∧
      ∀ {Doc : Type} (m : TermsMeaning Doc) (doc : Doc),
        searchFinds m.toLeafMeaning doc (boolQuery bool size sortKey source cursor) = true ↔ wants m doc)

theorem Meets.asksFor {Row : Type} {build : Except Exn Json} (h : Meets size cursor valid wants build)
    {valid' : Prop} (hvalid : valid ↔ valid') {py : Pydantic} {index : String} {fromHit : Json → Except Exn Row} :
    AsksFor size cursor valid' wants py index fromHit (searchRows py index build fromHit size) := by
  rcases h with ⟨hinvalid, x, rfl⟩ | ⟨hv, bool, sortKey, source, rfl, hfinds⟩
  · exact .inl ⟨mt hvalid.mpr hinvalid, x, rfl⟩
  · exact .inr ⟨hvalid.mp hv, bool, sortKey, source, rfl, hfinds⟩

end Meets

section Severity

variable {m : TermsMeaning Doc} {doc : Doc} {minSeverity : Option String}

theorem severityClause_passes :
    PagedCall.IsSeverity minSeverity ↔ ∃ clause, severityClause minSeverity = .ok clause := by
  cases minSeverity with
  | none => exact iff_of_true (fun s hs => nomatch hs) ⟨[], rfl⟩
  | some s =>
    rw [PagedCall.IsSeverity, severityClause, severitiesFrom]
    by_cases hs : Text.capitalize s ∈ severities
    · rw [if_pos hs]
      exact iff_of_true (fun s' hs' => Option.some.inj hs' ▸ hs) ⟨_, rfl⟩
    · rw [if_neg hs]
      exact iff_of_false (fun h => hs (h s rfl)) fun ⟨_, h⟩ => nomatch h

/-- The clause for a minimum severity matches what has at least this severity. -/
theorem matches_severityClause {clause : List Json} (h : severityClause minSeverity = .ok clause) :
    (∀ q ∈ clause, matchesQuery m.toLeafMeaning doc q = true) ↔ ∀ s ∈ minSeverity, m.AtLeast doc s := by
  cases minSeverity with
  | none =>
    cases h
    exact iff_of_true (List.forall_mem_nil _) fun s hs => nomatch hs
  | some s =>
    rw [severityClause, severitiesFrom] at h
    split at h
    · rename_i hs
      obtain rfl := Except.ok.inj h
      rw [List.forall_mem_singleton, matches_terms, List.any_map, List.any_eq_true]
      have hnodup : severities.Nodup := by decide
      simp only [mem_dropWhile_ne hnodup hs, Option.mem_some_iff, forall_eq', TermsMeaning.AtLeast, and_assoc]
      exact Iff.rfl
    · cases h

end Severity

/-! ## The tools -/

/-- **Every search tool asks for what is wanted**: it rejects its arguments without asking anybody, or it asks its
index, at the page size and cursor of the call, for a page of the documents that the arguments ask for. -/
theorem PagedCall.asks_for {Row : Type} (py : Pydantic) (call : PagedCall Row) (cursor : Option (List Json)) :
    AsksFor call.size cursor call.Valid (fun m doc => call.Wants m doc) py call.index (call.fromHit py)
      (call.run py cursor) := by
  cases call with
  | searchAlerts args =>
    let levelOk : Bool := (args.minLevel.map (·.1)).all fun l => 0 ≤ l && l ≤ 15
    have hlevel : levelOk = true := by
      cases hmin : args.minLevel with
      | none => simp [levelOk, hmin]
      | some level => simpa [levelOk, hmin] using level.2
    have hmeets : Meets args.size cursor (InTime args.timeRange ∧ levelOk = true ∧ True)
        (fun m doc => (searchAlerts args).Wants m doc)
        (buildSearchAlertsQuery args.timeRange (args.minLevel.map (·.1)) args.agentId args.size cursor) := by
      refine Meets.bind validateTimeRange_passes fun _ _ => Meets.bind require_passes fun _ _ => Meets.must ?_
      intro Doc m doc
      cases hmin : args.minLevel <;> cases hid : args.agentId <;> simp [Wants, hmin, hid]
    exact hmeets.asksFor (by simp [Valid, hlevel])
  | alertsByAgent args =>
    have hmeets : Meets args.size cursor (agentIdMatches args.agentId = true ∧ InTime args.timeRange ∧ True)
        (fun m doc => (alertsByAgent args).Wants m doc)
        (buildAlertsByAgentQuery args.agentId args.timeRange args.size cursor) := by
      refine Meets.bind require_passes fun _ _ => Meets.bind validateTimeRange_passes fun _ _ => Meets.must ?_
      intro Doc m doc
      simp [Wants]
    exact hmeets.asksFor (by simp [Valid])
  | alertsByMitre args =>
    have hmeets : Meets args.size cursor (mitreIdMatches args.techniqueId = true ∧ InTime args.timeRange ∧ True)
        (fun m doc => (alertsByMitre args).Wants m doc)
        (buildAlertsByMitreQuery args.techniqueId args.timeRange args.size cursor) := by
      refine Meets.bind require_passes fun _ _ => Meets.bind validateTimeRange_passes fun _ _ => Meets.must ?_
      intro Doc m doc
      simp [Wants]
    exact hmeets.asksFor (by simp [Valid])
  | listVulnerabilitiesByAgent args =>
    have hmeets : Meets args.size cursor (agentIdMatches args.agentId = true ∧ IsSeverity args.minSeverity ∧ True)
        (fun m doc => (listVulnerabilitiesByAgent args).Wants m doc)
        (buildVulnerabilitiesByAgentQuery args.agentId args.minSeverity args.size cursor) := by
      refine Meets.bind require_passes fun _ _ =>
        Meets.bind severityClause_passes fun clause hclause => Meets.must ?_
      intro Doc m doc
      rw [List.forall_mem_cons, matches_severityClause hclause, matches_term]
      rfl
    exact hmeets.asksFor (by simp [Valid])
  | searchVulnerabilities args =>
    have hmeets : Meets args.size cursor ((args.cveId.isSome || args.minSeverity.isSome) = true ∧
          args.cveId.all cveIdMatches = true ∧ IsSeverity args.minSeverity ∧ True)
        (fun m doc => (searchVulnerabilities args).Wants m doc)
        (buildSearchVulnerabilitiesQuery args.cveId args.minSeverity args.size cursor) := by
      refine Meets.bind require_passes fun _ _ => Meets.bind require_passes fun _ _ =>
        Meets.bind severityClause_passes fun clause hclause => Meets.must ?_
      intro Doc m doc
      rw [List.forall_mem_append, matches_severityClause hclause]
      simp [Wants]
    exact hmeets.asksFor (by simp [Valid])
  | fimHistoryForPath args =>
    let pathOk : Bool := args.path.1 != "" && args.path.1.length ≤ 1024
    have hpath : pathOk = true := by
      have hne : args.path.1 ≠ "" := fun h => absurd (h ▸ args.path.2.1) (by decide)
      simp [pathOk, hne, args.path.2.2]
    have hmeets : Meets args.size cursor (pathOk = true ∧ InTime args.timeRange ∧ True)
        (fun m doc => (fimHistoryForPath args).Wants m doc)
        (buildFimHistoryForPathQuery args.path args.timeRange args.size cursor) := by
      refine Meets.bind require_passes fun _ _ => Meets.bind validateTimeRange_passes fun _ _ => Meets.must ?_
      intro Doc m doc
      simp [Wants]
    exact hmeets.asksFor (by simp [Valid, hpath])
  | fimChangesByAgent args =>
    have hmeets : Meets args.size cursor (agentIdMatches args.agentId = true ∧ InTime args.timeRange ∧ True)
        (fun m doc => (fimChangesByAgent args).Wants m doc)
        (buildFimChangesByAgentQuery args.agentId args.timeRange args.size cursor) := by
      refine Meets.bind require_passes fun _ _ => Meets.bind validateTimeRange_passes fun _ _ => Meets.must ?_
      intro Doc m doc
      simp [Wants]
    exact hmeets.asksFor (by simp [Valid])
  | huntQuery args => exact .inr ⟨trivial, _, _, _, rfl, fun _ _ => searchFinds_hunt⟩
  | pivotByIoc args =>
    by_cases hvalid : InTime args.timeRange
    · refine .inr ⟨hvalid, _, _, _, dif_pos hvalid, fun m doc => searchFinds_hunt.trans ?_⟩
      simp [Wants, pivotHunt, HuntClause.holds, TermsMeaning.Has]
    · exact .inl ⟨hvalid, .validation, dif_neg hvalid⟩

end WazuhMcp
