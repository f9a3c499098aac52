import WazuhMcp.Tools.HuntSafety
import WazuhMcp.Wazuh.OpenSearch

/-!
# What a hunt finds

A hunt is a list of clauses that must hold and a list of clauses that must not. The query it becomes has
two lists as well, but a clause with `ne` is rendered as the `term` query it negates and put on the other
list, so that each list of the query has clauses of both (`forall_huntMust`, `forall_huntMustNot`).
-/

namespace WazuhMcp

variable {Doc : Type} {m : LeafMeaning Doc} {doc : Doc}

/-- Whether a clause holds of a document. -/
def HuntClause.holds (m : LeafMeaning Doc) (doc : Doc) (c : HuntClause) : Bool :=
  match c.op with
  | .eq => m.term c.field c.value doc
  | .ne => !m.term c.field c.value doc
  | .gt => m.range c.field .gt c.value doc
  | .gte => m.range c.field .gte c.value doc
  | .lt => m.range c.field .lt c.value doc
  | .lte => m.range c.field .lte c.value doc
  | .isIn => m.terms c.field c.value doc
  | .exists_ => m.exists_ c.field doc
  | .prefix_ => m.prefix_ c.field c.value doc

/-- What a clause is rendered as matches where the clause holds, but for `ne`. -/
theorem matchesQuery_renderClause (c : HuntClause) (h : c.op ≠ .ne) :
    matchesQuery m doc (renderClause c) = c.holds m doc := by
  rw [renderClause, HuntClause.holds]
  cases hop : c.op with
  | ne => exact absurd hop h
  | eq | gt | gte | lt | lte | isIn | exists_ | prefix_ =>
    simp [matchesQuery, matchesLeaf, term, range, HuntOp.text, RangeBound.ofText?]

/-- What a clause with `ne` is rendered as matches where the clause does not hold. -/
theorem matchesQuery_renderClause_ne (c : HuntClause) (h : c.op = .ne) :
    matchesQuery m doc (renderClause c) = !c.holds m doc := by
  rw [renderClause, HuntClause.holds, h]
  simp [matchesQuery, matchesLeaf, term]

/-- The lookback matches what is no older. -/
theorem matchesQuery_since (timeRange : String) :
    matchesQuery m doc (since timeRange) =
      m.range "@timestamp" .gte (.str ("now-" ++ timeRange)) doc := by
  simp [since, range, matchesQuery, matchesLeaf, RangeBound.ofText?]

/-- The clauses of a list that are not `ne` are rendered as they are. -/
theorem forall_positive {cs : List HuntClause} {b : Bool} :
    (∀ q ∈ (cs.filter (·.op ≠ .ne)).map renderClause, matchesQuery m doc q = b) ↔
      ∀ c ∈ cs, c.op ≠ .ne → c.holds m doc = b := by
  rw [List.forall_mem_map]
  simp only [List.mem_filter, decide_eq_true_eq, and_imp]
  refine forall₃_congr fun c _ hop => ?_
  rw [matchesQuery_renderClause c hop]

/-- Those that are `ne` are rendered as what they negate. -/
theorem forall_negative {cs : List HuntClause} {b : Bool} :
    (∀ q ∈ (cs.filter (·.op = .ne)).map renderClause, matchesQuery m doc q = b) ↔
      ∀ c ∈ cs, c.op = .ne → c.holds m doc = !b := by
  rw [List.forall_mem_map]
  simp only [List.mem_filter, decide_eq_true_eq, and_imp]
  refine forall₃_congr fun c _ hop => ?_
  rw [matchesQuery_renderClause_ne c hop, Bool.not_eq_eq_eq_not]

/-- A list of clauses is scattered over its `ne` clauses and the others. -/
theorem forall_op_cases (cs : List HuntClause) (P : HuntClause → Prop) :
    (∀ c ∈ cs, P c) ↔ (∀ c ∈ cs, c.op ≠ .ne → P c) ∧ ∀ c ∈ cs, c.op = .ne → P c := by
  constructor
  · exact fun h => ⟨fun c hc _ => h c hc, fun c hc _ => h c hc⟩
  · rintro ⟨hother, hne⟩ c hc
    by_cases hop : c.op = .ne
    · exact hne c hc hop
    · exact hother c hc hop

/-- The queries that must match are the lookback, and what is not `ne` in `must` and `ne` in
`must_not`. -/
theorem forall_huntMust (args : HuntQueryArgs) :
    (∀ q ∈ huntMust args, matchesQuery m doc q = true) ↔
      m.range "@timestamp" .gte (.str ("now-" ++ args.timeRange)) doc = true ∧
      (∀ c ∈ args.must, c.op ≠ .ne → c.holds m doc = true) ∧
      ∀ c ∈ args.mustNot, c.op = .ne → c.holds m doc = false := by
  rw [huntMust, List.forall_mem_cons, List.forall_mem_append, forall_positive, forall_negative,
    matchesQuery_since, Bool.not_true]

/-- The queries that must not match are what is `ne` in `must` and not `ne` in `must_not`. -/
theorem forall_huntMustNot (args : HuntQueryArgs) :
    (∀ q ∈ huntMustNot args, matchesQuery m doc q = false) ↔
      (∀ c ∈ args.must, c.op = .ne → c.holds m doc = true) ∧
      ∀ c ∈ args.mustNot, c.op ≠ .ne → c.holds m doc = false := by
  rw [huntMustNot, List.forall_mem_append, forall_positive, forall_negative, Bool.not_false]

/-- **A hunt finds** the documents of its time range of which every clause of `must` holds and none of
`must_not`, whatever the leaf queries say of documents. -/
theorem huntDsl_finds_iff (m : LeafMeaning Doc) (doc : Doc) (args : HuntQueryArgs) :
    searchFinds m doc (buildHuntDsl args) = true ↔
      m.range "@timestamp" .gte (.str ("now-" ++ args.timeRange)) doc = true ∧
      (∀ c ∈ args.must, c.holds m doc = true) ∧ ∀ c ∈ args.mustNot, c.holds m doc = false := by
  have hquery : searchFinds m doc (buildHuntDsl args) =
      matchesQuery m doc (.obj [("bool", .obj (huntBool args))]) := rfl
  rw [hquery, huntBool, matchesQuery_bool, forall_huntMust, forall_huntMustNot,
    forall_op_cases args.must fun c => c.holds m doc = true,
    forall_op_cases args.mustNot fun c => c.holds m doc = false]
  constructor
  · rintro ⟨⟨hrange, hmust, hmustNotNe⟩, hmustNe, hmustNot⟩
    exact ⟨hrange, ⟨hmust, hmustNe⟩, hmustNot, hmustNotNe⟩
  · rintro ⟨hrange, ⟨hmust, hmustNe⟩, hmustNot, hmustNotNe⟩
    exact ⟨⟨hrange, hmust, hmustNotNe⟩, hmustNe, hmustNot⟩

end WazuhMcp
