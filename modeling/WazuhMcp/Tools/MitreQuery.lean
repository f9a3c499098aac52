import WazuhMcp.Tools.Reference
import WazuhMcp.Wazuh.Exchanges
import WazuhMcp.Wazuh.QueryGrammar

/-!
# The query of a search for techniques

`search_mitre` puts the texts of its caller into the `q` parameter as they are, and sets the clauses of two
texts apart with a comma. The query that the Server API reads is the one that was asked for where one text
is given, and the text is a value as it stands (`mitreQuery_parses_iff`). A structural character in a text
is read as structure, an empty text is left out, and of two texts either is enough.
-/

namespace WazuhMcp

open Query

namespace SearchMitreArgs

variable (args : SearchMitreArgs)

/-- The text of the tactic. -/
def tacticText : Option String := args.tactic.map (·.1)

/-- Something is asked for. -/
def Given : Prop := args.q.isSome ∨ args.tactic.isSome

/-- **The query that is asked for**: a clause for each text that is given, with the text as its value, and
both of them where both are given. -/
def requested : List Token :=
  match args.q, args.tacticText with
  | none, none => []
  | some q, none => [.clause ⟨"name", .like, q⟩]
  | none, some tactic => [.clause ⟨"tactics", .like, tactic⟩]
  | some q, some tactic => [.clause ⟨"name", .like, q⟩, .and, .clause ⟨"tactics", .like, tactic⟩]

/-- The `q` parameter. -/
def queryText : String := Text.join ',' (mitreClause "name" args.q ++ mitreClause "tactics" args.tacticText)

/-- A text that is a value as it stands. -/
def Value (text : String) : Prop := text ≠ "" ∧ Plain text.toList

/-- **One text is given**, and it is a value. -/
def OneValue : Prop :=
  (∃ q, args.q = some q ∧ args.tactic = none ∧ Value q) ∨
    ∃ tactic, args.q = none ∧ args.tacticText = some tactic ∧ Value tactic

end SearchMitreArgs

open SearchMitreArgs

/-! ## One clause -/

theorem mitreClause_empty (field : String) : mitreClause field (some "") = [] := rfl

theorem mitreClause_some (field : String) {text : String} (h : text ≠ "") :
    mitreClause field (some text) = [(Clause.mk field .like text).render] := by
  rw [mitreClause, if_neg h]
  rfl

theorem isField_name : IsField "name" := ⟨by decide, List.all_eq_true.mp (by decide)⟩

theorem isField_tactics : IsField "tactics" := ⟨by decide, List.all_eq_true.mp (by decide)⟩

theorem parse_empty : parse "" = none := rfl

/-- A clause of its own is the one that is asked for if its text is a value. -/
theorem parse_mitreClause_iff {field : String} (hfield : IsField field) (text : String) :
    parse (Text.join ',' (mitreClause field (some text))) = some [.clause ⟨field, .like, text⟩] ↔
      Value text := by
  by_cases hempty : text = ""
  · subst hempty
    rw [mitreClause_empty]
    exact iff_of_false (fun h => nomatch parse_empty.symm.trans h) fun h => h.1 rfl
  · rw [mitreClause_some field hempty, Text.join_singleton]
    constructor
    · intro h
      exact ⟨hempty, plain_of_parse h (List.mem_singleton_self _)⟩
    · intro h
      exact parse_render ⟨hfield, h.2⟩

/-! ## Two clauses -/

/-- Two texts never make the query that is asked for: it has an `and` in it. -/
theorem parse_pair_ne {q tactic : String} :
    parse (Text.join ',' (mitreClause "name" (some q) ++ mitreClause "tactics" (some tactic))) ≠
      some [.clause ⟨"name", .like, q⟩, .and, .clause ⟨"tactics", .like, tactic⟩] := by
  intro h
  have hq : Plain q.toList := plain_of_parse h List.mem_cons_self
  have htactic : Plain tactic.toList :=
    plain_of_parse h (List.mem_cons_of_mem _ (List.mem_cons_of_mem _ (List.mem_singleton_self _)))
  by_cases hqEmpty : q = "" <;> by_cases htEmpty : tactic = ""
  · subst hqEmpty htEmpty
    exact nomatch parse_empty.symm.trans h
  · -- the clause of the tactic alone
    subst hqEmpty
    rw [mitreClause_empty, List.nil_append, mitreClause_some _ htEmpty, Text.join_singleton,
      parse_render ⟨isField_tactics, htactic⟩] at h
    simp at h
  · subst htEmpty
    rw [mitreClause_empty, List.append_nil, mitreClause_some _ hqEmpty, Text.join_singleton,
      parse_render ⟨isField_name, hq⟩] at h
    simp at h
  · -- the comma between them is read as `or`
    rw [mitreClause_some _ hqEmpty, mitreClause_some _ htEmpty] at h
    have hor := mem_of_parse h (Text.sep_mem_join_pair _ _ _) (Eq.refl (structural? ','))
    simp at hor

/-- **The text of the parameter is read as what is asked for** just where one value is given. -/
theorem parse_queryText_iff {args : SearchMitreArgs} (h : args.Given) :
    parse args.queryText = some args.requested ↔ args.OneValue := by
  obtain ⟨q, tactic, size⟩ := args
  cases q with
  | none =>
    cases tactic with
    | none => exact absurd h (by simp [Given])
    | some tactic =>
      refine (parse_mitreClause_iff isField_tactics tactic.1).trans ?_
      simp [OneValue, tacticText]
  | some q =>
    cases tactic with
    | none =>
      refine Iff.trans ?_ ((parse_mitreClause_iff isField_name q).trans ?_)
      · rw [queryText, tacticText, Option.map_none, mitreClause, List.append_nil]
        rfl
      · simp [OneValue, tacticText]
    | some tactic =>
      refine iff_of_false parse_pair_ne ?_
      simp [OneValue]

/-! ## What is sent -/

/-- The request carries the query in its `q` parameter, if it is one for techniques. -/
def UpRequest.Queries (query : List Token) (req : UpRequest) : Prop :=
  req.path = "/mitre/techniques" →
    ∃ text, req.params.lookup "q" = some (.str text) ∧ parse text = some query

/-- The request of a search. -/
def mitreRequest (args : SearchMitreArgs) (runAs : Option String) (jwt : String) : UpRequest where
  upstream := .serverApi
  method := "GET"
  path := "/mitre/techniques"
  params := ServerApiClient.effectiveParams
    [("q", .str args.queryText), ("limit", .int args.size.1)] runAs
  authorization := .bearer jwt

theorem queries_mitreRequest_iff {args : SearchMitreArgs} {runAs : Option String} {jwt : String}
    {query : List Token} :
    (mitreRequest args runAs jwt).Queries query ↔ parse args.queryText = some query := by
  have hlookup : (mitreRequest args runAs jwt).params.lookup "q" = some (.str args.queryText) :=
    ServerApiClient.lookup_effectiveParams_of_ne (by decide)
  constructor
  · intro h
    obtain ⟨text, htext, hparse⟩ := h rfl
    rw [hlookup] at htext
    cases htext
    exact hparse
  · intro h _
    exact ⟨args.queryText, hlookup, h⟩

/-- What a search sends beside requests for a token. -/
theorem sends_searchMitre_iff (session : Session) {args : SearchMitreArgs} (h : args.Given)
    {P : UpRequest → Prop} (hmint : P ServerApiClient.mintRequest) :
    (searchMitre session args).Sends P ↔ ∀ jwt, P (mitreRequest args session.wazuhUser jwt) := by
  have hgiven : (args.q.isSome || args.tactic.isSome) = true := Bool.or_eq_true_iff.mpr h
  rw [searchMitre, hgiven]
  refine ServerApiClient.sends_exchange_bind_iff hmint fun resp => ?_
  refine UpProg.sends_bind (UpProg.sends_ofExcept _) fun data => ?_
  refine UpProg.sends_bind (UpProg.sends_ofExcept _) fun affected => ?_
  refine UpProg.sends_bind (UpProg.sends_ofExcept _) fun items => ?_
  refine UpProg.sends_bind (UpProg.sends_ofExcept _) fun total => ?_
  exact UpProg.sends_bind (UpProg.sends_ofExcept _) fun techs => UpProg.sends_pure _

/-- The query of a search is the text of its parameter. -/
theorem searchMitre_queries_iff (session : Session) {args : SearchMitreArgs} (h : args.Given)
    {query : List Token} :
    (searchMitre session args).Sends (UpRequest.Queries query) ↔ parse args.queryText = some query := by
  have hmint : UpRequest.Queries query ServerApiClient.mintRequest := fun hpath =>
    absurd hpath (by decide)
  rw [sends_searchMitre_iff session h hmint, forall_congr' fun jwt => queries_mitreRequest_iff]
  exact forall_const _

/-- **A search sends the query that is asked for**, whoever calls and whatever happens upstream, just where
one text is given, it is not empty, and it has no `,`, `;`, `(` or `)` in it. -/
theorem mitreQuery_parses_iff (session : Session) (args : SearchMitreArgs) (h : args.Given) :
    (searchMitre session args).Sends (UpRequest.Queries args.requested) ↔ args.OneValue :=
  (searchMitre_queries_iff session h).trans (parse_queryText_iff h)

/-- A search by name. -/
theorem mitreQuery_parses_name :
    let session : Session := ⟨"alice", "acme", "viewer", .oauth, none⟩
    let args : SearchMitreArgs := ⟨some "Brute Force", none, ⟨50, by decide⟩⟩
    args.Given ∧
      ((searchMitre session args).Sends (UpRequest.Queries args.requested) ↔ args.OneValue) := by
  intro session args
  exact ⟨.inl rfl, mitreQuery_parses_iff session args (.inl rfl)⟩

/-- Of a name and a tactic that are both given, the search requires either. -/
theorem not_mitreQuery_parses :
    ¬ ∀ (session : Session) (args : SearchMitreArgs), args.Given →
      (searchMitre session args).Sends (UpRequest.Queries args.requested) := by
  intro h
  have hgiven : Given ⟨some "brute", some ⟨"impact", by decide⟩, ⟨50, by decide⟩⟩ := .inl rfl
  have hsends := h ⟨"alice", "acme", "viewer", .oauth, none⟩ _ hgiven
  exact parse_pair_ne ((searchMitre_queries_iff _ hgiven).mp hsends)

end WazuhMcp
