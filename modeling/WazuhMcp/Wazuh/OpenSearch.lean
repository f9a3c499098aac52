import WazuhMcp.Base.Json

/-!
# What a search query matches

The queries that the indexer understands, as far as the server writes them: a `bool` query, whose `must`
queries all have to match and whose `must_not` queries must not, and the leaf queries `term`, `terms`,
`exists`, `prefix` and `range`. What a leaf says of a document is left open: a `LeafMeaning` is any reading
of the leaves on documents of any kind. `matchesQuery_bool` is the rule for a `bool` query.
-/

namespace WazuhMcp

/-- The bounds of a `range` query. -/
inductive RangeBound where
  | gt
  | gte
  | lt
  | lte
  deriving DecidableEq, Repr

/-- The bound that a `range` query writes. -/
def RangeBound.ofText? : String → Option RangeBound
  | "gt" => some .gt
  | "gte" => some .gte
  | "lt" => some .lt
  | "lte" => some .lte
  | _ => none

/-- What the leaf queries on a field say of a document. -/
structure LeafMeaning (Doc : Type) where
  term : String → Json → Doc → Bool
  terms : String → Json → Doc → Bool
  exists_ : String → Doc → Bool
  prefix_ : String → Json → Doc → Bool
  range : String → RangeBound → Json → Doc → Bool

variable {Doc : Type} (m : LeafMeaning Doc) (doc : Doc)

/-- Whether a document matches a leaf query. -/
def matchesLeaf (kind : String) : Json → Bool
  | .obj [(key, value)] =>
    match kind, value with
    | "term", value => m.term key value doc
    | "terms", value => m.terms key value doc
    | "prefix", value => m.prefix_ key value doc
    | "exists", .str field => key = "field" && m.exists_ field doc
    | "range", .obj [(bound, value)] =>
      (RangeBound.ofText? bound).any fun bound => m.range key bound value doc
    | _, _ => false
  | _ => false

mutual

/-- Whether a document matches a query. -/
def matchesQuery : Json → Bool
  | .obj [(kind, .obj block)] =>
    if kind = "bool" then matchesBlock block else matchesLeaf m doc kind (.obj block)
  | _ => false

/-- Whether it matches the clauses of a `bool` query. -/
def matchesBlock : List (String × Json) → Bool
  | [] => true
  | (occur, .arr qs) :: block =>
    (if occur = "must" then matchesAll qs else occur = "must_not" && matchesNone qs) && matchesBlock block
  | _ => false

/-- Whether it matches every query. -/
def matchesAll : List Json → Bool
  | [] => true
  | q :: qs => matchesQuery q && matchesAll qs

/-- Whether it matches no query. -/
def matchesNone : List Json → Bool
  | [] => true
  | q :: qs => !matchesQuery q && matchesNone qs

end

/-- Whether a search for this body finds a document. -/
def searchFinds : Json → Bool
  | .obj body => (List.lookup "query" body).any (matchesQuery m doc)
  | _ => false

variable {m doc}

theorem matchesAll_iff {qs : List Json} :
    matchesAll m doc qs = true ↔ ∀ q ∈ qs, matchesQuery m doc q = true := by
  induction qs with
  | nil => simp [matchesAll]
  | cons q qs ih => rw [matchesAll, Bool.and_eq_true, ih, List.forall_mem_cons]

theorem matchesNone_iff {qs : List Json} :
    matchesNone m doc qs = true ↔ ∀ q ∈ qs, matchesQuery m doc q = false := by
  induction qs with
  | nil => simp [matchesNone]
  | cons q qs ih => rw [matchesNone, Bool.and_eq_true, ih, List.forall_mem_cons, Bool.not_eq_true']

/-- **A `bool` query** matches what all its `must` queries match and none of its `must_not` queries
does. -/
theorem matchesQuery_bool {must mustNot : List Json} :
    matchesQuery m doc (.obj [("bool", .obj (("must", .arr must) ::
      if mustNot.isEmpty then [] else [("must_not", .arr mustNot)]))]) = true ↔
    (∀ q ∈ must, matchesQuery m doc q = true) ∧ ∀ q ∈ mustNot, matchesQuery m doc q = false := by
  rw [matchesQuery, if_pos rfl, matchesBlock, if_pos rfl, Bool.and_eq_true, matchesAll_iff]
  refine and_congr_right fun _ => ?_
  cases mustNot with
  | nil => simp [matchesBlock]
  | cons q qs => simp [matchesBlock, matchesNone_iff]

end WazuhMcp
