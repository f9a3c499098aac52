import Mathlib.Data.List.Lex
import Mathlib.Data.List.Sort
import Mathlib.Order.OrderDual
import WazuhMcp.Foundations.Paging
import WazuhMcp.Wazuh.Indexer

/-!
# The index that answers searches

What OpenSearch is relied on for, whatever the body of a search. It reads the filter, the sort with the order
of each field, the page size, the sort values to go on after, the fields to show, and how many documents it
may look at (`SearchBody.read`). Of the documents that match it returns, in the requested order, those that
come strictly after the sort values (`Answers`).

* `answers_snapshotEngine`: an index that sorts the documents it holds answers so.
-/

namespace WazuhMcp

open Paging

/-! ## Bodies -/

/-- The order of a field that a body sorts by. -/
inductive SortOrder where
  | asc
  | desc

/-- What the index reads of the body of a search. -/
structure SearchBody where
  query : Json
  size : ℕ
  sort : List (String × SortOrder)
  source : Option Json
  searchAfter : Option (List ℤ)
  terminateAfter : Option ℤ

namespace SearchBody

/-- A field and its order. -/
def readSort : Json → Option (String × SortOrder)
  | .obj [(field, .str "asc")] => some (field, .asc)
  | .obj [(field, .str "desc")] => some (field, .desc)
  | _ => none

/-- A sort value: a number. -/
def readValue : Json → Option ℤ
  | .int v => some v
  | _ => none

/-- The members of a body that are read; others may ask for anything. -/
def members : List String := ["query", "size", "sort", "_source", "search_after", "terminate_after"]

/-- The body of a search, if it is one with such members only and a value to go on after for every field that
it sorts by. -/
def read : Json → Option SearchBody
  | .obj body => do
    if body.any fun kv => kv.1 ∉ members then none
    let query ← body.lookup "query"
    let sort ← match body.lookup "sort" with
      | some (.arr entries) => entries.mapM readSort
      | _ => none
    let size ← match body.lookup "size" with
      | none => some 10
      | some (.int n) => if 0 ≤ n then some n.toNat else none
      | _ => none
    let searchAfter ← match body.lookup "search_after" with
      | none => some none
      | some (.arr values) => (values.mapM readValue).map some
      | _ => none
    if searchAfter.any fun values => values.length ≠ sort.length then none
    let terminateAfter ← match body.lookup "terminate_after" with
      | none => some none
      | some (.int n) => some (some n)
      | _ => none
    return ⟨query, size, sort, body.lookup "_source", searchAfter, terminateAfter⟩
  | _ => none

end SearchBody

/-! ## Documents -/

/-- A document: what a hit shows of it, by the fields that are asked for, and its value of each field that it
can be sorted by. -/
structure IndexedDoc where
  shown : Option Json → JsonObject
  value : String → ℤ

/-- Sort values, negated where the order is descending: they come in the requested order if these ascend. -/
def ranks (sort : List (String × SortOrder)) (values : List ℤ) : List ℤ :=
  sort.zipWith (fun s v => match s.2 with
    | .asc => v
    | .desc => -v) values

namespace SearchBody

variable (b : SearchBody)

/-- The sort values of a document. -/
def values (doc : IndexedDoc) : List ℤ := b.sort.map fun s => doc.value s.1

/-- The document in a response. -/
def hit (doc : IndexedDoc) : Json :=
  .obj (("sort", .arr ((b.values doc).map .int)) :: doc.shown b.source)

/-- Where a document comes: before those of which this is less. -/
def rank (doc : IndexedDoc) : (List ℤ)ᵒᵈ := OrderDual.toDual (ranks b.sort (b.values doc))

/-- Where the page begins. -/
def cursor : Option (List ℤ)ᵒᵈ := b.searchAfter.map fun values => OrderDual.toDual (ranks b.sort values)

end SearchBody

/-! ## Answers -/

/-- The body of a response with these hits. -/
def IsResponse (hits : List Json) (body : Json) : Prop :=
  ∃ d block total n, body = .obj d ∧ d.lookup "hits" = some (.obj block) ∧
    block.lookup "hits" = some (.arr hits) ∧ block.lookup "total" = some (.obj total) ∧
    total.lookup "value" = some (.int n)

/-- **The index answers searches** over a snapshot, in which these documents of an index match a query: if
they are fewer than the search may look at, it returns a page of those that come strictly after the sort
values of the body, in the order that the body requests. -/
def Answers (engine : UpRequest → Except ForeignExn UpResponse)
    (matching : String → Json → List IndexedDoc) : Prop :=
  ∀ index body b, SearchBody.read body = some b →
    (∀ most ∈ b.terminateAfter, ((matching index b.query).length : ℤ) < most) →
      ∃ page response, engine (IndexerClient.searchRequest index body) = .ok ⟨200, .ok response⟩ ∧
        IsResponse (page.map b.hit) response ∧ IsPage b.rank (matching index b.query) b.size b.cursor page

/-- An index that holds these documents, all of which match. -/
def snapshotEngine (docs : List IndexedDoc) (req : UpRequest) : Except ForeignExn UpResponse :=
  match req.payload with
  | .json body =>
    match SearchBody.read body with
    | some b =>
      let page := ((after b.rank b.cursor docs).insertionSort fun x y => b.rank y ≤ b.rank x).take b.size
      .ok ⟨200, .ok (.obj [("hits", .obj [("total", .obj [("value", .int docs.length)]),
        ("hits", .arr (page.map b.hit))])])⟩
    | none => .ok ⟨400, .ok (.obj [])⟩
  | _ => .ok ⟨400, .ok (.obj [])⟩

theorem answers_snapshotEngine (docs : List IndexedDoc) : Answers (snapshotEngine docs) fun _ _ => docs := by
  intro index body b hread _
  let sorted := (after b.rank b.cursor docs).insertionSort fun x y => b.rank y ≤ b.rank x
  let total : JsonObject := [("value", .int docs.length)]
  let block : JsonObject := [("total", .obj total), ("hits", .arr ((sorted.take b.size).map b.hit))]
  refine ⟨sorted.take b.size, .obj [("hits", .obj block)], ?_, ?_, ?_⟩
  · rw [snapshotEngine, IndexerClient.searchRequest]
    simp only [hread]
    rfl
  · exact ⟨_, block, total, docs.length, rfl, rfl, rfl, rfl, rfl⟩
  · have htotal : Std.Total fun x y : IndexedDoc => b.rank y ≤ b.rank x := ⟨fun x y => le_total _ _⟩
    have htrans : IsTrans IndexedDoc fun x y => b.rank y ≤ b.rank x := ⟨fun x y z hxy hyz => hyz.trans hxy⟩
    exact ⟨sorted, List.perm_insertionSort _ _, List.pairwise_insertionSort _ _, rfl⟩

end WazuhMcp
