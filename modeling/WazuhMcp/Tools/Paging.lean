import WazuhMcp.Foundations.Fallible
import WazuhMcp.Foundations.Paging
import WazuhMcp.Tools.HuntSafety
import WazuhMcp.Tools.SearchIndex

/-!
# Reading all matches, page by page

Every search tool sorts by one timestamp and hands out the sort values of the last hit as the cursor of
the next page. An index that answers searches serves its pages (`Answers.serves`), whatever the filter.
Reading on until a page is empty then returns all matches, once and in order, exactly if each can be read and
no page ends between two of one timestamp (`paging_complete_iff`); those that are left on the other side of
such an end are never returned.
-/

namespace WazuhMcp

open Interact Fallible Paging

/-! ## Search tools -/

/-- What a search tool asks for: the same with every cursor. -/
structure SearchTool (Row : Type) where
  index : String
  bool : JsonObject
  size : Ranged 1 100
  sortKey : String
  source : List String
  fromHit : Json → Except Exn Row
  isIndex : ¬ (index = "" ∨ index.toList.contains '/' ∨ Text.contains index "..")

namespace SearchTool

variable {Row : Type} (t : SearchTool Row)

/-- The query of a page. -/
def query (cursor : Option (List Json)) : Json :=
  boolQuery t.bool t.size t.sortKey t.source cursor

/-- The call for a page. -/
def call (py : Pydantic) (cursor : Option (List Json)) : UpProg (Rows Row) :=
  searchRows py t.index (.ok (t.query cursor)) t.fromHit t.size

end SearchTool

/-- A call of a search tool, with all of its arguments but the cursor. -/
inductive PagedCall : Type → Type where
  | searchAlerts (args : SearchAlertsArgs) : PagedCall Alert
  | alertsByAgent (args : AlertsByAgentArgs) : PagedCall Alert
  | alertsByMitre (args : AlertsByMitreArgs) : PagedCall Alert
  | listVulnerabilitiesByAgent (args : ListVulnerabilitiesByAgentArgs) : PagedCall Vulnerability
  | searchVulnerabilities (args : SearchVulnerabilitiesArgs) : PagedCall Vulnerability
  | fimHistoryForPath (args : FimHistoryArgs) : PagedCall FimEvent
  | fimChangesByAgent (args : FimChangesArgs) : PagedCall FimEvent
  | huntQuery (args : HuntQueryArgs) : PagedCall Alert
  | pivotByIoc (args : PivotByIocArgs) : PagedCall Alert

namespace PagedCall

/-- The page size that is asked for. -/
def size {Row : Type} : PagedCall Row → Ranged 1 100
  | searchAlerts args => args.size
  | alertsByAgent args => args.size
  | alertsByMitre args => args.size
  | listVulnerabilitiesByAgent args => args.size
  | searchVulnerabilities args => args.size
  | fimHistoryForPath args => args.size
  | fimChangesByAgent args => args.size
  | huntQuery args => args.size
  | pivotByIoc args => args.size

/-- The call for the page at a cursor. -/
def run {Row : Type} (py : Pydantic) (call : PagedCall Row) (cursor : Option (List Json)) :
    UpProg (Rows Row) :=
  match call with
  | searchAlerts args => WazuhMcp.searchAlerts py { args with cursor := cursor }
  | alertsByAgent args => WazuhMcp.alertsByAgent py { args with cursor := cursor }
  | alertsByMitre args => WazuhMcp.alertsByMitre py { args with cursor := cursor }
  | listVulnerabilitiesByAgent args =>
    WazuhMcp.listVulnerabilitiesByAgent py { args with cursor := cursor }
  | searchVulnerabilities args => WazuhMcp.searchVulnerabilities py { args with cursor := cursor }
  | fimHistoryForPath args => WazuhMcp.fimHistoryForPath py { args with cursor := cursor }
  | fimChangesByAgent args => WazuhMcp.fimChangesByAgent py { args with cursor := cursor }
  | huntQuery args => WazuhMcp.huntQuery py { args with cursor := cursor }
  | pivotByIoc args => WazuhMcp.pivotByIoc py { args with cursor := cursor }

end PagedCall

/-! ## The builders -/

section Builders

variable {size : Ranged 1 100}

/-- A builder fails the same way with every cursor, or builds the same query with every cursor. -/
def Builds (size : Ranged 1 100) (sortKey : String) (source : List String)
    (build : Option (List Json) → Except Exn Json) : Prop :=
  (∃ x, ∀ cursor, build cursor = .error x) ∨
    ∃ bool, ∀ cursor, build cursor = .ok (boolQuery bool size sortKey source cursor)

theorem Builds.bind {α : Type} {sortKey : String} {source : List String} (check : Except Exn α)
    {build : α → Option (List Json) → Except Exn Json}
    (h : ∀ a, Builds size sortKey source (build a)) :
    Builds size sortKey source fun cursor => check >>= fun a => build a cursor := by
  cases check with
  | error x => exact .inl ⟨x, fun _ => rfl⟩
  | ok a => exact h a

/-- The clamp does nothing to a size that is valid. -/
theorem clampSize_ranged (size : Ranged 1 100) : clampSize size = size := by
  obtain ⟨n, hlo, hhi⟩ := size
  rw [clampSize, max_eq_right hlo, min_eq_left hhi]

theorem builds_alertsQuery (must : List Json) (source : List String) :
    Builds size "@timestamp" source fun cursor => .ok (alertsQuery must size source cursor) := by
  refine .inr ⟨[("must", .arr must)], fun cursor => ?_⟩
  show Except.ok (alertsQuery must size source cursor) = _
  rw [alertsQuery, clampSize_ranged]

theorem builds_vulnerabilitiesQuery (must : List Json) :
    Builds size "vulnerability.detected_at" defaultVulnFields
      fun cursor => .ok (vulnerabilitiesQuery must size cursor) := by
  refine .inr ⟨[("must", .arr must)], fun cursor => ?_⟩
  show Except.ok (vulnerabilitiesQuery must size cursor) = _
  rw [vulnerabilitiesQuery, clampSize_ranged]

/-- What a tool does is what its builder builds. -/
theorem Builds.searches {Row : Type} {py : Pydantic} (t : SearchTool Row)
    {build : Option (List Json) → Except Exn Json} (h : Builds t.size t.sortKey t.source build) :
    (∃ x, ∀ cursor, searchRows py t.index (build cursor) t.fromHit t.size = .raise x) ∨
      ∃ bool, ∀ cursor, searchRows py t.index (build cursor) t.fromHit t.size =
        SearchTool.call { t with bool := bool } py cursor := by
  rcases h with ⟨x, hx⟩ | ⟨bool, hbool⟩
  · refine .inl ⟨x, fun cursor => ?_⟩
    rw [hx cursor]
    rfl
  · refine .inr ⟨bool, fun cursor => ?_⟩
    rw [hbool cursor]
    rfl

theorem builds_hunt (args : HuntQueryArgs) :
    Builds args.size "@timestamp" defaultAlertFields fun cursor =>
      .ok (buildHuntDsl { args with cursor := cursor }) := .inr ⟨huntBool args, fun _ => rfl⟩

end Builders

namespace PagedCall

/-- How the rows of a call are read. -/
def fromHit {Row : Type} (py : Pydantic) : PagedCall Row → Json → Except Exn Row
  | searchAlerts _ => Alert.fromHit
  | alertsByAgent _ => Alert.fromHit
  | alertsByMitre _ => Alert.fromHit
  | listVulnerabilitiesByAgent _ => Vulnerability.fromHit py
  | searchVulnerabilities _ => Vulnerability.fromHit py
  | fimHistoryForPath _ => FimEvent.fromHit py
  | fimChangesByAgent _ => FimEvent.fromHit py
  | huntQuery _ => Alert.fromHit
  | pivotByIoc _ => Alert.fromHit

/-- The index that is searched. -/
def index {Row : Type} : PagedCall Row → String
  | listVulnerabilitiesByAgent _ | searchVulnerabilities _ => vulnIndex
  | searchAlerts _ | alertsByAgent _ | alertsByMitre _ => "wazuh-alerts-*"
  | fimHistoryForPath _ | fimChangesByAgent _ | huntQuery _ | pivotByIoc _ => "wazuh-alerts-*"

/-- The field that is sorted by. -/
def sortKey {Row : Type} : PagedCall Row → String
  | listVulnerabilitiesByAgent _ | searchVulnerabilities _ => "vulnerability.detected_at"
  | searchAlerts _ | alertsByAgent _ | alertsByMitre _ => "@timestamp"
  | fimHistoryForPath _ | fimChangesByAgent _ | huntQuery _ | pivotByIoc _ => "@timestamp"

/-- The fields that are asked for. -/
def source {Row : Type} : PagedCall Row → List String
  | listVulnerabilitiesByAgent _ | searchVulnerabilities _ => defaultVulnFields
  | fimHistoryForPath _ | fimChangesByAgent _ => defaultFimFields
  | searchAlerts _ | alertsByAgent _ | alertsByMitre _ | huntQuery _ | pivotByIoc _ => defaultAlertFields

/-- Both indexes are ones that the client searches. -/
theorem isIndex {Row : Type} (call : PagedCall Row) :
    ¬ (call.index = "" ∨ call.index.toList.contains '/' ∨ Text.contains call.index "..") := by
  have halerts : ¬ ("wazuh-alerts-*" = "" ∨ "wazuh-alerts-*".toList.contains '/' ∨
      Text.contains "wazuh-alerts-*" "..") := by decide
  have hvulns : ¬ (vulnIndex = "" ∨ vulnIndex.toList.contains '/' ∨ Text.contains vulnIndex "..") := by decide
  cases call with
  | listVulnerabilitiesByAgent args => exact hvulns
  | searchVulnerabilities args => exact hvulns
  | _ => exact halerts

/-- The search tool that a call comes to, with a filter. -/
def tool {Row : Type} (py : Pydantic) (call : PagedCall Row) (bool : JsonObject) : SearchTool Row where
  index := call.index
  bool := bool
  size := call.size
  sortKey := call.sortKey
  source := call.source
  fromHit := call.fromHit py
  isIndex := call.isIndex

/-- **Every call** is rejected with every cursor, or is the search for one filter with every cursor. -/
theorem rejected_or_searches {Row : Type} (py : Pydantic) (call : PagedCall Row) :
    (∃ x, ∀ cursor, call.run py cursor = .raise x) ∨
      ∃ bool, ∀ cursor, call.run py cursor = (call.tool py bool).call py cursor := by
  cases call with
  | searchAlerts args =>
    have hbuild : Builds args.size "@timestamp" defaultAlertFields fun cursor =>
        buildSearchAlertsQuery args.timeRange (args.minLevel.map (·.1)) args.agentId args.size cursor :=
      .bind _ fun _ => .bind _ fun _ => builds_alertsQuery _ _
    exact hbuild.searches (tool py (searchAlerts args) [])
  | alertsByAgent args =>
    have hbuild : Builds args.size "@timestamp" defaultAlertFields fun cursor =>
        buildAlertsByAgentQuery args.agentId args.timeRange args.size cursor :=
      .bind _ fun _ => .bind _ fun _ => builds_alertsQuery _ _
    exact hbuild.searches (tool py (alertsByAgent args) [])
  | alertsByMitre args =>
    have hbuild : Builds args.size "@timestamp" defaultAlertFields fun cursor =>
        buildAlertsByMitreQuery args.techniqueId args.timeRange args.size cursor :=
      .bind _ fun _ => .bind _ fun _ => builds_alertsQuery _ _
    exact hbuild.searches (tool py (alertsByMitre args) [])
  | listVulnerabilitiesByAgent args =>
    have hbuild : Builds args.size "vulnerability.detected_at" defaultVulnFields fun cursor =>
        buildVulnerabilitiesByAgentQuery args.agentId args.minSeverity args.size cursor :=
      .bind _ fun _ => .bind _ fun _ => builds_vulnerabilitiesQuery _
    exact hbuild.searches (tool py (listVulnerabilitiesByAgent args) [])
  | searchVulnerabilities args =>
    have hbuild : Builds args.size "vulnerability.detected_at" defaultVulnFields fun cursor =>
        buildSearchVulnerabilitiesQuery args.cveId args.minSeverity args.size cursor :=
      .bind _ fun _ => .bind _ fun _ => .bind _ fun _ => builds_vulnerabilitiesQuery _
    exact hbuild.searches (tool py (searchVulnerabilities args) [])
  | fimHistoryForPath args =>
    have hbuild : Builds args.size "@timestamp" defaultFimFields fun cursor =>
        buildFimHistoryForPathQuery args.path args.timeRange args.size cursor :=
      .bind _ fun _ => .bind _ fun _ => builds_alertsQuery _ _
    exact hbuild.searches (tool py (fimHistoryForPath args) [])
  | fimChangesByAgent args =>
    have hbuild : Builds args.size "@timestamp" defaultFimFields fun cursor =>
        buildFimChangesByAgentQuery args.agentId args.timeRange args.size cursor :=
      .bind _ fun _ => .bind _ fun _ => builds_alertsQuery _ _
    exact hbuild.searches (tool py (fimChangesByAgent args) [])
  | huntQuery args => exact (builds_hunt args).searches (tool py (huntQuery args) [])
  | pivotByIoc args =>
    by_cases hvalid : validateTimeRange args.timeRange = .ok ()
    · have hpivot : ∀ cursor, run py (pivotByIoc args) cursor =
          WazuhMcp.huntQuery py { pivotHunt args hvalid with cursor := cursor } :=
        fun cursor => dif_pos hvalid
      simp only [hpivot]
      exact (builds_hunt (pivotHunt args hvalid)).searches (tool py (pivotByIoc args) [])
    · exact .inl ⟨.validation, fun cursor => dif_neg hvalid⟩

end PagedCall

/-! ## The index -/

/-- A hit of a search: a document, with the one timestamp it is sorted by. -/
structure Hit where
  json : Json
  key : ℤ
  sort : json.item "sort" = .ok (.arr [.int key])

/-- The cursor that asks for what comes after a timestamp. -/
def cursorAt (after : Option ℤ) : Option (List Json) := after.map fun v => [.int v]

/-- The index serves the pages of these hits: a search returns a page of those that come strictly after its
cursor, the latest first. -/
def Serves {Row : Type} (engine : UpRequest → Except ForeignExn UpResponse) (t : SearchTool Row)
    (hits : List Hit) : Prop :=
  ∀ after : Option ℤ, ∃ page body,
    engine (IndexerClient.searchRequest t.index (t.query (cursorAt after))) = .ok ⟨200, .ok body⟩ ∧
      IsResponse (page.map Hit.json) body ∧ IsPage Hit.key hits t.size.1.toNat after page

namespace SearchTool

variable {Row : Type} (t : SearchTool Row)

/-- A document as the tool is served it. -/
def hitOf (doc : IndexedDoc) : Hit where
  json := .obj (("sort", .arr [.int (doc.value t.sortKey)]) :: doc.shown (some (.arr (t.source.map .str))))
  key := doc.value t.sortKey
  sort := rfl

/-- The hits of the documents that match. -/
def hits (matching : String → Json → List IndexedDoc) : List Hit :=
  (matching t.index (.obj [("bool", .obj t.bool)])).map t.hitOf

/-- What the index reads of a query. -/
def searchBody (after : Option ℤ) : SearchBody where
  query := .obj [("bool", .obj t.bool)]
  size := t.size.1.toNat
  sort := [(t.sortKey, .desc)]
  source := some (.arr (t.source.map .str))
  searchAfter := after.map fun v => [v]
  terminateAfter := some 10000

theorem read_query (after : Option ℤ) :
    SearchBody.read (t.query (cursorAt after)) = some (t.searchBody after) := by
  have hsize : (0 : ℤ) ≤ t.size.1 := t.size.2.1.trans' (by decide)
  cases after <;>
    simp [SearchBody.read, query, boolQuery, cursorAt, searchBody, SearchBody.members, SearchBody.readSort,
      SearchBody.readValue, Dict.lookup_cons, hsize]

end SearchTool

/-- A later timestamp comes first. -/
theorem ranks_desc_lt (field : String) {v w : ℤ} (h : v < w) :
    ranks [(field, .desc)] [w] < ranks [(field, .desc)] [v] := by
  simpa [ranks, List.cons_lt_cons_iff] using h

/-- **An index that answers searches** serves the pages of a tool. -/
theorem Answers.serves {Row : Type} {engine : UpRequest → Except ForeignExn UpResponse}
    {matching : String → Json → List IndexedDoc} (h : Answers engine matching) (t : SearchTool Row)
    (hfew : (t.hits matching).length < 10000) : Serves engine t (t.hits matching) := by
  intro after
  obtain ⟨page, body, hengine, hresponse, hpage⟩ := h t.index _ _ (t.read_query after) (by
    intro most hmost
    obtain rfl := Option.some.inj hmost
    rw [SearchTool.hits, List.length_map] at hfew
    exact_mod_cast hfew)
  refine ⟨page.map t.hitOf, body, hengine, ?_, ?_⟩
  · rw [List.map_map]
    exact hresponse
  · have hcursor : (t.searchBody after).cursor =
        after.map fun v => OrderDual.toDual (ranks [(t.sortKey, .desc)] [v]) := by
      cases after <;> rfl
    have hmono : StrictMono fun v : ℤ => OrderDual.toDual (ranks [(t.sortKey, .desc)] [v]) :=
      fun _ _ => ranks_desc_lt t.sortKey
    rw [hcursor] at hpage
    exact ((isPage_comp hmono).mp hpage).map

/-- The environment in which searches are answered by the index. -/
def searchEnv (engine : UpRequest → Except ForeignExn UpResponse) : ∀ op : UpOp, op.Result
  | .send req => engine req
  | .acquire upstream tenantId => servingEnv (.acquire upstream tenantId)
  | .lock => servingEnv .lock
  | .freshToken => servingEnv .freshToken
  | .storeToken token => servingEnv (.storeToken token)
  | .monotonic => servingEnv .monotonic

/-- What a caller collects who passes each `next_cursor` on as the next cursor, until a page is empty. -/
inductive CollectsRows {Row : Type} (fetch : Option (List Json) → Except Exn (Rows Row)) :
    Option (List Json) → List Row → Prop where
  | done {cursor : Option (List Json)} {page : Rows Row} (hpage : fetch cursor = .ok page)
      (hempty : page.rows = []) : CollectsRows fetch cursor []
  | more {cursor : Option (List Json)} {page : Rows Row} {rest : List Row}
      (hpage : fetch cursor = .ok page) (hne : page.rows ≠ [])
      (hrest : CollectsRows fetch page.nextCursor rest) :
      CollectsRows fetch cursor (page.rows ++ rest)

/-- The page that a program fetches from the index. -/
def fetchPage {Row : Type} (engine : UpRequest → Except ForeignExn UpResponse)
    (run : Option (List Json) → UpProg (Rows Row)) (cursor : Option (List Json)) :
    Except Exn (Rows Row) := ((run cursor).run (searchEnv engine)).2

/-- Reading page by page returns every matching document once, in the order of the sort. -/
def PagingComplete {Row : Type} (fetch : Option (List Json) → Except Exn (Rows Row))
    (fromHit : Json → Except Exn Row) (hits : List Hit) : Prop :=
  ∃ rows, CollectsRows fetch none rows ∧ ∃ sorted : List Hit, sorted.Perm hits ∧
    Descending Hit.key sorted ∧ sorted.mapM (fun hit => fromHit hit.json) = .ok rows

/-! ## One page -/

section Page

variable {Row : Type} {py : Pydantic} {t : SearchTool Row} {hits page : List Hit}
  {engine : UpRequest → Except ForeignExn UpResponse} {body : Json}

/-- What a search comes to when the index answers. -/
theorem search_run (query : Json)
    (h : engine (IndexerClient.searchRequest t.index query) = .ok ⟨200, .ok body⟩) :
    ((IndexerClient.search t.index query).run (searchEnv engine)).2 = .ok body := by
  have henv : searchEnv engine (.send (IndexerClient.searchRequest t.index query))
      = .ok ⟨200, .ok body⟩ := h
  rw [IndexerClient.search, if_neg t.isIndex, ← IndexerClient.searchRequest, Prog.run, henv]
  rfl

theorem fetchPage_call (cursor : Option (List Json))
    (h : engine (IndexerClient.searchRequest t.index (t.query cursor)) = .ok ⟨200, .ok body⟩) :
    fetchPage engine (t.call py) cursor = readRows py t.fromHit t.size body := by
  change ((IndexerClient.search t.index (t.query cursor) >>= fun body =>
    Prog.ofExcept (readRows py t.fromHit t.size body)).run (searchEnv engine)).2 = _
  rw [Prog.run_bind, search_run _ h]
  show ((Prog.ofExcept (readRows py t.fromHit t.size body) : UpProg (Rows Row)).run _).2 = _
  cases readRows py t.fromHit t.size body with
  | ok page => rfl
  | error x => rfl

theorem Hit.contains_sort (hit : Hit) : hit.json.contains "sort" = .ok true := by
  have hsort := hit.sort
  cases hjson : hit.json with
  | obj d =>
    rw [hjson, Json.item] at hsort
    cases hlookup : List.lookup "sort" d with
    | none =>
      rw [hlookup] at hsort
      cases hsort
    | some x =>
      have hhas : Dict.has d "sort" = true := by rw [← Dict.lookup_isSome, hlookup, Option.isSome_some]
      rw [Json.contains, hhas]
  | _ =>
    rw [hjson] at hsort
    cases hsort

/-- The next cursor of a page is the timestamp of its last hit. -/
theorem readCursor_page (page : List Hit) :
    ∃ cursor, readCursor (page.map Hit.json) = .ok cursor ∧
      optListField cursor = .ok (cursorAt (page.getLast?.map Hit.key)) := by
  rw [readCursor, List.getLast?_map]
  cases page.getLast? with
  | none => exact ⟨.null, rfl, rfl⟩
  | some hit =>
    refine ⟨.arr [.int hit.key], ?_, rfl⟩
    change (do if ← hit.json.contains "sort" then hit.json.item "sort" else pure .null) = _
    rw [hit.contains_sort, ← hit.sort]
    rfl

/-- What is read off a page. -/
theorem readRows_page (h : IsResponse (page.map Hit.json) body) :
    ∃ n, readRows py t.fromHit t.size body = (do
      let rows ← page.mapM fun hit => t.fromHit hit.json
      return ⟨rows, n, cursorAt (page.getLast?.map Hit.key), rows.length = t.size.1⟩) := by
  obtain ⟨d, block, total, n, rfl, hhits, hblock, htotal, hvalue⟩ := h
  obtain ⟨cursor, hcursor, hfield⟩ := readCursor_page page
  refine ⟨n, ?_⟩
  have hbody : (Json.obj d).getD "hits" (.obj []) = .ok (.obj block) := by
    simp [Json.getD, JsonObject.getD, hhits]
  have hraw : (Json.obj block).getD "hits" (.arr []) = .ok (.arr (page.map Hit.json)) := by
    simp [Json.getD, JsonObject.getD, hblock]
  have htot : (Json.obj block).getD "total" (.obj []) = .ok (.obj total) := by
    simp [Json.getD, JsonObject.getD, htotal]
  have hread : readTotal (.obj total) = .ok (.int n) := by
    simp [readTotal, Json.getD, JsonObject.getD, hvalue]
  rw [readRows, hbody]
  simp only [bind, Except.bind, hraw, htot, hread, Json.iter, hcursor, hfield, Pydantic.intField]
  rw [List.mapM_map]
  rfl

end Page

/-! ## All pages -/

section All

variable {Row : Type} {py : Pydantic} {t : SearchTool Row} {hits : List Hit}
  {engine : UpRequest → Except ForeignExn UpResponse} {serve : Option ℤ → List Hit}

/-- The index serves these pages, and this is what the tool makes of each. -/
def Fetches (py : Pydantic) (engine : UpRequest → Except ForeignExn UpResponse) (t : SearchTool Row)
    (serve : Option ℤ → List Hit) : Prop :=
  ∀ after, ∃ n, fetchPage engine (t.call py) (cursorAt after) = (do
    let rows ← (serve after).mapM fun hit => t.fromHit hit.json
    return ⟨rows, n, cursorAt ((serve after).getLast?.map Hit.key), rows.length = t.size.1⟩)

/-- A snapshot is served by pages. -/
theorem Serves.exists_fetches (py : Pydantic) (h : Serves engine t hits) :
    ∃ serve, (∀ after, IsPage Hit.key hits t.size.1.toNat after (serve after)) ∧
      Fetches py engine t serve := by
  choose serve body hengine hresponse hpage using h
  refine ⟨serve, hpage, fun after => ?_⟩
  obtain ⟨n, hrows⟩ := readRows_page (hresponse after)
  exact ⟨n, (fetchPage_call _ (hengine after)).trans hrows⟩

/-- What is collected are the rows of the hits on the pages. -/
theorem CollectsRows.collects (hfetch : Fetches py engine t serve) {cursor : Option (List Json)}
    {rows : List Row} (h : CollectsRows (fetchPage engine (t.call py)) cursor rows)
    (after : Option ℤ) (hcursor : cursor = cursorAt after) :
    ∃ ys, Collects Hit.key serve after ys ∧ ys.mapM (fun hit => t.fromHit hit.json) = .ok rows := by
  induction h generalizing after with
  | done hpage hempty =>
    subst hcursor
    obtain ⟨n, hn⟩ := hfetch after
    rw [hn] at hpage
    obtain ⟨rows, hrows, hpage⟩ := bind_eq_ok.mp hpage
    cases hpage
    have hnil : serve after = [] := by
      have hlength := length_of_mapM hrows
      rw [show rows = [] from hempty] at hlength
      exact List.eq_nil_of_length_eq_zero hlength.symm
    exact ⟨[], .done hnil, rfl⟩
  | more hpage hne hrest ih =>
    subst hcursor
    obtain ⟨n, hn⟩ := hfetch after
    rw [hn] at hpage
    obtain ⟨rows, hrows, hpage⟩ := bind_eq_ok.mp hpage
    cases hpage
    cases hlast : (serve after).getLast? with
    | none =>
      rw [List.getLast?_eq_none_iff.mp hlast] at hrows
      cases hrows
      exact absurd rfl hne
    | some x =>
      obtain ⟨ys, hys, hmap⟩ := ih (some x.key) (by rw [hlast]; rfl)
      exact ⟨serve after ++ ys, .more hlast hys, mapM_append_eq_ok hrows hmap⟩

/-- The rows of the hits on the pages are collected, if each can be read. -/
theorem collectsRows (hfetch : Fetches py engine t serve) {after : Option ℤ} {ys : List Hit}
    (h : Collects Hit.key serve after ys) (hread : ∀ hit ∈ ys, Succeeds (t.fromHit hit.json)) :
    ∃ rows, CollectsRows (fetchPage engine (t.call py)) (cursorAt after) rows ∧
      ys.mapM (fun hit => t.fromHit hit.json) = .ok rows := by
  induction h with
  | @done after hempty =>
    obtain ⟨n, hn⟩ := hfetch after
    rw [hempty] at hn
    exact ⟨[], .done hn rfl, rfl⟩
  | @more after x rest hlast hrest ih =>
    obtain ⟨n, hn⟩ := hfetch after
    obtain ⟨rows, hrows⟩ := succeeds_mapM.mpr fun hit hmem => hread hit (List.mem_append_left _ hmem)
    obtain ⟨rest', hrest', hmap⟩ := ih fun hit hmem => hread hit (List.mem_append_right _ hmem)
    rw [hrows, hlast] at hn
    refine ⟨rows ++ rest', .more hn ?_ hrest', mapM_append_eq_ok hrows hmap⟩
    rintro rfl
    have hlength := length_of_mapM hrows
    rw [List.eq_nil_of_length_eq_zero hlength.symm] at hlast
    cases hlast

/-- **Reading page by page is complete** exactly if each matching document can be read and no page ends
between two of one timestamp. -/
theorem SearchTool.pagingComplete_iff (h : Serves engine t hits) :
    PagingComplete (fetchPage engine (t.call py)) t.fromHit hits ↔
      (∀ hit ∈ hits, Succeeds (t.fromHit hit.json)) ∧ ¬ Straddles Hit.key hits t.size.1.toNat := by
  obtain ⟨serve, hserve, hfetch⟩ := h.exists_fetches py
  have hsize : 0 < t.size.1.toNat := by have hlo := t.size.2.1; omega
  constructor
  · rintro ⟨rows, hrows, sorted, hperm, -, hmap⟩
    obtain ⟨ys, hys, hmap'⟩ := hrows.collects hfetch none rfl
    constructor
    · intro hit hmem
      exact succeeds_mapM.mp ⟨rows, hmap⟩ hit (hperm.mem_iff.mpr hmem)
    · have hlength := hys.length_eq_iff hserve hsize
      rw [after_none] at hlength
      apply hlength.mp
      rw [← length_of_mapM hmap', length_of_mapM hmap, hperm.length_eq]
  · rintro ⟨hread, hstraddles⟩
    obtain ⟨ys, hys, hperm, hdesc⟩ := (complete_iff hserve hsize).mpr hstraddles
    obtain ⟨rows, hrows, hmap⟩ := collectsRows hfetch hys fun hit hmem =>
      hread hit (hperm.mem_iff.mp hmem)
    exact ⟨rows, hrows, ys, hperm, hdesc, hmap⟩

end All

/-- **Pagination.** A call of a search tool is rejected with every cursor, or searches for one filter; then,
against any snapshot with fewer matching documents than a search may look at, reading on until a page is empty
returns every matching document once, in the order of the sort, exactly if each can be read and no page ends
between two of one timestamp. -/
theorem paging_complete_iff {Row : Type} (py : Pydantic) (call : PagedCall Row) :
    (∃ x, ∀ cursor, call.run py cursor = .raise x) ∨
      ∃ bool, (∀ cursor, call.run py cursor = (call.tool py bool).call py cursor) ∧
        ∀ engine matching, Answers engine matching → ((call.tool py bool).hits matching).length < 10000 →
          (PagingComplete (fetchPage engine (call.run py)) (call.fromHit py) ((call.tool py bool).hits matching) ↔
            (∀ hit ∈ (call.tool py bool).hits matching, Succeeds (call.fromHit py hit.json)) ∧
              ¬ Straddles Hit.key ((call.tool py bool).hits matching) call.size.1.toNat) := by
  refine (call.rejected_or_searches py).imp_right ?_
  rintro ⟨bool, hrun⟩
  refine ⟨bool, hrun, fun engine matching h hfew => ?_⟩
  rw [funext hrun]
  exact (call.tool py bool).pagingComplete_iff (h.serves (call.tool py bool) hfew)

/-! ## Two snapshots -/

/-- An alert of a snapshot. -/
def indexedAlert (id : String) (time : ℤ) : IndexedDoc where
  shown _ := [("_id", .str id),
    ("_source", .obj [("@timestamp", .str "2026-05-01T10:00:00Z"), ("agent", .obj [("id", .str "001")]),
      ("rule", .obj [("id", .str "5710"), ("level", .int 5), ("description", .str "sshd")])])]
  value _ := time

/-- A search for alerts of the last day. -/
def pagedAlerts (size : Ranged 1 100) : PagedCall Alert := .searchAlerts { size := size }

/-- What sends a request is not rejected. -/
theorem ne_raise_of_run {α : Type} {prog : UpProg α} {env : ∀ op : UpOp, op.Result} {x : Exn}
    (h : (prog.run env).1.isEmpty = false) : prog ≠ .raise x := by
  rintro rfl
  cases h

/-- Three alerts of three timestamps are read in two pages of two, the latest first. -/
theorem paging_complete_threeAlerts :
    let py : Pydantic := ⟨Text.parseInt, fun _ => none⟩
    let docs := [indexedAlert "b" 1777629600000, indexedAlert "a" 1777629500000, indexedAlert "c" 1777629700000]
    let call := pagedAlerts ⟨2, by decide⟩
    PagingComplete (fetchPage (snapshotEngine docs) (call.run py)) Alert.fromHit
      (docs.map (call.tool py []).hitOf) := by
  intro py docs call
  rcases paging_complete_iff py call with ⟨x, hx⟩ | ⟨bool, -, hcomplete⟩
  · have hsent : ((call.run py none).run (searchEnv (snapshotEngine docs))).1.isEmpty = false := by
      decide +kernel
    exact absurd (hx none) (ne_raise_of_run hsent)
  · have hfew : (docs.map (call.tool py []).hitOf).length < 10000 := by decide
    refine (hcomplete (snapshotEngine docs) (fun _ _ => docs) (answers_snapshotEngine docs) hfew).mpr ⟨?_, ?_⟩
    · intro hit hmem
      obtain ⟨doc, hdoc, rfl⟩ := List.mem_map.mp hmem
      simp only [docs, List.mem_cons, List.not_mem_nil, or_false] at hdoc
      rcases hdoc with rfl | rfl | rfl <;> exact ⟨_, rfl⟩
    · have hdistinct : ((docs.map (call.tool py []).hitOf).map Hit.key).Nodup := by decide
      exact not_straddles_of_nodup hdistinct

/-- Of two alerts of one timestamp, pages of one return the first only. -/
theorem not_pagingComplete :
    let py : Pydantic := ⟨Text.parseInt, fun _ => none⟩
    let docs := [indexedAlert "a" 1777629600000, indexedAlert "b" 1777629600000]
    let call := pagedAlerts ⟨1, by decide⟩
    Answers (snapshotEngine docs) (fun _ _ => docs) ∧
      ¬ PagingComplete (fetchPage (snapshotEngine docs) (call.run py)) Alert.fromHit
        (docs.map (call.tool py []).hitOf) := by
  intro py docs call
  refine ⟨answers_snapshotEngine docs, fun h => ?_⟩
  rcases call.rejected_or_searches py with ⟨x, hx⟩ | ⟨bool, hrun⟩
  · have hsent : ((call.run py none).run (searchEnv (snapshotEngine docs))).1.isEmpty = false := by
      decide +kernel
    exact absurd (hx none) (ne_raise_of_run hsent)
  · have hfew : (docs.map (call.tool py []).hitOf).length < 10000 := by decide
    have hcut : Straddles Hit.key (docs.map (call.tool py []).hitOf) 1 :=
      ⟨_, List.mem_cons_self, 1, by decide, by decide⟩
    have hserves := (answers_snapshotEngine docs).serves (call.tool py bool) hfew
    rw [funext hrun] at h
    exact (((call.tool py bool).pagingComplete_iff hserves).mp h).2 hcut

end WazuhMcp
