import WazuhMcp.Tools.Search

/-!
# What a hunt may ask of the indexer

The grammar of hunts has no scripts, no alternatives and no nesting. `HuntSafe` says so of the body that
is sent: which keys occur in it at any depth, what the one `bool` query is made of, and how many
documents are looked at.

The clauses are held to this by the argument model, the cursor is not: it is a list of anything, and
goes into the body as it is. `huntQuery_safe_iff` says which hunts are safe.
-/

namespace WazuhMcp

open Interact

/-! ## Keys at any depth -/

namespace Json

mutual

/-- The keys of all objects in a value, at any depth. -/
def collectKeys : Json → List String
  | .arr xs => collectItemKeys xs
  | .obj kvs => collectMemberKeys kvs
  | _ => []

/-- The keys of the objects in the items of a list. -/
def collectItemKeys : List Json → List String
  | [] => []
  | x :: xs => x.collectKeys ++ collectItemKeys xs

/-- The keys of an object's members, and of the objects in them. -/
def collectMemberKeys : List (String × Json) → List String
  | [] => []
  | (k, x) :: kvs => k :: (x.collectKeys ++ collectMemberKeys kvs)

end

theorem mem_collectKeys_arr {k : String} {xs : List Json} :
    k ∈ (Json.arr xs).collectKeys ↔ ∃ x ∈ xs, k ∈ x.collectKeys := by
  rw [collectKeys]
  induction xs with
  | nil => simp [collectItemKeys]
  | cons x xs ih => rw [collectItemKeys, List.mem_append, ih, List.exists_mem_cons_iff]

theorem mem_collectKeys_obj {k : String} {kvs : List (String × Json)} :
    k ∈ (Json.obj kvs).collectKeys ↔ ∃ kv ∈ kvs, k = kv.1 ∨ k ∈ kv.2.collectKeys := by
  rw [collectKeys]
  induction kvs with
  | nil => simp [collectMemberKeys]
  | cons kv kvs ih =>
    rw [collectMemberKeys, List.mem_cons, List.mem_append, ih, List.exists_mem_cons_iff, or_assoc]

/-- The keys of an object with one member. -/
theorem mem_collectKeys_single {k key : String} {x : Json} :
    k ∈ (Json.obj [(key, x)]).collectKeys ↔ k = key ∨ k ∈ x.collectKeys := by
  simp [mem_collectKeys_obj]

@[simp] theorem collectKeys_int (i : ℤ) : (Json.int i).collectKeys = [] := by rw [collectKeys] <;> simp

@[simp] theorem collectKeys_str (s : String) : (Json.str s).collectKeys = [] := by
  rw [collectKeys] <;> simp

end Json

/-! ## Leaf queries -/

/-- A leaf of a hunt: the time range, or one of five queries on a field that is allowlisted. -/
inductive LeafQuery (timeRange : String) : Json → Prop where
  | since : LeafQuery timeRange (since timeRange)
  | term {field : String} {value : Json} (hfield : field ∈ fieldAllowlist)
      (hvalue : value.collectKeys = []) : LeafQuery timeRange (.obj [("term", .obj [(field, value)])])
  | terms {field : String} {value : Json} (hfield : field ∈ fieldAllowlist)
      (hvalue : value.collectKeys = []) : LeafQuery timeRange (.obj [("terms", .obj [(field, value)])])
  | range {field op : String} {value : Json} (hfield : field ∈ fieldAllowlist)
      (hop : op ∈ ["gt", "gte", "lt", "lte"]) (hvalue : value.collectKeys = []) :
      LeafQuery timeRange (.obj [("range", .obj [(field, .obj [(op, value)])])])
  | exists_ {field : String} (hfield : field ∈ fieldAllowlist) :
      LeafQuery timeRange (.obj [("exists", .obj [("field", .str field)])])
  | prefix_ {field : String} {value : Json} (hfield : field ∈ fieldAllowlist)
      (hvalue : value.collectKeys = []) : LeafQuery timeRange (.obj [("prefix", .obj [(field, value)])])

/-- The keys that a leaf may have. -/
def leafKeys : List String :=
  ["term", "terms", "range", "exists", "prefix", "field", "gt", "gte", "lt", "lte"] ++ fieldAllowlist

/-- The keys that must not occur in a hunt. -/
def bannedKeys : List String := ["script", "runtime_mappings", "script_score", "painless", "should"]

theorem mem_leafKeys_of_mem_fieldAllowlist {field : String} (h : field ∈ fieldAllowlist) :
    field ∈ leafKeys := List.mem_append_right _ h

theorem LeafQuery.mem_leafKeys {timeRange k : String} {q : Json} (h : LeafQuery timeRange q)
    (hk : k ∈ q.collectKeys) : k ∈ leafKeys := by
  cases h with
  | since =>
    simp only [WazuhMcp.since, WazuhMcp.range, Json.mem_collectKeys_single, Json.collectKeys_str,
      List.not_mem_nil, or_false] at hk
    rcases hk with rfl | rfl | rfl <;> decide
  | term hfield hvalue =>
    simp only [Json.mem_collectKeys_single, hvalue, List.not_mem_nil, or_false] at hk
    rcases hk with rfl | rfl
    · decide
    · exact mem_leafKeys_of_mem_fieldAllowlist hfield
  | terms hfield hvalue =>
    simp only [Json.mem_collectKeys_single, hvalue, List.not_mem_nil, or_false] at hk
    rcases hk with rfl | rfl
    · decide
    · exact mem_leafKeys_of_mem_fieldAllowlist hfield
  | range hfield hop hvalue =>
    simp only [Json.mem_collectKeys_single, hvalue, List.not_mem_nil, or_false] at hk
    rcases hk with rfl | rfl | rfl
    · decide
    · exact mem_leafKeys_of_mem_fieldAllowlist hfield
    · exact List.mem_append_left _ (List.mem_of_mem_drop (i := 6) hop)
  | exists_ hfield =>
    simp only [Json.mem_collectKeys_single, Json.collectKeys_str, List.not_mem_nil, or_false] at hk
    rcases hk with rfl | rfl <;> decide
  | prefix_ hfield hvalue =>
    simp only [Json.mem_collectKeys_single, hvalue, List.not_mem_nil, or_false] at hk
    rcases hk with rfl | rfl
    · decide
    · exact mem_leafKeys_of_mem_fieldAllowlist hfield

/-- A leaf has none of the keys that are banned, and no `bool`. -/
theorem LeafQuery.not_banned {timeRange k : String} {q : Json} (h : LeafQuery timeRange q)
    (hk : k ∈ "bool" :: bannedKeys) : k ∉ q.collectKeys := by
  intro hmem
  have hdisjoint : ∀ k ∈ "bool" :: bannedKeys, k ∉ leafKeys := by decide
  exact hdisjoint k hk (h.mem_leafKeys hmem)

/-! ## Clauses -/

theorem collectKeys_of_isHuntScalar {value : Json} (h : isHuntScalar value = true) :
    value.collectKeys = [] := by
  cases value with
  | str _ | int _ | float _ => rw [Json.collectKeys] <;> simp
  | null | bool _ | arr _ | obj _ => cases h

/-- The value of an admitted clause has no objects in it. -/
theorem HuntClause.collectKeys_value (c : HuntClause) : c.value.collectKeys = [] := by
  have hadmits := c.admits
  cases hvalue : c.value with
  | arr xs =>
    rw [List.eq_nil_iff_forall_not_mem]
    intro k hk
    obtain ⟨x, hx, hkx⟩ := Json.mem_collectKeys_arr.mp hk
    have hscalar : isHuntScalar x = true := by
      rw [hvalue] at hadmits
      cases hop : c.op <;> rw [hop] at hadmits <;> first | cases hadmits | skip
      simp only [opAdmits, Bool.and_eq_true, List.all_eq_true] at hadmits
      exact hadmits.1.1 x hx
    rw [collectKeys_of_isHuntScalar hscalar] at hkx
    cases hkx
  | obj kvs =>
    rw [hvalue] at hadmits
    cases hop : c.op <;> rw [hop] at hadmits <;> cases hadmits
  | null | bool _ | int _ | float _ | str _ => rw [Json.collectKeys] <;> simp

/-- **A clause is rendered as a leaf.** -/
theorem leafQuery_renderClause (timeRange : String) (c : HuntClause) :
    LeafQuery timeRange (renderClause c) := by
  rw [renderClause]
  cases hop : c.op with
  | eq | ne => exact .term c.field_mem c.collectKeys_value
  | isIn => exact .terms c.field_mem c.collectKeys_value
  | exists_ => exact .exists_ c.field_mem
  | prefix_ => exact .prefix_ c.field_mem c.collectKeys_value
  | gt | gte | lt | lte => exact .range c.field_mem (by decide) c.collectKeys_value

/-! ## The body of a hunt -/

/-- What the body of a hunt must satisfy. -/
structure HuntSafe (timeRange : String) (body : JsonObject) : Prop where
  /-- no banned key at any depth -/
  keys : ∀ k ∈ bannedKeys, k ∉ (Json.obj body).collectKeys
  /-- one `bool` query, of leaves that must or must not match, with no `bool` inside -/
  query : ∃ bool, body.lookup "query" = some (.obj [("bool", .obj bool)]) ∧
    "bool" ∉ (Json.obj bool).collectKeys ∧ ∀ kv ∈ bool, (kv.1 = "must" ∨ kv.1 = "must_not") ∧
      ∃ leaves, kv.2 = .arr leaves ∧ ∀ q ∈ leaves, LeafQuery timeRange q
  size : ∃ n, body.lookup "size" = some (.int n) ∧ 1 ≤ n ∧ n ≤ 100
  terminate_after : body.lookup "terminate_after" = some (.int 10000)

/-- The request is a safe hunt. -/
def UpRequest.HuntSafe (timeRange : String) (req : UpRequest) : Prop :=
  ∃ body, req.payload = .json (.obj body) ∧ WazuhMcp.HuntSafe timeRange body

/-- No object in the cursor has a banned key, at any depth. -/
def CursorSafe (cursor : Option (List Json)) : Prop :=
  ∀ xs, cursor = some xs → ∀ k ∈ bannedKeys, k ∉ (Json.arr xs).collectKeys

/-- The leaves that must match. -/
def huntMust (args : HuntQueryArgs) : List Json :=
  since args.timeRange :: ((args.must.filter (·.op ≠ .ne)).map renderClause ++
    (args.mustNot.filter (·.op = .ne)).map renderClause)

/-- The leaves that must not match. -/
def huntMustNot (args : HuntQueryArgs) : List Json :=
  (args.must.filter (·.op = .ne)).map renderClause ++
    (args.mustNot.filter (·.op ≠ .ne)).map renderClause

/-- The `bool` block of a hunt. -/
def huntBool (args : HuntQueryArgs) : JsonObject :=
  ("must", .arr (huntMust args)) ::
    if (huntMustNot args).isEmpty then [] else [("must_not", .arr (huntMustNot args))]

/-- The cursor in the body. -/
def searchAfter : Option (List Json) → JsonObject
  | some (c :: cs) => [("search_after", .arr (c :: cs))]
  | _ => []

/-- The body of a hunt. -/
def huntBody (args : HuntQueryArgs) : JsonObject :=
  [("query", .obj [("bool", .obj (huntBool args))]), ("size", .int args.size),
    ("sort", .arr [.obj [("@timestamp", .str "desc")]]),
    ("_source", .arr (defaultAlertFields.map .str)), ("terminate_after", .int 10000)] ++
    searchAfter args.cursor

theorem buildHuntDsl_eq (args : HuntQueryArgs) : buildHuntDsl args = .obj (huntBody args) := rfl

section Body

variable (args : HuntQueryArgs)

theorem leafQuery_of_mem_map {timeRange : String} {cs : List HuntClause} :
    ∀ q ∈ cs.map renderClause, LeafQuery timeRange q := by
  intro q hq
  obtain ⟨c, -, rfl⟩ := List.mem_map.mp hq
  exact leafQuery_renderClause timeRange c

theorem leafQuery_huntMust : ∀ q ∈ huntMust args, LeafQuery args.timeRange q := by
  intro q hq
  rcases List.mem_cons.mp hq with rfl | hq
  · exact .since
  rcases List.mem_append.mp hq with hq | hq
  · exact leafQuery_of_mem_map q hq
  · exact leafQuery_of_mem_map q hq

theorem leafQuery_huntMustNot : ∀ q ∈ huntMustNot args, LeafQuery args.timeRange q := by
  intro q hq
  rcases List.mem_append.mp hq with hq | hq
  · exact leafQuery_of_mem_map q hq
  · exact leafQuery_of_mem_map q hq

/-- The block is made of leaves. -/
theorem mem_huntBool {kv : String × Json} (h : kv ∈ huntBool args) :
    (kv.1 = "must" ∨ kv.1 = "must_not") ∧
      ∃ leaves, kv.2 = .arr leaves ∧ ∀ q ∈ leaves, LeafQuery args.timeRange q := by
  rcases List.mem_cons.mp h with rfl | h
  · exact ⟨.inl rfl, _, rfl, leafQuery_huntMust args⟩
  · split at h
    · cases h
    · rw [List.mem_singleton.mp h]
      exact ⟨.inr rfl, _, rfl, leafQuery_huntMustNot args⟩

/-- No banned key and no `bool` in the block. -/
theorem not_mem_huntBool {k : String} (hk : k ∈ "bool" :: bannedKeys) :
    k ∉ (Json.obj (huntBool args)).collectKeys := by
  rw [Json.mem_collectKeys_obj]
  rintro ⟨kv, hkv, hmem⟩
  obtain ⟨hkey, leaves, hleaves, hall⟩ := mem_huntBool args hkv
  have hne : ∀ k ∈ "bool" :: bannedKeys, k ≠ "must" ∧ k ≠ "must_not" := by decide
  rcases hmem with rfl | hmem
  · rcases hkey with hkey | hkey
    · exact (hne _ hk).1 hkey
    · exact (hne _ hk).2 hkey
  · rw [hleaves] at hmem
    obtain ⟨q, hq, hkq⟩ := Json.mem_collectKeys_arr.mp hmem
    exact (hall q hq).not_banned hk hkq

/-- A banned key can come from the cursor only. -/
theorem mem_huntBody_iff {k : String} (hk : k ∈ bannedKeys) :
    k ∈ (Json.obj (huntBody args)).collectKeys ↔
      k ∈ (Json.obj (searchAfter args.cursor)).collectKeys := by
  have hkeys : ∀ k ∈ bannedKeys, k ∉ ["query", "bool", "size", "sort", "@timestamp", "_source",
      "terminate_after"] := by decide
  have hne := hkeys k hk
  have hsource : k ∉ (Json.arr (defaultAlertFields.map Json.str)).collectKeys := by
    rw [Json.mem_collectKeys_arr]
    rintro ⟨x, hx, hkx⟩
    obtain ⟨field, -, rfl⟩ := List.mem_map.mp hx
    simp at hkx
  simp only [List.mem_cons, List.not_mem_nil, or_false, not_or] at hne
  rw [huntBody, Json.mem_collectKeys_obj, Json.mem_collectKeys_obj]
  simp only [List.mem_append, or_and_right, exists_or]
  refine or_iff_right ?_
  simp only [List.exists_mem_cons_iff, List.not_mem_nil, false_and, exists_false, or_false, hsource,
    false_or, Json.collectKeys_int, hne, not_or]
  constructor
  · rw [Json.mem_collectKeys_single, not_or]
    exact ⟨hne.2.1, not_mem_huntBool args (List.mem_cons_of_mem _ hk)⟩
  · rw [Json.mem_collectKeys_arr]
    rintro ⟨x, hx, hkx⟩
    rw [List.mem_singleton.mp hx, Json.mem_collectKeys_single, Json.collectKeys_str] at hkx
    rcases hkx with hkx | hkx
    · exact hne.2.2.2.2.1 hkx
    · cases hkx

theorem cursorSafe_iff {cursor : Option (List Json)} :
    CursorSafe cursor ↔ ∀ k ∈ bannedKeys, k ∉ (Json.obj (searchAfter cursor)).collectKeys := by
  have hnil : (Json.obj []).collectKeys = [] := by
    rw [Json.collectKeys, Json.collectMemberKeys]
  cases cursor with
  | none =>
    refine iff_of_true (fun xs h => by cases h) fun k _ hmem => ?_
    change k ∈ (Json.obj []).collectKeys at hmem
    rw [hnil] at hmem
    cases hmem
  | some xs =>
    cases xs with
    | nil =>
      refine iff_of_true (fun xs h k _ hmem => ?_) fun k _ hmem => ?_
      · cases h
        obtain ⟨x, hx, -⟩ := Json.mem_collectKeys_arr.mp hmem
        cases hx
      · change k ∈ (Json.obj []).collectKeys at hmem
        rw [hnil] at hmem
        cases hmem
    | cons c cs =>
      have hne : "search_after" ∉ bannedKeys := by decide
      constructor
      · intro h k hk hmem
        rcases Json.mem_collectKeys_single.mp hmem with rfl | hmem
        · exact hne hk
        · exact h _ rfl k hk hmem
      · rintro h xs ⟨⟩ k hk hmem
        exact h k hk (Json.mem_collectKeys_single.mpr (.inr hmem))

/-- **The body of a hunt is safe** exactly if its cursor is. -/
theorem huntSafe_huntBody_iff : HuntSafe args.timeRange (huntBody args) ↔ CursorSafe args.cursor := by
  rw [cursorSafe_iff]
  constructor
  · intro h k hk
    rw [← mem_huntBody_iff args hk]
    exact h.keys k hk
  · intro h
    refine ⟨fun k hk => ?_, ?_, ⟨args.size, rfl, args.size.2⟩, rfl⟩
    · rw [mem_huntBody_iff args hk]
      exact h k hk
    · exact ⟨huntBool args, rfl, not_mem_huntBool args List.mem_cons_self, fun kv hkv =>
        mem_huntBool args hkv⟩

end Body

/-! ## Hunts -/

/-- What a hunt sends. -/
def huntRequest (args : HuntQueryArgs) : UpRequest :=
  IndexerClient.searchRequest "wazuh-alerts-*" (.obj (huntBody args))

theorem UpRequest.huntSafe_huntRequest_iff (args : HuntQueryArgs) :
    (huntRequest args).HuntSafe args.timeRange ↔ CursorSafe args.cursor := by
  rw [← huntSafe_huntBody_iff]
  constructor
  · rintro ⟨body, hbody, hsafe⟩
    cases hbody
    exact hsafe
  · exact fun h => ⟨_, rfl, h⟩

/-- A hunt sends its request, and nothing else. -/
theorem all_requests_huntQuery (py : Pydantic) (args : HuntQueryArgs) (P : UpRequest → Prop) :
    ((huntQuery py args).All fun tr _ => ∀ req ∈ requests tr, P req) ↔ P (huntRequest args) := by
  constructor
  · intro h
    exact h.run servingEnv _ List.mem_cons_self
  · intro h
    apply UpProg.Sends.all
    show UpProg.Sends (IndexerClient.search "wazuh-alerts-*" (.obj (huntBody args)) >>= _) P
    have hsearch := @IndexerClient.sends_search P "wazuh-alerts-*" (.obj (huntBody args)) h
    exact UpProg.sends_bind hsearch fun body => UpProg.sends_ofExcept _

/-- **Hunts are safe**, in every run, exactly if no object in their cursor has a banned key at any depth.
A pivot is a hunt, if its time range is valid, and sends nothing otherwise. -/
theorem hunts_safe_iff (py : Pydantic) :
    (∀ args : HuntQueryArgs,
      ((huntQuery py args).All fun tr _ => ∀ req ∈ requests tr, req.HuntSafe args.timeRange) ↔
        CursorSafe args.cursor) ∧
    ∀ args : PivotByIocArgs,
      ((pivotByIoc py args).All fun tr _ => ∀ req ∈ requests tr, req.HuntSafe args.timeRange) ↔
        (validateTimeRange args.timeRange = .ok () → CursorSafe args.cursor) := by
  constructor
  · intro args
    rw [all_requests_huntQuery, UpRequest.huntSafe_huntRequest_iff]
  · intro args
    rw [pivotByIoc]
    split
    · rename_i hvalid
      rw [all_requests_huntQuery]
      exact (UpRequest.huntSafe_huntRequest_iff _).trans ⟨fun h _ => h, fun h => h hvalid⟩
    · rename_i hinvalid
      refine iff_of_true ?_ fun hvalid => absurd hvalid hinvalid
      exact fun req hreq => by cases hreq

/-- A cursor with a script in it goes into the body as it is. -/
theorem not_huntSafe_script :
    let clause : HuntClause := ⟨"rule.id", .eq, .str "5710", by decide, rfl⟩
    let args : HuntQueryArgs :=
      { timeRange := "24h"
        must := [clause]
        cursor := some [.obj [("script", .str "ctx._source")]]
        timeRange_valid := by decide
        clauses_le := by decide
        clauses_pos := by decide }
    ¬ (huntQuery ⟨Text.parseInt, fun _ => none⟩ args).All fun tr _ =>
      ∀ req ∈ requests tr, req.HuntSafe args.timeRange := by
  intro clause args
  rw [all_requests_huntQuery, UpRequest.huntSafe_huntRequest_iff]
  intro h
  exact h _ rfl "script" (by decide) (by decide)

end WazuhMcp
