import WazuhMcp.Foundations.Fallible
import WazuhMcp.Wazuh.Exchanges

/-!
# Active responses on the agents of a group

`run_active_response_on_group` lists the agents of a group and acts on those that the list holds. It asks
for one list, of at most 500 agents, so it reaches every agent of a group of that size
(`all_fansOut`) and leaves the rest of a larger one alone (`not_fansOut`).
-/

namespace WazuhMcp.ServerApiClient

open Interact

/-! ## What is sent, and what is assumed of the list -/

/-- The agents that a write sends an active response to: its `agents_list`. A request that is refused for
its token, and sent once more, is no write. -/
def agentsList? (ev : UpEvent) : Option (Option Json) :=
  match ev.op with
  | .send req =>
    if req.method = "PUT" ∧ req.path = "/active-response" ∧ ¬ Refused ev then
      some (req.params.lookup "agents_list")
    else none
  | _ => none

/-- The `agents_list`s of the writes of a run. -/
def agentsLists (tr : List UpEvent) : List (Option Json) := tr.filterMap agentsList?

/-- The service holds these groups: `GET /agents?group=g&limit=n` returns the first `n` agents of `g`, and
how many there are. -/
def ListsGroups (members : String → List String) (tr : List UpEvent) : Prop :=
  ∀ req resp g (n : ℤ), (⟨.send req, .ok resp⟩ : UpEvent) ∈ tr → req.method = "GET" →
    req.path = "/agents" → req.params.lookup "group" = some (.str g) →
    req.params.lookup "limit" = some (.int n) → resp.statusCode < 400 →
    ∃ top data, resp.json = .ok (.obj top) ∧ top.lookup "data" = some (.obj data) ∧
      data.lookup "affected_items" =
        some (.arr (((members g).take n.toNat).map fun id => .obj [("id", .str id)])) ∧
      data.lookup "total_affected_items" = some (.int (members g).length)

/-- **The writes of a run reach a group**: together their lists hold each of its agents once. A run that
fails before its write has none. -/
def FansOut {α : Type} (ids : List String) (tr : List UpEvent) (out : Except Exn α) : Prop :=
  (∃ lists : List (List String), agentsLists tr = lists.map (fun l => some (.str (Text.join ',' l))) ∧
    lists.flatten.Perm ids) ∨
  agentsLists tr = [] ∧ ∃ x, out = .error x

/-! ## Reading the list -/

/-- The items of a list of agents. -/
def agentItems (ids : List String) : List Json := ids.map fun id => .obj [("id", .str id)]

theorem filterM_agentItems (ids : List String) :
    (agentItems ids).filterM (fun item => item.contains "id") = .ok (agentItems ids) := by
  rw [Fallible.filterM_eq_ok, agentItems]
  constructor
  · intro item hitem
    obtain ⟨id, -, rfl⟩ := List.mem_map.mp hitem
    exact ⟨true, rfl⟩
  · rw [eq_comm, List.filter_eq_self]
    intro item hitem
    obtain ⟨id, -, rfl⟩ := List.mem_map.mp hitem
    rfl

theorem mapM_agentItems (ids : List String) :
    (agentItems ids).mapM (fun item => Json.pyStr <$> item.item "id") = .ok ids := by
  induction ids with
  | nil => rfl
  | cons id ids ih =>
    rw [agentItems, List.map_cons, List.mapM_cons]
    change (Except.ok id >>= fun id => (agentItems ids).mapM _ >>= fun ids => pure (id :: ids)) = _
    rw [ih]
    rfl

/-- The ids of a list are read as they are. -/
theorem groupAgentIds_of_items {top data : JsonObject} {ids : List String}
    (hdata : top.lookup "data" = some (.obj data))
    (hitems : data.lookup "affected_items" = some (.arr (agentItems ids))) :
    groupAgentIds (.obj top) = .ok ids := by
  have htruthy : (Json.obj data).or (.obj []) = .obj data := by
    cases data <;> rfl
  have hlist : (Json.arr (agentItems ids)).or (.arr []) = .arr (agentItems ids) := by
    cases ids <;> rfl
  have htop : (Json.obj top).getD "data" .null = .ok (.obj data) := by
    rw [Json.getD, JsonObject.getD, hdata, Option.getD_some]
  have hread : (Json.obj data).getD "affected_items" .null = .ok (.arr (agentItems ids)) := by
    rw [Json.getD, JsonObject.getD, hitems, Option.getD_some]
  simp only [groupAgentIds, htop, bind, Except.bind, htruthy, hread, hlist, Json.iter]
  rw [filterM_agentItems]
  exact mapM_agentItems ids

/-! ## The requests of the tool -/

/-- The list that the tool asks for. -/
def listRequest (groupName : String) (runAs : Option String) (jwt : String) : UpRequest where
  upstream := .serverApi
  method := "GET"
  path := "/agents"
  params := effectiveParams [("group", .str groupName), ("select", .str "id"), ("limit", .int 500)] runAs
  authorization := .bearer jwt

/-- The write that the tool sends. -/
def writeRequest (agentIds : List String) (command : String) (customArgs : Option JsonObject)
    (runAs : Option String) (jwt : String) : UpRequest where
  upstream := .serverApi
  method := "PUT"
  path := "/active-response"
  params := effectiveParams [("agents_list", .str (Text.join ',' agentIds))] runAs
  payload := .json (.obj (activeResponseBody command customArgs))
  authorization := .bearer jwt

variable {groupName command : String} {customArgs : Option JsonObject} {runAs : Option String}

/-- `run_active_response_on_group` lists the group, and sends a write unless the list is empty. -/
theorem runActiveResponseOnGroup_eq :
    runActiveResponseOnGroup groupName command customArgs runAs = (do
      let listing ← exchange (listRequest groupName runAs)
      let agentIds ← groupAgentIds listing
      if agentIds.isEmpty then
        pure (.obj [("data", .obj [("affected_items", .arr []), ("failed_items", .arr [])])])
      else
        exchange (writeRequest agentIds command customArgs runAs)) := rfl

/-- A token request is no write. -/
theorem agentsLists_of_prepares {build : String → UpRequest} {tr : List UpEvent}
    (h : Prepares build tr) : agentsLists tr = [] := by
  rw [agentsLists, List.filterMap_eq_nil_iff]
  intro ev hev
  unfold agentsList?
  split
  · rename_i req hop
    rcases h ev hev req hop with rfl | ⟨-, hrefused⟩
    · exact if_neg fun hput => absurd hput.1 (by decide)
    · exact if_neg fun hput => hput.2.2 hrefused
  · rfl

/-- No request for a list is a write. -/
theorem agentsList?_of_get {ev : UpEvent} {req : UpRequest} (hop : ev.op = .send req)
    (hget : req.method = "GET") : agentsList? ev = none := by
  unfold agentsList?
  rw [hop]
  exact if_neg fun hput => absurd (hget.symm.trans hput.1) (by decide)

theorem agentsLists_append (tr tr' : List UpEvent) :
    agentsLists (tr ++ tr') = agentsLists tr ++ agentsLists tr' := List.filterMap_append ..

/-- Listing a group writes nothing. -/
theorem agentsLists_of_listed {tr : List UpEvent} {out : Except Exn Json}
    (h : Exchanged (listRequest groupName runAs) tr out) : agentsLists tr = [] := by
  rcases h with ⟨-, hinit⟩ | ⟨init, jwt, ans, rfl, hinit, -⟩
  · exact agentsLists_of_prepares hinit
  · rw [agentsLists_append, agentsLists_of_prepares hinit, List.nil_append, agentsLists,
      List.filterMap_cons_none (agentsList?_of_get rfl rfl), List.filterMap_nil]

/-- A write that is not refused goes to its agents. -/
theorem agentsList?_write (agentIds : List String) {jwt : String}
    {ans : UpOp.Result (.send (writeRequest agentIds command customArgs runAs jwt))}
    (h : ¬ Refused ⟨.send (writeRequest agentIds command customArgs runAs jwt), ans⟩) :
    agentsList? ⟨.send (writeRequest agentIds command customArgs runAs jwt), ans⟩ =
      some (some (.str (Text.join ',' agentIds))) := by
  refine (if_pos ⟨rfl, rfl, h⟩).trans (congrArg some ?_)
  exact lookup_effectiveParams_of_ne (by decide)

theorem agentsList?_of_refused {ev : UpEvent} (h : Refused ev) : agentsList? ev = none := by
  unfold agentsList?
  split
  · exact if_neg fun hput => hput.2.2 h
  · rfl

/-- **A write goes to its agents**, once if it succeeds. -/
theorem agentsLists_of_written {agentIds : List String} {tr : List UpEvent} {out : Except Exn Json}
    (h : Exchanged (writeRequest agentIds command customArgs runAs) tr out) :
    agentsLists tr = [some (.str (Text.join ',' agentIds))] ∨
      agentsLists tr = [] ∧ ∃ x, out = .error x := by
  rcases h with ⟨hout, hinit⟩ | ⟨init, jwt, ans, rfl, hinit, hans⟩
  · exact .inr ⟨agentsLists_of_prepares hinit, hout⟩
  · rw [agentsLists_append, agentsLists_of_prepares hinit, List.nil_append, agentsLists]
    by_cases hrefused : Refused ⟨.send (writeRequest agentIds command customArgs runAs jwt), ans⟩
    · refine .inr ⟨List.filterMap_cons_none (agentsList?_of_refused hrefused), ?_⟩
      cases out with
      | error x => exact ⟨x, rfl⟩
      | ok body =>
        obtain ⟨resp, rfl, hstatus, -⟩ := hans body rfl
        have hresp : resp.statusCode = 401 := Option.some.inj hrefused
        omega
    · exact .inl (List.filterMap_cons_some (agentsList?_write agentIds hrefused))

/-! ## Groups of any size -/

/-- What the service answers to the request for a list. -/
theorem groupAgentIds_of_listed {members : String → List String} {tr : List UpEvent} {listing : Json}
    (hlists : ListsGroups members tr) (h : Replies (listRequest groupName runAs) tr (.ok listing)) :
    groupAgentIds listing = .ok ((members groupName).take 500) := by
  obtain ⟨init, jwt, ans, rfl, -, hans⟩ := h
  obtain ⟨resp, rfl, hstatus, hjson⟩ := hans listing rfl
  obtain ⟨top, data, htop, hdata, hitems, -⟩ := hlists (listRequest groupName runAs jwt) resp groupName 500
    (List.mem_append_right _ (List.mem_singleton_self _)) rfl rfl (lookup_effectiveParams_of_ne (by decide))
    (lookup_effectiveParams_of_ne (by decide)) hstatus
  obtain rfl := Except.ok.inj (hjson.symm.trans htop)
  exact groupAgentIds_of_items hdata hitems

/-- **A group that the list holds** is reached, whatever happens. -/
theorem all_fansOut {members : String → List String} (hlength : (members groupName).length ≤ 500) :
    (runActiveResponseOnGroup groupName command customArgs runAs).All fun tr out =>
      ListsGroups members tr → FansOut (members groupName) tr out := by
  rw [runActiveResponseOnGroup_eq]
  refine (Prog.all_bind _ _ _).mpr ((all_exchange _).mono fun tr out hlisted => ?_)
  have hsilent : agentsLists tr = [] := agentsLists_of_listed hlisted
  cases out with
  | error x => exact fun _ => .inr ⟨hsilent, x, rfl⟩
  | ok listing =>
    have hreplies : Replies (listRequest groupName runAs) tr (.ok listing) :=
      hlisted.resolve_left fun h => nomatch h.1.choose_spec
    refine Prog.all_ofExcept_bind (fun agentIds hids => ?_) fun x _ _ => ?_
    · -- the list, where the assumption on the service holds of it, holds the whole group
      have hmembers {tr' : List UpEvent} (hlists : ListsGroups members (tr ++ tr')) :
          agentIds = members groupName := by
        have hlists' : ListsGroups members tr := fun req resp g n hev =>
          hlists req resp g n (List.mem_append_left _ hev)
        have htake := groupAgentIds_of_listed hlists' hreplies
        rw [List.take_of_length_le hlength] at htake
        exact Except.ok.inj (hids.symm.trans htake)
      split
      · rename_i hempty
        intro hlists
        rw [List.isEmpty_iff] at hempty
        rw [← hmembers hlists, hempty, List.append_nil]
        exact .inl ⟨[], hsilent, List.Perm.refl _⟩
      · refine (all_exchange _).mono fun tr' out hwritten hlists => ?_
        rw [← hmembers hlists]
        unfold FansOut
        rw [agentsLists_append, hsilent, List.nil_append]
        rcases agentsLists_of_written hwritten with hlist | hfailed
        · exact .inl ⟨[agentIds], hlist, by simp⟩
        · exact .inr hfailed
    · rw [List.append_nil]
      exact .inr ⟨hsilent, x, rfl⟩

/-! ## Larger groups -/

/-- The text of a part of a list is not that of the list in some order. -/
theorem join_take_ne {sep : Char} {ids l : List String} {n : ℕ} (hn : 0 < n) (hlength : n < ids.length)
    (hperm : l.Perm ids) : Text.join sep l ≠ Text.join sep (ids.take n) := by
  intro h
  have hlengths := congrArg String.length h
  rw [Text.length_join, Text.length_join, hperm.length_eq, (hperm.flatMap_right _).length_eq,
    List.length_take] at hlengths
  have hsplit : (ids.flatMap String.toList).length =
      ((ids.take n).flatMap String.toList).length + ((ids.drop n).flatMap String.toList).length := by
    rw [← List.length_append, ← List.flatMap_append, List.take_append_drop]
  omega

/-- A service that holds the groups, and answers every request. -/
def groupEnv (members : String → List String) (groupName : String) : ∀ op : UpOp, op.Result
  | .acquire _ _ => .ok ()
  | .lock => .ok ()
  | .freshToken => some "jwt"
  | .storeToken _ => ()
  | .send req =>
    if req.method = "GET" then
      .ok ⟨200, .ok (.obj [("data", .obj [
        ("affected_items", .arr (agentItems ((members groupName).take 500))),
        ("total_affected_items", .int (members groupName).length)])])⟩
    else .ok ⟨200, .ok (.obj [])⟩
  | .monotonic => 0

/-- The run of the tool on a group that is not empty. -/
theorem run_groupEnv {members : String → List String} {groupName : String}
    (hne : (members groupName).take 500 ≠ []) :
    (runActiveResponseOnGroup groupName command customArgs runAs).run (groupEnv members groupName) =
      ([⟨.lock, .ok ()⟩, ⟨.freshToken, some "jwt"⟩,
        ⟨.send (listRequest groupName runAs "jwt"),
          groupEnv members groupName (.send (listRequest groupName runAs "jwt"))⟩,
        ⟨.lock, .ok ()⟩, ⟨.freshToken, some "jwt"⟩,
        ⟨.send (writeRequest ((members groupName).take 500) command customArgs runAs "jwt"),
          .ok ⟨200, .ok (.obj [])⟩⟩], .ok (.obj [])) := by
  have hids : groupAgentIds (.obj [("data", .obj [
      ("affected_items", .arr (agentItems ((members groupName).take 500))),
      ("total_affected_items", .int (members groupName).length)])]) =
        .ok ((members groupName).take 500) := groupAgentIds_of_items rfl rfl
  have hwrite : (exchange (writeRequest ((members groupName).take 500) command customArgs runAs)).run
      (groupEnv members groupName) = ([⟨.lock, .ok ()⟩, ⟨.freshToken, some "jwt"⟩,
        ⟨.send (writeRequest ((members groupName).take 500) command customArgs runAs "jwt"),
          .ok ⟨200, .ok (.obj [])⟩⟩], .ok (.obj [])) := run_exchange rfl rfl rfl (by decide)
  have hrest : ¬ ((members groupName).take 500).isEmpty = true := by rwa [List.isEmpty_iff]
  rw [runActiveResponseOnGroup_eq, Prog.run_bind, run_exchange rfl rfl rfl (by decide)]
  simp only [Prog.monadLift_eq_ofExcept, hids]
  rw [show (Prog.ofExcept (Except.ok ((members groupName).take 500)) : UpProg (List String)) = pure _ from rfl,
    Prog.run_bind, Prog.run_pure]
  simp only [hrest]
  rw [if_neg Bool.false_ne_true, hwrite]
  rfl

/-- The service of the run holds the groups as assumed. -/
theorem listsGroups_groupEnv {members : String → List String} {groupName : String} {agentIds : List String} :
    ListsGroups members [⟨.lock, .ok ()⟩, ⟨.freshToken, some "jwt"⟩,
      ⟨.send (listRequest groupName runAs "jwt"),
        groupEnv members groupName (.send (listRequest groupName runAs "jwt"))⟩,
      ⟨.lock, .ok ()⟩, ⟨.freshToken, some "jwt"⟩,
      ⟨.send (writeRequest agentIds command customArgs runAs "jwt"), .ok ⟨200, .ok (.obj [])⟩⟩] := by
  intro req resp g n hev hget _ hgroup hlimit _
  simp only [List.mem_cons, List.not_mem_nil, or_false] at hev
  rcases hev with h | h | h | h | h | h
  · cases h
  · cases h
  · cases h
    rw [listRequest, lookup_effectiveParams_of_ne (by decide)] at hgroup hlimit
    cases Option.some.inj hgroup
    cases Option.some.inj hlimit
    exact ⟨_, _, rfl, rfl, rfl, rfl⟩
  · cases h
  · cases h
  · cases h
    exact absurd hget (show ("PUT" : String) ≠ "GET" by decide)

/-- **A larger group** is not: the service that answers every request sees a write to part of it. -/
theorem not_fansOut {members : String → List String} (hlength : 500 < (members groupName).length) :
    ¬ (runActiveResponseOnGroup groupName command customArgs runAs).All fun tr out =>
      ListsGroups members tr → FansOut (members groupName) tr out := by
  intro hall
  have hne : (members groupName).take 500 ≠ [] := by
    rw [← List.length_pos_iff, List.length_take]
    omega
  have hrun := hall.run (groupEnv members groupName)
  rw [run_groupEnv hne] at hrun
  have hwrite : agentsList? ⟨.send (writeRequest ((members groupName).take 500) command customArgs runAs
      "jwt"), .ok ⟨200, .ok (.obj [])⟩⟩ =
        some (some (.str (Text.join ',' ((members groupName).take 500)))) :=
    agentsList?_write _ fun h => absurd (Option.some.inj h) (by decide)
  rcases hrun listsGroups_groupEnv with ⟨lists, hlists, hperm⟩ | ⟨-, x, h⟩
  · rw [agentsLists, List.filterMap_cons_none rfl, List.filterMap_cons_none rfl,
      List.filterMap_cons_none (agentsList?_of_get rfl rfl), List.filterMap_cons_none rfl,
      List.filterMap_cons_none rfl, List.filterMap_cons_some hwrite, List.filterMap_nil] at hlists
    obtain ⟨l, rfl, hl⟩ := List.map_eq_singleton_iff.mp hlists.symm
    rw [List.flatten_cons, List.flatten_nil, List.append_nil] at hperm
    injection hl with hl
    injection hl with hl
    exact join_take_ne (by decide) hlength hperm hl
  · cases h

end WazuhMcp.ServerApiClient

namespace WazuhMcp

open Interact ServerApiClient

/-- **When a group tool reaches its group.** On a service that holds any groups and lists them as it
documents, the writes of `run_active_response_on_group` reach each agent of the group once, in every run,
exactly when the group has at most 500 agents. -/
theorem groupFanout_complete_iff (members : String → List String) (groupName command : String)
    (customArgs : Option JsonObject) (runAs : Option String) :
    ((ServerApiClient.runActiveResponseOnGroup groupName command customArgs runAs).All fun tr out =>
      ListsGroups members tr → FansOut (members groupName) tr out) ↔
    (members groupName).length ≤ 500 := by
  constructor
  · intro hall
    by_contra hlength
    exact not_fansOut (not_le.mp hlength) hall
  · exact all_fansOut

/-- A group of 501 agents is not reached. -/
theorem not_groupFanout_complete :
    ¬ ∀ (members : String → List String) (groupName command : String) (customArgs : Option JsonObject)
      (runAs : Option String),
      (ServerApiClient.runActiveResponseOnGroup groupName command customArgs runAs).All fun tr out =>
        ListsGroups members tr → FansOut (members groupName) tr out := by
  intro h
  have hlength : 500 < ((List.range 501).map fun n => toString (1000 + n)).length := by
    rw [List.length_map, List.length_range]
    decide
  exact @not_fansOut "g" "isolate" none none (fun _ => (List.range 501).map fun n => toString (1000 + n))
    hlength (h _ "g" "isolate" none none)

end WazuhMcp
