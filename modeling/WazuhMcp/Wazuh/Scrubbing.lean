import WazuhMcp.Foundations.Exact
import WazuhMcp.Foundations.Fallible
import WazuhMcp.Wazuh.Indexer
import WazuhMcp.Wazuh.ServerApi

/-!
# What the clients let through

A call of one of the two clients should return a JSON object or raise a `WazuhError` that shows nothing
of the upstream's, and report every timeout as such. The Server API client maps error statuses and
timeouts, the indexer client error statuses only, and neither maps any other exception of the HTTP
client or of the decoder, nor checks what it has decoded.

`scrubbed_iff_handled` says for every call which failures are dealt with: the call keeps to the
contract in exactly the runs whose events are all of that kind.
-/

namespace WazuhMcp

open Interact Prog Fallible

/-! ## The calls -/

/-- A call of a public method of `IndexerClient` or `ServerApiClient`. -/
inductive ClientCall where
  | search (index : String) (query : Json)
  | bulk (body : String)
  | putIndexTemplate (name : String) (body : Json)
  | get (path : String) (params : JsonObject) (runAs : Option String)
  | post (path : String) (json : Option Json) (params : JsonObject) (runAs : Option String)
  | put (path : String) (json : Option Json) (params : JsonObject) (runAs : Option String)
  | delete (path : String) (params : JsonObject) (runAs : Option String)
  | putRaw (path content contentType : String) (params : JsonObject) (runAs : Option String)
  | isolateAgent (agentIds : List String) (runAs : Option String)
  | restartAgent (agentId : String) (runAs : Option String)
  | addAgentToGroup (agentId groupId : String) (runAs : Option String)
  | removeAgentFromGroup (agentId groupId : String) (runAs : Option String)
  | uploadRuleFile (filename xml : String) (runAs : Option String)
  | runActiveResponse (agentIds : List String) (command : String) (customArgs : Option JsonObject)
      (runAs : Option String)
  | runActiveResponseOnGroup (groupName command : String) (customArgs : Option JsonObject)
      (runAs : Option String)
  | restartCluster (scope : String) (runAs : Option String)
  | clusterStatus (runAs : Option String)

namespace ClientCall

/-- What the call runs. -/
def program : ClientCall → UpProg Json
  | .search index query => IndexerClient.search index query
  | .bulk body => IndexerClient.bulk body
  | .putIndexTemplate name body => IndexerClient.putIndexTemplate name body
  | .get path params runAs => ServerApiClient.get path params runAs
  | .post path json params runAs => ServerApiClient.post path json params runAs
  | .put path json params runAs => ServerApiClient.put path json params runAs
  | .delete path params runAs => ServerApiClient.delete path params runAs
  | .putRaw path content contentType params runAs =>
    ServerApiClient.putRaw path content contentType params runAs
  | .isolateAgent agentIds runAs => ServerApiClient.isolateAgent agentIds runAs
  | .restartAgent agentId runAs => ServerApiClient.restartAgent agentId runAs
  | .addAgentToGroup agentId groupId runAs => ServerApiClient.addAgentToGroup agentId groupId runAs
  | .removeAgentFromGroup agentId groupId runAs =>
    ServerApiClient.removeAgentFromGroup agentId groupId runAs
  | .uploadRuleFile filename xml runAs => ServerApiClient.uploadRuleFile filename xml runAs
  | .runActiveResponse agentIds command customArgs runAs =>
    ServerApiClient.runActiveResponse agentIds command customArgs runAs
  | .runActiveResponseOnGroup groupName command customArgs runAs =>
    ServerApiClient.runActiveResponseOnGroup groupName command customArgs runAs
  | .restartCluster scope runAs => ServerApiClient.restartCluster scope runAs
  | .clusterStatus runAs => ServerApiClient.ClusterState.json <$> ServerApiClient.clusterStatus runAs

/-- A name that the indexer client takes as part of a path. -/
def SafeName (name : String) : Prop :=
  ¬ (name = "" ∨ name.toList.contains '/' ∨ Text.contains name "..")

instance (name : String) : Decidable (SafeName name) := inferInstanceAs (Decidable (¬ _))

/-- The indexer client refuses other names by a `ValueError`. -/
def Admitted : ClientCall → Prop
  | .search index _ => SafeName index
  | .putIndexTemplate name _ => SafeName name
  | _ => True

end ClientCall

/-! ## The contract -/

/-- The message that goes with a code. -/
def SafeCode.message : SafeCode → String
  | .authExpired => "upstream authentication expired"
  | .forbidden => "upstream denied the request"
  | .rateLimited => "upstream rate limit exceeded"
  | .invalidQuery => "query was rejected by the backend"
  | .upstreamError => "upstream returned an error"
  | .notFound => "upstream resource not found"
  | .upstreamTimeout => "upstream request timed out"

/-- The error tells its code, and nothing else of what the upstream has sent. -/
def WazuhError.Scrubbed (e : WazuhError) : Prop := e.message = e.code.message ∧ e.scope = none

theorem mapHttpError_scrubbed (status : ℕ) : (mapHttpError status).Scrubbed := by
  unfold mapHttpError
  split_ifs <;> exact ⟨rfl, rfl⟩

theorem mapTimeout_scrubbed : mapTimeout.Scrubbed := ⟨rfl, rfl⟩

/-- An exception that a caller may see: a scrubbed error. A cancellation passes too. -/
def Exn.Safe (x : Exn) : Prop := x.isException = false ∨ ∃ e : WazuhError, x = .wazuh e ∧ e.Scrubbed

theorem ForeignExn.safe_iff (x : ForeignExn) : x.exn.Safe ↔ x.exn.isException = false := by
  refine or_iff_left ?_
  rintro ⟨e, he, -⟩
  exact x.exn_ne_wazuh e he

/-- What is returned is such a value, and what is raised may be seen. -/
def Ends {α : Type} (V : α → Prop) : Except Exn α → Prop
  | .ok a => V a
  | .error x => x.Safe

/-- A decoded value is a JSON object. -/
def IsObject (body : Json) : Prop := ∃ d, body = .obj d

/-- The request timed out. -/
def TimedOut : UpEvent → Prop
  | ⟨.send _, .error x⟩ => x.exn.isTimeout
  | _ => False

/-- **The contract of a call**: it returns a JSON object or raises a scrubbed error, which says so if a
request has timed out. -/
structure Scrubbed (tr : List UpEvent) (out : Except Exn Json) : Prop where
  ends : Ends IsObject out
  timeout : (∃ ev ∈ tr, TimedOut ev) → out = .error (.wazuh mapTimeout)

/-! ## What is dealt with -/

/-- `body.get("data", {})` is an object. -/
def HasData (body : Json) : Prop := ∃ d, body.getD "data" (.obj []) = .ok (.obj d)

/-- `(body.get("data") or {}).get("affected_items") or []` can be gone through, and each item is an
object or something that does not contain `"id"`. -/
def ListsAgents (body : Json) : Prop :=
  ∃ data affected items, body.getD "data" .null = .ok data ∧
    (data.or (.obj [])).getD "affected_items" .null = .ok affected ∧
    (affected.or (.arr [])).iter = .ok items ∧
    ∀ item ∈ items, IsObject item ∨ item.contains "id" = .ok false

/-- What the call needs of the body of a response that is no error. -/
def ClientCall.Reads (call : ClientCall) (req : UpRequest) : Json → Prop :=
  if req.upstream = .serverApi ∧ req.authorization = .basic then HasData
  else
    match call with
    | .runActiveResponseOnGroup _ _ _ _ => if req.method = "GET" then ListsAgents else IsObject
    | .clusterStatus _ => HasData
    | _ => IsObject

/-- The response is an error, or can be decoded to what is needed. -/
def Answered (V : Json → Prop) (resp : UpResponse) : Prop :=
  400 ≤ resp.statusCode ∨ Ends V (rethrow resp.json)

/-- An event that the code deals with. -/
def Handled (reads : UpRequest → Json → Prop) : UpEvent → Prop
  | ⟨.lock, .error x⟩ => x.exn.isException = false
  | ⟨.send req, .error x⟩ =>
    x.exn.isException = false ∨ req.upstream = .serverApi ∧ x.exn.isTimeout
  | ⟨.send req, .ok resp⟩ => Answered (reads req) resp
  | _ => True

section Exact

variable {reads : UpRequest → Json → Prop} {V : Json → Prop}

/-- The run ends as it should exactly if all its events are dealt with. -/
abbrev Accounts {α : Type} (reads : UpRequest → Json → Prop) (V : α → Prop) (p : UpProg α) : Prop :=
  p.All (Exact (Handled reads) (Ends V))

theorem accounts_bind {α β : Type} {p : UpProg α} {f : α → UpProg β} {V : α → Prop} {W : β → Prop}
    (hp : Accounts reads V p) (hgood : ∀ a, V a → Accounts reads W (f a))
    (hbad : ∀ a, ¬ V a → (f a).All fun _ out => ¬ Ends W out) : Accounts reads W (p >>= f) :=
  all_exact_bind hp hgood hbad fun _ => Iff.rfl

/-- Nothing need be asked of what the first part returns. -/
theorem accounts_bind_true {α β : Type} {p : UpProg α} {f : α → UpProg β} {W : β → Prop}
    (hp : Accounts reads (fun _ => True) p) (hf : ∀ a, Accounts reads W (f a)) :
    Accounts reads W (p >>= f) :=
  accounts_bind hp (fun a _ => hf a) fun _ h => absurd trivial h

theorem accounts_ret {α : Type} {a : α} {W : α → Prop} (h : W a) : Accounts reads W (.ret a) :=
  exact_nil h

theorem accounts_wazuh {α : Type} {W : α → Prop} {e : WazuhError} (h : e.Scrubbed) :
    Accounts reads W (.raise (.wazuh e)) := exact_nil (.inr ⟨e, rfl, h⟩)

theorem not_safe_exception (name : String) : ¬ (Exn.exception name).Safe := by
  rintro (h | ⟨e, he, -⟩)
  · cases h
  · cases he

/-! ### The indexer client -/

theorem accounts_indexer {req : UpRequest} (hup : req.upstream = .indexer) :
    Accounts reads (reads req) (IndexerClient.exchange req) := by
  refine all_exact_op (fun r hr => ?_) fun r hr => ?_
  · cases r with
    | error x =>
      have hbase : x.exn.isException = false := hr.resolve_right fun h => by simp [hup] at h
      exact exact_nil (.inl hbase)
    | ok resp =>
      show Accounts reads (reads req) (if 400 ≤ resp.statusCode then _ else _)
      split
      · exact accounts_wazuh (mapHttpError_scrubbed _)
      · rename_i hstatus
        exact (all_ofExcept _ _).mpr (exact_nil (hr.resolve_left hstatus))
  · cases r with
    | error x => exact fun hsafe => hr (.inl (x.safe_iff.mp hsafe))
    | ok resp =>
      obtain ⟨hstatus, hends⟩ := not_or.mp hr
      show Prog.All (if 400 ≤ resp.statusCode then _ else _) _
      rw [if_neg hstatus]
      exact (all_ofExcept _ _).mpr hends

namespace ServerApiClient

/-! ### The Server API client -/

theorem accounts_send {req : UpRequest} (hup : req.upstream = .serverApi) :
    Accounts reads (Answered (reads req)) (send req) := by
  refine all_exact_op (fun r hr => ?_) fun r hr => ?_
  · cases r with
    | ok resp => exact accounts_ret hr
    | error x =>
      show Exact _ _ [] (.error _)
      split
      · exact exact_nil (.inr ⟨_, rfl, mapTimeout_scrubbed⟩)
      · rename_i htimeout
        exact exact_nil (.inl (hr.resolve_right fun h => htimeout h.2))
  · cases r with
    | ok resp => exact hr
    | error x =>
      obtain ⟨hbase, htimeout⟩ := not_or.mp hr
      show ¬ Exn.Safe (if x.exn.isTimeout then _ else _)
      rw [if_neg fun h => htimeout ⟨hup, h⟩]
      exact fun hsafe => hbase (x.safe_iff.mp hsafe)

theorem accounts_lock : Accounts reads (fun _ => True) UpProg.lock := by
  refine all_exact_op (fun r hr => ?_) fun r hr => ?_
  · cases r with
    | ok _ => exact accounts_ret trivial
    | error x => exact exact_nil (.inl hr)
  · cases r with
    | ok _ => exact absurd trivial hr
    | error x => exact fun hsafe => hr (x.safe_iff.mp hsafe)

theorem getD_succeeds {body default : Json} {k : String} :
    Succeeds (body.getD k default) ↔ IsObject body := by
  cases body with
  | obj d => exact iff_of_true (succeeds_ok _) ⟨d, rfl⟩
  | _ =>
    refine iff_of_false (not_succeeds_error _) ?_
    rintro ⟨d, ⟨⟩⟩

theorem raises_exception {α : Type} {name : String} :
    Raises (¬ Exn.Safe ·) (.error (.exception name) : Except Exn α) :=
  raises_error (not_safe_exception name)

theorem raises_getD (body : Json) (k : String) (default : Json) :
    Raises (¬ Exn.Safe ·) (body.getD k default) := by
  cases body with
  | obj d => exact raises_ok _
  | _ => exact raises_exception

/-- What fails to be read ends the call as it should not. -/
theorem not_ends_of_fails {α β : Type} {read : Except Exn β} {f : β → UpProg α} {W : α → Prop}
    (hfails : ¬ Succeeds read) (hraises : Raises (¬ Exn.Safe ·) read) :
    (ofExcept read >>= f).All fun _ out => ¬ Ends W out :=
  all_ofExcept_bind (fun b hb => absurd ⟨b, hb⟩ hfails) hraises

theorem not_ends_of_not_isObject {α : Type} {body default : Json} {k : String} {f : Json → UpProg α}
    {W : α → Prop} (h : ¬ IsObject body) :
    (ofExcept (body.getD k default) >>= f).All fun _ out => ¬ Ends W out :=
  not_ends_of_fails (getD_succeeds.not.mpr h) (raises_getD _ _ _)

/-- What has no data cannot be read further. -/
theorem not_ends_of_not_hasData {α : Type} {body : Json} {f : Json → UpProg α} {W : α → Prop}
    (h : ¬ HasData body)
    (hf : ∀ data, ¬ IsObject data → (f data).All fun _ out => ¬ Ends W out) :
    (ofExcept (body.getD "data" (.obj [])) >>= f).All fun _ out => ¬ Ends W out := by
  refine all_ofExcept_bind (fun data hdata => hf data ?_) (raises_getD _ _ _)
  rintro ⟨d, rfl⟩
  exact h ⟨d, hdata⟩

theorem all_hasData_bind {α : Type} {body : Json} {f : Json → UpProg α}
    {Q : List UpEvent → Except Exn α → Prop} (h : HasData body) (hf : ∀ d, (f (.obj d)).All Q) :
    (ofExcept (body.getD "data" (.obj [])) >>= f).All Q := by
  obtain ⟨d, hd⟩ := h
  rw [hd]
  exact hf d

theorem all_object_bind {α : Type} {d : JsonObject} {k : String} {default : Json}
    {f : Json → UpProg α} {Q : List UpEvent → Except Exn α → Prop}
    (h : (f (d.getD k default)).All Q) :
    (ofExcept ((Json.obj d).getD k default) >>= f).All Q := h

theorem accounts_mintLocked (hmint : reads mintRequest = HasData) :
    Accounts reads (fun _ => True) mintLocked := by
  refine accounts_bind (accounts_send rfl) (fun resp hresp => ?_) fun resp hresp => ?_ <;>
    rw [hmint] at hresp <;> split
  · exact accounts_wazuh (mapHttpError_scrubbed _)
  · rename_i hstatus
    refine all_ofExcept_bind (fun body (hbody : rethrow resp.json = .ok body) => ?_)
      fun x (hx : rethrow resp.json = .error x) => ?_
    · have hjson := hresp.resolve_left hstatus
      rw [hbody] at hjson
      refine all_hasData_bind hjson fun data => all_object_bind ?_
      split
      · split
        · exact accounts_wazuh (mapHttpError_scrubbed _)
        · exact all_exact_op (fun _ _ => accounts_ret trivial) fun _ h => absurd trivial h
      · exact accounts_wazuh (mapHttpError_scrubbed _)
    · have hjson := hresp.resolve_left hstatus
      rw [hx] at hjson
      exact exact_nil hjson
  · rename_i hstatus
    exact absurd (.inl hstatus) hresp
  · obtain ⟨hstatus, hjson⟩ := not_or.mp hresp
    refine all_ofExcept_bind (fun body (hbody : rethrow resp.json = .ok body) => ?_)
      fun x (hx : rethrow resp.json = .error x) => ?_
    · rw [hbody] at hjson
      refine not_ends_of_not_hasData hjson fun data hdata => ?_
      exact not_ends_of_not_isObject hdata
    · rwa [hx] at hjson

theorem accounts_ensureJwt (hmint : reads mintRequest = HasData) :
    Accounts reads (fun _ => True) ensureJwt := by
  refine accounts_bind_true accounts_lock fun _ => all_exact_op (fun r _ => ?_) fun _ h =>
    absurd trivial h
  cases r with
  | some token => exact accounts_ret trivial
  | none => exact accounts_mintLocked hmint

theorem accounts_refreshJwtForce (hmint : reads mintRequest = HasData) :
    Accounts reads (fun _ => True) refreshJwtForce :=
  accounts_bind_true accounts_lock fun _ => accounts_mintLocked hmint

variable {build : String → UpRequest}

theorem accounts_replay (hmint : reads mintRequest = HasData)
    (hup : ∀ jwt, (build jwt).upstream = .serverApi) (hreads : ∀ jwt, reads (build jwt) = V)
    {resp : UpResponse} (hresp : Answered V resp) :
    Accounts reads (Answered V) (replay build resp) := by
  unfold replay
  split
  · refine accounts_bind_true (accounts_refreshJwtForce hmint) fun token => ?_
    rw [← hreads token]
    exact accounts_send (hup token)
  · exact accounts_ret hresp

/-- What `_request` does with the response that counts. -/
theorem ends_exchange {resp : UpResponse} (hresp : ¬ Answered V resp) :
    ¬ 400 ≤ resp.statusCode ∧
      (ofExcept (rethrow resp.json) : UpProg Json).All fun _ out => ¬ Ends V out := by
  obtain ⟨hstatus, hends⟩ := not_or.mp hresp
  exact ⟨hstatus, (all_ofExcept _ _).mpr hends⟩

/-- **A request** returns what is needed of it, or raises what may be seen, exactly if all that happens
is dealt with. -/
theorem accounts_exchange (hmint : reads mintRequest = HasData)
    (hup : ∀ jwt, (build jwt).upstream = .serverApi) (hreads : ∀ jwt, reads (build jwt) = V) :
    Accounts reads V (exchange build) := by
  refine accounts_bind_true (accounts_ensureJwt hmint) fun token => ?_
  have hsend : Accounts reads (Answered V) (send (build token)) := by
    rw [← hreads token]
    exact accounts_send (hup token)
  refine accounts_bind hsend (fun resp hresp => ?_) fun resp hresp => ?_
  · refine accounts_bind (accounts_replay hmint hup hreads hresp) (fun resp hresp => ?_)
      fun resp hresp => ?_
    · split
      · exact accounts_wazuh (mapHttpError_scrubbed _)
      · rename_i hstatus
        exact (all_ofExcept _ _).mpr (exact_nil (hresp.resolve_left hstatus))
    · obtain ⟨hstatus, hends⟩ := ends_exchange hresp
      rw [if_neg hstatus]
      exact hends
  · obtain ⟨hstatus, hends⟩ := ends_exchange hresp
    have hne : resp.statusCode ≠ 401 := by omega
    rw [replay, if_neg hne]
    show Prog.All (if 400 ≤ resp.statusCode then _ else _) _
    rw [if_neg hstatus]
    exact hends

/-! ### Calls that read on -/

theorem item_succeeds {item : Json} {k : String} (h : item.contains k = .ok true) :
    Succeeds (item.item k) ↔ IsObject item := by
  cases item with
  | obj d =>
    have hsome : (d.lookup k).isSome := (Dict.lookup_isSome d k).trans (Except.ok.inj h)
    obtain ⟨v, hv⟩ := Option.isSome_iff_exists.mp hsome
    exact iff_of_true ⟨v, by simp [Json.item, hv]⟩ ⟨d, rfl⟩
  | _ =>
    refine iff_of_false (not_succeeds_error _) ?_
    rintro ⟨d, ⟨⟩⟩

theorem contains_of_isObject {item : Json} (k : String) (h : IsObject item) :
    Succeeds (item.contains k) := by
  obtain ⟨d, rfl⟩ := h
  exact succeeds_ok _

/-- An item is gone through if it is an object, or does not contain the key. -/
theorem item_passes {item : Json} {k : String} :
    Succeeds (item.contains k) ∧ (holds (item.contains k) → Succeeds (item.item k)) ↔
      IsObject item ∨ item.contains k = .ok false := by
  cases hcontains : item.contains k with
  | error x =>
    refine iff_of_false (fun h => not_succeeds_error x h.1) ?_
    rintro (hobj | hfalse)
    · exact not_succeeds_error x (hcontains ▸ contains_of_isObject k hobj)
    · cases hfalse
  | ok b =>
    cases b with
    | false => exact iff_of_true ⟨succeeds_ok _, fun h => by cases h⟩ (.inr rfl)
    | true =>
      rw [item_succeeds hcontains]
      constructor
      · intro h
        exact .inl (h.2 rfl)
      · rintro (hobj | hfalse)
        · exact ⟨succeeds_ok _, fun _ => hobj⟩
        · cases hfalse

/-- The ids can be read exactly if the items are such as is needed. -/
theorem groupAgentIds_succeeds {body : Json} : Succeeds (groupAgentIds body) ↔ ListsAgents body := by
  have hitems (items : List Json) :
      Succeeds (items.filterM (fun item => item.contains "id") >>= fun kept =>
        kept.mapM fun item => Json.pyStr <$> item.item "id") ↔
      ∀ item ∈ items, IsObject item ∨ item.contains "id" = .ok false := by
    simp only [succeeds_bind, filterM_eq_ok, succeeds_mapM, succeeds_map, ← item_passes]
    constructor
    · rintro ⟨kept, ⟨hall, rfl⟩, hkept⟩ item hitem
      exact ⟨hall item hitem, fun hid => hkept item (List.mem_filter.mpr ⟨hitem, hid⟩)⟩
    · intro h
      refine ⟨_, ⟨fun item hitem => (h item hitem).1, rfl⟩, fun item hitem => ?_⟩
      obtain ⟨hmem, hid⟩ := List.mem_filter.mp hitem
      exact (h item hmem).2 hid
  unfold groupAgentIds ListsAgents
  rw [succeeds_bind]
  refine exists_congr fun data => ?_
  rw [succeeds_bind]
  constructor
  · rintro ⟨hdata, affected, haffected, h⟩
    obtain ⟨items, hiter, hrest⟩ := succeeds_bind.mp h
    exact ⟨affected, items, hdata, haffected, hiter, (hitems items).mp hrest⟩
  · rintro ⟨affected, items, hdata, haffected, hiter, hrest⟩
    exact ⟨hdata, affected, haffected, succeeds_bind.mpr ⟨items, hiter, (hitems items).mpr hrest⟩⟩

theorem raises_iter (x : Json) : Raises (¬ Exn.Safe ·) x.iter := by
  cases x with
  | arr _ => exact raises_ok _
  | obj _ => exact raises_ok _
  | str _ => exact raises_ok _
  | _ => exact raises_exception

theorem raises_contains (x : Json) (k : String) : Raises (¬ Exn.Safe ·) (x.contains k) := by
  cases x with
  | arr _ => exact raises_ok _
  | obj _ => exact raises_ok _
  | str _ => exact raises_ok _
  | _ => exact raises_exception

theorem raises_item (x : Json) (k : String) : Raises (¬ Exn.Safe ·) (x.item k) := by
  cases x with
  | obj d =>
    show Raises _ ((d.lookup k).elim _ _)
    cases d.lookup k with
    | some v => exact raises_ok _
    | none => exact raises_exception
  | _ => exact raises_exception

theorem groupAgentIds_raises (body : Json) : Raises (¬ Exn.Safe ·) (groupAgentIds body) := by
  refine (raises_getD _ _ _).bind fun data => (raises_getD _ _ _).bind fun affected => ?_
  refine (raises_iter _).bind fun items => (Raises.filterM fun x _ => raises_contains x _).bind ?_
  exact fun kept => Raises.mapM fun x _ => (raises_item x _).map

theorem flagSet_succeeds {data : Json} {flag : String} :
    Succeeds (flagSet data flag) ↔ IsObject data := by
  refine succeeds_bind.trans ?_
  constructor
  · rintro ⟨v, hv, -⟩
    exact getD_succeeds.mp ⟨v, hv⟩
  · intro h
    obtain ⟨v, hv⟩ := getD_succeeds.mpr h
    refine ⟨v, hv, ?_⟩
    split <;> exact succeeds_ok _

theorem raises_flagSet (data : Json) (flag : String) : Raises (¬ Exn.Safe ·) (flagSet data flag) := by
  refine (raises_getD _ _ _).bind fun v => ?_
  split <;> exact raises_ok _

theorem all_flagSet_bind {α : Type} {f : Bool → UpProg α} {Q : List UpEvent → Except Exn α → Prop}
    {d : JsonObject} {flag : String} (hf : ∀ b, (f b).All Q) :
    (ofExcept (flagSet (.obj d) flag) >>= f).All Q := by
  obtain ⟨b, hb⟩ := flagSet_succeeds.mpr ⟨d, rfl⟩
  rw [hb]
  exact hf b

theorem accounts_clusterStatus (hmint : reads mintRequest = HasData)
    (hreads : ∀ req, reads req = HasData) (runAs : Option String) :
    Accounts reads IsObject (ClusterState.json <$> clusterStatus runAs) := by
  have hget (path : String) : Accounts reads HasData (get path [] runAs) :=
    accounts_exchange hmint (fun _ => rfl) fun _ => hreads _
  have hstate : Accounts reads (fun _ => True) (clusterStatus runAs) := by
    refine accounts_bind (hget _) (fun body hbody => ?_) fun body hbody => ?_
    · refine all_hasData_bind hbody fun d => all_flagSet_bind fun enabled => all_flagSet_bind ?_
      intro running
      split
      · refine accounts_bind (hget _) (fun body hbody => ?_) fun body hbody => ?_
        · exact all_hasData_bind hbody fun d => all_object_bind (accounts_ret trivial)
        · exact not_ends_of_not_hasData hbody fun data hdata => not_ends_of_not_isObject hdata
      · exact accounts_ret trivial
    · refine not_ends_of_not_hasData hbody fun data hdata => ?_
      exact not_ends_of_fails (flagSet_succeeds.not.mpr hdata) (raises_flagSet _ _)
  exact accounts_bind_true hstate fun state => accounts_ret ⟨_, rfl⟩

theorem accounts_runActiveResponseOnGroup (hmint : reads mintRequest = HasData)
    (hget : ∀ req, req.authorization ≠ .basic → req.method = "GET" → reads req = ListsAgents)
    (hput : ∀ req, req.authorization ≠ .basic → req.method = "PUT" → reads req = IsObject)
    (groupName command : String) (customArgs : Option JsonObject) (runAs : Option String) :
    Accounts reads IsObject (runActiveResponseOnGroup groupName command customArgs runAs) := by
  have hagents : Accounts reads ListsAgents (get "/agents"
      [("group", .str groupName), ("select", .str "id"), ("limit", .int 500)] runAs) :=
    accounts_exchange hmint (fun _ => rfl) fun _ => hget _ (by simp) rfl
  refine accounts_bind hagents (fun body hbody => ?_) fun body hbody => ?_
  · obtain ⟨ids, hids⟩ := groupAgentIds_succeeds.mpr hbody
    refine all_ofExcept_bind (fun ids _ => ?_) fun x hx => ?_
    · split
      · exact accounts_ret ⟨_, rfl⟩
      · exact accounts_exchange hmint (fun _ => rfl) fun _ => hput _ (by simp) rfl
    · rw [hids] at hx
      cases hx
  · exact not_ends_of_fails (groupAgentIds_succeeds.not.mpr hbody) (groupAgentIds_raises body)

end ServerApiClient

end Exact

/-! ## Timeouts -/

section Stops

/-- A request of the Server API client timed out. -/
def MappedTimeout : UpEvent → Prop
  | ⟨.send req, .error x⟩ => req.upstream = .serverApi ∧ x.exn.isTimeout
  | _ => False

/-- A timeout ends the run, and is reported. -/
abbrev Reports {α : Type} (p : UpProg α) : Prop := p.All (Stops MappedTimeout (.wazuh mapTimeout))

theorem reports_ret {α : Type} (a : α) : Reports (.ret a) := stops_nil

theorem reports_raise {α : Type} (x : Exn) : Reports (.raise x : UpProg α) := stops_nil

theorem reports_ofExcept {α : Type} (out : Except Exn α) : Reports (.ofExcept out) :=
  (all_ofExcept _ _).mpr stops_nil

theorem reports_indexer {req : UpRequest} (hup : req.upstream = .indexer) :
    Reports (IndexerClient.exchange req) := by
  refine all_stops_op (fun r hr => ?_) fun r => ?_
  · cases r with
    | ok resp => cases hr
    | error x =>
      rw [MappedTimeout, hup] at hr
      cases hr.1
  · cases r with
    | error x => exact reports_raise _
    | ok resp =>
      show Reports (if 400 ≤ resp.statusCode then _ else _)
      split
      · exact reports_raise _
      · exact reports_ofExcept _

namespace ServerApiClient

theorem reports_send (req : UpRequest) : Reports (send req) := by
  refine all_stops_op (fun r hr => ?_) fun r => ?_
  · cases r with
    | ok resp => cases hr
    | error x => exact congrArg Prog.raise (if_pos hr.2)
  · cases r with
    | ok resp => exact reports_ret resp
    | error x => exact reports_raise _

theorem reports_lock : Reports UpProg.lock :=
  all_stops_op (fun r hr => by cases hr) fun r => reports_ofExcept _

theorem reports_mintLocked : Reports mintLocked := by
  refine all_stops_bind (reports_send _) fun resp => ?_
  split
  · exact reports_raise _
  · refine all_stops_bind (reports_ofExcept _) fun body => ?_
    refine all_stops_bind (reports_ofExcept _) fun data => ?_
    refine all_stops_bind (reports_ofExcept _) fun token => ?_
    split
    · split
      · exact reports_raise _
      · exact all_stops_op (fun r hr => by cases hr) fun r => reports_ret _
    · exact reports_raise _

theorem reports_exchange (build : String → UpRequest) : Reports (exchange build) := by
  refine all_stops_bind ?_ fun token => all_stops_bind (reports_send _) fun resp =>
    all_stops_bind ?_ fun resp => ?_
  · refine all_stops_bind reports_lock fun _ => all_stops_op (fun r hr => by cases hr) fun r => ?_
    cases r with
    | some token => exact reports_ret token
    | none => exact reports_mintLocked
  · unfold replay
    split
    · refine all_stops_bind (all_stops_bind reports_lock fun _ => reports_mintLocked) ?_
      exact fun token => reports_send _
    · exact reports_ret resp
  · split
    · exact reports_raise _
    · exact reports_ofExcept _

theorem reports_clusterStatus (runAs : Option String) :
    Reports (ClusterState.json <$> clusterStatus runAs) := by
  refine all_stops_bind ?_ fun state => reports_ret _
  refine all_stops_bind (reports_exchange _) fun body => ?_
  refine all_stops_bind (reports_ofExcept _) fun data => ?_
  refine all_stops_bind (reports_ofExcept _) fun enabled => ?_
  refine all_stops_bind (reports_ofExcept _) fun running => ?_
  split
  · refine all_stops_bind (reports_exchange _) fun body => ?_
    refine all_stops_bind (reports_ofExcept _) fun data => ?_
    exact all_stops_bind (reports_ofExcept _) fun nodes => reports_ret _
  · exact reports_ret _

theorem reports_runActiveResponseOnGroup (groupName command : String)
    (customArgs : Option JsonObject) (runAs : Option String) :
    Reports (runActiveResponseOnGroup groupName command customArgs runAs) := by
  refine all_stops_bind (reports_exchange _) fun body => ?_
  refine all_stops_bind (reports_ofExcept _) fun ids => ?_
  split
  · exact reports_ret _
  · exact reports_exchange _

end ServerApiClient

end Stops

theorem Exn.isException_of_isTimeout {x : Exn} (h : x.isTimeout) : x.isException = true := by
  cases x with
  | exception name => rfl
  | _ => cases h

/-- A timeout is dealt with by the Server API client only. -/
theorem mappedTimeout_of_handled {reads : UpRequest → Json → Prop} {ev : UpEvent}
    (hhandled : Handled reads ev) (htimeout : TimedOut ev) : MappedTimeout ev := by
  obtain ⟨op, ans⟩ := ev
  cases op with
  | send req =>
    cases ans with
    | ok resp => cases htimeout
    | error x =>
      refine Or.resolve_left hhandled fun hbase => ?_
      rw [Exn.isException_of_isTimeout htimeout] at hbase
      cases hbase
  | _ => cases htimeout

/-! ## The contract, call by call -/

/-- **What a call runs** ends as it should exactly if all its events are dealt with, and reports
timeouts. -/
theorem accounts_program (call : ClientCall) (h : call.Admitted) :
    Accounts call.Reads IsObject call.program ∧ Reports call.program := by
  have hindexer (req : UpRequest) (hup : req.upstream = .indexer) (hreads : call.Reads req = IsObject) :
      Accounts call.Reads IsObject (IndexerClient.exchange req) ∧
        Reports (IndexerClient.exchange req) := by
    refine ⟨?_, reports_indexer hup⟩
    rw [← hreads]
    exact accounts_indexer hup
  have hmint : call.Reads ServerApiClient.mintRequest = HasData := if_pos ⟨rfl, rfl⟩
  have hexchange (build : String → UpRequest) (hup : ∀ jwt, (build jwt).upstream = .serverApi)
      (hreads : ∀ jwt, call.Reads (build jwt) = IsObject) :
      Accounts call.Reads IsObject (ServerApiClient.exchange build) ∧
        Reports (ServerApiClient.exchange build) :=
    ⟨ServerApiClient.accounts_exchange hmint hup hreads, ServerApiClient.reports_exchange build⟩
  cases call with
  | search index query =>
    rw [ClientCall.program, IndexerClient.search_eq, if_neg h]
    exact hindexer _ rfl rfl
  | bulk body => exact hindexer _ rfl rfl
  | putIndexTemplate name body =>
    rw [ClientCall.program, IndexerClient.putIndexTemplate, if_neg h]
    exact hindexer _ rfl rfl
  | runActiveResponseOnGroup groupName command customArgs runAs =>
    refine ⟨ServerApiClient.accounts_runActiveResponseOnGroup hmint ?_ ?_ _ _ _ _,
      ServerApiClient.reports_runActiveResponseOnGroup _ _ _ _⟩
    · intro req hbearer hget
      rw [ClientCall.Reads, if_neg fun h => hbearer h.2]
      exact if_pos hget
    · intro req hbearer hput
      rw [ClientCall.Reads, if_neg fun h => hbearer h.2]
      exact if_neg (by simp [hput])
  | clusterStatus runAs =>
    refine ⟨ServerApiClient.accounts_clusterStatus hmint (fun req => ?_) runAs,
      ServerApiClient.reports_clusterStatus runAs⟩
    exact ite_self HasData
  | _ => exact hexchange _ (fun _ => rfl) fun _ => rfl

/-- **A call of a client keeps to the contract** in exactly the runs whose events are all dealt with. -/
theorem scrubbed_iff_handled (call : ClientCall) (h : call.Admitted) :
    call.program.All fun tr out => Scrubbed tr out ↔ ∀ ev ∈ tr, Handled call.Reads ev := by
  obtain ⟨haccounts, hreports⟩ := accounts_program call h
  refine (All.and haccounts hreports).mono ?_
  rintro tr out ⟨hexact, hstops⟩
  constructor
  · intro hscrubbed
    exact hexact.mp hscrubbed.ends
  · intro hall
    refine ⟨hexact.mpr hall, ?_⟩
    rintro ⟨ev, hev, htimeout⟩
    exact hstops ⟨ev, hev, mappedTimeout_of_handled (hall ev hev) htimeout⟩

/-- A search for alerts. -/
def exampleSearch : ClientCall := .search "wazuh-alerts" (.obj [])

theorem safeName_exampleIndex : ClientCall.SafeName "wazuh-alerts" := by decide

theorem scrubbed_iff_handled_of_search :
    exampleSearch.Admitted ∧ exampleSearch.program.All fun tr out =>
      Scrubbed tr out ↔ ∀ ev ∈ tr, Handled exampleSearch.Reads ev :=
  have hadmitted : exampleSearch.Admitted := safeName_exampleIndex
  ⟨hadmitted, scrubbed_iff_handled exampleSearch hadmitted⟩

/-- The timeout of a search reaches the caller as the HTTP client raises it. -/
theorem not_scrubbed :
    ¬ ∀ call : ClientCall, call.Admitted → call.program.All Scrubbed := by
  intro h
  have hadmitted : exampleSearch.Admitted := safeName_exampleIndex
  have hrun := h exampleSearch hadmitted
  rw [exampleSearch, ClientCall.program, IndexerClient.search_eq, if_neg hadmitted] at hrun
  have hscrubbed := hrun (.error ⟨.exception "ReadTimeout", rfl⟩)
  exact not_safe_exception _ hscrubbed.ends

end WazuhMcp
