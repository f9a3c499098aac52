import WazuhMcp.Tools.Reference
import WazuhMcp.Tools.Search
import WazuhMcp.Tools.Write

/-!
# What the tools are put together by

Whatever a tool does upstream, it does through the calls of the two clients. What holds of these calls, and is
kept by sequencing (`Modular`), holds of every tool, and is proved of none of them by itself.

What is said of a program may depend on how many requests it may send. A search is one; a call to the Server API
is up to four, as both it and the authentication before it may have to be done twice.
-/

namespace WazuhMcp

open Interact

/-- What is said of programs of the clients, and of a number of requests that they may send, goes through
sequencing, and holds of the calls that read. -/
structure Modular (C : ℕ → ∀ ⦃α : Type⦄, UpProg α → Prop) : Prop where
  ret : ∀ {n : ℕ} {α : Type} (a : α), C n (.ret a)
  raise : ∀ {n : ℕ} {α : Type} (x : Exn), C n (.raise x : UpProg α)
  bind : ∀ {m n : ℕ} {α β : Type} {p : UpProg α} {f : α → UpProg β},
    C m p → (∀ a, C n (f a)) → C (m + n) (p >>= f)
  search : ∀ index query, C 1 (IndexerClient.search index query)
  get : ∀ path params runAs, C 4 (ServerApiClient.get path params runAs)

namespace Modular

variable {C : ℕ → ∀ ⦃α : Type⦄, UpProg α → Prop} (hC : Modular C) {session : Session} {n : ℕ} {α β : Type}
include hC

theorem ofExcept (out : Except Exn α) : C n (.ofExcept out) := by
  cases out with
  | ok a => exact hC.ret a
  | error x => exact hC.raise x

/-- The last of the requests, before the response is read. -/
theorem last {p : UpProg α} (hp : C n p) {f : α → UpProg β} (hf : ∀ a, C 0 (f a)) : C n (p >>= f) :=
  hC.bind hp hf

/-- What sends nothing, before what does. -/
theorem first {p : UpProg α} (hp : C 0 p) {f : α → UpProg β} (hf : ∀ a, C n (f a)) : C n (p >>= f) :=
  Nat.zero_add n ▸ hC.bind hp hf

/-- A computation that may fail, before what sends something. -/
theorem step (out : Except Exn α) {f : α → UpProg β} (hf : ∀ a, C n (f a)) : C n (Prog.ofExcept out >>= f) :=
  hC.first (hC.ofExcept out) hf

/-- A tool that makes one request and parses the response. -/
theorem parsed {p : UpProg Json} (hp : C n p) {parse : Json → Except Exn α} :
    C n (p >>= fun body => (parse body : UpProg α)) :=
  hC.last hp fun _ => hC.ofExcept _

theorem mapM {f : α → UpProg β} (hf : ∀ a, C 0 (f a)) (as : List α) : C 0 (as.mapM f) := by
  suffices hloop : ∀ acc, C 0 (List.mapM.loop f as acc) from hloop []
  induction as with
  | nil => exact fun acc => hC.ret _
  | cons a as ih => exact fun acc => hC.first (hf a) fun b => ih (b :: acc)

/-! ## Reading -/

theorem searchRows {Row : Type} {py : Pydantic} {index : String} {buildQuery : Except Exn Json}
    {fromHit : Json → Except Exn Row} {wantedSize : ℤ} :
    C 1 (searchRows py index buildQuery fromHit wantedSize) := by
  refine hC.step _ fun query => ?_
  exact hC.parsed (hC.search ..)

theorem getAlert (args : GetAlertArgs) : C 1 (getAlert args) := by
  refine hC.step _ fun query => ?_
  refine hC.last (hC.search ..) fun body => ?_
  refine hC.step _ fun hits => ?_
  refine hC.step _ fun hits => ?_
  split
  · exact hC.step _ fun first => hC.ofExcept _
  · exact hC.raise _

theorem pivotByIoc (py : Pydantic) (args : PivotByIocArgs) : C 1 (pivotByIoc py args) := by
  rw [WazuhMcp.pivotByIoc]
  split
  · exact hC.searchRows
  · exact hC.raise _

theorem listAgents (args : ListAgentsArgs) : C 4 (listAgents session args) := hC.parsed (hC.get ..)

theorem getAgent (args : GetAgentArgs) : C 4 (getAgent session args) := by
  refine hC.last (hC.get ..) fun body => ?_
  refine hC.step _ fun data => ?_
  refine hC.step _ fun items => ?_
  split
  · exact hC.step _ fun first => hC.ofExcept _
  · exact hC.raise _

theorem inventory (path : String) (args : AgentSubquery) : C 4 (inventory session path args) := by
  refine hC.last (hC.get ..) fun body => ?_
  refine hC.step _ fun data => ?_
  refine hC.step _ fun affected => ?_
  refine hC.step _ fun items => ?_
  refine hC.step _ fun total => ?_
  exact hC.step _ fun rows => hC.ret _

theorem getMitreTechnique (args : GetMitreTechniqueArgs) : C 4 (getMitreTechnique session args) := by
  refine hC.step _ fun _ => ?_
  refine hC.last (hC.get ..) fun body => ?_
  refine hC.step _ fun data => ?_
  refine hC.step _ fun items => ?_
  split
  · exact hC.step _ fun first => hC.ofExcept _
  · exact hC.raise _

theorem searchMitre (args : SearchMitreArgs) : C 4 (searchMitre session args) := by
  refine hC.step _ fun _ => ?_
  refine hC.last (hC.get ..) fun body => ?_
  refine hC.step _ fun data => ?_
  refine hC.step _ fun affected => ?_
  refine hC.step _ fun items => ?_
  refine hC.step _ fun total => ?_
  exact hC.step _ fun techs => hC.ret _

/-- The status of the cluster, and its nodes if there is a cluster. -/
theorem clusterState (runAs : Option String) : C 8 (ServerApiClient.clusterStatus runAs) := by
  refine hC.bind (m := 4) (n := 4) (hC.get ..) fun resp => ?_
  refine hC.step _ fun data => ?_
  refine hC.step _ fun enabled => ?_
  refine hC.step _ fun running => ?_
  split
  · refine hC.last (hC.get ..) fun resp => ?_
    refine hC.step _ fun data => ?_
    exact hC.step _ fun nodes => hC.ret _
  · exact hC.ret _

theorem clusterStatus : C 8 clusterStatus := by
  refine hC.last (hC.clusterState _) fun raw => ?_
  refine hC.step _ fun nodes => ?_
  exact hC.step _ fun rows => hC.ret _

/-! ## Writing -/

theorem uploadRule {ruleId : ℤ} {rule : RuleFields}
    (hput : ∀ xml, C 4 (ServerApiClient.uploadRuleFile (ruleFilename ruleId) xml session.wazuhUser)) :
    C 4 (uploadRule session ruleId rule) :=
  hC.last (hput _) fun _ => hC.ret _

theorem runActiveResponse {args : RunActiveResponseArgs} {arAllowlist : List String}
    (hput : ∀ params json, C 4 (ServerApiClient.put "/active-response" json params session.wazuhUser)) :
    C 4 (runActiveResponse session args arAllowlist) := by
  rw [WazuhMcp.runActiveResponse]
  split
  · exact hC.raise _
  · exact hC.parsed (hput ..)

/-- A group's active response reads the members of the group before. -/
theorem runActiveResponseOnGroup {args : RunActiveResponseOnGroupArgs} {arGroupAllowlist : List String}
    (hput : ∀ params json, C 4 (ServerApiClient.put "/active-response" json params session.wazuhUser)) :
    C 8 (runActiveResponseOnGroup session args arGroupAllowlist) := by
  rw [WazuhMcp.runActiveResponseOnGroup]
  split
  · exact hC.raise _
  · refine hC.parsed (hC.bind (m := 4) (n := 4) (hC.get ..) fun resp => ?_)
    refine hC.step _ fun agentIds => ?_
    split
    · exact hC.ret _
    · exact hput ..

/-- A restart reads the status of the cluster before. -/
theorem restartManager {args : RestartManagerArgs}
    (hput : ∀ scope, C 4 (ServerApiClient.restartCluster scope session.wazuhUser)) :
    C 12 (restartManager session args) := by
  refine hC.bind (m := 8) (n := 4) (hC.clusterState _) fun pre => ?_
  split
  · exact hC.raise _
  · refine hC.step _ fun nodes => ?_
    refine hC.first (hC.mapM (fun n => hC.ofExcept _) nodes) fun names => ?_
    refine hC.last (hput _) fun _ => ?_
    exact hC.step _ fun affected => hC.ret _

end Modular

end WazuhMcp
