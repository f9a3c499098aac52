import WazuhMcp.Wazuh.PoolSafety

/-!
# The clients of the stdio app

`build_app` makes its two clients itself: `_open_indexer` and `_open_server_api` look whether their holder
has one, and else await a user and a password from the secret store, construct the client and put it into
the holder. They do what the pools do, but for two things. `_open_server_api` derives the base URL from the
indexer's even if the tenant has a `server_api_url`. And there is no lock, so that two first calls at once
construct two clients.

So the two transports build the same clients, one of a kind for a tenant, exactly if the tenant has no
`server_api_url` that differs from the derived one, and no client is constructed while there is one in the
holder (`transports_agree_iff`).
-/

namespace WazuhMcp

/-! ## The openers -/

/-- An opener: the names of its secrets, and the base URL of its client. -/
structure ClientOpener where
  userSecret : String
  passwordSecret : String
  baseUrl : TenantSettings → String

/-- The client that the opener makes of the tenant's settings and secrets. -/
def ClientOpener.client (opener : ClientOpener) (tenant : TenantSettings) (user password : String) :
    HttpClient :=
  .new (opener.baseUrl tenant) user password tenant.verifyTls tenant.caBundlePath

/-- `_open_indexer` -/
def openIndexer : ClientOpener where
  userSecret := "indexer_user"
  passwordSecret := "indexer_password"
  baseUrl tenant := tenant.indexerUrl

/-- `_open_server_api` -/
def openServerApi : ClientOpener where
  userSecret := "server_api_user"
  passwordSecret := "server_api_password"
  baseUrl := deriveServerApiUrl

/-- The opener of a kind. -/
def PoolKind.opener : PoolKind → ClientOpener
  | .indexer => openIndexer
  | .serverApi => openServerApi

/-- Where a call of an opener stands. -/
inductive OpenPoint where
  /-- awaiting the user -/
  | fetchingUser
  /-- awaiting the password -/
  | fetchingPassword (user : String)
  /-- returned a client, by its number, or raised -/
  | ended (out : Except Exn ℕ)

/-- The state of an opener: its holder, its calls, the clients that it has constructed, by their numbers,
and what the secret store has answered. -/
structure OpenerState where
  holder : Option ℕ
  calls : List OpenPoint
  made : List HttpClient
  answers : List SecretAnswer

namespace OpenerState

/-- No call has begun. -/
def new : OpenerState := ⟨none, [], [], []⟩

/-- A call comes to a point. -/
def setPoint (st : OpenerState) (i : ℕ) (point : OpenPoint) : OpenerState :=
  { st with calls := st.calls.set i point }

/-- The secret store answers. -/
def answer (st : OpenerState) (tenantId name value : String) : OpenerState :=
  { st with answers := st.answers ++ [⟨tenantId, name, value⟩] }

/-- A call constructs the client, puts it into the holder, and returns it. -/
def construct (st : OpenerState) (i : ℕ) (client : HttpClient) : OpenerState :=
  let k := st.made.length
  { st.setPoint i (.ended (.ok k)) with made := st.made ++ [client], holder := some k }

end OpenerState

/-- A step of a call of an opener: it looks into the holder, is answered by the secret store or by its
cancellation while it awaits it, and constructs the client or fails to. -/
inductive OpenAction where
  | call
  | userFetched (i : ℕ) (user : Except Exn String)
  | passwordFetched (i : ℕ) (password : Except Exn String) (constructed : Except Exn Unit)

/-- One step; a step that is not enabled changes nothing. -/
def OpenerState.step (opener : ClientOpener) (tenant : TenantSettings) (st : OpenerState) :
    OpenAction → OpenerState
  | .call =>
    match st.holder with
    | some k => { st with calls := st.calls ++ [.ended (.ok k)] }
    | none => { st with calls := st.calls ++ [.fetchingUser] }
  | .userFetched i user =>
    match st.calls[i]? with
    | some .fetchingUser =>
      match user with
      | .error x => st.setPoint i (.ended (.error x))
      | .ok user =>
        (st.answer tenant.tenantId opener.userSecret user).setPoint i (.fetchingPassword user)
    | _ => st
  | .passwordFetched i password constructed =>
    match st.calls[i]? with
    | some (.fetchingPassword user) =>
      match password with
      | .error x => st.setPoint i (.ended (.error x))
      | .ok password =>
        let st := st.answer tenant.tenantId opener.passwordSecret password
        match constructed with
        | .error x => st.setPoint i (.ended (.error x))
        | .ok () => st.construct i (opener.client tenant user password)
    | _ => st

/-! ## What a step does -/

variable {opener : ClientOpener} {tenant : TenantSettings} {st st' : OpenerState} {a : OpenAction}

/-- What a step of an opener may do. -/
inductive OpenEffect (opener : ClientOpener) (tenant : TenantSettings) (st : OpenerState) :
    OpenAction → OpenerState → Prop
  | held {k : ℕ} (hholder : st.holder = some k) :
      OpenEffect opener tenant st .call { st with calls := st.calls ++ [.ended (.ok k)] }
  | begun (hholder : st.holder = none) :
      OpenEffect opener tenant st .call { st with calls := st.calls ++ [.fetchingUser] }
  | userFetched {i : ℕ} {user : String} :
      OpenEffect opener tenant st (.userFetched i (.ok user))
        ((st.answer tenant.tenantId opener.userSecret user).setPoint i (.fetchingPassword user))
  | failed {a : OpenAction} {i : ℕ} {x : Exn} (answers : List SecretAnswer) :
      OpenEffect opener tenant st a
        ({ st with answers := st.answers ++ answers }.setPoint i (.ended (.error x)))
  | constructed {i : ℕ} {user password : String} (hcall : st.calls[i]? = some (.fetchingPassword user)) :
      OpenEffect opener tenant st (.passwordFetched i (.ok password) (.ok ()))
        ((st.answer tenant.tenantId opener.passwordSecret password).construct i
          (opener.client tenant user password))
  | idle {a : OpenAction} : OpenEffect opener tenant st a st

variable (opener tenant) in
/-- **What a step of an opener does** is one of these. -/
theorem openStep_effect (st : OpenerState) (a : OpenAction) :
    OpenEffect opener tenant st a (st.step opener tenant a) := by
  cases a with
  | call =>
    unfold OpenerState.step
    dsimp only
    split
    · rename_i k hholder
      exact .held hholder
    · rename_i hholder
      exact .begun hholder
  | userFetched i user =>
    unfold OpenerState.step
    dsimp only
    split
    · cases user with
      | error x => simpa using OpenEffect.failed []
      | ok user => exact .userFetched
    · exact .idle
  | passwordFetched i password constructed =>
    unfold OpenerState.step
    dsimp only
    split
    · rename_i user hcall
      cases password with
      | error x => simpa using OpenEffect.failed []
      | ok password =>
        cases constructed with
        | error x => exact .failed _
        | ok built => exact .constructed hcall
    · exact .idle

/-! ## The invariant -/

/-- A call has returned the client. -/
def OpenerState.Returned (st : OpenerState) (k : ℕ) : Prop := .ended (.ok k) ∈ st.calls

/-- The client was made of the tenant's own settings and secrets. -/
def OpenedWith (opener : ClientOpener) (tenant : TenantSettings) (answers : List SecretAnswer)
    (client : HttpClient) : Prop :=
  ∃ user password, ⟨tenant.tenantId, opener.userSecret, user⟩ ∈ answers ∧
    ⟨tenant.tenantId, opener.passwordSecret, password⟩ ∈ answers ∧
    client = opener.client tenant user password

/-- The invariant of an opener. -/
structure OpenerInv (opener : ClientOpener) (tenant : TenantSettings) (st : OpenerState) : Prop where
  holder : st.holder = none ↔ st.made = []
  known : ∀ k, st.holder = some k ∨ st.Returned k → k < st.made.length
  asked : ∀ user, .fetchingPassword user ∈ st.calls →
    ⟨tenant.tenantId, opener.userSecret, user⟩ ∈ st.answers
  made : ∀ client ∈ st.made, OpenedWith opener tenant st.answers client

theorem OpenerInv.new : OpenerInv opener tenant .new where
  holder := ⟨fun _ => rfl, fun _ => rfl⟩
  known k h := by
    rcases h with h | h
    · cases h
    · cases h
  asked user h := by cases h
  made client h := by cases h

theorem OpenedWith.mono {answers answers' : List SecretAnswer} {client : HttpClient}
    (h : OpenedWith opener tenant answers client) (hanswers : ∀ ans ∈ answers, ans ∈ answers') :
    OpenedWith opener tenant answers' client := by
  obtain ⟨user, password, huser, hpassword, hclient⟩ := h
  exact ⟨user, password, hanswers _ huser, hanswers _ hpassword, hclient⟩

/-- What a step that constructs no client has to show. -/
theorem OpenerInv.of_calls (h : OpenerInv opener tenant st) (hholder : st'.holder = st.holder)
    (hmade : st'.made = st.made) (hanswers : ∀ ans ∈ st.answers, ans ∈ st'.answers)
    (hreturned : ∀ k, st'.Returned k → st.holder = some k ∨ st.Returned k)
    (hasked : ∀ user, .fetchingPassword user ∈ st'.calls →
      .fetchingPassword user ∈ st.calls ∨ ⟨tenant.tenantId, opener.userSecret, user⟩ ∈ st'.answers) :
    OpenerInv opener tenant st' where
  holder := by
    rw [hholder, hmade]
    exact h.holder
  known k hk := by
    rw [hmade]
    rw [hholder] at hk
    exact h.known k (hk.elim .inl (hreturned k))
  asked user huser := (hasked user huser).elim (fun huser => hanswers _ (h.asked user huser)) id
  made client hclient := by
    rw [hmade] at hclient
    exact (h.made client hclient).mono hanswers

/-- **What a step preserves.** -/
theorem OpenerInv.step (h : OpenerInv opener tenant st) (a : OpenAction) :
    OpenerInv opener tenant (st.step opener tenant a) := by
  have heffect := openStep_effect opener tenant st a
  generalize st.step opener tenant a = st' at heffect
  cases heffect with
  | held hholder =>
    refine h.of_calls rfl rfl (fun _ h => h) (fun k hk => ?_) fun user huser => ?_
    · rcases List.mem_append.mp hk with hk | hk
      · exact .inr hk
      · cases List.mem_singleton.mp hk
        exact .inl hholder
    · rcases List.mem_append.mp huser with huser | huser
      · exact .inl huser
      · cases List.mem_singleton.mp huser
  | begun hholder =>
    refine h.of_calls rfl rfl (fun _ h => h) (fun k hk => ?_) fun user huser => ?_
    · rcases List.mem_append.mp hk with hk | hk
      · exact .inr hk
      · cases List.mem_singleton.mp hk
    · rcases List.mem_append.mp huser with huser | huser
      · exact .inl huser
      · cases List.mem_singleton.mp huser
  | userFetched =>
    refine h.of_calls rfl rfl (fun _ h => List.mem_append_left _ h) (fun k hk => ?_) fun user huser => ?_
    · rcases List.mem_or_eq_of_mem_set hk with hk | hk
      · exact .inr hk
      · cases hk
    · rcases List.mem_or_eq_of_mem_set huser with huser | huser
      · exact .inl huser
      · cases huser
        exact .inr (List.mem_append_right _ List.mem_cons_self)
  | failed answers =>
    refine h.of_calls rfl rfl (fun _ h => List.mem_append_left _ h) (fun k hk => ?_) fun user huser => ?_
    · rcases List.mem_or_eq_of_mem_set hk with hk | hk
      · exact .inr hk
      · cases hk
    · rcases List.mem_or_eq_of_mem_set huser with huser | huser
      · exact .inl huser
      · cases huser
  | @constructed i user password hcall =>
    have huser := h.asked user (List.mem_of_getElem? hcall)
    constructor
    · exact iff_of_false (fun hnone => by cases hnone) (List.append_ne_nil_of_right_ne_nil _ (by simp))
    · intro k hk
      show k < (st.made ++ [_]).length
      rw [List.length_append, List.length_singleton]
      rcases hk with hk | hk
      · cases hk
        exact Nat.lt_succ_self _
      · rcases List.mem_or_eq_of_mem_set hk with hk | hk
        · exact Nat.lt_succ_of_lt (h.known k (.inr hk))
        · cases hk
          exact Nat.lt_succ_self _
    · intro user' huser'
      rcases List.mem_or_eq_of_mem_set huser' with huser' | huser'
      · exact List.mem_append_left _ (h.asked user' huser')
      · cases huser'
    · intro client hclient
      rcases List.mem_append.mp hclient with hclient | hclient
      · exact (h.made client hclient).mono fun _ h => List.mem_append_left _ h
      · cases List.mem_singleton.mp hclient
        exact ⟨user, password, List.mem_append_left _ huser, List.mem_append_right _ List.mem_cons_self, rfl⟩
  | idle => exact h

/-- **The invariant holds after every run.** -/
theorem OpenerInv.exec (acts : List OpenAction) :
    OpenerInv opener tenant (Runs.exec (OpenerState.step opener tenant) .new acts) :=
  Runs.exec_invariant .new (fun _ a h => h.step a) acts

/-! ## One client -/

/-- One client at most is constructed, and all calls that return a client return the same. -/
def OpenerState.OneClient (st : OpenerState) : Prop :=
  st.made.length ≤ 1 ∧ ∀ k k', st.Returned k → st.Returned k' → k = k'

/-- If the step constructs a client, there is none in the holder. -/
def ConstructsFirst (st : OpenerState) (a : OpenAction) : Prop :=
  ∀ i user password, a = .passwordFetched i (.ok password) (.ok ()) →
    st.calls[i]? = some (.fetchingPassword user) → st.holder = none

theorem OpenerInv.oneClient_iff (h : OpenerInv opener tenant st) :
    st.OneClient ↔ st.made.length ≤ 1 := by
  refine ⟨And.left, fun hone => ⟨hone, fun k k' hk hk' => ?_⟩⟩
  have hlt := h.known k (.inr hk)
  have hlt' := h.known k' (.inr hk')
  omega

/-- A step leaves one client exactly if there was one at most, and it constructs none besides. -/
theorem length_made_step (h : OpenerInv opener tenant st) (a : OpenAction) :
    (st.step opener tenant a).made.length ≤ 1 ↔ st.made.length ≤ 1 ∧ ConstructsFirst st a := by
  by_cases hconstructs : ∃ i user password, a = .passwordFetched i (.ok password) (.ok ()) ∧
      st.calls[i]? = some (.fetchingPassword user)
  · obtain ⟨i, user, password, rfl, hcall⟩ := hconstructs
    have hmade : (st.step opener tenant (.passwordFetched i (.ok password) (.ok ()))).made =
        st.made ++ [opener.client tenant user password] := by
      simp [OpenerState.step, hcall, OpenerState.construct, OpenerState.answer]
    have hfirst : ConstructsFirst st (.passwordFetched i (.ok password) (.ok ())) ↔ st.made = [] := by
      rw [← h.holder]
      exact ⟨fun hfirst => hfirst i user password rfl hcall, fun hnone _ _ _ _ _ => hnone⟩
    rw [hmade, hfirst, List.length_append, List.length_singleton, ← List.length_eq_zero_iff]
    omega
  · have hmade : (st.step opener tenant a).made = st.made := by
      have heffect := openStep_effect opener tenant st a
      generalize st.step opener tenant a = st' at heffect
      cases heffect with
      | constructed hcall => exact absurd ⟨_, _, _, rfl, hcall⟩ hconstructs
      | _ => rfl
    rw [hmade]
    exact ⟨fun hone => ⟨hone, fun i user password ha hcall =>
      absurd ⟨i, user, password, ha, hcall⟩ hconstructs⟩, And.left⟩

/-- **One client** is constructed exactly if no client is while there is one in the holder. -/
theorem oneClient_iff (acts : List OpenAction) :
    (Runs.exec (OpenerState.step opener tenant) .new acts).OneClient ↔
      Runs.EachStep (OpenerState.step opener tenant) ConstructsFirst .new acts := by
  rw [(OpenerInv.exec acts).oneClient_iff]
  exact @Runs.exec_iff_eachStep_within _ _ _ _ _ (OpenerInv opener tenant)
    (fun st => st.made.length ≤ 1) (fun _ _ => True) acts .new (Nat.zero_le _)
    (fun _ a h _ => h.step a) (fun _ a h _ => length_made_step h a) fun _ _ _ _ => trivial

/-! ## The two transports -/

/-- The opener and the pool make the same client of the tenant's settings and secrets. -/
structure SameClient (kind : PoolKind) (tenant : TenantSettings) : Prop where
  userSecret : kind.opener.userSecret = kind.pool.userSecret
  passwordSecret : kind.opener.passwordSecret = kind.pool.passwordSecret
  client : ∀ user password, kind.opener.client tenant user password = kind.pool.client tenant user password

/-- One client at most is constructed for a tenant, and all calls for it that return a client return the
same. -/
def PoolState.OneClientEach (st : PoolState) : Prop :=
  (st.made.map MadeClient.tenantId).Nodup ∧
    ∀ t k k', st.Returned t k → st.Returned t k' → k = k'

/-- The two transports build the same clients for the tenant, of its own settings and secrets, and one of a
kind each. -/
structure TransportsAgree (tenant : TenantSettings) (registry : SettingsRegistry)
    (pools : PoolKind → PoolState) (openers : PoolKind → OpenerState) : Prop where
  same : ∀ kind, SameClient kind tenant
  onePerTenant : ∀ kind, (pools kind).OneClientEach
  oneClient : ∀ kind, (openers kind).OneClient
  built : ∀ kind, ∀ m ∈ (pools kind).made, Built kind.pool registry (pools kind).answers m
  opened : ∀ kind, ∀ client ∈ (openers kind).made,
    OpenedWith kind.opener tenant (openers kind).answers client

/-- The `server_api_url`, if there is one, is the derived one but for slashes at its end. -/
def DerivedUrl (tenant : TenantSettings) : Prop :=
  ∀ url, tenant.serverApiUrl = some url →
    Text.rstrip (· == '/') url = Text.rstrip (· == '/') (deriveServerApiUrl tenant)

theorem sameClient_indexer (tenant : TenantSettings) : SameClient .indexer tenant := ⟨rfl, rfl, fun _ _ => rfl⟩

theorem sameClient_serverApi_iff : SameClient .serverApi tenant ↔ DerivedUrl tenant := by
  have hclient (user password : String) :
      openServerApi.client tenant user password = serverApiClientPool.client tenant user password ↔
        DerivedUrl tenant := by
    unfold DerivedUrl ClientOpener.client ClientPool.client openServerApi serverApiClientPool HttpClient.new
    cases hurl : tenant.serverApiUrl with
    | none => simp [hurl]
    | some url =>
      simp only [hurl, HttpClient.mk.injEq, and_true, Text.rstrip_idem, Option.some.injEq, forall_eq']
      exact eq_comm
  constructor
  · intro h
    exact (hclient "" "").mp (h.client "" "")
  · intro h
    exact ⟨rfl, rfl, fun user password => (hclient user password).mpr h⟩

theorem PoolInv.oneClientEach {pool : ClientPool} {registry : SettingsRegistry} {st : PoolState}
    (h : PoolInv pool registry st) : st.OneClientEach := by
  refine ⟨h.nodup, fun t k k' hk hk' => ?_⟩
  have hget := h.get_of_returned hk
  rw [h.get_of_returned hk'] at hget
  exact (Option.some.inj hget).symm

/-- **The two transports build the same clients**, one of a kind for a tenant, exactly if the tenant has no
`server_api_url` but the derived one, and no opener constructs a client while it holds one. -/
theorem transports_agree_iff (tenant : TenantSettings) (registry : SettingsRegistry)
    (http : PoolKind → List AcquireAction) (stdio : PoolKind → List OpenAction) :
    TransportsAgree tenant registry
        (fun kind => Runs.exec (PoolState.acquireStep kind.pool registry) .new (http kind))
        (fun kind => Runs.exec (OpenerState.step kind.opener tenant) .new (stdio kind)) ↔
      DerivedUrl tenant ∧ ∀ kind,
        Runs.EachStep (OpenerState.step kind.opener tenant) ConstructsFirst .new (stdio kind) := by
  constructor
  · intro h
    exact ⟨sameClient_serverApi_iff.mp (h.same .serverApi), fun kind => (oneClient_iff _).mp (h.oneClient kind)⟩
  · rintro ⟨hurl, hfirst⟩
    refine ⟨fun kind => ?_, fun kind => (PoolInv.exec _).oneClientEach,
      fun kind => (oneClient_iff _).mpr (hfirst kind), fun kind => (PoolInv.exec _).built,
      fun kind => (OpenerInv.exec _).made⟩
    cases kind with
    | indexer => exact sameClient_indexer tenant
    | serverApi => exact sameClient_serverApi_iff.mpr hurl

/-- Two managers behind one host: the tenant names its own. -/
def overridingTenant : TenantSettings where
  tenantId := "acme"
  defaultRbacRole := "analyst"
  indexerUrl := "https://wazuh:9200/"
  serverApiUrl := some "https://manager:55000/"

/-- For a tenant with a `server_api_url` of its own, the transports talk to different servers. -/
theorem transports_differ :
    ¬ ∀ (tenant : TenantSettings) (registry : SettingsRegistry) (http : PoolKind → List AcquireAction)
      (stdio : PoolKind → List OpenAction), TransportsAgree tenant registry
        (fun kind => Runs.exec (PoolState.acquireStep kind.pool registry) .new (http kind))
        (fun kind => Runs.exec (OpenerState.step kind.opener tenant) .new (stdio kind)) := by
  intro h
  have hsame := (h overridingTenant (.single overridingTenant) (fun _ => []) fun _ => []).same .serverApi
  have hurl := congrArg HttpClient.baseUrl (hsame.client "admin" "secret")
  revert hurl
  decide +kernel

end WazuhMcp
