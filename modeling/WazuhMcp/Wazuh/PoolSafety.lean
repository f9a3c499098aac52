import WazuhMcp.Wazuh.ClientPools

/-!
# The safety of the client pools

A call that has looked into the map holds the lock until it has stored its client, and no other stores one
meanwhile. So one client at most is constructed for a tenant, with the tenant's own URL, TLS settings and
secrets (`ClientOf`), and all calls for the tenant return it; a call that fails leaves the pool as it was
(`pools_safe`).

The invariant (`PoolInv`) ties the lock to the call that is inside it, the map to the clients that have been
constructed, and each call to what it has found out so far.
-/

namespace WazuhMcp

variable {pool : ClientPool} {registry : SettingsRegistry} {st st' : PoolState} {a : AcquireAction}

/-! ## The invariant -/

/-- The settings that a call goes by, once it has them. -/
def AcquirePoint.tenant : AcquirePoint → Option TenantSettings
  | .fetchingUser tenant => some tenant
  | .fetchingPassword tenant _ => some tenant
  | _ => none

/-- The client was made of the tenant's own settings and secrets. -/
def Built (pool : ClientPool) (registry : SettingsRegistry) (answers : List SecretAnswer)
    (m : MadeClient) : Prop :=
  ∃ tenant user password, registry.find? m.tenantId = some tenant ∧
    ⟨m.tenantId, pool.userSecret, user⟩ ∈ answers ∧
    ⟨m.tenantId, pool.passwordSecret, password⟩ ∈ answers ∧
    m.client = pool.client tenant user password

/-- What holds of a call of `acquire` in a pool. -/
structure CallOk (pool : ClientPool) (registry : SettingsRegistry) (st : PoolState) (c : AcquireCall) :
    Prop where
  fetching : ∀ tenant, c.point.tenant = some tenant →
    registry.find? c.tenantId = some tenant ∧ st.clients.get c.tenantId = none
  asked : ∀ tenant user, c.point = .fetchingPassword tenant user →
    ⟨c.tenantId, pool.userSecret, user⟩ ∈ st.answers
  ended : ∀ k, c.point = .ended (.ok k) → st.clients.get c.tenantId = some k

/-- The invariant of a pool that is not closed. -/
structure PoolInv (pool : ClientPool) (registry : SettingsRegistry) (st : PoolState) : Prop where
  holder : ∀ i, st.lock = some (.call i) ↔ ∃ c, st.calls[i]? = some c ∧ c.point.holding = true
  stored : ∀ t k, st.clients.get t = some k ↔ ∃ m, st.made[k]? = some m ∧ m.tenantId = t
  calls : ∀ c ∈ st.calls, CallOk pool registry st c
  built : ∀ m ∈ st.made, Built pool registry st.answers m

theorem PoolInv.new : PoolInv pool registry .new where
  holder i := by simp [PoolState.new]
  stored t k := by simp [PoolState.new]
  calls c hc := by cases hc
  built m hm := by cases hm

/-- A call that awaits the lock, or has raised. -/
theorem CallOk.of_idle {t : String} {p : AcquirePoint} (htenant : p.tenant = none)
    (hended : ∀ k, p ≠ .ended (.ok k)) : CallOk pool registry st ⟨t, p⟩ where
  fetching tenant h := by
    rw [show AcquirePoint.tenant p = some tenant from h] at htenant
    cases htenant
  asked tenant user h := by
    rw [show p = .fetchingPassword tenant user from h] at htenant
    cases htenant
  ended k h := absurd h (hended k)

theorem CallOk.of_ended {t : String} {k : ℕ} (hget : st.clients.get t = some k) :
    CallOk pool registry st ⟨t, .ended (.ok k)⟩ where
  fetching tenant h := by cases h
  asked tenant user h := by cases h
  ended k' h := by
    cases h
    exact hget

/-- A call that is not concerned stays as it should be. -/
theorem CallOk.mono {c : AcquireCall} (h : CallOk pool registry st c) (hclients : st'.clients = st.clients)
    (hanswers : ∀ ans ∈ st.answers, ans ∈ st'.answers) : CallOk pool registry st' c where
  fetching tenant htenant := by
    rw [hclients]
    exact h.fetching tenant htenant
  asked tenant user hpoint := hanswers _ (h.asked tenant user hpoint)
  ended k hpoint := by
    rw [hclients]
    exact h.ended k hpoint

theorem Built.mono {answers answers' : List SecretAnswer} {m : MadeClient}
    (h : Built pool registry answers m) (hanswers : ∀ ans ∈ answers, ans ∈ answers') :
    Built pool registry answers' m := by
  obtain ⟨tenant, user, password, htenant, huser, hpassword, hclient⟩ := h
  exact ⟨tenant, user, password, htenant, hanswers _ huser, hanswers _ hpassword, hclient⟩

namespace PoolInv

/-- Two calls that hold the lock are one. -/
theorem holder_unique (h : PoolInv pool registry st) {i j : ℕ} {c d : AcquireCall}
    (hi : st.calls[i]? = some c) (hj : st.calls[j]? = some d) (hc : c.point.holding = true)
    (hd : d.point.holding = true) : i = j := by
  have hlock := (h.holder i).mpr ⟨c, hi, hc⟩
  have hlock' := (h.holder j).mpr ⟨d, hj, hd⟩
  rw [hlock] at hlock'
  exact LockHolder.call.inj (Option.some.inj hlock')

/-- A call that begins does not touch the lock. -/
theorem holder_addCall (h : PoolInv pool registry st) {t : String} {p : AcquirePoint}
    (hp : p.holding = false) (i : ℕ) :
    st.lock = some (.call i) ↔
      ∃ c, (st.addCall t p).calls[i]? = some c ∧ c.point.holding = true := by
  rw [h.holder i]
  constructor
  · rintro ⟨c, hc, hholding⟩
    exact ⟨c, by simp [PoolState.addCall, List.getElem?_append_left (List.getElem?_eq_some_iff.mp hc).1, hc],
      hholding⟩
  · rintro ⟨c, hc, hholding⟩
    rcases Calls.get_append_cases hc with hold | ⟨-, rfl⟩
    · exact ⟨c, hold, hholding⟩
    · rw [hp] at hholding
      cases hholding

/-- Where a call comes to a point, the calls that hold the lock are the others that do, and it if it
does. -/
theorem holding_setPoint {i : ℕ} {c : AcquireCall} {p : AcquirePoint} (hcall : st.calls[i]? = some c)
    (t : String) (j : ℕ) :
    (∃ d, (st.setPoint i t p).calls[j]? = some d ∧ d.point.holding = true) ↔
      i = j ∧ p.holding = true ∨ i ≠ j ∧ ∃ d, st.calls[j]? = some d ∧ d.point.holding = true := by
  constructor
  · rintro ⟨d, hd, hholding⟩
    rcases Calls.get_set_cases hd with ⟨rfl, rfl⟩ | ⟨hij, hd⟩
    · exact .inl ⟨rfl, hholding⟩
    · exact .inr ⟨hij, d, hd, hholding⟩
  · rintro (⟨rfl, hholding⟩ | ⟨hij, d, hd, hholding⟩)
    · exact ⟨_, List.getElem?_set_self (List.getElem?_eq_some_iff.mp hcall).1, hholding⟩
    · exact ⟨d, by rw [PoolState.setPoint, List.getElem?_set_ne hij]; exact hd, hholding⟩

/-- What a step that leaves the map and the clients alone has to show. -/
theorem of_calls (h : PoolInv pool registry st) (hclients : st'.clients = st.clients)
    (hmade : st'.made = st.made) (hanswers : ∀ ans ∈ st.answers, ans ∈ st'.answers)
    (hholder : ∀ i, st'.lock = some (.call i) ↔
      ∃ c, st'.calls[i]? = some c ∧ c.point.holding = true)
    (hcalls : ∀ c ∈ st'.calls, c ∈ st.calls ∨ CallOk pool registry st' c) :
    PoolInv pool registry st' where
  holder := hholder
  stored t k := by
    rw [hclients, hmade]
    exact h.stored t k
  calls c hc := (hcalls c hc).elim (fun hc => (h.calls c hc).mono hclients hanswers) id
  built m hm := by
    rw [hmade] at hm
    exact (h.built m hm).mono hanswers

theorem addCall (h : PoolInv pool registry st) {t : String} {p : AcquirePoint}
    (hp : p.holding = false) (hcall : CallOk pool registry st ⟨t, p⟩) :
    PoolInv pool registry (st.addCall t p) := by
  refine h.of_calls rfl rfl (fun _ h => h) (h.holder_addCall hp) fun c hc => ?_
  rcases List.mem_append.mp hc with hc | hc
  · exact .inl hc
  · obtain rfl := List.mem_singleton.mp hc
    exact .inr (hcall.mono rfl fun _ h => h)

/-- A call that awaited the lock ends without it. -/
theorem endWaiting (h : PoolInv pool registry st) {i : ℕ} {t : String} {p : AcquirePoint}
    (hcall : st.calls[i]? = some ⟨t, .waiting⟩) (hp : p.holding = false)
    (hok : CallOk pool registry st ⟨t, p⟩) : PoolInv pool registry (st.setPoint i t p) := by
  refine h.of_calls rfl rfl (fun _ h => h) (fun j => ?_) fun c hc => ?_
  · rw [holding_setPoint hcall, show (st.setPoint i t p).lock = st.lock from rfl, h.holder j]
    constructor
    · rintro ⟨d, hd, hholding⟩
      refine .inr ⟨?_, d, hd, hholding⟩
      rintro rfl
      rw [hcall] at hd
      cases hd
      cases hholding
    · rintro (⟨-, hholding⟩ | ⟨-, hd⟩)
      · rw [hp] at hholding
        cases hholding
      · exact hd
  · rcases List.mem_or_eq_of_mem_set hc with hc | rfl
    · exact .inl hc
    · exact .inr (hok.mono rfl fun _ h => h)

/-- While a call holds the lock, no other does. -/
theorem others_waiting (h : PoolInv pool registry st) {i j : ℕ} {c : AcquireCall}
    (hcall : st.calls[i]? = some c) (hholding : c.point.holding = true) (hij : i ≠ j) :
    ¬ ∃ d, st.calls[j]? = some d ∧ d.point.holding = true :=
  fun ⟨_, hd, hd'⟩ => hij (h.holder_unique hcall hd hholding hd')

/-- A call that holds the lock ends, and frees it. -/
theorem holder_free (h : PoolInv pool registry st) {i : ℕ} {c : AcquireCall} {t : String}
    {p : AcquirePoint} (hcall : st.calls[i]? = some c) (hholding : c.point.holding = true)
    (hp : p.holding = false) (j : ℕ) :
    none = some (LockHolder.call j) ↔
      ∃ d, (st.setPoint i t p).calls[j]? = some d ∧ d.point.holding = true := by
  rw [holding_setPoint hcall]
  constructor
  · intro hnone
    cases hnone
  · rintro (⟨-, hheld⟩ | ⟨hij, hd⟩)
    · rw [hp] at hheld
      cases hheld
    · exact absurd hd (h.others_waiting hcall hholding hij)

/-- A client that is new in the map is the last that has been constructed. -/
theorem stored_construct (h : PoolInv pool registry st) {t : String} (hnone : st.clients.get t = none)
    (client : HttpClient) (t' : String) (k : ℕ) :
    (st.clients.set t st.made.length).get t' = some k ↔
      ∃ m, (st.made ++ [⟨t, client⟩])[k]? = some m ∧ m.tenantId = t' := by
  rw [Dict.get_set, List.getElem?_append]
  by_cases hlt : k < st.made.length
  · rw [if_pos hlt, ← h.stored t' k]
    by_cases ht : t' = t
    · subst ht
      rw [if_pos rfl, hnone, Option.some.injEq]
      exact iff_of_false (by omega) fun hk => by cases hk
    · rw [if_neg ht]
  · rw [if_neg hlt]
    have hnot : st.clients.get t' ≠ some k := fun hget => by
      obtain ⟨m, hm, -⟩ := (h.stored t' k).mp hget
      exact hlt (List.getElem?_eq_some_iff.mp hm).1
    constructor
    · split
      · rename_i ht
        intro hk
        obtain rfl := Option.some.inj hk
        exact ⟨_, by rw [Nat.sub_self]; rfl, ht.symm⟩
      · exact fun hget => absurd hget hnot
    · rintro ⟨m, hm, rfl⟩
      have hlen := (List.getElem?_eq_some_iff.mp hm).1
      rw [List.length_singleton] at hlen
      have hk : k - st.made.length = 0 := by omega
      rw [hk] at hm
      obtain rfl := Option.some.inj hm
      rw [if_pos rfl, Option.some.injEq]
      omega

/-- **What a step preserves.** -/
theorem step (h : PoolInv pool registry st) (a : AcquireAction) :
    PoolInv pool registry (st.acquireStep pool registry a) := by
  have heffect := acquireStep_effect pool registry st a
  generalize st.acquireStep pool registry a = st' at heffect
  cases heffect with
  | begun => exact h.addCall rfl (.of_idle rfl fun k hk => by cases hk)
  | hit hget => exact h.addCall rfl (.of_ended hget)
  | found hcall hget => exact h.endWaiting hcall rfl (.of_ended hget)
  | refused hcall => exact h.endWaiting hcall rfl (.of_idle rfl fun k hk => by cases hk)
  | @entered i t tenant hcall hlock hopen hget htenant =>
    refine h.of_calls rfl rfl (fun _ h => h) (fun j => ?_) fun c hc => ?_
    · have hfree : ¬ ∃ d, st.calls[j]? = some d ∧ d.point.holding = true := by
        rw [← h.holder j, hlock]
        exact fun hnone => by cases hnone
      show some (LockHolder.call i) = some (LockHolder.call j) ↔ _
      rw [Option.some.injEq, LockHolder.call.injEq]
      refine ⟨fun hij => (holding_setPoint hcall t j).mpr (.inl ⟨hij, rfl⟩), fun hheld => ?_⟩
      rcases (holding_setPoint hcall t j).mp hheld with ⟨hij, -⟩ | ⟨-, hd⟩
      · exact hij
      · exact absurd hd hfree
    · rcases List.mem_or_eq_of_mem_set hc with hc | rfl
      · exact .inl hc
      · right
        constructor
        · intro tenant' htenant'
          obtain rfl : tenant = tenant' := Option.some.inj htenant'
          exact ⟨htenant, hget⟩
        · intro tenant' user hpoint
          cases hpoint
        · intro k hpoint
          cases hpoint
  | @userFetched i t tenant user hcall =>
    have hok := h.calls _ (List.mem_of_getElem? hcall)
    have hanswered : (st.answer t pool.userSecret user).calls[i]? = some ⟨t, _⟩ := hcall
    refine h.of_calls rfl rfl (fun _ h => List.mem_append_left _ h) (fun j => ?_) fun c hc => ?_
    · show st.lock = some (LockHolder.call j) ↔ _
      rw [h.holder j]
      refine Iff.trans ?_ (holding_setPoint hanswered t j).symm
      constructor
      · rintro ⟨d, hd, hholding⟩
        by_cases hij : i = j
        · exact .inl ⟨hij, rfl⟩
        · exact .inr ⟨hij, d, hd, hholding⟩
      · rintro (⟨rfl, -⟩ | ⟨-, hd⟩)
        · exact ⟨_, hcall, rfl⟩
        · exact hd
    · rcases List.mem_or_eq_of_mem_set hc with hc | rfl
      · exact .inl hc
      · right
        constructor
        · intro tenant' htenant'
          exact hok.fetching tenant' htenant'
        · intro tenant' user' hpoint
          cases hpoint
          exact List.mem_append_right _ List.mem_cons_self
        · intro k hpoint
          cases hpoint
  | @failed a i c x answers hcall hholding =>
    refine h.of_calls rfl rfl (fun _ h => List.mem_append_left _ h) (fun j => ?_) fun d hd => ?_
    · exact h.holder_free hcall hholding rfl j
    · rcases List.mem_or_eq_of_mem_set hd with hd | rfl
      · exact .inl hd
      · exact .inr (.of_idle rfl fun k hk => by cases hk)
  | @constructed i t tenant user password hcall =>
    have hok := h.calls _ (List.mem_of_getElem? hcall)
    obtain ⟨htenant, hnone⟩ := hok.fetching tenant rfl
    have huser := hok.asked tenant user rfl
    have hothers (c : AcquireCall) (hc : c ∈ st.calls) (k : ℕ) (hk : c.point = .ended (.ok k)) :
        (st.clients.set t st.made.length).get c.tenantId = some k := by
      have hget := (h.calls c hc).ended k hk
      rw [Dict.get_set_of_ne _ ?_]
      · exact hget
      · intro ht
        rw [ht, hnone] at hget
        cases hget
    constructor
    · exact h.holder_free hcall rfl rfl
    · exact h.stored_construct hnone _
    · intro c hc
      obtain ⟨j, hj⟩ := List.getElem?_of_mem hc
      rcases Calls.get_set_cases hj with ⟨-, rfl⟩ | ⟨hij, hj⟩
      · exact .of_ended (Dict.get_set_self _ _ _)
      · have hc := List.mem_of_getElem? hj
        -- no other call is past its look into the map
        have hidle : c.point.holding ≠ true := fun hheld => h.others_waiting hcall rfl hij ⟨c, hj, hheld⟩
        constructor
        · intro tenant' htenant'
          exfalso
          cases hpoint : c.point with
          | waiting => rw [hpoint] at htenant'; cases htenant'
          | ended out => rw [hpoint] at htenant'; cases htenant'
          | fetchingUser tenant => rw [hpoint] at hidle; exact hidle rfl
          | fetchingPassword tenant user => rw [hpoint] at hidle; exact hidle rfl
        · intro tenant' user' hpoint
          rw [hpoint] at hidle
          exact absurd rfl hidle
        · exact hothers c hc
    · intro m hm
      rcases List.mem_append.mp hm with hm | hm
      · exact (h.built m hm).mono fun _ h => List.mem_append_left _ h
      · obtain rfl := List.mem_singleton.mp hm
        exact ⟨tenant, user, password, htenant, List.mem_append_left _ huser,
          List.mem_append_right _ List.mem_cons_self, rfl⟩
  | idle => exact h

/-- **The invariant holds after every run.** -/
theorem exec (acts : List AcquireAction) :
    PoolInv pool registry (Runs.exec (PoolState.acquireStep pool registry) .new acts) :=
  Runs.exec_invariant .new (fun _ a h => h.step a) acts

end PoolInv

/-! ## Safety -/

/-- What there is in a pool: its map, its flag, and its clients. -/
def PoolState.contents (st : PoolState) : Dict String ℕ × Bool × List MadeClient :=
  (st.clients, st.closed, st.made)

/-- A call for the tenant has returned the client. -/
def PoolState.Returned (st : PoolState) (tenantId : String) (k : ℕ) : Prop :=
  ∃ c ∈ st.calls, c.tenantId = tenantId ∧ c.point = .ended (.ok k)

/-- The client is a tenant's own: it has the tenant's URL, verifies certificates as the tenant's settings say,
and logs in with what the secret store has answered for the tenant. -/
structure ClientOf (kind : PoolKind) (tenant : TenantSettings) (answers : List SecretAnswer)
    (client : HttpClient) : Prop where
  indexerUrl : kind = .indexer → client.baseUrl = Text.rstrip (· == '/') tenant.indexerUrl
  serverApiUrl : kind = .serverApi → ∀ url, tenant.serverApiUrl = some url →
    client.baseUrl = Text.rstrip (· == '/') url
  derivedUrl : kind = .serverApi → tenant.serverApiUrl = none →
    client.baseUrl = Text.rstrip (· == '/') (deriveServerApiUrl tenant)
  bundle : ∀ path, tenant.caBundlePath = some path → client.verify = .bundle path
  flag : tenant.caBundlePath = none → client.verify = .flag tenant.verifyTls
  indexerSecrets : kind = .indexer → ⟨tenant.tenantId, "indexer_user", client.user⟩ ∈ answers ∧
    ⟨tenant.tenantId, "indexer_password", client.password⟩ ∈ answers
  serverApiSecrets : kind = .serverApi → ⟨tenant.tenantId, "server_api_user", client.user⟩ ∈ answers ∧
    ⟨tenant.tenantId, "server_api_password", client.password⟩ ∈ answers

/-- The constructor makes a tenant's own client of the secrets that were asked for. -/
theorem clientOf_client {kind : PoolKind} {tenant : TenantSettings} {answers : List SecretAnswer}
    {user password : String} (huser : ⟨tenant.tenantId, kind.pool.userSecret, user⟩ ∈ answers)
    (hpassword : ⟨tenant.tenantId, kind.pool.passwordSecret, password⟩ ∈ answers) :
    ClientOf kind tenant answers (kind.pool.client tenant user password) where
  indexerUrl := by
    rintro rfl
    rfl
  serverApiUrl := by
    rintro rfl url hurl
    simp [PoolKind.pool, ClientPool.client, serverApiClientPool, HttpClient.new, hurl, Text.rstrip_idem]
  derivedUrl := by
    rintro rfl hurl
    simp [PoolKind.pool, ClientPool.client, serverApiClientPool, HttpClient.new, hurl]
  bundle path hpath := by simp [ClientPool.client, HttpClient.new, hpath]
  flag hnone := by simp [ClientPool.client, HttpClient.new, hnone]
  indexerSecrets := by
    rintro rfl
    exact ⟨huser, hpassword⟩
  serverApiSecrets := by
    rintro rfl
    exact ⟨huser, hpassword⟩

/-- What a pool has made is the tenant's own client. -/
theorem Built.clientOf {kind : PoolKind} {answers : List SecretAnswer} {m : MadeClient}
    (h : Built kind.pool registry answers m) :
    ∃ tenant, registry.find? m.tenantId = some tenant ∧ ClientOf kind tenant answers m.client := by
  obtain ⟨tenant, user, password, htenant, huser, hpassword, hclient⟩ := h
  rw [← SettingsRegistry.tenantId_of_find? htenant] at huser hpassword
  refine ⟨tenant, htenant, ?_⟩
  rw [hclient]
  exact clientOf_client huser hpassword

/-- **The safety of a pool**, after a run of calls. -/
structure PoolSafe (kind : PoolKind) (registry : SettingsRegistry) (acts : List AcquireAction)
    (st : PoolState) : Prop where
  /-- one client at most is constructed for a tenant -/
  once : (st.made.map MadeClient.tenantId).Nodup
  /-- all calls for a tenant that return a client return the same -/
  shared : ∀ t k k', st.Returned t k → st.Returned t k' → k = k'
  /-- it was constructed for the tenant, and is the tenant's own -/
  own : ∀ t k, st.Returned t k → ∃ client tenant, st.made[k]? = some ⟨t, client⟩ ∧
    registry.find? t = some tenant ∧ ClientOf kind tenant st.answers client
  /-- a call that has been answered both secrets returns the client that it constructs with them, and leaves it
  in the pool -/
  returns : ∀ pre a post, acts = pre ++ a :: post → ∀ i t tenant user password,
    let before := Runs.exec (PoolState.acquireStep kind.pool registry) .new pre
    a = .passwordFetched i (.ok password) (.ok ()) →
      before.calls[i]? = some ⟨t, .fetchingPassword tenant user⟩ →
        let after := before.acquireStep kind.pool registry a
        ∃ k client, after.calls[i]? = some ⟨t, .ended (.ok k)⟩ ∧ after.clients.get t = some k ∧
          after.made[k]? = some ⟨t, client⟩ ∧ client.user = user ∧ client.password = password
  /-- a call that fails does not hold the lock any more, and none of its steps has changed what there is
  in the pool -/
  failed : ∀ i c x, st.calls[i]? = some c → c.point = .ended (.error x) →
    st.lock ≠ some (.call i) ∧
      ∀ pre a post, acts = pre ++ a :: post →
        let before := Runs.exec (PoolState.acquireStep kind.pool registry) .new pre
        a.caller before = i → (before.acquireStep kind.pool registry a).contents = before.contents

/-- **A call that has both secrets** returns the client. -/
theorem construct_returns {i : ℕ} {t : String} {tenant : TenantSettings} {user password : String}
    (hcall : st.calls[i]? = some ⟨t, .fetchingPassword tenant user⟩) :
    let after := st.acquireStep pool registry (.passwordFetched i (.ok password) (.ok ()))
    ∃ k client, after.calls[i]? = some ⟨t, .ended (.ok k)⟩ ∧ after.clients.get t = some k ∧
      after.made[k]? = some ⟨t, client⟩ ∧ client.user = user ∧ client.password = password := by
  intro after
  have hafter : after =
      (st.answer t pool.passwordSecret password).construct i t (pool.client tenant user password) := by
    show st.acquireStep pool registry _ = _
    unfold PoolState.acquireStep
    simp only [hcall]
  rw [hafter]
  refine ⟨st.made.length, pool.client tenant user password, ?_, Dict.get_set_self _ _ _, ?_, rfl, rfl⟩
  · exact List.getElem?_set_self (List.getElem?_eq_some_iff.mp hcall).1
  · exact List.getElem?_concat_length

/-- A call that has ended stays as it is. -/
theorem ended_acquireStep {i : ℕ} {t : String} {out : Except Exn ℕ}
    (h : st.calls[i]? = some ⟨t, .ended out⟩) (a : AcquireAction) :
    (st.acquireStep pool registry a).calls[i]? = some ⟨t, .ended out⟩ := by
  have hset {j : ℕ} {c d : AcquireCall} (hcall : st.calls[j]? = some c)
      (hc : ∀ out, c.point ≠ .ended out) : (st.calls.set j d)[i]? = some ⟨t, .ended out⟩ := by
    rw [List.getElem?_set_ne ?_]
    · exact h
    · rintro rfl
      rw [h] at hcall
      cases hcall
      exact hc out rfl
  have hadd (c : AcquireCall) : (st.calls ++ [c])[i]? = some ⟨t, .ended out⟩ := by
    rw [List.getElem?_append_left (List.getElem?_eq_some_iff.mp h).1, h]
  have heffect := acquireStep_effect pool registry st a
  generalize st.acquireStep pool registry a = st' at heffect
  cases heffect with
  | begun => exact hadd _
  | hit => exact hadd _
  | found hcall => exact hset hcall fun out hout => by cases hout
  | refused hcall => exact hset hcall fun out hout => by cases hout
  | entered hcall => exact hset hcall fun out hout => by cases hout
  | userFetched hcall => exact hset hcall fun out hout => by cases hout
  | failed answers hcall hholding =>
    refine hset hcall fun out hout => ?_
    rw [hout] at hholding
    cases hholding
  | constructed hcall => exact hset hcall fun out hout => by cases hout
  | idle => exact h

variable (pool registry) in
/-- A step changes what there is in the pool only if its call returns with it. -/
theorem contents_acquireStep (st : PoolState) (a : AcquireAction) :
    (st.acquireStep pool registry a).contents = st.contents ∨
      ∃ t k, (st.acquireStep pool registry a).calls[a.caller st]? = some ⟨t, .ended (.ok k)⟩ := by
  have heffect := acquireStep_effect pool registry st a
  generalize st.acquireStep pool registry a = st' at heffect
  cases heffect with
  | @constructed i t tenant user password hcall =>
    exact .inr ⟨t, _, List.getElem?_set_self (List.getElem?_eq_some_iff.mp hcall).1⟩
  | _ => exact .inl rfl

/-- A call that has ended after part of a run has ended in the same way after all of it. -/
theorem ended_exec {i : ℕ} {t : String} {out : Except Exn ℕ} {pre : List AcquireAction}
    (h : (Runs.exec (PoolState.acquireStep pool registry) .new pre).calls[i]? = some ⟨t, .ended out⟩)
    (post : List AcquireAction) :
    (Runs.exec (PoolState.acquireStep pool registry) .new (pre ++ post)).calls[i]? =
      some ⟨t, .ended out⟩ := by
  rw [Runs.exec_append]
  have hstep : ∀ (st : PoolState) a, st.calls[i]? = some ⟨t, .ended out⟩ →
      (st.acquireStep pool registry a).calls[i]? = some ⟨t, .ended out⟩ :=
    fun st a hst => ended_acquireStep hst a
  exact Runs.exec_invariant (by exact h) hstep post

/-- The clients of a pool are for different tenants. -/
theorem PoolInv.nodup (h : PoolInv pool registry st) : (st.made.map MadeClient.tenantId).Nodup := by
  rw [List.Nodup, List.pairwise_iff_getElem]
  intro k k' hk hk' hlt heq
  rw [List.length_map] at hk hk'
  simp only [List.getElem_map] at heq
  have hget := (h.stored _ k).mpr ⟨_, List.getElem?_eq_getElem hk, rfl⟩
  have hget' := (h.stored _ k').mpr ⟨_, List.getElem?_eq_getElem hk', rfl⟩
  rw [heq, hget', Option.some.injEq] at hget
  omega

theorem PoolInv.get_of_returned (h : PoolInv pool registry st) {t : String} {k : ℕ}
    (hk : st.Returned t k) : st.clients.get t = some k := by
  obtain ⟨c, hc, rfl, hpoint⟩ := hk
  exact (h.calls c hc).ended k hpoint

/-- **Client pools are safe**: whatever calls of `acquire` there are, for whatever tenants, and in
whatever order they run on, are answered and are cancelled. -/
theorem pools_safe (kind : PoolKind) (registry : SettingsRegistry) (acts : List AcquireAction) :
    PoolSafe kind registry acts
      (Runs.exec (PoolState.acquireStep kind.pool registry) .new acts) := by
  have hinv : PoolInv kind.pool registry _ := PoolInv.exec acts
  constructor
  · exact hinv.nodup
  · intro t k k' hk hk'
    have hget := hinv.get_of_returned hk
    rw [hinv.get_of_returned hk'] at hget
    exact (Option.some.inj hget).symm
  · intro t k hk
    obtain ⟨⟨t', client⟩, hm, rfl⟩ := (hinv.stored t k).mp (hinv.get_of_returned hk)
    obtain ⟨tenant, htenant, hclient⟩ := (hinv.built _ (List.mem_of_getElem? hm)).clientOf
    exact ⟨client, tenant, hm, htenant, hclient⟩
  · rintro pre a post - i t tenant user password before rfl hcall
    exact construct_returns hcall
  · intro i c x hcall hpoint
    constructor
    · intro hlock
      obtain ⟨d, hd, hholding⟩ := (hinv.holder i).mp hlock
      rw [hcall] at hd
      cases hd
      rw [hpoint] at hholding
      cases hholding
    · rintro pre a post rfl before hcaller
      rcases contents_acquireStep kind.pool registry before a with
        hcontents | ⟨t, k, hended⟩
      · exact hcontents
      · -- then the call has returned a client, and has not failed
        have hpre : (Runs.exec (PoolState.acquireStep kind.pool registry) .new (pre ++ [a])).calls[i]? =
            some ⟨t, .ended (.ok k)⟩ := by
          rw [Runs.exec_append_singleton, ← hcaller]
          exact hended
        have hlater := ended_exec hpre post
        rw [List.append_assoc, List.singleton_append, hcall] at hlater
        cases hlater
        cases hpoint

end WazuhMcp
