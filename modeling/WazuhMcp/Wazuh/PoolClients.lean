import WazuhMcp.Secrets.YamlDriver
import WazuhMcp.Wazuh.PoolSafety

/-!
# Which client a tenant gets

A pool that reads its secrets from a store gives each tenant the client of the tenant's own settings and
secrets, whatever calls there are for it and for other tenants (`client_of_returned`).
-/

namespace WazuhMcp

/-- A pool as its constructor leaves it, with the registry and the store that it goes by. -/
structure BoundPool where
  kind : PoolKind
  registry : SettingsRegistry
  secrets : YamlSecretStore

namespace BoundPool

/-- The client of a tenant, as the registry and the store have it. -/
def client (p : BoundPool) (tenantId : String) : Except Exn HttpClient := do
  let tenant ← p.registry.get tenantId
  let user ← p.secrets.get tenantId p.kind.pool.userSecret
  let password ← p.secrets.get tenantId p.kind.pool.passwordSecret
  return p.kind.pool.client tenant user password

/-- The state of the pool after a run of calls of `acquire`. -/
def run (p : BoundPool) (acts : List AcquireAction) : PoolState :=
  Runs.exec (PoolState.acquireStep p.kind.pool p.registry) .new acts

/-- If the step is an answer with a secret, it is the one that the store has. -/
def FromStore (p : BoundPool) (st : PoolState) : AcquireAction → Prop
  | .userFetched i (.ok user) =>
    ∀ c, st.calls[i]? = some c → p.secrets.get c.tenantId p.kind.pool.userSecret = .ok user
  | .passwordFetched i (.ok password) _ =>
    ∀ c, st.calls[i]? = some c → p.secrets.get c.tenantId p.kind.pool.passwordSecret = .ok password
  | _ => True

/-- The run reads all secrets from the store. -/
def ReadsStore (p : BoundPool) (acts : List AcquireAction) : Prop :=
  Runs.EachStep (PoolState.acquireStep p.kind.pool p.registry) p.FromStore .new acts

/-- All answers are what the store has. -/
def Answered (p : BoundPool) (st : PoolState) : Prop :=
  ∀ a ∈ st.answers, p.secrets.get a.tenantId a.name = .ok a.value

theorem answered_answer {p : BoundPool} {st : PoolState} (h : p.Answered st) {t name value : String}
    (hvalue : p.secrets.get t name = .ok value) : p.Answered (st.answer t name value) := by
  intro a ha
  rcases List.mem_append.mp ha with ha | ha
  · exact h a ha
  · obtain rfl := List.mem_singleton.mp ha
    exact hvalue

theorem answered_step {p : BoundPool} {st : PoolState} (h : p.Answered st) {a : AcquireAction}
    (ha : p.FromStore st a) : p.Answered (st.acquireStep p.kind.pool p.registry a) := by
  cases a with
  | acquire t =>
    unfold PoolState.acquireStep
    dsimp only
    split <;> exact h
  | enter i =>
    unfold PoolState.acquireStep
    dsimp only
    split
    · unfold PoolState.enter
      split
      · exact h
      · split
        · exact h
        · split <;> exact h
    · exact h
  | userFetched i user =>
    unfold PoolState.acquireStep
    dsimp only
    split
    · rename_i t tenant hcall
      cases user with
      | error x => exact h
      | ok user => exact answered_answer h (ha _ hcall)
    · exact h
  | passwordFetched i password constructed =>
    unfold PoolState.acquireStep
    dsimp only
    split
    · rename_i t tenant user hcall
      cases password with
      | error x => exact h
      | ok password =>
        have hanswered := answered_answer h (ha _ hcall)
        cases constructed <;> exact hanswered
    · exact h
  | cancel i =>
    unfold PoolState.acquireStep
    dsimp only
    split <;> exact h

theorem answered_run {p : BoundPool} {acts : List AcquireAction} (h : p.ReadsStore acts) :
    p.Answered (p.run acts) := by
  have hnew : p.Answered .new := fun a ha => by cases ha
  exact Runs.exec_induction hnew (fun _ _ hst ha => answered_step hst ha) h

/-- **What a call returns** is the tenant's own client. -/
theorem client_of_returned {p : BoundPool} {acts : List AcquireAction} (h : p.ReadsStore acts)
    {tenantId : String} {k : ℕ} (hk : (p.run acts).Returned tenantId k) :
    ∃ m, (p.run acts).made[k]? = some m ∧ m.tenantId = tenantId ∧ p.client tenantId = .ok m.client := by
  have hinv : PoolInv p.kind.pool p.registry (p.run acts) := PoolInv.exec acts
  obtain ⟨m, hm, rfl⟩ := (hinv.stored _ k).mp (hinv.get_of_returned hk)
  refine ⟨m, hm, rfl, ?_⟩
  obtain ⟨tenant, user, password, htenant, huser, hpassword, hclient⟩ :=
    hinv.built m (List.mem_of_getElem? hm)
  have huser := answered_run h _ huser
  have hpassword := answered_run h _ hpassword
  rw [client, SettingsRegistry.get_eq_ok.mpr htenant, huser, hpassword, hclient]
  rfl

/-- Two pools of a kind that agree on a tenant have the same client for it. -/
theorem client_congr {p p' : BoundPool} {tenantId : String} (hkind : p.kind = p'.kind)
    (hfind : p.registry.find? tenantId = p'.registry.find? tenantId)
    (hsecrets : ∀ key, p.secrets.get tenantId key = p'.secrets.get tenantId key) :
    p.client tenantId = p'.client tenantId := by
  unfold client SettingsRegistry.get
  rw [hkind, hfind, hsecrets, hsecrets]

end BoundPool

end WazuhMcp
