import WazuhMcp.RateLimit.Budgets
import WazuhMcp.Server.Interleaving

/-!
# Throughput

Any number of requests at once, on a server whose rate limiter is the one in its own process and computes in exact
arithmetic. What comes of the other steps is left open.

* `behindLimiter` puts the limiter before an open world: a call of `acquire` draws on its buckets, at readings of
  the clock that never go back.
* `acquire_pays`: whoever asks, a bucket that is not rounded up pays for what it grants.
* `throughput_le`: the tool calls of a tenant, or of a session, that get anything sent upstream number no more
  than its bucket holds and is refilled with.
-/

namespace WazuhMcp

open Interact RateLimit
open Bucket (Clocked Window)

/-! ## The limiter of the server -/

/-- A world with an in-process limiter and the latest reading of its clock. -/
structure LimitedWorld (W : Type) where
  limiter : InProcessRateLimiter
  clock : ℚ
  rest : W

/-- What the wrapper of a tool sees of a call of the limiter: a tier that refuses raises, and the session's does
so after a token of the tenant's has been taken. -/
def acquired : Except Tier Unit → Acquired
  | .ok _ => ⟨true, .ok ()⟩
  | .error tier => ⟨tier = .session, .error (.wazuh tier.rateLimited)⟩

/-- The world with the limiter before it. With a call of the limiter comes the choice of its readings. -/
def behindLimiter {C D W : Type} (limits : Limits)
    (env : Habitat (ToolOp AppOp) (ToolOp.Result AppOp.Result) ClientRequest C D W) :
    Habitat (ToolOp AppOp) (ToolOp.Result AppOp.Result) ClientRequest (Readings × C) D (LimitedWorld W) where
  serve w c op choice :=
    match op with
    | .acquire tenantId sessionId =>
      if choice.1.Between w.clock choice.1.session then
        let drawn := w.limiter.acquire limits tenantId sessionId choice.1
        some (acquired drawn.1, { w with limiter := drawn.2, clock := choice.1.session })
      else none
    | op => (env.serve w.rest c op choice.2).map fun answer => (answer.1, { w with rest := answer.2 })
  move w d := { w with rest := env.move w.rest d }

/-- The bucket is one that a call of `acquire` with these arguments draws on. -/
def RateLimit.BucketId.drawnBy (tenantId sessionId : String) : BucketId → Bool
  | .tenant t => t.text = tenantId
  | .session t s => t.text = tenantId && s = sessionId

/-- The reading at which the step was granted a token of the bucket's. -/
def grantedAt {C : Type} (b : BucketId) : ServerEvent × (Readings × C) → Option ℚ
  | (⟨.acquire tenantId sessionId, ans⟩, choice) =>
    if b.drawnBy tenantId sessionId && ans.outcome.toBool then some (choice.1.drawn b.tier) else none
  | _ => none

/-- The step was granted a token of the bucket's within the window. -/
def grantsWithin {C : Type} (b : BucketId) (win : Window ℚ) (s : ServerEvent × (Readings × C)) : Bool :=
  (grantedAt b s).any (win.Has ·)

section Pays

variable {limits : Limits} {l : InProcessRateLimiter} {rd : Readings} {before after : ℚ}

/-- **Whoever asks**, a bucket pays for what it grants within a window from its budget, in exact arithmetic. -/
theorem acquire_pays (hexact : limits.rounding = .exact) (h : FallbackSound limits before l)
    (hrd : rd.Between before after) {win : Window ℚ} (hwidth : 0 ≤ win.width) (tenantId sessionId : String)
    (b : BucketId) :
    let drawn := l.acquire limits tenantId sessionId rd
    FallbackSound limits after drawn.2 ∧
      (if b.drawnBy tenantId sessionId = true ∧ drawn.1 = .ok () ∧ win.Has (rd.drawn b.tier) then 1 else 0) +
        b.budget limits win ((drawn.2.held b).map TokenBucket.clocked) ≤
      b.budget limits win ((l.held b).map TokenBucket.clocked) := by
  dsimp only
  by_cases htext : ∃ t : TenantId, t.text = tenantId
  · obtain ⟨t, rfl⟩ := htext
    have hdrawn : b.drawnBy t.text sessionId = true ↔ (Caller.mk t sessionId).bucket b.tier = b := by
      cases b with
      | tenant t' =>
        show decide (t'.text = t.text) = true ↔ BucketId.tenant t = BucketId.tenant t'
        rw [decide_eq_true_iff, TenantId.text_injective.eq_iff, BucketId.tenant.injEq, eq_comm]
      | session t' s =>
        show (decide (t'.text = t.text) && decide (s = sessionId)) = true ↔
          BucketId.session t sessionId = BucketId.session t' s
        rw [Bool.and_eq_true, decide_eq_true_iff, decide_eq_true_iff, TenantId.text_injective.eq_iff,
          BucketId.session.injEq, eq_comm, eq_comm (a := s)]
    simp only [hdrawn]
    exact ⟨FallbackSound.acquire (c := ⟨t, sessionId⟩) h hrd,
      RateLimit.acquire_budget (c := ⟨t, sessionId⟩) h hrd hwidth (hexact ▸ TokenBucket.notRoundedUp_exact _ _)⟩
  · have hother (t : TenantId) : t.text ≠ tenantId := fun h => htext ⟨t, h⟩
    have hdrawn : b.drawnBy tenantId sessionId = false := by
      cases b <;> simp [BucketId.drawnBy, hother]
    have hkeep (b : BucketId) : (l.acquire limits tenantId sessionId rd).2.held b = l.held b := by
      cases b with
      | tenant t =>
        rw [InProcessRateLimiter.held, InProcessRateLimiter.acquire_tenantBuckets]
        exact Dict.get_set_of_ne _ (hother t) _
      | session t s =>
        rw [InProcessRateLimiter.held, InProcessRateLimiter.acquire_sessionBuckets]
        split
        · rfl
        · exact Dict.get_set_of_ne _ (fun h => hother t (Prod.mk.inj h).1) _
    refine ⟨fun b bucket hb => ?_, ?_⟩
    · have hle : before ≤ after := (hrd.tier .tenant).1.trans ((hrd.tier .tenant).2.1.trans (hrd.tier .tenant).2.2)
      exact h.mono hle b bucket (hkeep b ▸ hb)
    · rw [hkeep, hdrawn, if_neg fun hc => Bool.false_ne_true hc.1, zero_add]

end Pays

/-! ## The requests -/

section Requests

variable {registry : TenantRegistry} {lib : Libraries}

/-- The request calls a tool, at the cost of a token of the bucket's. -/
def ClientRequest.callsOn (b : BucketId) (c : ClientRequest) : Bool :=
  match c.request with
  | .callTool _ _ => b.drawnBy c.session.tenantId c.session.userId
  | _ => false

theorem ClientRequest.drawnBy_of_callsOn {b : BucketId} {c : ClientRequest} (h : c.callsOn b = true) :
    b.drawnBy c.session.tenantId c.session.userId = true := by
  unfold callsOn at h
  split at h
  · exact h
  · cases h

/-- Before a tool call sends anything, the limiter has let it pass. -/
theorem call_limited (c : ClientRequest) : (c.served registry lib).All fun tr _ =>
    Guarded (fun pre => ∀ b, c.callsOn b = true → ∃ ans : Acquired, ans.outcome = .ok () ∧
      ⟨.acquire c.session.tenantId c.session.userId, ans⟩ ∈ pre) (fun ev => isRequest ev = true) tr := by
  obtain ⟨session, req⟩ := c
  cases req with
  | readResource uri => exact Prog.all_of_forall _ fun _ _ _ _ _ _ _ _ h => absurd h Bool.false_ne_true
  | getPrompt prompt => exact Prog.all_of_forall _ fun _ _ _ _ _ _ _ _ h => absurd h Bool.false_ne_true
  | callTool toolName arguments =>
    rw [ClientRequest.served, serve, Prog.all_map]
    refine (rbacCallTool_shape registry lib session toolName arguments).mono fun tr _ hshape => ?_
    refine hshape.gated.mono fun pre hgate b _ => ?_
    obtain ⟨ans, hans, hcalls⟩ := hgate.token
    refine ⟨ans, hans, ?_⟩
    have hmem : (session.tenantId, session.userId, ans) ∈ limiterCalls pre := by
      rw [hcalls]
      exact List.mem_cons_self
    obtain ⟨⟨op, ans'⟩, hev, hcall⟩ := List.mem_filterMap.mp hmem
    cases op with
    | acquire tenantId sessionId =>
      cases hcall
      exact hev
    | _ => cases hcall

end Requests

/-! ## The bound -/

section Bound

variable (registry : TenantRegistry) (lib : Libraries) (limits : Limits) {C D W : Type}
  (env : Habitat (ToolOp AppOp) (ToolOp.Result AppOp.Result) ClientRequest C D W) (w : W) (clock : ℚ)
  (acts : List (PoolAction ClientRequest (Readings × C) D))

/-- The requests of a run, on a server that has been started at a reading of the clock and whose limiter computes
in exact arithmetic. -/
abbrev limitedRun :
    Pool (ToolOp AppOp) (ToolOp.Result AppOp.Result) Exn McpResult ClientRequest (Readings × C) (LimitedWorld W) :=
  Runs.exec (Pool.step (ClientRequest.served registry lib) (behindLimiter limits.exactly env))
    (.new ⟨.new, clock, w⟩) acts

/-- The tool call has had something sent upstream, and it was within the window that the bucket granted it a
token. -/
def reached (b : BucketId) (win : Window ℚ)
    (t : Task (ToolOp AppOp) (ToolOp.Result AppOp.Result) Exn McpResult ClientRequest (Readings × C)) : Bool :=
  t.caller.callsOn b && !(serverRequests t.trace).isEmpty && t.steps.all fun s => (grantedAt b s).all (win.Has ·)

variable {registry lib limits env w clock acts}

theorem grantsWithin_acquire {b : BucketId} {win : Window ℚ} {tenantId sessionId : String} {choice : Readings × C}
    {out : Except Tier Unit} :
    grantsWithin b win (⟨.acquire tenantId sessionId, acquired out⟩, choice) = true ↔
      b.drawnBy tenantId sessionId = true ∧ out = .ok () ∧ win.Has (choice.1.drawn b.tier) := by
  rw [grantsWithin, grantedAt]
  cases hdrawn : b.drawnBy tenantId sessionId with
  | false => simp
  | true => cases out <;> simp [acquired, Except.toBool]

/-- A step of a request takes what it is granted from the budget of the bucket. -/
theorem serve_pays (hexact : limits.rounding = .exact) {b : BucketId} {win : Window ℚ}
    (hwidth : 0 ≤ win.width) {world world' : LimitedWorld W} {c : ClientRequest} {op : ToolOp AppOp} {choice : Readings × C} {ans : ToolOp.Result AppOp.Result op}
    (hsound : FallbackSound limits world.clock world.limiter)
    (hserve : (behindLimiter limits env).serve world c op choice = some (ans, world')) :
    FallbackSound limits world'.clock world'.limiter ∧
      (if grantsWithin b win (⟨op, ans⟩, choice) then 1 else 0) +
        b.budget limits win ((world'.limiter.held b).map TokenBucket.clocked) ≤
      b.budget limits win ((world.limiter.held b).map TokenBucket.clocked) := by
  cases op with
  | acquire tenantId sessionId =>
    rw [behindLimiter] at hserve
    dsimp only at hserve
    split at hserve
    · rename_i hdue
      obtain ⟨rfl, rfl⟩ := Prod.mk.inj (Option.some.inj hserve)
      obtain ⟨hafter, hpays⟩ := acquire_pays hexact hsound hdue hwidth tenantId sessionId b
      refine ⟨hafter, ?_⟩
      simp only [grantsWithin_acquire]
      exact hpays
    · cases hserve
  | _ =>
    obtain ⟨answer, -, hanswer⟩ := Option.map_eq_some_iff.mp hserve
    obtain ⟨-, rfl⟩ := Prod.mk.inj hanswer
    refine ⟨hsound, ?_⟩
    simp [grantsWithin, grantedAt]

/-- No bucket grants more within a window than it may hold and what the window refills. -/
theorem count_grantsWithin_le (b : BucketId) {win : Window ℚ} (hwidth : 0 ≤ win.width) :
    ((limitedRun registry lib limits env w clock acts).count (fun _ => grantsWithin b win) : ℚ) ≤
      b.allowance limits win := by
  obtain ⟨hsound, hcount⟩ := Pool.count_add_le (ClientRequest.served registry lib)
    (behindLimiter limits.exactly env)
    (fun world => FallbackSound limits.exactly world.clock world.limiter) (P := fun _ _ => True)
    (w := ⟨.new, clock, w⟩) (fun _ => grantsWithin b win)
    (fun world => b.budget limits win ((world.limiter.held b).map TokenBucket.clocked))
    (fun _ => Prog.every_of_forall _ fun _ => trivial) (fallbackSound_new clock)
    (fun _ _ _ _ _ _ hsound _ hserve => serve_pays rfl hwidth hsound hserve)
    (fun _ _ hsound => ⟨hsound, le_rfl⟩) acts
  have hstart : b.budget limits win ((InProcessRateLimiter.new.held b).map TokenBucket.clocked) =
      b.allowance limits win := by
    cases b <;> rfl
  have hnonneg : 0 ≤ b.budget limits win
      (((limitedRun registry lib limits env w clock acts).world.limiter.held b).map TokenBucket.clocked) := by
    apply BucketId.budget_nonneg hwidth
    intro held hheld
    obtain ⟨bucket, -, rfl⟩ := Option.map_eq_some_iff.mp hheld
    exact bucket.tokens_nonneg
  exact (le_add_of_nonneg_right hnonneg).trans (hcount.trans hstart.le)

/-- A tool call that has had something sent upstream was granted a token of its bucket. -/
theorem exists_grantsWithin {b : BucketId} {win : Window ℚ} :
    ∀ t ∈ (limitedRun registry lib limits env w clock acts).tasks, reached b win t →
      ∃ _ : Unit, ∃ s ∈ t.steps, grantsWithin b win s := by
  intro t ht hreached
  simp only [reached, Bool.and_eq_true, Bool.not_eq_true', List.all_eq_true] at hreached
  obtain ⟨⟨hcalls, hsent⟩, hwithin⟩ := hreached
  obtain ⟨req, hreq⟩ := List.exists_mem_of_ne_nil _ (List.isEmpty_eq_false_iff.mp hsent)
  obtain ⟨ev, hev, hop⟩ := List.mem_filterMap.mp hreq
  obtain ⟨pre, post, htrace⟩ := List.append_of_mem hev
  obtain ⟨more, out, hguarded⟩ := (Pool.all_exec _ _ (fun c => call_limited c) _ _ t ht).exists_completion
  obtain ⟨ans, hans, hacquire⟩ :=
    hguarded pre ev (post ++ more) (by simp [htrace]) (isRequest_of_request hop) b hcalls
  have hmem : (⟨.acquire t.caller.session.tenantId t.caller.session.userId, ans⟩ : ServerEvent) ∈ t.trace := by
    rw [htrace]
    exact List.mem_append_left _ hacquire
  obtain ⟨⟨_, choice⟩, hs, rfl⟩ := List.mem_map.mp hmem
  have hgranted : grantedAt b (⟨.acquire t.caller.session.tenantId t.caller.session.userId, ans⟩, choice) =
      some (choice.1.drawn b.tier) := by
    rw [grantedAt, ClientRequest.drawnBy_of_callsOn hcalls, hans]
    rfl
  have hwindow := hwithin _ hs
  rw [hgranted] at hwindow
  refine ⟨(), _, hs, ?_⟩
  rw [grantsWithin, hgranted]
  exact hwindow

/-- The tool calls that have had something sent upstream number no more than their bucket's grants. -/
theorem length_reached_le (b : BucketId) (win : Window ℚ) :
    ((limitedRun registry lib limits env w clock acts).tasks.filter (reached b win)).length ≤
      (limitedRun registry lib limits env w clock acts).count fun _ => grantsWithin b win := by
  set p := limitedRun registry lib limits env w clock acts
  have hlength : (p.tasks.filter (reached b win)).length ≤ ∑ _lane : Unit, p.count fun _ => grantsWithin b win :=
    Pool.length_filter_le exists_grantsWithin
  rwa [Finset.univ_unique, Finset.sum_singleton] at hlength

variable (registry lib limits env w clock acts)

/-- **Throughput**: the tool calls of a tenant, or of a session, that get anything sent upstream and were granted
their token within a window number no more than the bucket may hold and the window refills, whatever the calls
are and whatever is answered. -/
theorem throughput_le (b : BucketId) (start : ℚ) (width : ℚ≥0) :
    ((((limitedRun registry lib limits env w clock acts).tasks.filter
        (reached b ⟨start, width⟩)).length : ℕ) : ℚ) ≤
      (b.config limits).capacity + (b.config limits).refillPerSec * width :=
  (Nat.cast_le.mpr (length_reached_le b _)).trans (count_grantsWithin_le b width.2)

end Bound

end WazuhMcp
