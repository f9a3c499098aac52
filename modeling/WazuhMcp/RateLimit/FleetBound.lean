import Mathlib.Algebra.BigOperators.Ring.Finset
import Mathlib.Data.Fintype.Option
import WazuhMcp.RateLimit.Budgets

/-!
# What a fleet grants

With `r` replicas there are `r + 1` buckets for a tenant or a session: the one in Redis and one in each
fallback. A call that returns was granted a token by one of them (`exists_grantsIn`), and each pays for
what it grants within a window, whatever fails (`count_grantsIn_le`). This bounds the calls that are
granted their tokens within a window (`fleet_bound`). The bound is on when the tokens are granted: a
call may return long after that.
-/

namespace WazuhMcp.RateLimit

open Interact
open Bucket (Clocked Window)

/-! ## The fleet -/

section Fleet

variable {r : ℕ} {limits : Limits} {w w' : Fleet r} {c : FleetCall r} {op : LimiterOp} {ans : op.Ans}
  {choice : Choice} {s : LimiterEvent × Choice}

/-- Where and at what reading a step of a call was granted a token of a bucket: in Redis, or by the
fallback of its replica. -/
def grantAt (keyPrefix : String) (b : BucketId) (c : FleetCall r) :
    LimiterEvent × Choice → Option (Option (Fin r) × ℚ)
  | (⟨.evalsha _ _ call, .ok reply⟩, _) =>
    if call.key = bucketKey keyPrefix b ∧ reply = 1 then some (none, call.nowMs / 1000) else none
  | (⟨.fallback _ _, .ok ()⟩, ⟨_, .draws rd⟩) =>
    if c.bucket b.tier = b then some (some c.replica, rd.drawn b.tier) else none
  | _ => none

theorem not_granted {ev : LimiterEvent}
    (hreply : ∀ again sha call, ev ≠ ⟨.evalsha again sha call, .ok 1⟩)
    (hfallback : ∀ tenantId sessionId, ev ≠ ⟨.fallback tenantId sessionId, .ok ()⟩) :
    ∀ key, ¬ Granted key ev := by
  rintro key (⟨again, sha, call, h, -⟩ | ⟨tenantId, sessionId, h⟩)
  · exact hreply _ _ _ h
  · exact hfallback _ _ h

theorem grantAt_eq_none {keyPrefix : String} {b : BucketId} (h : ∀ key, ¬ Granted key s.1) :
    grantAt keyPrefix b c s = none := by
  unfold grantAt
  split
  · rename_i again sha call reply _
    refine if_neg fun hone => h call.key (.inl ⟨again, sha, call, ?_, rfl⟩)
    rw [hone.2]
  · exact absurd (.inr ⟨_, _, rfl⟩) (h "")
  · rfl

/-- The replica goes on without its fallback. -/
structure Replica.Quiet (rep rep' : Replica) : Prop where
  fallback : rep'.fallback = rep.fallback
  clock : rep.clock ≤ rep'.clock

/-- What a step of a call does to the fleet: nothing to any bucket, or a run of the script, or a call of
the fallback. -/
inductive Served (limits : Limits) (w : Fleet r) (c : FleetCall r) :
    LimiterEvent × Choice → Fleet r → Prop
  | quiet {s rep sent} (hquiet : (w.replicas c.replica).Quiet rep)
      (hsent : ∀ call ∈ sent, ∃ again sha ans, s.1 = ⟨.evalsha again sha call, ans⟩)
      (hgrant : ∀ key, ¬ Granted key s.1) :
      Served limits w c s
        (Fleet.setReplica { w with redis := { w.redis with sent := w.redis.sent ++ sent } } c.replica rep)
  | replied {again sha call forgotten rep choice} (hfate : choice.fate = .replies forgotten)
      (hquiet : (w.replicas c.replica).Quiet rep) (hlast : w.redis.lastMs ≤ call.nowMs) :
      Served limits w c (⟨.evalsha again sha call, .ok (w.redis.run limits.rounding call forgotten).1⟩, choice)
        (Fleet.setReplica { w with redis := { (w.redis.run limits.rounding call forgotten).2 with
          sent := w.redis.sent ++ [call] } } c.replica rep)
  | drawn {tenantId sessionId rd now rep} (hbetween : rd.Between (w.replicas c.replica).clock rep.clock)
      (hfallback : rep.fallback = some
        ((w.replicas c.replica).ensureFallback.acquire limits tenantId sessionId rd).2) :
      Served limits w c (⟨.fallback tenantId sessionId,
          ((w.replicas c.replica).ensureFallback.acquire limits tenantId sessionId rd).1⟩,
          ⟨now, .draws rd⟩)
        (w.setReplica c.replica rep)

theorem Served.replica {rep : Replica} (hquiet : (w.replicas c.replica).Quiet rep)
    (hgrant : ∀ key, ¬ Granted key s.1) :
    Served limits w c s (w.setReplica c.replica rep) := by
  have h : Served limits w c s (Fleet.setReplica
      { w with redis := { w.redis with sent := w.redis.sent ++ [] } } c.replica rep) :=
    .quiet hquiet (by simp) hgrant
  rwa [List.append_nil] at h

/-- **What a step of a call does.** -/
theorem served_of_serve {cfg : BreakerConfig} (h : w.serve cfg limits c op choice = some (ans, w')) :
    Served limits w c (⟨op, ans⟩, choice) w' := by
  obtain ⟨now, fate⟩ := choice
  unfold Fleet.serve at h
  split at h
  · cases h
  rename_i hbefore
  have hclock : (w.replicas c.replica).clock ≤ now := not_lt.mp hbefore
  cases op with
  | enter | record | scriptSha | setScriptSha =>
    cases fate with
    | replica =>
      obtain ⟨-, rfl⟩ := Prod.mk.inj (Option.some.inj h)
      exact .replica ⟨rfl, hclock⟩ (not_granted (fun _ _ _ h => by cases h) fun _ _ h => by cases h)
    | _ => cases h
  | scriptLoad =>
    cases fate with
    | loads | fails =>
      obtain ⟨-, rfl⟩ := Prod.mk.inj (Option.some.inj h)
      exact .replica ⟨rfl, hclock⟩ (not_granted (fun _ _ _ h => by cases h) fun _ _ h => by cases h)
    | _ => cases h
  | nowMs =>
    cases fate with
    | reads =>
      obtain ⟨-, rfl⟩ := Prod.mk.inj (Option.some.inj h)
      exact .replica ⟨rfl, hclock⟩ (not_granted (fun _ _ _ h => by cases h) fun _ _ h => by cases h)
    | _ => cases h
  | evalsha again sha call =>
    have hquiet : (w.replicas c.replica).Quiet { w.replicas c.replica with clock := now } := ⟨rfl, hclock⟩
    cases fate with
    | replies forgotten =>
      dsimp only at h
      split at h
      · cases h
      · rename_i hlast
        obtain ⟨rfl, rfl⟩ := Prod.mk.inj (Option.some.inj h)
        exact .replied rfl hquiet (not_lt.mp hlast)
    | fails x =>
      obtain ⟨rfl, rfl⟩ := Prod.mk.inj (Option.some.inj h)
      refine .quiet hquiet (fun call' (hcall' : call' ∈ [call]) => ?_)
        (not_granted (fun _ _ _ h => by cases h) fun _ _ h => by cases h)
      obtain rfl := List.mem_singleton.mp hcall'
      exact ⟨again, sha, _, rfl⟩
    | _ => cases h
  | fallback tenantId sessionId =>
    cases fate with
    | draws rd =>
      dsimp only at h
      split at h
      · rename_i hbetween
        obtain ⟨rfl, rfl⟩ := Prod.mk.inj (Option.some.inj h)
        exact .drawn hbetween rfl
      · cases h
    | _ => cases h

/-- What Redis replies, it replies when it has run the script. -/
theorem reply_of_serve {cfg : BreakerConfig} {again : Bool} {sha : String} {call : ScriptCall}
    {reply : ℕ}
    (h : w.serve cfg limits c (.evalsha again sha call) choice = some (.ok reply, w')) :
    ∃ forgotten, choice.fate = .replies forgotten ∧
      reply = (w.redis.run limits.rounding call forgotten).1 := by
  obtain ⟨now, fate⟩ := choice
  unfold Fleet.serve at h
  split at h
  · cases h
  cases fate with
  | replies forgotten =>
    dsimp only at h
    split at h
    · cases h
    · obtain ⟨hreply, -⟩ := Prod.mk.inj (Option.some.inj h)
      exact ⟨forgotten, rfl, (Except.ok.inj hreply).symm⟩
  | fails x =>
    obtain ⟨hreply, -⟩ := Prod.mk.inj (Option.some.inj h)
    cases hreply
  | _ => cases h

/-- The invariant of a fleet. -/
structure FleetSound (limits : Limits) (keyPrefix : String) (w : Fleet r) : Prop where
  redis : RedisSound limits keyPrefix w.redis
  fallbacks : ∀ i, FallbackSound limits (w.replicas i).clock (w.replicas i).ensureFallback

variable {keyPrefix : String} {b : BucketId}

theorem fleetSound_new (clocks : Fin r → ℚ) (nowMs : ℤ) :
    FleetSound limits keyPrefix (.new clocks nowMs) :=
  ⟨⟨fun _ _ h => (by cases h), fun _ h => (by cases h)⟩, fun _ => fallbackSound_new _⟩

theorem FleetSound.setReplica (h : FleetSound limits keyPrefix w) {i : Fin r} {rep : Replica}
    (hrep : FallbackSound limits rep.clock rep.ensureFallback) :
    FleetSound limits keyPrefix (w.setReplica i rep) := by
  refine ⟨h.redis, fun j => ?_⟩
  rcases eq_or_ne j i with rfl | hne
  · simpa [Fleet.setReplica] using hrep
  · simpa [Fleet.setReplica, hne] using h.fallbacks j

theorem FleetSound.quiet (h : FleetSound limits keyPrefix w) {i : Fin r} {rep : Replica}
    (hquiet : (w.replicas i).Quiet rep) : FleetSound limits keyPrefix (w.setReplica i rep) := by
  apply h.setReplica
  rw [Replica.ensureFallback, hquiet.fallback]
  exact (h.fallbacks i).mono hquiet.clock

theorem RedisSound.send {store : RedisStore} (h : RedisSound limits keyPrefix store)
    {calls : List ScriptCall} (hcalls : ∀ call ∈ calls, ∃ b, IsScriptCall limits keyPrefix b call) :
    RedisSound limits keyPrefix { store with sent := store.sent ++ calls } :=
  ⟨h.hashes, fun call hcall => (List.mem_append.mp hcall).elim (h.sent call) (hcalls call)⟩

/-- A step of a call leaves the fleet sound. -/
theorem Served.sound (h : Served limits w c s w') (hw : FleetSound limits keyPrefix w)
    (hperf : Performs limits keyPrefix c.toCaller s.1) : FleetSound limits keyPrefix w' := by
  cases h with
  | quiet hquiet hsent hgrant =>
    refine ⟨hw.redis.send fun call hcall => ?_, (hw.quiet hquiet).fallbacks⟩
    obtain ⟨again, sha, ans, heq⟩ := hsent call hcall
    rw [heq] at hperf
    exact hperf.imp' _ fun _ h => h
  | replied hfate hquiet hlast =>
    obtain ⟨tier, hcall⟩ := hperf
    refine ⟨?_, (hw.quiet hquiet).fallbacks⟩
    refine RedisSound.send (hw.redis.run hcall hlast) fun call' hcall' => ?_
    obtain rfl := List.mem_singleton.mp hcall'
    exact ⟨_, hcall⟩
  | drawn hbetween hfallback =>
    obtain ⟨rfl, rfl⟩ := hperf
    apply hw.setReplica
    rw [Replica.ensureFallback, hfallback]
    exact (hw.fallbacks _).acquire hbetween

/-- What is held of a bucket in Redis, or by the fallback of a replica. -/
def Fleet.held (keyPrefix : String) (w : Fleet r) (b : BucketId) : Option (Fin r) → Option (Clocked ℚ)
  | none => w.redis.held keyPrefix b
  | some i => ((w.replicas i).ensureFallback.held b).map TokenBucket.clocked

/-- The step of a call was granted a token of the bucket there, within the window. -/
def grantsIn (keyPrefix : String) (b : BucketId) (lane : Option (Fin r)) (win : Window ℚ)
    (c : FleetCall r)
    (s : LimiterEvent × Choice) : Bool :=
  (grantAt keyPrefix b c s).any fun g => g.1 = lane ∧ win.Has g.2

theorem held_setReplica {i : Fin r} {rep : Replica} (lane : Option (Fin r)) :
    (w.setReplica i rep).held keyPrefix b lane =
      if lane = some i then (rep.ensureFallback.held b).map TokenBucket.clocked
      else w.held keyPrefix b lane := by
  cases lane with
  | none => rfl
  | some j =>
    rcases eq_or_ne j i with rfl | hne
    · simp [Fleet.held, Fleet.setReplica]
    · simp [Fleet.held, Fleet.setReplica, hne]

theorem held_quiet {i : Fin r} {rep : Replica} (hquiet : (w.replicas i).Quiet rep) (store : RedisStore)
    (lane : Option (Fin r)) : (Fleet.setReplica { w with redis := store } i rep).held keyPrefix b lane =
      Fleet.held keyPrefix { w with redis := store } b lane := by
  rw [held_setReplica]
  split
  · rename_i hlane
    rw [hlane, Replica.ensureFallback, hquiet.fallback]
    rfl
  · rfl

theorem grantAt_fallback {tenantId sessionId : String} {out : Except Tier Unit} {now : ℚ}
    {rd : Readings} :
    grantAt keyPrefix b c (⟨.fallback tenantId sessionId, out⟩, ⟨now, .draws rd⟩) =
      if c.bucket b.tier = b ∧ out = .ok () then some (some c.replica, rd.drawn b.tier) else none := by
  rcases out with tier | ⟨⟩
  · simp [grantAt]
  · simp [grantAt]

/-- **A step of a call takes what it is granted from the budget** of the bucket, wherever that is, in exact
arithmetic. -/
theorem Served.budget (hexact : limits.rounding = .exact) (h : Served limits w c s w')
    (hw : FleetSound limits keyPrefix w) (hperf : Performs limits keyPrefix c.toCaller s.1) {win : Window ℚ}
    (hwidth : 0 ≤ win.width) (lane : Option (Fin r)) :
    (if grantsIn keyPrefix b lane win c s then 1 else 0) +
        b.budget limits win (w'.held keyPrefix b lane) ≤
      b.budget limits win (w.held keyPrefix b lane) := by
  cases h with
  | quiet hquiet hsent hgrant =>
    rw [held_quiet hquiet, grantsIn, grantAt_eq_none hgrant]
    cases lane <;> simp [Fleet.held, RedisStore.held]
  | @replied again sha call forgotten rep choice hfate hquiet hlast =>
    obtain ⟨tier, hcall⟩ := hperf
    rw [held_quiet hquiet]
    cases lane with
    | none =>
      have hup : w.redis.NotRoundedUp limits keyPrefix (c.bucket tier) call forgotten :=
        RedisStore.notRoundedUp_of_exact hexact
      have hbudget := run_budget hw.redis hcall hlast hup hwidth b
      refine le_trans (add_le_add_left (le_of_eq ?_) _) hbudget
      refine if_congr ?_ rfl rfl
      by_cases hgrant : call.key = bucketKey keyPrefix b ∧ (w.redis.run limits.rounding call forgotten).1 = 1
      · simp [grantsIn, grantAt, hgrant]
      · simp only [grantsIn, grantAt, hgrant, if_false, ← and_assoc]
        simp
    | some i =>
      have hno : grantsIn keyPrefix b (some i) win c
          (⟨.evalsha again sha call, .ok (w.redis.run limits.rounding call forgotten).1⟩, choice) = false := by
        simp only [grantsIn, grantAt]
        split <;> simp
      rw [hno]
      simp [Fleet.held]
  | @drawn tenantId sessionId rd now rep hbetween hfallback =>
    obtain ⟨rfl, rfl⟩ := hperf
    have hbudget := acquire_budget (c := c.toCaller) (b := b) (hw.fallbacks c.replica) hbetween hwidth
      (hexact ▸ TokenBucket.notRoundedUp_exact _ _)
    have hensure : rep.ensureFallback = ((w.replicas c.replica).ensureFallback.acquire limits
        c.tenantId.text c.sessionId rd).2 := by
      rw [Replica.ensureFallback, hfallback]
      rfl
    rw [held_setReplica, hensure]
    by_cases hlane : lane = some c.replica
    · subst hlane
      rw [if_pos rfl]
      refine le_trans (add_le_add_left (le_of_eq ?_) _) hbudget
      refine if_congr ?_ rfl rfl
      simp only [grantsIn, grantAt_fallback]
      split_ifs with hgrant
      · simp [hgrant]
      · simp only [Option.any_none, Bool.false_eq_true, false_iff]
        exact fun h => hgrant ⟨h.1, h.2.1⟩
    · have hno : grantsIn keyPrefix b lane win c (⟨.fallback c.tenantId.text c.sessionId,
          ((w.replicas c.replica).ensureFallback.acquire limits c.tenantId.text c.sessionId rd).1⟩,
          ⟨now, .draws rd⟩) = false := by
        simp only [grantsIn, grantAt_fallback]
        split_ifs
        · simp [Ne.symm hlane]
        · rfl
      rw [hno, if_neg hlane]
      simp

/-- What grants a token in a step of a call is seen to grant it. -/
theorem Served.grantAt_eq_some (h : Served limits w c s w') (hb : c.bucket b.tier = b)
    (hgranted : Granted (bucketKey keyPrefix b) s.1) : ∃ g, grantAt keyPrefix b c s = some g := by
  cases h with
  | quiet hquiet hsent hgrant => exact absurd hgranted (hgrant _)
  | replied hfate hquiet hlast =>
    rcases hgranted with ⟨again, sha, call, heq, hkey⟩ | ⟨_, _, heq⟩
    · obtain ⟨hop, hans⟩ := Event.mk.inj heq
      cases hop
      exact ⟨_, if_pos ⟨hkey, Except.ok.inj (eq_of_heq hans)⟩⟩
    · cases heq
  | drawn hbetween hfallback =>
    rcases hgranted with ⟨again, sha, call, heq, -⟩ | ⟨_, _, heq⟩
    · cases heq
    · obtain ⟨hop, hans⟩ := Event.mk.inj heq
      cases hop
      exact ⟨_, grantAt_fallback.trans (if_pos ⟨hb, eq_of_heq hans⟩)⟩

/-- What Redis does by itself: nothing, or it runs a script of a bucket. -/
theorem deliver_cases (hw : FleetSound limits keyPrefix w) (dl : Delivery) :
    w.deliver limits dl = w ∨ ∃ b call, IsScriptCall limits keyPrefix b call ∧ w.redis.lastMs ≤ call.nowMs ∧
      w.deliver limits dl = { w with redis := (w.redis.run limits.rounding call dl.forgotten).2 } := by
  unfold Fleet.deliver
  split
  · exact .inl rfl
  · rename_i call hsent
    split
    · exact .inl rfl
    · rename_i hlast
      obtain ⟨b, hcall⟩ := hw.redis.sent call (List.mem_of_getElem? hsent)
      exact .inr ⟨b, call, hcall, not_lt.mp hlast, rfl⟩

/-- A script that Redis runs by itself leaves the fleet sound. -/
theorem FleetSound.deliver (hw : FleetSound limits keyPrefix w) (dl : Delivery) :
    FleetSound limits keyPrefix (w.deliver limits dl) := by
  rcases deliver_cases hw dl with hsame | ⟨b, call, hcall, hlast, hrun⟩
  · rwa [hsame]
  · rw [hrun]
    exact ⟨hw.redis.run hcall hlast, hw.fallbacks⟩

/-- A script that Redis runs by itself leaves no budget greater. -/
theorem deliver_budget (hexact : limits.rounding = .exact) (hw : FleetSound limits keyPrefix w)
    (dl : Delivery) {win : Window ℚ} (hwidth : 0 ≤ win.width) (lane : Option (Fin r)) :
    b.budget limits win ((w.deliver limits dl).held keyPrefix b lane) ≤
      b.budget limits win (w.held keyPrefix b lane) := by
  rcases deliver_cases hw dl with hsame | ⟨b', call, hcall, hlast, hrun⟩
  · rw [hsame]
  · rw [hrun]
    cases lane with
    | none =>
      refine le_trans (le_add_of_nonneg_left ?_)
        (run_budget hw.redis hcall hlast (RedisStore.notRoundedUp_of_exact hexact) hwidth b)
      split <;> norm_num
    | some i => exact le_rfl

theorem budget_nonneg (hw : FleetSound limits keyPrefix w) {win : Window ℚ} (hwidth : 0 ≤ win.width)
    (lane : Option (Fin r)) : 0 ≤ b.budget limits win (w.held keyPrefix b lane) := by
  refine b.budget_nonneg hwidth fun held hheld => ?_
  cases lane with
  | none => exact (hw.redis.held hheld).1
  | some i =>
    obtain ⟨bucket, -, rfl⟩ := Option.map_eq_some_iff.mp hheld
    exact bucket.tokens_nonneg

end Fleet

/-! ## The bound -/

open Deployment

variable {r : ℕ}

/-- A fleet is sound after every run. -/
theorem fleetSound_run (d : Deployment) (clocks : Fin r → ℚ) (nowMs : ℤ)
    (acts : List (PoolAction (FleetCall r) Choice Delivery)) :
    FleetSound d.limits d.keyPrefix (d.run (.new clocks nowMs) acts).world :=
  Pool.world_exec d.call (d.habitat r) (FleetSound d.limits d.keyPrefix)
    (P := fun c => Performs d.limits d.keyPrefix c.toCaller)
    (fun c => acquire_every d.limits d.keyPrefix c.toCaller) (fleetSound_new clocks nowMs)
    (fun _ _ _ _ _ _ hw hperf hserve => (served_of_serve hserve).sound hw hperf)
    (fun _ dl hw => hw.deliver dl) acts

/-- In exact arithmetic no bucket grants more within a window than it may hold and what the window refills. -/
theorem count_grantsIn_le (d : Deployment) (hexact : d.limits.rounding = .exact) (clocks : Fin r → ℚ) (nowMs : ℤ)
    (acts : List (PoolAction (FleetCall r) Choice Delivery)) (b : BucketId) (lane : Option (Fin r))
    {win : Window ℚ} (hwidth : 0 ≤ win.width) :
    ((d.run (.new clocks nowMs) acts).count (grantsIn d.keyPrefix b lane win) : ℚ) ≤
      b.allowance d.limits win := by
  obtain ⟨hsound, hcount⟩ := Pool.count_add_le d.call (d.habitat r) (FleetSound d.limits d.keyPrefix)
    (P := fun c => Performs d.limits d.keyPrefix c.toCaller) (grantsIn d.keyPrefix b lane win)
    (fun w => b.budget d.limits win (w.held d.keyPrefix b lane))
    (fun c => acquire_every d.limits d.keyPrefix c.toCaller) (fleetSound_new clocks nowMs)
    (fun w c op choice ans w' hw hperf hserve => by
      have hserved := served_of_serve hserve
      exact ⟨hserved.sound hw hperf, hserved.budget hexact hw hperf hwidth lane⟩)
    (fun w dl hw => ⟨hw.deliver dl, deliver_budget hexact hw dl hwidth lane⟩) acts
  have hstart : b.budget d.limits win ((Fleet.new clocks nowMs).held d.keyPrefix b lane) =
      b.allowance d.limits win := by
    cases lane <;> cases b <;> rfl
  have hnonneg := budget_nonneg (b := b) hsound hwidth lane
  exact (le_add_of_nonneg_right hnonneg).trans (hcount.trans hstart.le)

/-- The call has returned, and the tokens of the bucket that it was granted were granted within the
windows. -/
def grantedWithin (keyPrefix : String) (b : BucketId) (windows : Option (Fin r) → Window ℚ)
    (t : CallTask r) : Bool :=
  t.outcome = some (.ok ()) && t.caller.bucket b.tier = b &&
    t.steps.all fun s => (grantAt keyPrefix b t.caller s).all fun g => (windows g.1).Has g.2

/-- A call that returns was granted a token of its bucket in one of the lanes. -/
theorem exists_grantsIn (d : Deployment) (clocks : Fin r → ℚ) (nowMs : ℤ)
    (acts : List (PoolAction (FleetCall r) Choice Delivery)) {b : BucketId}
    {windows : Option (Fin r) → Window ℚ} :
    ∀ t ∈ (d.run (.new clocks nowMs) acts).tasks, grantedWithin d.keyPrefix b windows t →
      ∃ lane, ∃ s ∈ t.steps, grantsIn d.keyPrefix b lane (windows lane) t.caller s := by
  intro t ht hgood
  simp only [grantedWithin, Bool.and_eq_true, decide_eq_true_eq, List.all_eq_true] at hgood
  obtain ⟨⟨hreturned, hb⟩, hwithin⟩ := hgood
  have hleaves := Pool.all_exec d.call (d.habitat r)
    (fun c => acquire_leaves d.limits d.keyPrefix c.toCaller b.tier) (.new clocks nowMs) acts t ht
  obtain ⟨ev, hev, hgranted⟩ := hleaves.of_outcome hreturned () rfl
  obtain ⟨s, hs, rfl⟩ := List.mem_map.mp hev
  have hserved := Pool.steps_exec d.call (d.habitat r)
    (S := fun c s => c.bucket b.tier = b → Granted (bucketKey d.keyPrefix b) s.1 →
      ∃ g, grantAt d.keyPrefix b c s = some g)
    (fun w c op choice ans w' hserve => (served_of_serve hserve).grantAt_eq_some)
    (.new clocks nowMs) acts t ht s hs
  obtain ⟨g, hg⟩ := hserved hb (hb ▸ hgranted)
  have hhas := hwithin s hs
  rw [hg] at hhas
  refine ⟨g.1, s, hs, ?_⟩
  rw [grantsIn, hg]
  simpa using hhas

/-- **The fleet's bound**, in exact arithmetic: the calls of a tenant, or of a session, that return with the
tokens they were granted within windows of one length, a window on the clock of each bucket, number no more
than `r + 1` buckets of the configuration hold and are refilled with. -/
theorem fleet_bound (d : Deployment) (hexact : d.limits.rounding = .exact) (clocks : Fin r → ℚ) (nowMs : ℤ)
    (acts : List (PoolAction (FleetCall r) Choice Delivery)) (b : BucketId)
    (starts : Option (Fin r) → ℚ) (width : ℚ≥0) :
    ((((d.run (.new clocks nowMs) acts).tasks.filter
        (grantedWithin d.keyPrefix b fun lane => ⟨starts lane, width⟩)).length : ℕ) : ℚ) ≤
      (r + 1) * ((b.config d.limits).capacity + (b.config d.limits).refillPerSec * width) := by
  let win (lane : Option (Fin r)) : Window ℚ := ⟨starts lane, width⟩
  set p := d.run (.new clocks nowMs) acts
  have hcount : (p.tasks.filter (grantedWithin d.keyPrefix b win)).length ≤
      ∑ lane, p.count (grantsIn d.keyPrefix b lane (win lane)) :=
    Pool.length_filter_le (exists_grantsIn d clocks nowMs acts)
  have hlane (lane : Option (Fin r)) (_ : lane ∈ Finset.univ) :
      (p.count (grantsIn d.keyPrefix b lane (win lane)) : ℚ) ≤
        (b.config d.limits).capacity + (b.config d.limits).refillPerSec * width :=
    count_grantsIn_le d hexact clocks nowMs acts b lane width.2
  have hsum := Finset.sum_le_card_nsmul _ _ _ hlane
  have hcard : (Finset.univ : Finset (Option (Fin r))).card = r + 1 := by simp
  rw [hcard, nsmul_eq_mul] at hsum
  apply (Nat.cast_le.mpr hcount).trans
  push_cast at hsum ⊢
  exact hsum

/-- The call has returned, at a reading of its replica's clock within the window. -/
def returnedIn (b : BucketId) (win : Window ℚ) (t : CallTask r) : Bool :=
  t.outcome = some (.ok ()) && t.caller.bucket b.tier = b &&
    t.steps.getLast?.any fun s => win.Has s.2.now

/-! ## Runs that grant more -/

/-- The tenant that the runs below are about. -/
def acme : TenantId := ⟨"acme", by decide, by decide, by decide⟩

/-- A call of the tenant's is served at a reading of its replica's clock. -/
def served (call : ℕ) (now : ℚ) (fates : List Fate) : List (PoolAction (FleetCall 1) Choice Delivery) :=
  fates.map fun fate => .serve call ⟨now, fate⟩

/-- The breaker lets a call in, and it runs the script of a bucket, which it loads first if it is told to. -/
def drawsOnRedis (load : Bool) (nowMs : ℤ) : List Fate :=
  [.replica, .replica] ++ (if load then [.loads "sha", .replica] else []) ++ [.reads nowMs, .replies false]

/-- The script of a bucket times out, and the fallback decides. -/
def fallsBack (nowMs : ℤ) (now : ℚ) : List Fate :=
  [.replica, .replica, .reads nowMs, .fails .timesOut, .replica, .draws ⟨now, now, now, now⟩]

/-- A call of the tenant's in a session. -/
def callOfAcme (session : String) : PoolAction (FleetCall 1) Choice Delivery := .start ⟨⟨acme, session⟩, 0⟩

/-- A deployment whose tenants have a bucket of one token. -/
def tight (fl : Rounding) (refill : ℚ) (hpos : 0 < refill) (hle : refill ≤ 1000) (breaker : BreakerConfig) :
    Deployment :=
  ⟨{ default := { tenant := ⟨1, refill, by decide, by decide, hpos, hle⟩ }, rounding := fl }, "wazuhmcp:rl", breaker⟩

/-- Three calls are granted their tokens a millisecond apart, and return together when the last reply has
come. -/
def returningTogether : List (PoolAction (FleetCall 1) Choice Delivery) :=
  let both (call : ℕ) (load : Bool) (nowMs : ℤ) : List (PoolAction (FleetCall 1) Choice Delivery) :=
    served call (nowMs / 1000) (drawsOnRedis load nowMs ++ [.replica] ++ drawsOnRedis false nowMs)
  List.replicate 3 (callOfAcme "s") ++ both 0 true 0 ++ both 1 false 1 ++ both 2 false 2 ++
    served 0 (2 / 1000) [.replica] ++ served 1 (2 / 1000) [.replica] ++ served 2 (2 / 1000) [.replica]

/-- Two calls are granted their tokens by Redis three seconds apart, and two by the fallback. -/
def threeSecondsApart : List (PoolAction (FleetCall 1) Choice Delivery) :=
  let both (call : ℕ) (load : Bool) (now : ℤ) : List (PoolAction (FleetCall 1) Choice Delivery) :=
    served call now (drawsOnRedis load (1000 * now) ++ [.replica] ++ drawsOnRedis false (1000 * now) ++
      [.replica])
  List.replicate 4 (callOfAcme "s") ++ both 0 true 0 ++ served 1 0 (fallsBack 0 0) ++
    both 2 false 3 ++ served 3 3 (fallsBack 3000 3)

/-- In exact arithmetic a bucket that refills a third of a token per second pays for four calls in those
three seconds, in Redis and in the fallback. -/
theorem fleet_bound_threeSecondsApart :
    let d : Deployment := tight .exact (1 / 3) (by norm_num) (by norm_num) {}
    ((((d.run (.new (fun _ => 0) 0) threeSecondsApart).tasks.filter
        (grantedWithin d.keyPrefix (.tenant acme) fun _ => ⟨0, 3⟩)).length : ℕ) : ℚ) ≤
      ((1 : ℕ) + 1) * ((1 : ℕ) + 1 / 3 * 3) :=
  fleet_bound (tight .exact (1 / 3) (by norm_num) (by norm_num) {}) rfl (fun _ => 0) 0 threeSecondsApart
    (.tenant acme) (fun _ => 0) 3

/-- Counted by when they return, calls exceed the bound, in doubles as in exact arithmetic: a tenant's bucket
holds one token, and is refilled in a millisecond. And in double precision they exceed it counted by when they
are granted their tokens: the bucket refills a third of a token per second, or rather the double below it, and
after three seconds the token is whole. -/
theorem not_fleet_bound_returnedIn :
    (∀ fl ∈ [Rounding.exact, .binary64], ¬ ∀ (d : Deployment) (r : ℕ) (clocks : Fin r → ℚ) (nowMs : ℤ)
      (acts : List (PoolAction (FleetCall r) Choice Delivery)) (b : BucketId) (start : ℚ) (width : ℚ≥0),
      d.limits.rounding = fl →
      ((((d.run (.new clocks nowMs) acts).tasks.filter
          (returnedIn b ⟨start, width⟩)).length : ℕ) : ℚ) ≤
        (r + 1) * ((b.config d.limits).capacity + (b.config d.limits).refillPerSec * width)) ∧
    ¬ ∀ (d : Deployment) (r : ℕ) (clocks : Fin r → ℚ) (nowMs : ℤ)
      (acts : List (PoolAction (FleetCall r) Choice Delivery)) (b : BucketId)
      (starts : Option (Fin r) → ℚ) (width : ℚ≥0), d.limits.rounding = .binary64 →
      ((((d.run (.new clocks nowMs) acts).tasks.filter
          (grantedWithin d.keyPrefix b fun lane => ⟨starts lane, width⟩)).length : ℕ) : ℚ) ≤
        (r + 1) * ((b.config d.limits).capacity + (b.config d.limits).refillPerSec * width) := by
  constructor
  · intro fl hfl h
    let d : Deployment := tight fl 1000 (by norm_num) (by norm_num) {}
    have hthree : ((d.run (.new (fun _ => 0) 0) returningTogether).tasks.filter
        (returnedIn (.tenant acme) ⟨2 / 1000, 0⟩)).length = 3 := by
      have hfl' : fl = .exact ∨ fl = .binary64 := by simpa using hfl
      rcases hfl' with rfl | rfl
      · decide +kernel
      · decide +kernel
    have hbound := h d 1 (fun _ => 0) 0 returningTogether (.tenant acme) (2 / 1000) 0 rfl
    rw [NNRat.coe_zero, hthree] at hbound
    have hthree_le : ((3 : ℕ) : ℚ) ≤ ((1 : ℕ) + 1) * ((1 : ℕ) + 1000 * 0) := hbound
    norm_num at hthree_le
  · intro h
    let third : ℚ := 6004799503160661 / 18014398509481984
    let d : Deployment := tight .binary64 third (by norm_num [third]) (by norm_num [third]) {}
    have hfour : ((d.run (.new (fun _ => 0) 0) threeSecondsApart).tasks.filter
        (grantedWithin d.keyPrefix (.tenant acme) fun _ => ⟨0, (3 : ℚ≥0)⟩)).length = 4 := by decide +kernel
    have hbound := h d 1 (fun _ => 0) 0 threeSecondsApart (.tenant acme) (fun _ => 0) 3 rfl
    rw [hfour] at hbound
    have hfour_le : ((4 : ℕ) : ℚ) ≤ ((1 : ℕ) + 1) * ((1 : ℕ) + third * 3) := hbound
    norm_num [third] at hfour_le

end WazuhMcp.RateLimit
