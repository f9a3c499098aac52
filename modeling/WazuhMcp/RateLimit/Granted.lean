import WazuhMcp.RateLimit.Fleet

/-!
# What a call performs and leaves behind

A call of `acquire` that returns has been granted a token at each tier, by Redis or by the fallback of
its replica (`acquire_leaves`); Redis replies to it at most once for each bucket, the tenant's first
(`acquire_course`); and no call runs the script or asks the fallback for a bucket that is not its own
(`acquire_every`).
-/

namespace WazuhMcp.RateLimit

open Interact

/-! ## What a call leaves behind -/

section Leaves

variable {α β : Type} {key : String}

/-- What the call returns, it leaves an event for. -/
def Leaves (G : α → LimiterEvent → Prop) (tr : List LimiterEvent) (out : Except Raised α) : Prop :=
  ∀ a, out = .ok a → ∃ ev ∈ tr, G a ev

/-- Redis has replied to the script. -/
def Replied (key : String) (reply : ℕ) (ev : LimiterEvent) : Prop :=
  ∃ again sha call, ev = ⟨.evalsha again sha call, .ok reply⟩ ∧ call.key = key

/-- A bucket has granted a token: the one in Redis under the key, or the fallback's. -/
def Granted (key : String) (ev : LimiterEvent) : Prop :=
  Replied key 1 ev ∨ ∃ tenantId sessionId, ev = ⟨.fallback tenantId sessionId, .ok ()⟩

theorem Leaves.append {G : α → LimiterEvent → Prop} {tr tr' : List LimiterEvent}
    {out : Except Raised α} (h : Leaves G tr' out) : Leaves G (tr ++ tr') out := by
  intro a ha
  obtain ⟨ev, hev, hG⟩ := h a ha
  exact ⟨ev, List.mem_append_right _ hev, hG⟩

theorem leaves_bind {G : β → LimiterEvent → Prop} {p : LimiterProg α} {f : α → LimiterProg β}
    (hf : ∀ a, (f a).All (Leaves G)) : (p >>= f).All (Leaves G) := by
  rw [Prog.all_bind]
  refine Prog.all_of_forall p fun tr out => ?_
  cases out with
  | ok a => exact (hf a).mono fun _ _ => .append
  | error x => exact fun a ha => (by cases ha)

theorem evalsha_leaves (again : Bool) (sha : String) (bucket : BucketConfig) (n ttl : ℕ) :
    (evalsha again sha key bucket n ttl).All (Leaves (Replied key)) := by
  rintro nowMs (x | reply)
  · exact fun a ha => (by cases ha)
  · intro a ha
    obtain rfl : reply = a := Except.ok.inj ha
    exact ⟨_, List.mem_cons_of_mem _ (List.mem_singleton_self _), again, sha, _, rfl, rfl⟩

theorem evalshaLoading_leaves (sha : String) (bucket : BucketConfig) (n ttl : ℕ) :
    (evalshaLoading sha key bucket n ttl).All (Leaves (Replied key)) := by
  rw [evalshaLoading, Prog.all_bind, Prog.all_attempt]
  refine (evalsha_leaves false sha bucket n ttl).mono fun tr out htr => ?_
  dsimp only
  split
  · refine Prog.All.mono ?_ fun tr' out' htr' => Leaves.append htr'
    exact leaves_bind fun sha => evalsha_leaves true sha bucket n ttl
  · exact (Prog.all_ofExcept _ _).mpr (by rwa [List.append_nil])

theorem tryRedisAcquire_leaves (bucket : BucketConfig) (ttl : ℕ) :
    (tryRedisAcquire key bucket ttl).All (Leaves fun granted ev => granted → Replied key 1 ev) := by
  have hrun : (runScript key bucket 1 ttl).All (Leaves (Replied key)) := by
    refine leaves_bind fun sha => ?_
    cases sha with
    | some sha => exact leaves_bind fun sha => evalshaLoading_leaves sha bucket 1 ttl
    | none => exact leaves_bind fun sha => evalshaLoading_leaves sha bucket 1 ttl
  rw [tryRedisAcquire, Prog.all_bind]
  refine hrun.mono fun tr out htr => ?_
  cases out with
  | error x => exact fun a ha => (by cases ha)
  | ok reply =>
    intro granted hgranted
    obtain ⟨ev, hev, hreplied⟩ := htr reply rfl
    obtain rfl : (reply == 1) = granted := Except.ok.inj hgranted
    refine ⟨ev, List.mem_append_left _ hev, fun hone => ?_⟩
    rwa [beq_iff_eq.mp hone] at hreplied

theorem breakerCall_leaves {G : α → LimiterEvent → Prop} {fn : LimiterProg α} (h : fn.All (Leaves G)) :
    (breakerCall fn).All (Leaves G) := by
  have hwait : (waitFor fn).All (Leaves G) := by
    rw [waitFor, Prog.all_bind, Prog.all_attempt]
    refine h.mono fun tr out htr => ?_
    rcases out with x | a
    · cases x <;> exact fun a ha => (by cases ha)
    · intro a ha
      obtain ⟨ev, hev, hG⟩ := htr a ha
      exact ⟨ev, List.mem_append_left _ hev, hG⟩
  rw [breakerCall, LimiterOp.all_perform_bind]
  rintro (message | ⟨⟩)
  · exact fun a ha => (by cases ha)
  · rw [Prog.all_bind, Prog.all_attempt]
    refine hwait.mono fun tr out htr => ?_
    rcases out with x | a
    · exact fun _ a ha => (by cases ha)
    · intro _ a ha
      obtain ⟨ev, hev, hG⟩ := htr a ha
      exact ⟨ev, List.mem_cons_of_mem _ (List.mem_append_left _ hev), hG⟩

theorem acquireFallback_leaves (tenantId sessionId : String) :
    (acquireFallback tenantId sessionId).All (Leaves fun _ => Granted key) := by
  rintro (tier | ⟨⟩)
  · exact fun a ha => (by cases ha)
  · exact fun _ _ => ⟨_, List.mem_singleton_self _, .inr ⟨tenantId, sessionId, rfl⟩⟩

/-- A tier that returns was granted a token, and what remains after it was done, unless the fallback
has settled both. -/
theorem acquireTier_leaves {tier : Tier} {tenantId sessionId : String} {bucket : BucketConfig} {ttl : ℕ}
    {next : LimiterProg Unit} :
    (acquireTier tier tenantId sessionId key bucket ttl next).All (Leaves fun _ => Granted key) := by
  rw [acquireTier, Prog.all_bind, Prog.all_attempt]
  refine (breakerCall_leaves (tryRedisAcquire_leaves bucket ttl)).mono fun tr out htr => ?_
  rcases out with x | granted
  · cases hrouted : x.routed with
    | true =>
      simp only [hrouted, if_true]
      exact (acquireFallback_leaves tenantId sessionId).mono fun _ _ => .append
    | false =>
      simp only [hrouted, Bool.false_eq_true, if_false]
      exact fun a ha => (by cases ha)
  · cases granted with
    | false => exact fun a ha => (by cases ha)
    | true =>
      obtain ⟨ev, hev, hreplied⟩ := htr true rfl
      exact Prog.all_of_forall next fun tr' out' a _ =>
        ⟨ev, List.mem_append_left _ hev, .inl (hreplied rfl)⟩

theorem acquireTier_leaves_next {tier : Tier} {tenantId sessionId key' : String} {bucket : BucketConfig}
    {ttl : ℕ} {next : LimiterProg Unit} (hnext : next.All (Leaves fun _ => Granted key)) :
    (acquireTier tier tenantId sessionId key' bucket ttl next).All (Leaves fun _ => Granted key) := by
  unfold acquireTier
  refine leaves_bind fun out => ?_
  rcases out with x | granted
  · cases hrouted : x.routed with
    | true =>
      simp only [hrouted, if_true]
      exact acquireFallback_leaves tenantId sessionId
    | false =>
      simp only [hrouted, Bool.false_eq_true, if_false]
      exact fun a ha => (by cases ha)
  · cases granted with
    | false => exact fun a ha => (by cases ha)
    | true => exact hnext

end Leaves

/-- **A call that returns was granted a token at each tier.** -/
theorem acquire_leaves (limits : Limits) (keyPrefix : String) (c : Caller) (tier : Tier) :
    (acquire limits keyPrefix c.tenantId.text c.sessionId).All
      (Leaves fun _ => Granted (bucketKey keyPrefix (c.bucket tier))) := by
  refine leaves_bind fun ttl => ?_
  cases tier with
  | tenant => exact acquireTier_leaves
  | session => exact acquireTier_leaves_next acquireTier_leaves

/-! ## What Redis replies -/

/-- What Redis has replied to the script, with the key. -/
def replyOf : LimiterEvent → Option (String × ℕ)
  | ⟨.evalsha _ _ call, .ok reply⟩ => some (call.key, reply)
  | _ => none

/-- The replies of Redis, in order. -/
def replies (tr : List LimiterEvent) : List (String × ℕ) := tr.filterMap replyOf

@[simp] theorem replies_append (tr tr' : List LimiterEvent) :
    replies (tr ++ tr') = replies tr ++ replies tr' := List.filterMap_append ..

theorem mem_replies {key : String} {reply : ℕ} {tr : List LimiterEvent} :
    (key, reply) ∈ replies tr ↔ ∃ ev ∈ tr, Replied key reply ev := by
  rw [replies, List.mem_filterMap]
  refine exists_congr fun ev => and_congr_right fun _ => ?_
  constructor
  · intro h
    unfold replyOf at h
    split at h
    · obtain ⟨rfl, rfl⟩ := Prod.mk.inj (Option.some.inj h)
      exact ⟨_, _, _, rfl, rfl⟩
    · cases h
  · rintro ⟨again, sha, call, rfl, rfl⟩
    rfl

/-- The fallback is asked. -/
def isFallback : LimiterEvent → Bool
  | ⟨.fallback _ _, _⟩ => true
  | _ => false

/-- What `acquire` raises when a tier refuses. -/
def Raised.limited : Raised → Bool
  | .wazuh _ => true
  | _ => false

/-- Redis itself has decided the call: it has returned or been refused, and not by the fallback. -/
def settled (tr : List LimiterEvent) : Except Raised Unit → Bool
  | .ok () => !tr.any isFallback
  | .error x => x.limited && !tr.any isFallback

section Replies

variable {key tenantKey sessionKey : String} {α β : Type}

/-- A run of the script ends with its only reply, or without one. -/
def Answers (key : String) (tr : List LimiterEvent) : Except Raised ℕ → Prop
  | .ok reply => replies tr = [(key, reply)]
  | .error x => replies tr = [] ∧ x.limited = false

/-- Nothing is replied. -/
def Silent (tr : List LimiterEvent) (out : Except Raised α) : Prop :=
  replies tr = [] ∧ ∀ x, out = .error x → x.limited = false

theorem silent_bind {p : LimiterProg α} {f : α → LimiterProg ℕ} (hp : p.All Silent)
    (hf : ∀ a, (f a).All (Answers key)) : (p >>= f).All (Answers key) := by
  rw [Prog.all_bind]
  refine hp.mono fun tr out htr => ?_
  cases out with
  | ok a =>
    refine (hf a).mono fun tr' out' htr' => ?_
    cases out' <;> simpa [Answers, htr.1] using htr'
  | error x => exact ⟨by simpa using htr.1, htr.2 x rfl⟩

theorem loadScript_silent : loadScript.All Silent := by
  rintro (x | sha)
  · refine ⟨rfl, fun y hy => ?_⟩
    obtain rfl : x.raised = y := Except.error.inj hy
    cases x <;> rfl
  · exact fun _ => ⟨rfl, fun y hy => by cases hy⟩

theorem evalsha_answers (again : Bool) (sha : String) (bucket : BucketConfig) (n ttl : ℕ) :
    (evalsha again sha key bucket n ttl).All (Answers key) := by
  rintro nowMs (x | reply)
  · refine ⟨rfl, ?_⟩
    cases x <;> rfl
  · exact rfl

theorem runScript_answers (bucket : BucketConfig) (n ttl : ℕ) :
    (runScript key bucket n ttl).All (Answers key) := by
  have hloading (sha : String) : (evalshaLoading sha key bucket n ttl).All (Answers key) := by
    rw [evalshaLoading, Prog.all_bind, Prog.all_attempt]
    refine (evalsha_answers false sha bucket n ttl).mono fun tr out htr => ?_
    dsimp only
    split
    · have hload : (loadScript >>= fun sha => evalsha true sha key bucket n ttl).All (Answers key) :=
        silent_bind loadScript_silent fun sha => evalsha_answers true sha bucket n ttl
      refine Prog.All.mono hload fun tr' out' htr' => ?_
      cases out' <;> simpa [Answers, htr.1] using htr'
    · exact (Prog.all_ofExcept _ _).mpr (by rwa [List.append_nil])
  refine silent_bind (fun _ => ⟨rfl, fun y hy => by cases hy⟩) fun sha => ?_
  cases sha with
  | some sha => exact silent_bind (p := pure sha) ⟨rfl, fun y hy => by cases hy⟩ hloading
  | none => exact silent_bind loadScript_silent hloading

/-- A run of the script grants when its only reply is 1. -/
def Grants (key : String) (tr : List LimiterEvent) : Except Raised Bool → Prop
  | .ok granted => ∃ reply, replies tr = [(key, reply)] ∧ granted = (reply == 1)
  | .error x => replies tr = [] ∧ x.limited = false

/-- The breaker neither asks Redis nor refuses a caller. -/
theorem breakerCall_grants (bucket : BucketConfig) (ttl : ℕ) :
    (breakerCall (tryRedisAcquire key bucket ttl)).All (Grants key) := by
  have htry : (tryRedisAcquire key bucket ttl).All (Grants key) := by
    rw [tryRedisAcquire, Prog.all_bind]
    refine (runScript_answers bucket 1 ttl).mono fun tr out htr => ?_
    cases out with
    | ok reply => exact ⟨reply, by rwa [List.append_nil], rfl⟩
    | error x => exact htr
  have hwait : (waitFor (tryRedisAcquire key bucket ttl)).All (Grants key) := by
    rw [waitFor, Prog.all_bind, Prog.all_attempt]
    refine htry.mono fun tr out htr => ?_
    dsimp only
    split
    · exact ⟨by simpa using htr.1, rfl⟩
    · exact (Prog.all_ofExcept _ _).mpr (by rwa [List.append_nil])
  rw [breakerCall, LimiterOp.all_perform_bind]
  rintro (message | ⟨⟩)
  · exact ⟨rfl, rfl⟩
  · rw [Prog.all_bind, Prog.all_attempt]
    refine hwait.mono fun tr out htr => ?_
    have hframe (ok : Bool) (ans : Unit) :
        replies (⟨.enter, .ok ()⟩ :: (tr ++ [⟨.record ok, ans⟩])) = replies tr := by
      rw [← List.cons_append, replies_append]
      exact List.append_nil _
    cases out with
    | error x => exact fun ans => ⟨(hframe false ans).trans htr.1, htr.2⟩
    | ok granted =>
      obtain ⟨reply, hreply, hgranted⟩ := htr
      exact fun ans => ⟨reply, (hframe true ans).trans hreply, hgranted⟩

/-- What Redis replies in a tier, before what remains of the call. -/
theorem acquireTier_replies {tier : Tier} {tenantId sessionId : String} {bucket : BucketConfig} {ttl : ℕ}
    {next : LimiterProg Unit} {Q : List LimiterEvent → Except Raised Unit → Prop}
    (hunsettled : ∀ tr out, replies tr = [] → settled tr out = false → Q tr out)
    (hrefused : ∀ tr reply, replies tr = [(key, reply)] → reply ≠ 1 →
      Q tr (.error (.wazuh tier.rateLimited)))
    (hnext : ∀ tr, replies tr = [(key, 1)] → next.All fun tr' out => Q (tr ++ tr') out) :
    (acquireTier tier tenantId sessionId key bucket ttl next).All Q := by
  rw [acquireTier, Prog.all_bind, Prog.all_attempt]
  refine (breakerCall_grants bucket ttl).mono fun tr out htr => ?_
  rcases out with x | granted
  · obtain ⟨hsilent, hlimited⟩ := htr
    cases hrouted : x.routed with
    | true =>
      simp only [hrouted, if_true]
      intro ans
      refine (Prog.all_ofExcept _ _).mpr (hunsettled _ _ ?_ ?_)
      · rw [replies_append, hsilent]
        rfl
      · cases ans <;> simp [settled, isFallback, Except.mapError]
    | false =>
      simp only [hrouted, Bool.false_eq_true, if_false]
      exact hunsettled _ _ (by simpa using hsilent) (by simp [settled, hlimited])
  · obtain ⟨reply, hreply, rfl⟩ := htr
    by_cases hone : reply = 1
    · subst hone
      exact hnext tr hreply
    · simp only [beq_eq_false_iff_ne.mpr hone, Bool.not_false, if_true]
      exact hrefused _ reply (by simpa using hreply) hone

theorem settled_append {tr tr' : List LimiterEvent} {out : Except Raised Unit}
    (h : settled tr' out = false) : settled (tr ++ tr') out = false := by
  rcases out with x | ⟨⟩
  · simp only [settled, List.any_append, Bool.and_eq_false_iff, Bool.not_eq_false'] at h ⊢
    exact h.imp_right fun hany => by rw [hany, Bool.or_true]
  · simp only [settled, List.any_append, Bool.not_eq_false'] at h ⊢
    rw [h, Bool.or_true]

/-- What Redis replies to a call, in the course of it: nothing, or once for the tenant's bucket and
then, if that was granted, at most once for the session's. A call that Redis has decided, it has
replied to for as long as it was granted. -/
inductive Course (tenantKey sessionKey : String) (tr : List LimiterEvent) (out : Except Raised Unit) :
    Prop
  | unasked (hreplies : replies tr = []) (hunsettled : settled tr out = false)
  | refused {reply} (hreplies : replies tr = [(tenantKey, reply)]) (hne : reply ≠ 1)
  | unsettled (hreplies : replies tr = [(tenantKey, 1)]) (hunsettled : settled tr out = false)
  | asked {reply} (hreplies : replies tr = [(tenantKey, 1), (sessionKey, reply)])

/-- **The course of a call.** -/
theorem acquire_course (limits : Limits) (keyPrefix : String) (c : Caller) :
    (acquire limits keyPrefix c.tenantId.text c.sessionId).All
      (Course (bucketKey keyPrefix (c.bucket .tenant)) (bucketKey keyPrefix (c.bucket .session))) := by
  simp only [acquire]
  rcases ttlFor_binary64 (limits.cfg c.tenantId.text) with ⟨-, ttl, httl⟩ | ⟨-, httl⟩ <;> rw [httl]
  · refine acquireTier_replies (fun tr out => .unasked) (fun tr reply => .refused) fun tr hreplies => ?_
    have hboth (reply : ℕ) (tr' : List LimiterEvent)
        (hreply : replies tr' = [(bucketKey keyPrefix (c.bucket .session), reply)]) :
        replies (tr ++ tr') = [(bucketKey keyPrefix (c.bucket .tenant), 1),
          (bucketKey keyPrefix (c.bucket .session), reply)] := by
      rw [replies_append, hreplies, hreply]
      rfl
    refine acquireTier_replies (fun tr' out hsilent hout => ?_) (fun tr' reply hreply _ => ?_)
      fun tr' hreply => ?_
    · refine .unsettled ?_ (settled_append hout)
      rw [replies_append, hreplies, hsilent]
      rfl
    · exact .asked (hboth reply tr' hreply)
    · refine .asked (hboth 1 (tr' ++ []) ?_)
      rwa [List.append_nil]
  · exact .unasked rfl rfl

end Replies

/-! ## What a call performs -/

/-- The arguments with which the script is run for a bucket. -/
structure IsScriptCall (limits : Limits) (keyPrefix : String) (b : BucketId) (call : ScriptCall) :
    Prop where
  key : call.key = bucketKey keyPrefix b
  capacity : call.capacity = (b.config limits).capacity
  refill : call.refillPerSec = (b.config limits).refillPerSec
  n : call.n = 1
  ttl : ttlFor .binary64 (limits.cfg b.tenantId.text) = .ok call.ttl

/-- The script is run for a bucket of the call's, and the fallback is asked for what the call asks. -/
def Performs (limits : Limits) (keyPrefix : String) (c : Caller) : LimiterEvent → Prop
  | ⟨.evalsha _ _ call, _⟩ => ∃ tier, IsScriptCall limits keyPrefix (c.bucket tier) call
  | ⟨.fallback tenantId sessionId, _⟩ => tenantId = c.tenantId.text ∧ sessionId = c.sessionId
  | _ => True

section Performs

variable {limits : Limits} {keyPrefix : String} {c : Caller} {ttl : ℕ}

theorem every_perform (op : LimiterOp) (h : ∀ ans, Performs limits keyPrefix c ⟨op, ans⟩) :
    op.perform.Every (Performs limits keyPrefix c) :=
  fun ans => ⟨h ans, trivial⟩

theorem loadScript_every : loadScript.Every (Performs limits keyPrefix c) := by
  refine Prog.every_bind (fun out => ⟨trivial, Prog.every_ofExcept _⟩) fun sha => ?_
  exact Prog.every_bind (every_perform _ fun _ => trivial) fun _ => trivial

theorem tryRedisAcquire_every {tier : Tier}
    (httl : ttlFor .binary64 (limits.cfg c.tenantId.text) = .ok ttl) :
    (tryRedisAcquire (bucketKey keyPrefix (c.bucket tier)) ((c.bucket tier).config limits) ttl).Every
      (Performs limits keyPrefix c) := by
  have htenant : (c.bucket tier).tenantId = c.tenantId := by cases tier <;> rfl
  have heval (again : Bool) (sha : String) :
      (evalsha again sha (bucketKey keyPrefix (c.bucket tier)) ((c.bucket tier).config limits) 1 ttl).Every
        (Performs limits keyPrefix c) := by
    refine Prog.every_bind (every_perform _ fun _ => trivial) fun nowMs out => ⟨⟨tier, ?_⟩, ?_⟩
    · exact ⟨rfl, rfl, rfl, rfl, htenant ▸ httl⟩
    · exact Prog.every_ofExcept _
  have hloading (sha : String) : (evalshaLoading sha (bucketKey keyPrefix (c.bucket tier))
      ((c.bucket tier).config limits) 1 ttl).Every (Performs limits keyPrefix c) := by
    refine Prog.every_bind (Prog.every_attempt (heval false sha)) fun out => ?_
    split
    · exact Prog.every_bind loadScript_every fun sha => heval true sha
    · exact Prog.every_ofExcept _
  refine Prog.every_bind (Prog.every_bind (every_perform _ fun _ => trivial) fun sha => ?_)
    fun _ => trivial
  cases sha with
  | some sha => exact Prog.every_bind trivial fun sha => hloading sha
  | none => exact Prog.every_bind loadScript_every fun sha => hloading sha

theorem breakerCall_every {α : Type} {fn : LimiterProg α} (h : fn.Every (Performs limits keyPrefix c)) :
    (breakerCall fn).Every (Performs limits keyPrefix c) := by
  have hwait : (waitFor fn).Every (Performs limits keyPrefix c) := by
    refine Prog.every_bind (Prog.every_attempt h) fun out => ?_
    split
    · trivial
    · exact Prog.every_ofExcept _
  refine Prog.every_bind (every_perform _ fun _ => trivial) fun entered => ?_
  split
  · trivial
  · refine Prog.every_bind (Prog.every_attempt hwait) fun out => ?_
    split
    · exact Prog.every_bind (every_perform _ fun _ => trivial) fun _ => trivial
    · exact Prog.every_bind (every_perform _ fun _ => trivial) fun _ => trivial

theorem acquireTier_every (tier : Tier) {next : LimiterProg Unit}
    (httl : ttlFor .binary64 (limits.cfg c.tenantId.text) = .ok ttl)
    (hnext : next.Every (Performs limits keyPrefix c)) :
    (acquireTier tier c.tenantId.text c.sessionId (bucketKey keyPrefix (c.bucket tier))
      ((c.bucket tier).config limits) ttl next).Every (Performs limits keyPrefix c) := by
  refine Prog.every_bind (Prog.every_attempt (breakerCall_every (tryRedisAcquire_every httl)))
    fun out => ?_
  split
  · split
    · exact fun out => ⟨⟨rfl, rfl⟩, Prog.every_ofExcept _⟩
    · trivial
  · split
    · trivial
    · exact hnext

end Performs

/-- A call performs nothing for other buckets than its own. -/
theorem acquire_every (limits : Limits) (keyPrefix : String) (c : Caller) :
    (acquire limits keyPrefix c.tenantId.text c.sessionId).Every (Performs limits keyPrefix c) := by
  rcases ttlFor_binary64 (limits.cfg c.tenantId.text) with ⟨-, ttl, httl⟩ | ⟨-, httl⟩ <;>
    simp only [acquire, httl]
  · exact acquireTier_every .tenant httl (acquireTier_every .session httl trivial)
  · trivial

end WazuhMcp.RateLimit
