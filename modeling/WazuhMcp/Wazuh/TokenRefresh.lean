import Mathlib.Data.List.Basic
import WazuhMcp.Foundations.Pool
import WazuhMcp.Wazuh.ServerApi

/-!
# Refreshing the token

A request that is answered 401 takes the lock, has a new token minted and goes out once more with it.
The lock is there so that several requests refused with one token have one new token minted between
them. But `_refresh_jwt_force` mints whenever it gets the lock, and does not look whether the token has
been replaced since the request went out.

`traced_exchange` says what a request does, step by step, and `single_mint_iff` what follows for any
number of requests at once: they have one token minted between them only if they are one.
-/

namespace WazuhMcp.ServerApiClient

open Interact Prog

/-- A request but for the token that it will carry. -/
structure Outgoing where
  build : String → UpRequest
  authorization : ∀ jwt, (build jwt).authorization = .bearer jwt

/-- The request that `_request` sends. -/
def outgoing (method path : String) (params : JsonObject) (json : Option Json)
    (runAs : Option String) : Outgoing where
  build jwt :=
    { upstream := .serverApi
      method := method
      path := path
      params := effectiveParams params runAs
      payload := json.elim .empty .json
      authorization := .bearer jwt }
  authorization _ := rfl

theorem request_eq_exchange (method path : String) (params : JsonObject) (json : Option Json)
    (runAs : Option String) :
    request method path params json runAs =
      exchange (outgoing method path params json runAs).build := rfl

/-! ## What a request does -/

/-- The token that a request carries. -/
def bearerOf (req : UpRequest) : Option String :=
  match req.authorization with
  | .bearer token => some token
  | .basic => none

/-- The tokens of the requests of a trace. -/
def bearers (tr : List UpEvent) : List String := (requests tr).filterMap bearerOf

/-- The token that the step puts in the place of the cached one. -/
def storedToken (ev : UpEvent) : Option String :=
  match ev.op with
  | .storeToken token => some token
  | _ => none

/-- The tokens that have been minted in a trace. -/
def minted (tr : List UpEvent) : List String := tr.filterMap storedToken

/-- The token of a request that was answered 401. -/
def refusal : UpEvent → Option String
  | ⟨.send req, .ok resp⟩ => if resp.statusCode = 401 then bearerOf req else none
  | _ => none

/-- The token of the first request that was answered 401, and what came after. -/
def firstRefusal : List UpEvent → Option (String × List UpEvent)
  | [] => none
  | ev :: tr =>
    match refusal ev with
    | some token => some (token, tr)
    | none => firstRefusal tr

variable {tr tr' : List UpEvent} {ev ev' : UpEvent}

theorem bearers_append : bearers (tr ++ tr') = bearers tr ++ bearers tr' := by
  rw [bearers, requests, List.filterMap_append, List.filterMap_append]
  rfl

theorem bearers_cons : bearers (ev :: tr) = (ev.op.request.bind bearerOf).toList ++ bearers tr := by
  unfold bearers requests
  rw [List.filterMap_filterMap, List.filterMap_filterMap, List.filterMap_cons]
  cases ev.op.request.bind bearerOf <;> rfl

theorem minted_append : minted (tr ++ tr') = minted tr ++ minted tr' := List.filterMap_append

/-- A request that is answered has been sent. -/
theorem bearers_ne_nil_of_refusal (h : (refusal ev).isSome) : bearers [ev] ≠ [] := by
  obtain ⟨op, ans⟩ := ev
  rw [bearers_cons]
  cases op with
  | send req =>
    cases ans with
    | error x => cases h
    | ok resp =>
      unfold refusal at h
      dsimp only at h
      split at h
      · obtain ⟨token, htoken⟩ := Option.isSome_iff_exists.mp h
        simp [UpOp.request, htoken]
      · cases h
  | _ => cases h

/-- Nothing that goes before the first request is refused. -/
theorem firstRefusal_append (h : bearers tr = []) : firstRefusal (tr ++ tr') = firstRefusal tr' := by
  induction tr with
  | nil => rfl
  | cons ev tr ih =>
    have happend : bearers ([ev] ++ tr) = [] := h
    rw [bearers_append, List.append_eq_nil_iff] at happend
    have hnone : refusal ev = none := by
      by_contra hsome
      exact bearers_ne_nil_of_refusal (Option.isSome_iff_ne_none.mpr hsome) happend.1
    rw [List.cons_append, firstRefusal, hnone]
    exact ih happend.2

/-- **What a request does**, as far as it gets: it goes out at most once, unless it is answered 401;
then it may go out once more, with the one token that has been minted in between. -/
inductive Traced : List UpEvent → Prop
  | unsent {tr : List UpEvent} (h : bearers tr = []) : Traced tr
  | sent {tr : List UpEvent} {ev : UpEvent} (h : bearers tr = []) : Traced (tr ++ [ev])
  | refused {tr tr' : List UpEvent} {ev : UpEvent} (h : bearers tr = []) (hev : (refusal ev).isSome)
      (h' : bearers tr' = []) : Traced (tr ++ ev :: tr')
  | replayed {tr tr' : List UpEvent} {ev ev' : UpEvent} {jwt : String} (h : bearers tr = [])
      (hev : (refusal ev).isSome) (h' : bearers tr' = []) (hminted : minted tr' = [jwt])
      (hbearer : bearers [ev'] = [jwt]) : Traced (tr ++ ev :: (tr' ++ [ev']))

/-- A list that begins like another ends before an item of it, or not before. -/
theorem append_eq_append_cons {α : Type} {xs ys pre post : List α} {a : α}
    (h : xs ++ ys = pre ++ a :: post) :
    (∃ mid, pre = xs ++ mid) ∨ ∃ mid, xs = pre ++ a :: mid ∧ post = mid ++ ys := by
  rcases List.append_eq_append_iff.mp h with ⟨mid, hpre, -⟩ | ⟨mid, hxs, hpost⟩
  · exact .inl ⟨mid, hpre⟩
  · cases mid with
    | nil => exact .inl ⟨[], by simpa using hxs.symm⟩
    | cons b mid =>
      obtain ⟨rfl, htail⟩ := List.cons.inj hpost
      exact .inr ⟨mid, hxs, htail⟩

theorem bearers_left (h : bearers (tr ++ tr') = []) : bearers tr = [] := by
  rw [bearers_append] at h
  exact (List.append_eq_nil_iff.mp h).1

/-- What has been done so far is what a request does. -/
theorem Traced.prefix {whole : List UpEvent} (h : Traced whole) (heq : tr ++ tr' = whole) :
    Traced tr := by
  cases h with
  | unsent h =>
    rw [← heq] at h
    exact .unsent (bearers_left h)
  | sent h =>
    rcases append_eq_append_cons heq with ⟨mid, rfl⟩ | ⟨mid, rfl, hmid⟩
    · exact .unsent (bearers_left h)
    · obtain ⟨rfl, -⟩ := List.append_eq_nil_iff.mp hmid.symm
      exact .sent h
  | refused h hev h' =>
    rcases append_eq_append_cons heq with ⟨mid, rfl⟩ | ⟨mid, rfl, rfl⟩
    · exact .unsent (bearers_left h)
    · exact .refused h hev (bearers_left h')
  | replayed h hev h' hminted hbearer =>
    rcases append_eq_append_cons heq with ⟨mid, rfl⟩ | ⟨mid, rfl, hmid⟩
    · exact .unsent (bearers_left h)
    · rcases append_eq_append_cons hmid.symm with ⟨mid', rfl⟩ | ⟨mid', rfl, hnil⟩
      · exact .refused h hev (bearers_left h')
      · obtain ⟨rfl, -⟩ := List.append_eq_nil_iff.mp hnil.symm
        exact .replayed h hev h' hminted hbearer

/-- Nothing is sent with a token. -/
theorem bearers_of_sends {α : Type} {p : UpProg α} (h : p.Sends fun req => bearerOf req = none) :
    p.All fun tr _ => bearers tr = [] :=
  h.all.mono fun _ _ hall => List.filterMap_eq_nil_iff.mpr hall

theorem bearers_ensureJwt : ensureJwt.All fun tr _ => bearers tr = [] := by
  refine bearers_of_sends (UpProg.sends_bind sends_lock fun _ => ?_)
  refine UpProg.sends_op (by rintro _ ⟨⟩) fun r => ?_
  cases r with
  | none => exact sends_mintLocked rfl
  | some token => trivial

/-- A token that is returned has been minted, and no other. -/
theorem minted_mintLocked :
    mintLocked.All fun tr out => ∀ token, out = .ok token → minted tr = [token] := by
  refine (all_bind _ _ _).mpr fun r => ?_
  cases r with
  | error x => exact fun _ h => by cases h
  | ok resp =>
    show Prog.All (if 400 ≤ resp.statusCode then _ else _) _
    split
    · exact fun _ h => by cases h
    · refine all_ofExcept_bind (fun body _ => ?_) fun x _ _ h => by cases h
      refine all_ofExcept_bind (fun data _ => ?_) fun x _ _ h => by cases h
      refine all_ofExcept_bind (fun token _ => ?_) fun x _ _ h => by cases h
      split
      · split
        · exact fun _ h => by cases h
        · intro _ token' h
          obtain rfl := Except.ok.inj h
          rfl
      · exact fun _ h => by cases h

theorem refreshJwtForce_all :
    refreshJwtForce.All fun tr out =>
      bearers tr = [] ∧ ∀ token, out = .ok token → minted tr = [token] := by
  refine All.and ?_ ?_
  · exact bearers_of_sends (UpProg.sends_bind sends_lock fun _ => sends_mintLocked rfl)
  · intro r
    cases r with
    | error x => exact fun _ h => by cases h
    | ok _ => exact minted_mintLocked

/-- What is done after the response that counts sends nothing. -/
theorem all_finish {resp : UpResponse} {Q : List UpEvent → Except Exn Json → Prop}
    (h : ∀ out, Q [] out) :
    (if 400 ≤ resp.statusCode then .raise (.wazuh (mapHttpError resp.statusCode))
      else ofExcept (rethrow resp.json) : UpProg Json).All Q := by
  split
  · exact h _
  · exact (all_ofExcept _ _).mpr (h _)

theorem traced_exchange (r : Outgoing) : (exchange r.build).All fun tr _ => Traced tr := by
  have hbearer (jwt : String) (ans : UpOp.Result (.send (r.build jwt))) :
      bearers [⟨.send (r.build jwt), ans⟩] = [jwt] := by
    simp [UpOp.request, bearerOf, r.authorization, bearers, requests]
  refine (all_bind _ _ _).mpr (bearers_ensureJwt.mono fun tr out htr => ?_)
  cases out with
  | error x => exact .unsent htr
  | ok token =>
    refine (all_bind _ _ _).mpr fun ans => ?_
    cases ans with
    | error x => exact .sent htr
    | ok resp =>
      refine (all_bind _ _ _).mpr ?_
      unfold replay
      split
      · rename_i hstatus
        have hrefusal : (refusal ⟨.send (r.build token), .ok resp⟩).isSome := by
          simp [refusal, hstatus, bearerOf, r.authorization]
        refine (all_bind _ _ _).mpr (refreshJwtForce_all.mono ?_)
        rintro tr' out ⟨htr', hminted⟩
        cases out with
        | error x => exact .refused htr hrefusal htr'
        | ok jwt =>
          intro ans'
          have hreplayed : Traced (tr ++ ⟨.send (r.build token), .ok resp⟩ ::
              (tr' ++ [⟨.send (r.build jwt), ans'⟩])) :=
            .replayed htr hrefusal htr' (hminted jwt rfl) (hbearer jwt ans')
          cases ans' with
          | error x => exact hreplayed
          | ok resp' => exact all_finish fun out => by simpa using hreplayed
      · exact all_finish fun out => by simpa using Traced.sent htr

/-! ## Several requests at once -/

/-- The tokens minted for a request after it was refused. -/
def mintedAfter (tr : List UpEvent) : List String :=
  (firstRefusal tr).elim [] fun refused => minted refused.2

/-- The tokens that a request went out with after it was refused. -/
def replays (tr : List UpEvent) : List String :=
  (firstRefusal tr).elim [] fun refused => bearers refused.2

/-- What counts as gone out again, and as minted in between. -/
theorem replays_of_refusal {token : String} (tr' : List UpEvent) (h : bearers tr = [])
    (hev : refusal ev = some token) :
    replays (tr ++ ev :: tr') = bearers tr' ∧ mintedAfter (tr ++ ev :: tr') = minted tr' := by
  have hfirst : firstRefusal (tr ++ ev :: tr') = some (token, tr') := by
    rw [firstRefusal_append h, firstRefusal, hev]
  unfold replays mintedAfter
  rw [hfirst]
  exact ⟨rfl, rfl⟩

theorem replays_of_bearers (h : bearers tr = []) : replays tr = [] := by
  have hfirst : firstRefusal (tr ++ []) = none := firstRefusal_append h
  rw [List.append_nil] at hfirst
  rw [replays, hfirst]
  rfl

/-- A step that sends mints nothing. -/
theorem minted_of_bearers {jwt : String} (h : bearers [ev] = [jwt]) : minted [ev] = [] := by
  obtain ⟨op, ans⟩ := ev
  cases op with
  | storeToken token => cases h
  | _ => rfl

/-- A request that has gone out again did so once, with the one token minted for it. -/
theorem Traced.replays_eq (h : Traced tr) (hreplayed : replays tr ≠ []) :
    ∃ jwt, replays tr = [jwt] ∧ mintedAfter tr = [jwt] := by
  cases h with
  | unsent h => exact absurd (replays_of_bearers h) hreplayed
  | @sent tr ev h =>
    cases hev : refusal ev with
    | none =>
      have hnone : firstRefusal (tr ++ [ev]) = none := by
        rw [firstRefusal_append h, firstRefusal, hev]
        rfl
      rw [replays, hnone] at hreplayed
      exact absurd rfl hreplayed
    | some token => exact absurd (replays_of_refusal _ h hev).1 hreplayed
  | refused h hev h' =>
    obtain ⟨token, htoken⟩ := Option.isSome_iff_exists.mp hev
    exact absurd ((replays_of_refusal _ h htoken).1.trans h') hreplayed
  | @replayed tr tr' ev ev' jwt h hev h' hminted hbearer =>
    obtain ⟨token, htoken⟩ := Option.isSome_iff_exists.mp hev
    obtain ⟨hreplays, hmintedAfter⟩ := replays_of_refusal (tr' ++ [ev']) h htoken
    refine ⟨jwt, ?_, ?_⟩
    · rw [hreplays, bearers_append, h', hbearer]
      rfl
    · rw [hmintedAfter, minted_append, hminted, minted_of_bearers hbearer]
      rfl

/-- A request at work. -/
abbrev RequestTask (C : Type) := Task UpOp UpOp.Result Exn Json Outgoing C

/-- The request went out with the token first, was answered 401, and has gone out again. -/
structure Replayed {C : Type} (bearer : String) (t : RequestTask C) : Prop where
  refused : ∃ after, firstRefusal t.trace = some (bearer, after)
  replayed : replays t.trace ≠ []

/-- One token has been minted for the requests since they were refused, and all went out with it. -/
def SingleMint {C : Type} (ts : List (RequestTask C)) : Prop :=
  ∃ jwt, ts.flatMap (fun t => mintedAfter t.trace) = [jwt] ∧ ∀ t ∈ ts, replays t.trace = [jwt]

section Requests

variable {C D W : Type} (env : Habitat UpOp UpOp.Result Outgoing C D W) (w : W)
  (acts : List (PoolAction Outgoing C D))

/-- A run of any number of requests, whatever becomes of their steps. -/
abbrev requestsRun : Pool UpOp UpOp.Result Exn Json Outgoing C W :=
  Runs.exec (Pool.step (fun r => exchange r.build) env) (Pool.new w) acts

instance (op : UpOp) : Inhabited op.Result := ⟨servingEnv op⟩

/-- Every request of the run does what a request does. -/
theorem traced_of_mem {t : RequestTask C} (ht : t ∈ (requestsRun env w acts).tasks) :
    Traced t.trace := by
  have hall := Pool.all_exec (Q := fun _ tr _ => Traced tr) _ env traced_exchange w acts t ht
  obtain ⟨more, out, htraced⟩ := hall.exists_completion
  exact htraced.prefix rfl

/-- **Requests that were refused and have gone out again** have had one token minted between them,
which all of them used, exactly if they are one. -/
theorem single_mint_iff (bearer : String) (ts : List (RequestTask C))
    (hts : ts.Sublist (requestsRun env w acts).tasks) (hne : ts ≠ [])
    (hreplayed : ∀ t ∈ ts, Replayed bearer t) : SingleMint ts ↔ ts.length = 1 := by
  have heach : ∀ t ∈ ts, ∃ jwt, replays t.trace = [jwt] ∧ mintedAfter t.trace = [jwt] := fun t ht =>
    (traced_of_mem env w acts (hts.subset ht)).replays_eq (hreplayed t ht).replayed
  have hlength : (ts.flatMap fun t => mintedAfter t.trace).length = ts.length := by
    have hone : ts.map (fun t => (mintedAfter t.trace).length) = List.replicate ts.length 1 := by
      refine List.map_eq_replicate_iff.mpr fun t ht => ?_
      obtain ⟨jwt, -, hminted⟩ := heach t ht
      rw [hminted]
      rfl
    rw [List.length_flatMap, hone]
    simp
  constructor
  · rintro ⟨jwt, hminted, -⟩
    rw [← hlength, hminted]
    rfl
  · intro hone
    obtain ⟨t, rfl⟩ := List.length_eq_one_iff.mp hone
    obtain ⟨jwt, hreplays, hminted⟩ := heach t (List.mem_singleton_self t)
    refine ⟨jwt, by simpa using hminted, ?_⟩
    simpa using hreplays

end Requests

/-! ## The client's lock and its token -/

/-- The token that `_mint_locked` reads off a response. -/
def readToken : Except ForeignExn UpResponse → Option String
  | .error _ => none
  | .ok resp =>
    if 400 ≤ resp.statusCode then none
    else
      match (do (← (← rethrow resp.json).getD "data" (.obj [])).getD "token" .null) with
      | .ok (.str token) => if token = "" then none else some token
      | _ => none

/-- What the requests of a client share: its lock and its cached token. -/
structure TokenCache where
  locked : Bool := false
  token : Option String := none

/-- What decides over a step of a request. -/
inductive TokenChoice where
  | proceed
  /-- the task is cancelled while it waits for the lock -/
  | interrupt (x : ForeignExn)
  /-- the cached token is younger than 80% of its lifetime, or not -/
  | fresh (young : Bool)
  | answer (ans : Except ForeignExn UpResponse)

/-- The lock is free before it is taken, and released where the block under it is left: with a fresh
token, with a new one, or with an exception. -/
def clientHabitat : Habitat UpOp UpOp.Result Outgoing TokenChoice Unit TokenCache where
  serve cache _ op choice :=
    match op, choice with
    | .lock, .proceed => if cache.locked then none else some (.ok (), { cache with locked := true })
    | .lock, .interrupt x => some (.error x, cache)
    | .freshToken, .fresh young =>
      let token := if young then cache.token else none
      some (token, { cache with locked := token.isNone })
    | .storeToken token, .proceed => some ((), ⟨false, some token⟩)
    | .send req, .answer ans =>
      let left := bearerOf req = none ∧ readToken ans = none
      some (ans, { cache with locked := cache.locked && !decide left })
    | _, _ => none
  move cache _ := cache

/-- A response that hands out a token. -/
def mintedAnswer (token : String) : TokenChoice :=
  .answer (.ok ⟨200, .ok (.obj [("data", .obj [("token", .str token)])])⟩)

/-- The token is not, or no longer, accepted. -/
def refusedAnswer : TokenChoice := .answer (.ok ⟨401, .ok .null⟩)

/-- Request `i` finds no token, and has one minted. -/
def mintAt (i : ℕ) (token : String) : List (PoolAction Outgoing TokenChoice Unit) :=
  [.serve i .proceed, .serve i (.fresh false), .serve i (mintedAnswer token), .serve i .proceed]

/-- Request `i`, after it has been refused, has a token minted and goes out with it. -/
def replayAt (i : ℕ) (token : String) : List (PoolAction Outgoing TokenChoice Unit) :=
  [.serve i .proceed, .serve i (mintedAnswer token), .serve i .proceed,
    .serve i (.answer (.ok ⟨200, .ok (.obj [])⟩))]

/-- `get("/agents")` -/
def exampleRequest : Outgoing := outgoing "GET" "/agents" [] none none

/-- A request that is refused, and goes out again. -/
def oneRefused : List (PoolAction Outgoing TokenChoice Unit) :=
  [.start exampleRequest] ++ mintAt 0 "a" ++ [.serve 0 refusedAnswer] ++ replayAt 0 "b"

theorem single_mint_iff_of_one :
    (∀ t ∈ (requestsRun clientHabitat {} oneRefused).tasks, Replayed "a" t) ∧
      (SingleMint (requestsRun clientHabitat {} oneRefused).tasks ↔
        (requestsRun clientHabitat {} oneRefused).tasks.length = 1) := by
  have hreplayed : ∀ t ∈ (requestsRun clientHabitat {} oneRefused).tasks, Replayed "a" t :=
    List.forall_mem_singleton.mpr ⟨⟨_, rfl⟩, List.cons_ne_nil "b" []⟩
  exact ⟨hreplayed, single_mint_iff clientHabitat {} oneRefused "a" _ (List.Sublist.refl _)
    (List.cons_ne_nil _ _) hreplayed⟩

/-- Two requests that go out with one token and are both refused. The second waits for the lock while
the first has a new token minted, and then has another one minted. -/
def twoRefused : List (PoolAction Outgoing TokenChoice Unit) :=
  [.start exampleRequest, .start exampleRequest] ++ mintAt 0 "a" ++
    [.serve 1 .proceed, .serve 1 (.fresh true), .serve 0 refusedAnswer, .serve 1 refusedAnswer] ++
    replayAt 0 "b" ++ replayAt 1 "c"

/-- The two requests have two tokens minted. -/
theorem not_single_mint :
    ¬ ∀ (acts : List (PoolAction Outgoing TokenChoice Unit)) (bearer : String)
      (ts : List (RequestTask TokenChoice)),
      ts.Sublist (requestsRun clientHabitat {} acts).tasks → ts ≠ [] →
        (∀ t ∈ ts, Replayed bearer t) → SingleMint ts := by
  intro h
  have hreplayed : ∀ t ∈ (requestsRun clientHabitat {} twoRefused).tasks, Replayed "a" t :=
    List.forall_mem_cons.mpr ⟨⟨⟨_, rfl⟩, List.cons_ne_nil "b" []⟩,
      List.forall_mem_singleton.mpr ⟨⟨_, rfl⟩, List.cons_ne_nil "c" []⟩⟩
  obtain ⟨jwt, hminted, -⟩ := h twoRefused "a" _ (List.Sublist.refl _) (List.cons_ne_nil _ _) hreplayed
  have htwo : ["b", "c"] = [jwt] := hminted
  cases htwo

end WazuhMcp.ServerApiClient
