import Mathlib.Algebra.Order.Field.Rat
import Mathlib.Logic.Relation
import WazuhMcp.Base.DictKey
import WazuhMcp.Base.Json
import WazuhMcp.Foundations.Runs
import WazuhMcp.Tenancy.IssuerIndex

/-!
# The JWKS cache

`JwksCache.get_key` makes sure that the issuer's discovery document has been read, looks the key id up,
and on a miss fetches the key set again, unless a miss has done so within the time to live. Discovery
and the fetches of the key set run under the lock of the cache, which waiters take in the order they
came; between its discovery and the fetch that follows a call gives the lock up and takes it again.

A run is a list of steps of any number of calls: a call of `get_key` up to its first await, the first
waiter takes the lock, a request is answered in whatever way, a call is cancelled at its await. Each
runs on to the next await of its call. Besides the fields of the cache, the state of a run keeps the
calls, the requests and what came of them, and the readings of the clock at which a miss triggered a
fetch.
-/

namespace WazuhMcp

/-- What the identity provider answers to a request: a response, with what `resp.json()` comes to, or
an exception of the HTTP client, by its class. -/
inductive IdpAnswer where
  | response (statusCode : ℕ) (json : Except String Json)
  | failed (name : String)

/-- What a request is for: discovery, the fetch of the key set after it, or a fetch after a miss. -/
inductive IdpPurpose where
  | discovery
  | initial
  | miss
  deriving DecidableEq

/-- A request of call `caller`. -/
structure IdpRequest where
  caller : ℕ
  purpose : IdpPurpose
  url : Json

/-- What came of a request. -/
structure IdpResponse where
  caller : ℕ
  purpose : IdpPurpose
  answer : IdpAnswer

/-- What a call of `get_key` comes to. -/
abbrev KeyOutcome := Except Exn (Option Json)

/-- Where a call of `get_key` is: on its way, waiting for the lock, awaiting an answer with the lock
held, or ended. -/
inductive KeyPoint where
  | running
  | waiting (purpose : IdpPurpose)
  | requesting (purpose : IdpPurpose)
  | ended (out : KeyOutcome)

/-- A call of `get_key(kid)`. -/
structure KeyCall where
  kid : Json
  point : KeyPoint

/-- `JwksCache(issuer=…, ttl_seconds=…)`, as far as it does not change. -/
structure JwksCache where
  issuer : String
  ttlSeconds : ℤ

/-- `JwksCache(issuer=…, ttl_seconds=…)` -/
def JwksCache.new (issuer : String) (ttlSeconds : ℤ) : JwksCache := ⟨canonicalise issuer, ttlSeconds⟩

/-- `disco_url` -/
def JwksCache.discoUrl (cache : JwksCache) : String :=
  cache.issuer ++ "/.well-known/openid-configuration"

/-- A run of a `JwksCache`. The time `lastRefreshOnMiss` is `none` for minus infinity; `holder` has the
lock, and `queue` waits for it. -/
structure JwksRun where
  jwksUri : Option Json := none
  keys : Dict DictKey Json := []
  lastRefreshOnMiss : Option ℚ := none
  holder : Option ℕ := none
  queue : List ℕ := []
  calls : List KeyCall := []
  triggers : List ℚ := []
  requests : List IdpRequest := []
  responses : List IdpResponse := []

/-- A step of a run. The readings of the clock are those of the lookup, if the step comes to one. -/
inductive JwksAction where
  /-- a call of `get_key(kid)` -/
  | start (kid : Json) (now : ℚ)
  /-- the first waiter takes the lock, if it is free -/
  | acquire (now : ℚ)
  /-- the request of call `i` is answered -/
  | answer (i : ℕ) (ans : IdpAnswer) (now : ℚ)
  /-- call `i` is cancelled at its await -/
  | cancel (i : ℕ)

/-! ## Reading the answers -/

/-- `jwks_uri`, as discovery reads it off the response. -/
def IdpAnswer.readUri : IdpAnswer → Except Exn Json
  | .failed name => .error (.exception name)
  | .response statusCode json => do
    if statusCode ≠ 200 then throw (.exception "RuntimeError")
    let body ← json.mapError Exn.exception
    let jwksUri ← body.getD "jwks_uri" .null
    if !jwksUri.truthy then throw (.exception "RuntimeError")
    return jwksUri

/-- One turn of `{k["kid"]: k for k in … if "kid" in k}`. -/
def addKey (keys : Dict DictKey Json) (k : Json) : Except Exn (Dict DictKey Json) := do
  if ← k.contains "kid" then
    let kid ← k.item "kid"
    match kid.hashed with
    | some h => return keys.set h k
    | none => throw Exn.typeError
  else
    return keys

/-- `new_keys`, as `_refresh` reads them off the response; `none` where it keeps the old ones. -/
def IdpAnswer.readKeys : IdpAnswer → Except Exn (Option (Dict DictKey Json))
  | .failed name => .error (.exception name)
  | .response statusCode json => do
    if statusCode ≠ 200 then return none
    let body ← json.mapError Exn.exception
    let keys ← (← body.getD "keys" (.arr [])).iter
    some <$> keys.foldlM addKey []

/-! ## Steps of a call -/

namespace JwksRun

variable (cache : JwksCache) (s : JwksRun) (i : ℕ) (kid : Json) (now : ℚ)

/-- Call `i` for `kid` is at the point. -/
def setPoint (point : KeyPoint) : JwksRun := { s with calls := s.calls.set i ⟨kid, point⟩ }

/-- A request is sent. -/
def sent (r : IdpRequest) : JwksRun := { s with requests := s.requests ++ [r] }

/-- What came of a request. -/
def received (r : IdpResponse) : JwksRun := { s with responses := s.responses ++ [r] }

/-- The lock is held by `i`, or by nobody. -/
def setHolder (holder : Option ℕ) : JwksRun := { s with holder := holder }

def setKeys (keys : Dict DictKey Json) : JwksRun := { s with keys := keys }

def setQueue (queue : List ℕ) : JwksRun := { s with queue := queue }

/-- The call ends. -/
def finish (out : KeyOutcome) : JwksRun := s.setPoint i kid (.ended out)

/-- `self._keys.get(kid)` -/
def find : KeyOutcome :=
  match kid.hashed with
  | some h => .ok (s.keys.get h)
  | none => .error Exn.typeError

/-- `async with self._lock`, up to where the body starts: at once if nobody has the lock or waits for
it, and else once the call is the first waiter. -/
def withLock (purpose : IdpPurpose) (body : JwksRun → JwksRun) : JwksRun :=
  if s.holder = none ∧ s.queue = [] then body s
  else (s.setQueue (s.queue ++ [i])).setPoint i kid (.waiting purpose)

/-- `await self._client.get(url)` under the lock, up to the await. The client takes no URL that is not
a string. -/
def request (purpose : IdpPurpose) (url : Json) : JwksRun :=
  let s := s.sent ⟨i, purpose, url⟩
  if url.isStr then (s.setHolder (some i)).setPoint i kid (.requesting purpose)
  else (s.received ⟨i, purpose, .failed "TypeError"⟩).finish i kid (.error Exn.typeError)

/-- The body of `_refresh()` under the lock, up to the await; without a URL the call goes on. -/
def refreshLocked (purpose : IdpPurpose) (goOn : JwksRun → JwksRun) : JwksRun :=
  match s.jwksUri with
  | none => goOn s
  | some url => s.request i kid purpose url

/-- `_refresh()`, up to its first await. -/
def refresh (purpose : IdpPurpose) (goOn : JwksRun → JwksRun) : JwksRun :=
  s.withLock i kid purpose fun s => s.refreshLocked i kid purpose goOn

/-- `return self._keys.get(kid)` -/
def finishFound : JwksRun := s.finish i kid (s.find kid)

/-- `now - self._last_refresh_on_miss >= self._ttl` -/
def MissAllowed (ttlSeconds : ℤ) : Prop :=
  ∀ last ∈ s.lastRefreshOnMiss, ttlSeconds ≤ now - last

instance (ttlSeconds : ℤ) : Decidable (s.MissAllowed now ttlSeconds) :=
  inferInstanceAs (Decidable (∀ last ∈ s.lastRefreshOnMiss, ttlSeconds ≤ now - last))

/-- `get_key(kid)` from the lookup on. -/
def lookup : JwksRun :=
  match s.find kid with
  | .error x => s.finish i kid (.error x)
  | .ok (some key) => s.finish i kid (.ok (some key))
  | .ok none =>
    if s.MissAllowed now cache.ttlSeconds then
      let s := { s with lastRefreshOnMiss := some now, triggers := s.triggers ++ [now] }
      s.refresh i kid .miss fun s => s.finishFound i kid
    else s.finishFound i kid

/-- The body of `_ensure_discovered()` under the lock, up to the await. -/
def discoverLocked : JwksRun :=
  match s.jwksUri with
  | some _ => s.lookup cache i kid now
  | none => s.request i kid .discovery (.str cache.discoUrl)

/-- `get_key(kid)`, up to its first await. -/
def getKey : JwksRun :=
  match s.jwksUri with
  | some _ => s.lookup cache i kid now
  | none => s.withLock i kid .discovery fun s => s.discoverLocked cache i kid now

/-- The call goes on with the lock. -/
def locked (purpose : IdpPurpose) : JwksRun :=
  match purpose with
  | .discovery => s.discoverLocked cache i kid now
  | .initial => s.refreshLocked i kid .initial fun s => s.lookup cache i kid now
  | .miss => s.refreshLocked i kid .miss fun s => s.finishFound i kid

/-- The call goes on with the answer to its request; the lock has been released. -/
def answered (purpose : IdpPurpose) (ans : IdpAnswer) : JwksRun :=
  match purpose with
  | .discovery =>
    match ans.readUri with
    | .error x => s.finish i kid (.error x)
    | .ok uri =>
      let s := { s with jwksUri := some uri }
      s.refresh i kid .initial fun s => s.lookup cache i kid now
  | .initial =>
    match ans.readKeys with
    | .error x => s.finish i kid (.error x)
    | .ok none => s.lookup cache i kid now
    | .ok (some keys) => (s.setKeys keys).lookup cache i kid now
  | .miss =>
    match ans.readKeys with
    | .error x => s.finish i kid (.error x)
    | .ok none => s.finishFound i kid
    | .ok (some keys) => (s.setKeys keys).finishFound i kid

/-- A new call. -/
def addCall : JwksRun := { s with calls := s.calls ++ [⟨kid, .running⟩] }

/-- One step of a run. -/
def step : JwksAction → JwksRun
  | .start kid now => (s.addCall kid).getKey cache s.calls.length kid now
  | .acquire now =>
    match s.holder, s.queue with
    | none, i :: queue =>
      match s.calls[i]? with
      | some ⟨kid, .waiting purpose⟩ =>
        ((s.setQueue queue).setPoint i kid .running).locked cache i kid now purpose
      | _ => s
    | _, _ => s
  | .answer i ans now =>
    match s.calls[i]? with
    | some ⟨kid, .requesting purpose⟩ =>
      (((s.setHolder none).received ⟨i, purpose, ans⟩).setPoint i kid .running).answered cache i kid
        now purpose ans
    | _ => s
  | .cancel i =>
    match s.calls[i]? with
    | some ⟨kid, .waiting _⟩ => (s.setQueue (s.queue.erase i)).finish i kid (.error Exn.cancelled)
    | some ⟨kid, .requesting _⟩ => (s.setHolder none).finish i kid (.error Exn.cancelled)
    | _ => s

/-! ## What a step consists of -/

/-- The moves that steps are made of: from one await of a call to the next there are one or two. -/
inductive Move : JwksRun → JwksRun → Prop
  | enter (s : JwksRun) (kid : Json) : Move s (s.addCall kid)
  /-- to the lock of `_ensure_discovered` -/
  | discover {s : JwksRun} {i : ℕ} {kid : Json} (hcall : s.calls[i]? = some ⟨kid, .running⟩)
      (huri : s.jwksUri = none) :
      Move s ((s.setQueue (s.queue ++ [i])).setPoint i kid (.waiting .discovery))
  /-- the lock has been taken, and the URL is there, or none is needed any more -/
  | wake {s : JwksRun} {i : ℕ} {kid : Json} {purpose : IdpPurpose} {queue : List ℕ}
      (hcall : s.calls[i]? = some ⟨kid, .waiting purpose⟩) (hholder : s.holder = none)
      (hqueue : s.queue = i :: queue) :
      Move s ((s.setQueue queue).setPoint i kid .running)
  /-- a request is sent under the lock -/
  | send {s : JwksRun} {i : ℕ} {kid : Json} {purpose : IdpPurpose} {queue : List ℕ} {url : String}
      (hcall : s.calls[i]? = some ⟨kid, .waiting purpose⟩) (hholder : s.holder = none)
      (hqueue : s.queue = i :: queue)
      (hurl : if purpose = .discovery then s.jwksUri = none ∧ url = cache.discoUrl
        else s.jwksUri = some (.str url)) :
      Move s ((((s.setQueue queue).sent ⟨i, purpose, .str url⟩).setHolder (some i)).setPoint i kid
        (.requesting purpose))
  /-- the client refuses a URL that is not a string -/
  | refuse {s : JwksRun} {i : ℕ} {kid : Json} {purpose : IdpPurpose} {queue : List ℕ} {url : Json}
      (hcall : s.calls[i]? = some ⟨kid, .waiting purpose⟩) (hholder : s.holder = none)
      (hqueue : s.queue = i :: queue) (hpurpose : purpose ≠ .discovery)
      (huri : s.jwksUri = some url) (hurl : url.isStr = false) :
      Move s ((((s.setQueue queue).sent ⟨i, purpose, url⟩).received
        ⟨i, purpose, .failed "TypeError"⟩).finish i kid (.error Exn.typeError))
  /-- discovery has succeeded, and the call goes to the lock of `_refresh` -/
  | discovered {s : JwksRun} {i : ℕ} {kid uri : Json} {ans : IdpAnswer}
      (hcall : s.calls[i]? = some ⟨kid, .requesting .discovery⟩) (hans : ans.readUri = .ok uri) :
      Move s ((({ (s.setHolder none).received ⟨i, .discovery, ans⟩ with
        jwksUri := some uri } : JwksRun).setQueue (s.queue ++ [i])).setPoint i kid (.waiting .initial))
  | discoveryFailed {s : JwksRun} {i : ℕ} {kid : Json} {ans : IdpAnswer} {x : Exn}
      (hcall : s.calls[i]? = some ⟨kid, .requesting .discovery⟩) (hans : ans.readUri = .error x) :
      Move s (((s.setHolder none).received ⟨i, .discovery, ans⟩).finish i kid (.error x))
  /-- the key set has been fetched, or kept -/
  | refreshed {s : JwksRun} {i : ℕ} {kid : Json} {purpose : IdpPurpose} {ans : IdpAnswer}
      {keys : Option (Dict DictKey Json)} (hcall : s.calls[i]? = some ⟨kid, .requesting purpose⟩)
      (hpurpose : purpose ≠ .discovery) (hans : ans.readKeys = .ok keys) :
      Move s ((((s.setHolder none).received ⟨i, purpose, ans⟩).setKeys (keys.getD s.keys)).setPoint i
        kid .running)
  | refreshFailed {s : JwksRun} {i : ℕ} {kid : Json} {purpose : IdpPurpose} {ans : IdpAnswer} {x : Exn}
      (hcall : s.calls[i]? = some ⟨kid, .requesting purpose⟩) (hpurpose : purpose ≠ .discovery)
      (hans : ans.readKeys = .error x) :
      Move s (((s.setHolder none).received ⟨i, purpose, ans⟩).finish i kid (.error x))
  | finish {s : JwksRun} {i : ℕ} {kid : Json} (hcall : s.calls[i]? = some ⟨kid, .running⟩) :
      Move s (s.finishFound i kid)
  /-- a miss goes to the lock of `_refresh` -/
  | trigger {s : JwksRun} {i : ℕ} {kid : Json} {now : ℚ} (hcall : s.calls[i]? = some ⟨kid, .running⟩)
      (hmiss : s.find kid = .ok none) (hallowed : s.MissAllowed now cache.ttlSeconds) :
      Move s ((({ s with lastRefreshOnMiss := some now, triggers := s.triggers ++ [now] } :
        JwksRun).setQueue (s.queue ++ [i])).setPoint i kid (.waiting .miss))
  | cancelWaiting {s : JwksRun} {i : ℕ} {kid : Json} {purpose : IdpPurpose}
      (hcall : s.calls[i]? = some ⟨kid, .waiting purpose⟩) :
      Move s ((s.setQueue (s.queue.erase i)).finish i kid (.error Exn.cancelled))
  | cancelRequesting {s : JwksRun} {i : ℕ} {kid : Json} {purpose : IdpPurpose}
      (hcall : s.calls[i]? = some ⟨kid, .requesting purpose⟩) :
      Move s ((s.setHolder none).finish i kid (.error Exn.cancelled))

/-- One move after another. -/
abbrev Moves : JwksRun → JwksRun → Prop := Relation.ReflTransGen (Move cache)

end JwksRun

namespace JwksRun

variable {cache : JwksCache} {s w : JwksRun} {i : ℕ} {kid : Json} {now : ℚ} {purpose : IdpPurpose}

theorem get_setPoint {point point' : KeyPoint} (h : s.calls[i]? = some ⟨kid, point⟩) :
    (s.setPoint i kid point').calls[i]? = some ⟨kid, point'⟩ := by
  simp [setPoint, (List.getElem?_eq_some_iff.mp h).1]

theorem setPoint_self {point : KeyPoint} (h : s.calls[i]? = some ⟨kid, point⟩) :
    s.setPoint i kid point = s := by
  obtain ⟨hlt, hget⟩ := List.getElem?_eq_some_iff.mp h
  unfold setPoint
  rw [← hget, List.set_getElem_self]

/-- A call that queues for a free lock, and takes it, is where it was. -/
theorem dequeue_enqueue (hcall : s.calls[i]? = some ⟨kid, .running⟩) (hqueue : s.queue = []) :
    (((s.setQueue (s.queue ++ [i])).setPoint i kid (.waiting purpose)).setQueue []).setPoint i kid
      .running = s := by
  have hself : s.calls.set i ⟨kid, .running⟩ = s.calls := congrArg calls (setPoint_self hcall)
  simp only [setPoint, setQueue, List.set_set, hself]
  rw [← hqueue]

/-- A body that the call runs through with the lock may be run through at once if the lock is free. -/
theorem moves_withLock {s₀ : JwksRun} {body : JwksRun → JwksRun}
    (hcall : s.calls[i]? = some ⟨kid, .running⟩)
    (hqueue : Moves cache s₀ ((s.setQueue (s.queue ++ [i])).setPoint i kid (.waiting purpose)))
    (hbody : ∀ w queue, w.calls[i]? = some ⟨kid, .waiting purpose⟩ → w.holder = none →
      w.queue = i :: queue → Moves cache w (body ((w.setQueue queue).setPoint i kid .running))) :
    Moves cache s₀ (s.withLock i kid purpose body) := by
  unfold withLock
  split
  · rename_i hfree
    have hmoves := hbody ((s.setQueue (s.queue ++ [i])).setPoint i kid (.waiting purpose)) []
      (get_setPoint hcall) hfree.1 (by simp [setPoint, setQueue, hfree.2])
    rw [dequeue_enqueue hcall hfree.2] at hmoves
    exact hqueue.trans hmoves
  · exact hqueue

theorem setPoint_setPoint (s : JwksRun) (i : ℕ) (kid : Json) (point point' : KeyPoint) :
    (s.setPoint i kid point).setPoint i kid point' = s.setPoint i kid point' := by
  simp [setPoint]

theorem moves_request {queue : List ℕ} {url : Json}
    (hcall : w.calls[i]? = some ⟨kid, .waiting purpose⟩) (hholder : w.holder = none)
    (hqueue : w.queue = i :: queue)
    (hurl : if purpose = .discovery then w.jwksUri = none ∧ url = .str cache.discoUrl
      else w.jwksUri = some url) :
    Moves cache w (((w.setQueue queue).setPoint i kid .running).request i kid purpose url) := by
  unfold request
  cases hstr : url.isStr with
  | true =>
    cases url with
    | str url =>
      refine .single ?_
      have hmove : Move cache w _ := .send hcall hholder hqueue (by simpa using hurl)
      simpa [setPoint, sent, setHolder, setQueue] using hmove
    | _ => cases hstr
  | false =>
    have hpurpose : purpose ≠ .discovery := by
      rintro rfl
      rw [if_pos rfl] at hurl
      rw [hurl.2] at hstr
      cases hstr
    rw [if_neg hpurpose] at hurl
    have hmove : Move cache w _ := .refuse hcall hholder hqueue hpurpose hurl hstr
    refine .single ?_
    simpa [finish, received, setPoint, sent, setHolder, setQueue] using hmove

theorem moves_refreshLocked {queue : List ℕ} {goOn : JwksRun → JwksRun} (hpurpose : purpose ≠ .discovery)
    (hcall : w.calls[i]? = some ⟨kid, .waiting purpose⟩) (hholder : w.holder = none)
    (hqueue : w.queue = i :: queue)
    (hgo : ∀ s, s.calls[i]? = some ⟨kid, .running⟩ → Moves cache s (goOn s)) :
    Moves cache w (((w.setQueue queue).setPoint i kid .running).refreshLocked i kid purpose goOn) := by
  have huri : ((w.setQueue queue).setPoint i kid .running).jwksUri = w.jwksUri := rfl
  unfold refreshLocked
  rw [huri]
  cases hw : w.jwksUri with
  | none => exact .head (.wake hcall hholder hqueue) (hgo _ (get_setPoint hcall))
  | some url => exact moves_request hcall hholder hqueue (by rw [if_neg hpurpose]; exact hw)

theorem moves_refresh {s₀ : JwksRun} {goOn : JwksRun → JwksRun} (hpurpose : purpose ≠ .discovery)
    (hcall : s.calls[i]? = some ⟨kid, .running⟩)
    (hqueue : Moves cache s₀ ((s.setQueue (s.queue ++ [i])).setPoint i kid (.waiting purpose)))
    (hgo : ∀ s, s.calls[i]? = some ⟨kid, .running⟩ → Moves cache s (goOn s)) :
    Moves cache s₀ (s.refresh i kid purpose goOn) :=
  moves_withLock hcall hqueue fun _ _ hcall hholder hqueue =>
    moves_refreshLocked hpurpose hcall hholder hqueue hgo

theorem moves_finishFound (hcall : s.calls[i]? = some ⟨kid, .running⟩) :
    Moves cache s (s.finishFound i kid) := .single (.finish hcall)

theorem moves_lookup (now : ℚ) (hcall : s.calls[i]? = some ⟨kid, .running⟩) :
    Moves cache s (s.lookup cache i kid now) := by
  have hfinish : Moves cache s _ := moves_finishFound hcall
  unfold finishFound at hfinish
  unfold lookup
  cases hfind : s.find kid with
  | error x => rwa [hfind] at hfinish
  | ok key =>
    cases key with
    | some key => rwa [hfind] at hfinish
    | none =>
      simp only
      split
      · rename_i hallowed
        exact moves_refresh nofun hcall (.single (.trigger hcall hfind hallowed)) fun s hcall =>
          moves_finishFound hcall
      · exact moves_finishFound hcall

theorem moves_discoverLocked {queue : List ℕ} (now : ℚ)
    (hcall : w.calls[i]? = some ⟨kid, .waiting .discovery⟩) (hholder : w.holder = none)
    (hqueue : w.queue = i :: queue) :
    Moves cache w (((w.setQueue queue).setPoint i kid .running).discoverLocked cache i kid now) := by
  have huri : ((w.setQueue queue).setPoint i kid .running).jwksUri = w.jwksUri := rfl
  unfold discoverLocked
  rw [huri]
  cases hw : w.jwksUri with
  | some url => exact .head (.wake hcall hholder hqueue) (moves_lookup now (get_setPoint hcall))
  | none => exact moves_request hcall hholder hqueue (by rw [if_pos rfl]; exact ⟨hw, rfl⟩)

theorem moves_getKey (now : ℚ) (hcall : s.calls[i]? = some ⟨kid, .running⟩) :
    Moves cache s (s.getKey cache i kid now) := by
  unfold getKey
  cases huri : s.jwksUri with
  | some url => exact moves_lookup now hcall
  | none =>
    exact moves_withLock hcall (.single (.discover hcall huri)) fun _ _ hcall hholder hqueue =>
      moves_discoverLocked now hcall hholder hqueue

theorem moves_locked {queue : List ℕ} (now : ℚ) (hcall : w.calls[i]? = some ⟨kid, .waiting purpose⟩)
    (hholder : w.holder = none) (hqueue : w.queue = i :: queue) :
    Moves cache w (((w.setQueue queue).setPoint i kid .running).locked cache i kid now purpose) := by
  cases purpose with
  | discovery => exact moves_discoverLocked now hcall hholder hqueue
  | initial =>
    refine moves_refreshLocked ?_ hcall hholder hqueue fun s hcall =>
      moves_lookup now hcall
    exact nofun
  | miss =>
    refine moves_refreshLocked ?_ hcall hholder hqueue fun s hcall =>
      moves_finishFound hcall
    exact nofun

theorem moves_answered (ans : IdpAnswer) (now : ℚ)
    (hcall : s.calls[i]? = some ⟨kid, .requesting purpose⟩) :
    Moves cache s ((((s.setHolder none).received ⟨i, purpose, ans⟩).setPoint i kid .running).answered
      cache i kid now purpose ans) := by
  have hrunning : (((s.setHolder none).received ⟨i, purpose, ans⟩).setPoint i kid
      .running).calls[i]? = some ⟨kid, .running⟩ := get_setPoint hcall
  unfold answered
  cases purpose with
  | discovery =>
    cases hans : ans.readUri with
    | error x =>
      have hmove : Move cache s _ := .discoveryFailed hcall hans
      exact .single (by simpa [finish, setPoint_setPoint] using hmove)
    | ok uri =>
      have hmove : Move cache s _ := .discovered hcall hans
      refine moves_refresh nofun hrunning (.single ?_) fun s hcall => moves_lookup now hcall
      simpa [setPoint, setQueue, setHolder, received] using hmove
  | initial =>
    cases hans : ans.readKeys with
    | error x =>
      have hmove : Move cache s _ := .refreshFailed hcall nofun hans
      exact .single (by simpa [finish, setPoint_setPoint] using hmove)
    | ok keys =>
      have hmove : Move cache s _ := .refreshed hcall nofun hans
      cases keys with
      | none => exact .head hmove (moves_lookup now hrunning)
      | some keys => exact .head hmove (moves_lookup now hrunning)
  | miss =>
    cases hans : ans.readKeys with
    | error x =>
      have hmove : Move cache s _ := .refreshFailed hcall nofun hans
      exact .single (by simpa [finish, setPoint_setPoint] using hmove)
    | ok keys =>
      have hmove : Move cache s _ := .refreshed hcall nofun hans
      cases keys with
      | none => exact .head hmove (moves_finishFound hrunning)
      | some keys => exact .head hmove (moves_finishFound hrunning)

/-- What the first waiter does with the lock, if it is free. -/
theorem acquire_cases (cache : JwksCache) (s : JwksRun) (now : ℚ) :
    (s.step cache (.acquire now) = s ∧ ∀ i queue kid purpose, s.holder = none → s.queue = i :: queue →
      s.calls[i]? ≠ some ⟨kid, .waiting purpose⟩) ∨
    ∃ i kid purpose queue, s.calls[i]? = some ⟨kid, .waiting purpose⟩ ∧ s.holder = none ∧
      s.queue = i :: queue ∧ s.step cache (.acquire now) =
        ((s.setQueue queue).setPoint i kid .running).locked cache i kid now purpose := by
  cases hholder : s.holder with
  | some j => exact .inl ⟨by simp [step, hholder], nofun⟩
  | none =>
    cases hqueue : s.queue with
    | nil => exact .inl ⟨by simp [step, hholder, hqueue], nofun⟩
    | cons i queue =>
      simp only [step, hholder, hqueue]
      split
      · rename_i kid purpose hcall
        exact .inr ⟨i, kid, purpose, queue, hcall, trivial, rfl, rfl⟩
      · rename_i hother
        refine .inl ⟨rfl, ?_⟩
        intro j queue' kid purpose _ heq hcall
        obtain ⟨rfl, -⟩ := List.cons.inj heq
        exact hother kid purpose hcall

/-- What the call that awaits an answer does with it. -/
theorem answer_cases (cache : JwksCache) (s : JwksRun) (i : ℕ) (ans : IdpAnswer) (now : ℚ) :
    s.step cache (.answer i ans now) = s ∨
    ∃ kid purpose, s.calls[i]? = some ⟨kid, .requesting purpose⟩ ∧ s.step cache (.answer i ans now) =
      (((s.setHolder none).received ⟨i, purpose, ans⟩).setPoint i kid .running).answered cache i kid
        now purpose ans := by
  simp only [step]
  split
  · rename_i kid purpose hcall
    exact .inr ⟨kid, purpose, hcall, rfl⟩
  · exact .inl rfl

/-- What a cancellation does. -/
theorem cancel_cases (cache : JwksCache) (s : JwksRun) (i : ℕ) : s.step cache (.cancel i) = s ∨
    (∃ kid purpose, s.calls[i]? = some ⟨kid, .waiting purpose⟩ ∧ s.step cache (.cancel i) =
      (s.setQueue (s.queue.erase i)).finish i kid (.error Exn.cancelled)) ∨
    ∃ kid purpose, s.calls[i]? = some ⟨kid, .requesting purpose⟩ ∧ s.step cache (.cancel i) =
      (s.setHolder none).finish i kid (.error Exn.cancelled) := by
  simp only [step]
  split
  · rename_i kid purpose hcall
    exact .inr (.inl ⟨kid, purpose, hcall, rfl⟩)
  · rename_i kid purpose hcall
    exact .inr (.inr ⟨kid, purpose, hcall, rfl⟩)
  · exact .inl rfl

/-- **A step consists of moves.** -/
theorem moves_step (s : JwksRun) (a : JwksAction) : Moves cache s (s.step cache a) := by
  cases a with
  | start kid now => exact .head (.enter s kid) (moves_getKey now (by simp [addCall]))
  | acquire now =>
    rcases acquire_cases cache s now with ⟨h, -⟩ | ⟨i, kid, purpose, queue, hcall, hholder, hqueue, h⟩
    · rw [h]
    · rw [h]
      exact moves_locked now hcall hholder hqueue
  | answer i ans now =>
    rcases answer_cases cache s i ans now with h | ⟨kid, purpose, hcall, h⟩
    · rw [h]
    · rw [h]
      exact moves_answered ans now hcall
  | cancel i =>
    rcases cancel_cases cache s i with h | ⟨kid, purpose, hcall, h⟩ | ⟨kid, purpose, hcall, h⟩
    · rw [h]
    · rw [h]
      exact .single (.cancelWaiting hcall)
    · rw [h]
      exact .single (.cancelRequesting hcall)

/-- What every move keeps, every run keeps. -/
theorem exec_of_moves {Inv : JwksRun → Prop} (h₀ : Inv {})
    (hmove : ∀ s s', Inv s → Move cache s s' → Inv s') (acts : List JwksAction) :
    Inv (Runs.exec (step cache) {} acts) := by
  refine Runs.exec_invariant h₀ ?_ acts
  intro s a hs
  have hmoves : Moves cache s _ := moves_step s a
  generalize s.step cache a = s' at hmoves
  induction hmoves with
  | refl => exact hs
  | tail _ hlast ih => exact hmove _ _ ih hlast

end JwksRun

end WazuhMcp
