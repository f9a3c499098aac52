import WazuhMcp.Auth.JwksThrottle

/-!
# Cold start of the JWKS cache

The lock is free between discovery and the first fetch of the key set. A call that waited for it during
discovery looks its key id up then, misses, and uses the throttle for a fetch of its own; a third call
that looks its key id up before either fetch has been answered finds no key, and may not fetch any.

`served_iff_ready`: while the issuer answers with a key set that holds the key id, every call returns
the key exactly if no call comes to its lookup with no key set read and the throttle used.
-/

namespace WazuhMcp

open JwksRun

namespace JwksRun

variable (cache : JwksCache) (kid : Json) (h : DictKey) (s : JwksRun)

/-- All calls are for the key id, and the issuer answers discovery with a URL, and the fetches of the
key set with one that holds the key id. -/
def Serving : JwksAction → Prop
  | .start kid' _ => kid' = kid
  | .answer i ans _ => ∀ kid' purpose, s.calls[i]? = some ⟨kid', .requesting purpose⟩ →
      if purpose = .discovery then ∃ url, ans.readUri = .ok (.str url)
      else ∃ keys, ans.readKeys = .ok (some keys) ∧ (keys.get h).isSome
  | _ => True

/-- Every call that has ended, and was not cancelled, has returned a key that is published under the
key id. -/
def Served : Prop := ∀ c ∈ s.calls, ∀ out, c.point = .ended out → out = .error Exn.cancelled ∨
  ∃ key, out = .ok (some key) ∧ ∃ r ∈ s.responses, r.Publishes h key

/-- A lookup finds the key id, or a miss may fetch the key set. -/
def LookupReady (now : ℚ) : Prop := (s.keys.get h).isSome ∨ s.MissAllowed now cache.ttlSeconds

/-- A call that comes to its lookup by the step is ready for it: one that starts once discovery is done,
or that has waited for the lock of discovery until then. -/
def Ready : JwksAction → Prop
  | .start _ now => s.jwksUri ≠ none → s.LookupReady cache h now
  | .acquire now => s.jwksUri ≠ none → s.holder = none → ∀ i queue kid', s.queue = i :: queue →
      s.calls[i]? = some ⟨kid', .waiting .discovery⟩ → s.LookupReady cache h now
  | _ => True

/-- The outcomes that count as served, wherever the key comes from. -/
def Good (out : KeyOutcome) : Prop := out = .error Exn.cancelled ∨ ∃ key, out = .ok (some key)

/-- Every call that has ended has a good outcome. -/
def AllGood : Prop := ∀ c ∈ s.calls, ∀ out, c.point = .ended out → Good out

/-- What holds while the issuer serves: all calls are for the key id, the URL is a text, and a call goes
to `_refresh` only once there is a URL. -/
structure ColdStart : Prop where
  kids : ∀ c ∈ s.calls, c.kid = kid
  uri : ∀ uri, s.jwksUri = some uri → uri.isStr = true
  refreshing : ∀ c ∈ s.calls, ∀ purpose, purpose ≠ .discovery →
    c.point = .waiting purpose ∨ c.point = .requesting purpose → s.jwksUri ≠ none

variable {cache kid h s} {s' : JwksRun} {i : ℕ} {now : ℚ} {purpose : IdpPurpose}

theorem allGood_setPoint {point point' : KeyPoint} (hcall : s.calls[i]? = some ⟨kid, point⟩)
    (hpoint : ∀ out, point ≠ .ended out) :
    (s.setPoint i kid point').AllGood ↔ s.AllGood ∧ ∀ out, point' = .ended out → Good out := by
  constructor
  · intro hgood
    constructor
    · intro c hc out hout
      obtain ⟨j, hj⟩ := List.getElem?_of_mem hc
      have hij : i ≠ j := by
        rintro rfl
        obtain rfl := Option.some.inj (hcall.symm.trans hj)
        exact hpoint out hout
      exact hgood c (List.mem_of_getElem? ((List.getElem?_set_ne hij).trans hj)) out hout
    · exact hgood _ (List.mem_of_getElem? (get_setPoint hcall))
  · rintro ⟨hgood, hnew⟩ c hc
    rcases List.mem_or_eq_of_mem_set hc with hold | rfl
    · exact hgood c hold
    · exact hnew

theorem ColdStart.setPoint (hs : ColdStart kid s) {point : KeyPoint}
    (hpoint : ∀ purpose, purpose ≠ .discovery → point = .waiting purpose ∨ point = .requesting purpose →
      s.jwksUri ≠ none) : ColdStart kid (s.setPoint i kid point) where
  kids c hc := by
    rcases List.mem_or_eq_of_mem_set hc with hold | rfl
    · exact hs.kids c hold
    · rfl
  uri := hs.uri
  refreshing c hc := by
    rcases List.mem_or_eq_of_mem_set hc with hold | rfl
    · exact hs.refreshing c hold
    · exact hpoint

/-- What a part of a step leads to: a state of a serving run, with good outcomes if the state before it
has and the condition holds. -/
def Leads (kid : Json) (s s' : JwksRun) (cond : Prop) : Prop :=
  ColdStart kid s' ∧ (s'.AllGood ↔ s.AllGood ∧ cond)

theorem Leads.congr {cond cond' : Prop} (hleads : Leads kid s s' cond) (hcond : cond ↔ cond') :
    Leads kid s s' cond' := ⟨hleads.1, hleads.2.trans (and_congr_right fun _ => hcond)⟩

theorem leads_finish (hs : ColdStart kid s) (hcall : s.calls[i]? = some ⟨kid, .running⟩)
    (out : KeyOutcome) : Leads kid s (s.finish i kid out) (Good out) := by
  refine ⟨hs.setPoint nofun, (allGood_setPoint hcall nofun).trans (and_congr_right fun _ => ?_)⟩
  exact ⟨fun hgood => hgood out rfl, fun hgood out' hout => KeyPoint.ended.inj hout ▸ hgood⟩

theorem leads_setPoint (hs : ColdStart kid s) (hcall : s.calls[i]? = some ⟨kid, .running⟩)
    {point : KeyPoint} (hnot : ∀ out, point ≠ .ended out)
    (hpoint : ∀ purpose, purpose ≠ .discovery → point = .waiting purpose ∨ point = .requesting purpose →
      s.jwksUri ≠ none) : Leads kid s (s.setPoint i kid point) True := by
  refine ⟨hs.setPoint hpoint, (allGood_setPoint hcall nofun).trans (and_congr_right fun _ => ?_)⟩
  exact iff_true_intro fun out hout => absurd hout (hnot out)

theorem leads_withLock (hs : ColdStart kid s) (hcall : s.calls[i]? = some ⟨kid, .running⟩)
    {body : JwksRun → JwksRun} (huri : purpose ≠ .discovery → s.jwksUri ≠ none)
    (hbody : Leads kid s (body s) True) : Leads kid s (s.withLock i kid purpose body) True := by
  unfold withLock
  split
  · exact hbody
  · have hqueue : ColdStart kid (s.setQueue (s.queue ++ [i])) := ⟨hs.kids, hs.uri, hs.refreshing⟩
    refine leads_setPoint hqueue hcall nofun ?_
    rintro p hp (hpoint | hpoint)
    · cases hpoint
      exact huri hp
    · cases hpoint

theorem leads_request (hs : ColdStart kid s) (hcall : s.calls[i]? = some ⟨kid, .running⟩) {url : Json}
    (huri : purpose ≠ .discovery → s.jwksUri ≠ none) (hstr : url.isStr = true) :
    Leads kid s (s.request i kid purpose url) True := by
  unfold request
  simp only [hstr, if_true]
  have hsent : ColdStart kid ((s.sent ⟨i, purpose, url⟩).setHolder (some i)) :=
    ⟨hs.kids, hs.uri, hs.refreshing⟩
  refine leads_setPoint hsent hcall nofun ?_
  rintro p hp (hpoint | hpoint)
  · cases hpoint
  · cases hpoint
    exact huri hp

theorem leads_refreshLocked (hs : ColdStart kid s) (hcall : s.calls[i]? = some ⟨kid, .running⟩)
    {goOn : JwksRun → JwksRun} (huri : s.jwksUri ≠ none) :
    Leads kid s (s.refreshLocked i kid purpose goOn) True := by
  unfold refreshLocked
  cases hjwks : s.jwksUri with
  | none => exact absurd hjwks huri
  | some url => exact leads_request hs hcall (fun _ => huri) (hs.uri url hjwks)

theorem leads_refresh (hs : ColdStart kid s) (hcall : s.calls[i]? = some ⟨kid, .running⟩)
    {goOn : JwksRun → JwksRun} (huri : s.jwksUri ≠ none) :
    Leads kid s (s.refresh i kid purpose goOn) True :=
  leads_withLock hs hcall (fun _ => huri) (leads_refreshLocked hs hcall huri)

theorem lookup_of_not_allowed (cache : JwksCache) (s : JwksRun) (i : ℕ) (kid : Json) (now : ℚ)
    (hfind : s.find kid = .ok none) (hnot : ¬ s.MissAllowed now cache.ttlSeconds) :
    s.lookup cache i kid now = s.finish i kid (.ok none) := by
  unfold lookup finishFound
  simp only [hfind, if_neg hnot]

theorem find_eq (hkid : kid.hashed = some h) : s.find kid = .ok (s.keys.get h) := by
  unfold find
  rw [hkid]

/-- **A lookup leads on** exactly if it is ready. -/
theorem leads_lookup (hkid : kid.hashed = some h) (hs : ColdStart kid s)
    (hcall : s.calls[i]? = some ⟨kid, .running⟩) (huri : s.jwksUri ≠ none) :
    Leads kid s (s.lookup cache i kid now) (s.LookupReady cache h now) := by
  unfold lookup LookupReady
  rw [find_eq hkid]
  cases hget : s.keys.get h with
  | some key =>
    exact (leads_finish hs hcall _).congr (iff_of_true (.inr ⟨key, rfl⟩) (.inl rfl))
  | none =>
    simp only
    split
    · rename_i hallowed
      have hmissed : ColdStart kid { s with
          lastRefreshOnMiss := some now, triggers := s.triggers ++ [now] } :=
        ⟨hs.kids, hs.uri, hs.refreshing⟩
      exact Leads.congr (leads_refresh hmissed hcall huri) (iff_of_true trivial (.inr hallowed))
    · rename_i hnot
      refine (leads_finish hs hcall _).congr (iff_of_false ?_ ?_)
      · rw [find_eq hkid, hget]
        rintro (hbad | ⟨key, hbad⟩) <;> cases hbad
      · rintro (hbad | hallowed)
        · cases hbad
        · exact hnot hallowed

theorem leads_discoverLocked (hkid : kid.hashed = some h) (hs : ColdStart kid s)
    (hcall : s.calls[i]? = some ⟨kid, .running⟩) :
    Leads kid s (s.discoverLocked cache i kid now) (s.jwksUri ≠ none → s.LookupReady cache h now) := by
  unfold discoverLocked
  cases huri : s.jwksUri with
  | some url =>
    refine (leads_lookup hkid hs hcall (by simp [huri])).congr ?_
    simp
  | none =>
    refine Leads.congr (leads_request hs hcall (fun hne => absurd rfl hne) rfl) ?_
    simp

theorem leads_getKey (hkid : kid.hashed = some h) (hs : ColdStart kid s)
    (hcall : s.calls[i]? = some ⟨kid, .running⟩) :
    Leads kid s (s.getKey cache i kid now) (s.jwksUri ≠ none → s.LookupReady cache h now) := by
  unfold getKey
  cases huri : s.jwksUri with
  | some url =>
    refine (leads_lookup hkid hs hcall (by simp [huri])).congr ?_
    simp
  | none =>
    refine Leads.congr (leads_withLock hs hcall (fun hne => absurd rfl hne) ?_) (by simp)
    exact (leads_discoverLocked hkid hs hcall).congr (by simp [huri])

theorem ColdStart.addCall (hs : ColdStart kid s) : ColdStart kid (s.addCall kid) where
  kids c hc := by
    rcases List.mem_append.mp hc with hold | hnew
    · exact hs.kids c hold
    · obtain rfl := List.mem_singleton.mp hnew
      rfl
  uri := hs.uri
  refreshing c hc := by
    rcases List.mem_append.mp hc with hold | hnew
    · exact hs.refreshing c hold
    · obtain rfl := List.mem_singleton.mp hnew
      rintro p - (hpoint | hpoint) <;> cases hpoint

theorem allGood_addCall : (s.addCall kid).AllGood ↔ s.AllGood := by
  constructor
  · exact fun hgood c hc => hgood c (List.mem_append_left _ hc)
  · intro hgood c hc
    rcases List.mem_append.mp hc with hold | hnew
    · exact hgood c hold
    · obtain rfl := List.mem_singleton.mp hnew
      exact nofun

/-- A call that goes on from an await. -/
theorem leads_running (hs : ColdStart kid s) {point : KeyPoint}
    (hcall : s.calls[i]? = some ⟨kid, point⟩) (hpoint : ∀ out, point ≠ .ended out) :
    Leads kid s (s.setPoint i kid .running) True := by
  refine ⟨hs.setPoint ?_, (allGood_setPoint hcall hpoint).trans (and_congr_right fun _ => ?_)⟩
  · rintro p - (hp | hp) <;> cases hp
  · exact iff_true_intro nofun

theorem Leads.trans {s'' : JwksRun} {cond : Prop} (hleads : Leads kid s s' True)
    (hleads' : Leads kid s' s'' cond) : Leads kid s s'' cond := by
  refine ⟨hleads'.1, hleads'.2.trans (and_congr_left fun _ => hleads.2.trans ?_)⟩
  exact and_iff_left trivial

/-- Taking the lock leads on exactly if a lookup that it comes to is ready. -/
theorem leads_locked (hkid : kid.hashed = some h) (hs : ColdStart kid s)
    (hcall : s.calls[i]? = some ⟨kid, .running⟩) (huri : purpose ≠ .discovery → s.jwksUri ≠ none) :
    Leads kid s (s.locked cache i kid now purpose)
      (purpose = .discovery → s.jwksUri ≠ none → s.LookupReady cache h now) := by
  unfold locked
  cases purpose with
  | discovery => exact (leads_discoverLocked hkid hs hcall).congr (by simp)
  | initial => exact (leads_refreshLocked hs hcall (huri nofun)).congr (by simp)
  | miss => exact (leads_refreshLocked hs hcall (huri nofun)).congr (by simp)

/-- The answer of an issuer that serves leads on. -/
theorem leads_answered (hkid : kid.hashed = some h) (hs : ColdStart kid s)
    (hcall : s.calls[i]? = some ⟨kid, .running⟩) (huri : purpose ≠ .discovery → s.jwksUri ≠ none)
    {ans : IdpAnswer} (hans : if purpose = .discovery then ∃ url, ans.readUri = .ok (.str url)
      else ∃ keys, ans.readKeys = .ok (some keys) ∧ (keys.get h).isSome) :
    Leads kid s (s.answered cache i kid now purpose ans) True := by
  unfold answered
  cases purpose with
  | discovery =>
    obtain ⟨url, hread⟩ := hans
    have hset : ColdStart kid { s with jwksUri := some (.str url) } := by
      refine ⟨hs.kids, ?_, fun _ _ _ _ _ => Option.some_ne_none _⟩
      intro uri heq
      obtain rfl := Option.some.inj heq
      rfl
    simp only [hread]
    exact leads_refresh hset hcall (Option.some_ne_none _)
  | initial =>
    obtain ⟨keys, hread, hget⟩ := hans
    have hset : ColdStart kid (s.setKeys keys) := ⟨hs.kids, hs.uri, hs.refreshing⟩
    simp only [hread]
    exact Leads.congr (leads_lookup hkid hset hcall (huri nofun)) (iff_true_intro (.inl hget))
  | miss =>
    obtain ⟨keys, hread, hget⟩ := hans
    have hset : ColdStart kid (s.setKeys keys) := ⟨hs.kids, hs.uri, hs.refreshing⟩
    obtain ⟨key, hkey⟩ := Option.isSome_iff_exists.mp hget
    simp only [hread]
    refine Leads.congr (leads_finish hset hcall _) (iff_true_intro (.inr ⟨key, ?_⟩))
    rw [find_eq hkid]
    exact congrArg _ hkey

/-- **Within serving runs, a step leads on** exactly if it is ready. -/
theorem leads_step (hkid : kid.hashed = some h) (hs : ColdStart kid s) {a : JwksAction}
    (hserving : Serving kid h s a) : Leads kid s (s.step cache a) (Ready cache h s a) := by
  cases a with
  | start kid' now =>
    obtain rfl : kid' = kid := hserving
    have hkey : Leads kid' (s.addCall kid') ((s.addCall kid').getKey cache s.calls.length kid' now) _ :=
      leads_getKey hkid hs.addCall (by simp [JwksRun.addCall])
    exact ⟨hkey.1, hkey.2.trans (and_congr_left fun _ => allGood_addCall)⟩
  | acquire now =>
    rcases acquire_cases cache s now with ⟨hstep, hidle⟩ | ⟨i, kid', purpose, queue, hcall, hholder,
      hqueue, hstep⟩
    · rw [hstep]
      refine ⟨hs, (and_iff_left ?_).symm⟩
      intro _ hholder i queue kid' hqueue hcall
      exact absurd hcall (hidle i queue kid' _ hholder hqueue)
    · obtain rfl : kid' = kid := hs.kids _ (List.mem_of_getElem? hcall)
      have hset : ColdStart kid' (s.setQueue queue) := ⟨hs.kids, hs.uri, hs.refreshing⟩
      have hrunning : Leads kid' s ((s.setQueue queue).setPoint i kid' .running) True :=
        leads_running hset hcall (by simp)
      have huri : purpose ≠ .discovery → s.jwksUri ≠ none := fun hne =>
        hs.refreshing _ (List.mem_of_getElem? hcall) purpose hne (.inl rfl)
      rw [hstep]
      refine hrunning.trans (Leads.congr (leads_locked hkid hrunning.1 (get_setPoint hcall) huri) ?_)
      constructor
      · intro hlookup hne _ j queue' kid'' heq hwaiting
        rw [hqueue] at heq
        obtain ⟨rfl, -⟩ := List.cons.inj heq
        rw [hcall] at hwaiting
        cases hwaiting
        exact hlookup rfl hne
      · rintro hready rfl hne
        exact hready hne hholder i queue kid' hqueue hcall
  | answer i ans now =>
    show Leads kid s _ True
    rcases answer_cases cache s i ans now with hstep | ⟨kid', purpose, hcall, hstep⟩
    · rw [hstep]
      exact ⟨hs, (and_iff_left trivial).symm⟩
    · obtain rfl : kid' = kid := hs.kids _ (List.mem_of_getElem? hcall)
      have hset : ColdStart kid' ((s.setHolder none).received ⟨i, purpose, ans⟩) :=
        ⟨hs.kids, hs.uri, hs.refreshing⟩
      have hrunning : Leads kid' s
          (((s.setHolder none).received ⟨i, purpose, ans⟩).setPoint i kid' .running) True :=
        leads_running hset hcall (by simp)
      have huri : purpose ≠ .discovery → s.jwksUri ≠ none := fun hne =>
        hs.refreshing _ (List.mem_of_getElem? hcall) purpose hne (.inr rfl)
      rw [hstep]
      exact hrunning.trans
        (leads_answered hkid hrunning.1 (get_setPoint hcall) huri (hserving kid' purpose hcall))
  | cancel i =>
    show Leads kid s _ True
    have hgood : ∀ out, KeyPoint.ended (.error Exn.cancelled) = .ended out → Good out := by
      rintro out hout
      cases hout
      exact .inl rfl
    rcases cancel_cases cache s i with hstep | ⟨kid', purpose, hcall, hstep⟩ |
      ⟨kid', purpose, hcall, hstep⟩
    · rw [hstep]
      exact ⟨hs, (and_iff_left trivial).symm⟩
    · obtain rfl : kid' = kid := hs.kids _ (List.mem_of_getElem? hcall)
      have hset : ColdStart kid' (s.setQueue (s.queue.erase i)) := ⟨hs.kids, hs.uri, hs.refreshing⟩
      rw [hstep]
      refine ⟨hset.setPoint (by simp),
        (allGood_setPoint hcall (by simp)).trans (and_congr_right fun _ => ?_)⟩
      exact iff_true_intro hgood
    · obtain rfl : kid' = kid := hs.kids _ (List.mem_of_getElem? hcall)
      have hset : ColdStart kid' (s.setHolder none) := ⟨hs.kids, hs.uri, hs.refreshing⟩
      rw [hstep]
      refine ⟨hset.setPoint (by simp),
        (allGood_setPoint hcall (by simp)).trans (and_congr_right fun _ => ?_)⟩
      exact iff_true_intro hgood

theorem served_iff_allGood (htraced : Traced cache s) (hkid : kid.hashed = some h)
    (hs : ColdStart kid s) : s.Served h ↔ s.AllGood := by
  constructor
  · intro hserved c hc out hout
    rcases hserved c hc out hout with hcancelled | ⟨key, hkey, -⟩
    · exact .inl hcancelled
    · exact .inr ⟨key, hkey⟩
  · intro hgood c hc out hout
    rcases hgood c hc out hout with hcancelled | ⟨key, rfl⟩
    · exact .inl hcancelled
    · obtain ⟨h', hh', hpublished⟩ := htraced.served c hc key hout
      rw [hs.kids c hc, hkid] at hh'
      obtain rfl := Option.some.inj hh'
      exact .inr ⟨key, rfl, hpublished⟩

/-- **Every call is served** exactly if each one that comes to its lookup is ready for it. -/
theorem served_iff_ready (cache : JwksCache) (kid : Json) (h : DictKey) (hkid : kid.hashed = some h)
    (acts : List JwksAction) (hserving : Runs.EachStep (step cache) (Serving kid h) {} acts) :
    Served h (Runs.exec (step cache) {} acts) ↔ Runs.EachStep (step cache) (Ready cache h) {} acts := by
  have hcold : ColdStart kid {} := ⟨nofun, nofun, nofun⟩
  have hstart : AllGood {} := nofun
  have hrun : ColdStart kid (Runs.exec (step cache) {} acts) :=
    Runs.exec_induction hcold (fun _ _ hs hserves => (leads_step hkid hs hserves).1) hserving
  rw [served_iff_allGood (Traced.exec cache acts) hkid hrun]
  exact Runs.exec_iff_eachStep_within hcold hstart
    (fun _ _ hs hserves => (leads_step hkid hs hserves).1)
    (fun _ _ hs hserves => (leads_step hkid hs hserves).2) hserving

/-- A discovery document, and a key set. -/
def exampleDiscovery : IdpAnswer :=
  .response 200 (.ok (.obj [("jwks_uri", .str "https://idp.example.com/certs")]))

/-- A key set of one key. -/
def exampleKeySet : IdpAnswer :=
  .response 200 (.ok (.obj [("keys", .arr [.obj [("kty", .str "RSA"), ("kid", .str "key-a")]])]))

/-- A discovery document and a key set are served to the first of two calls; the second finds the
key. -/
theorem served_iff_ready_of_two :
    Served (.str "key-a") (Runs.exec (step (.new "https://idp.example.com/" 600)) {}
      [.start (.str "key-a") 0, .answer 0 exampleDiscovery 1, .answer 0 exampleKeySet 2,
        .start (.str "key-a") 3]) ↔
    Runs.EachStep (step (.new "https://idp.example.com/" 600))
      (Ready (.new "https://idp.example.com/" 600) (.str "key-a")) {}
      [.start (.str "key-a") 0, .answer 0 exampleDiscovery 1, .answer 0 exampleKeySet 2,
        .start (.str "key-a") 3] := by
  refine served_iff_ready _ (.str "key-a") _ rfl _ ?_
  refine Runs.eachStep_cons rfl (Runs.eachStep_cons ?_ (Runs.eachStep_cons ?_
    (Runs.eachStep_cons rfl Runs.eachStep_nil)))
  · intro kid' purpose hcall
    cases hcall
    exact ⟨_, rfl⟩
  · intro kid' purpose hcall
    cases hcall
    exact ⟨_, rfl, rfl⟩

/-- Two calls start; the second waits for the lock during discovery, then misses, and uses the
throttle. -/
def twoMisses : List JwksAction :=
  [.start (.str "key-a") 0, .start (.str "key-a") 0, .answer 0 exampleDiscovery 1, .acquire 1]

/-- A third call finds neither the key nor a fetch to wait for. -/
theorem not_served : ¬ ∀ (cache : JwksCache) (kid : Json) (h : DictKey), kid.hashed = some h →
    ∀ acts, Runs.EachStep (step cache) (Serving kid h) {} acts →
      Served h (Runs.exec (step cache) {} acts) := by
  intro hall
  have hserving : Runs.EachStep (step (.new "https://idp.example.com" 600))
      (Serving (.str "key-a") (.str "key-a")) {} (twoMisses ++ [.start (.str "key-a") 1]) := by
    refine Runs.eachStep_cons rfl (Runs.eachStep_cons rfl (Runs.eachStep_cons ?_
      (Runs.eachStep_cons trivial (Runs.eachStep_cons rfl Runs.eachStep_nil))))
    intro kid' purpose hcall
    cases hcall
    exact ⟨_, rfl⟩
  have hthird : (Runs.exec (step (.new "https://idp.example.com" 600)) {}
      (twoMisses ++ [.start (.str "key-a") 1])).calls[2]? =
        some ⟨.str "key-a", .ended (.ok none)⟩ := by
    rw [Runs.exec_append_singleton]
    -- discovery is done, so the call comes to its lookup at once
    exact congrArg (fun s => s.calls[2]?) (lookup_of_not_allowed (.new "https://idp.example.com" 600)
      (addCall (Runs.exec (step (.new "https://idp.example.com" 600)) {} twoMisses) (.str "key-a"))
      2 (.str "key-a") 1 rfl (by decide +kernel))
  have hserved := hall _ _ _ rfl _ hserving _ (List.mem_of_getElem? hthird) (.ok none) rfl
  rcases hserved with hcancelled | ⟨key, hkey, -⟩
  · cases hcancelled
  · cases hkey

end JwksRun

end WazuhMcp
