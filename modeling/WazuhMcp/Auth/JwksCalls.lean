import WazuhMcp.Auth.JwksCache
import WazuhMcp.Foundations.Fallible

/-!
# What a call of `get_key` comes to

A call of `get_key` ends once, and with what came of its own requests: it fails if the key id cannot be
looked up, if it could not read one of the answers that it awaited, or if it was cancelled, and not
otherwise (`accounted_exec`). Nothing in `JwksCache` catches a failure, and nothing makes an `AuthError`
of it (`noAuthErrors_exec`).
-/

namespace WazuhMcp

open Fallible

/-- What came of the request can be read: a discovery document, or a key set. -/
def IdpResponse.Readable (r : IdpResponse) : Prop :=
  if r.purpose = .discovery then Succeeds r.answer.readUri else Succeeds r.answer.readKeys

/-- Nothing is raised, or something that is no `AuthError`. -/
abbrev NoAuthError {α : Type} (out : Except Exn α) : Prop :=
  Raises (fun x => x.isAuthError = false) out

/-- Nothing is raised, or an `AuthError`. -/
abbrev AuthErrorOnly {α : Type} (out : Except Exn α) : Prop :=
  Raises (fun x => x.isAuthError = true) out

theorem not_authErrorOnly_error {α : Type} {x : Exn} (h : x.isAuthError = false) :
    ¬ AuthErrorOnly (.error x : Except Exn α) := by
  intro hauth
  rw [hauth x rfl] at h
  cases h

theorem NoAuthError.authErrorOnly_iff {α : Type} {out : Except Exn α} (h : NoAuthError out) :
    AuthErrorOnly out ↔ Succeeds out := by
  cases out with
  | ok a => exact iff_of_true (raises_ok a) (succeeds_ok a)
  | error x => exact iff_of_false (not_authErrorOnly_error (h x rfl)) (not_succeeds_error x)

namespace JwksRun

variable {cache : JwksCache} {s s' s'' : JwksRun} {i : ℕ} {kid : Json} {point point' : KeyPoint}

/-! ## Calls end for good -/

/-- The calls are still there, with their key ids, and those that had ended have ended so. -/
def Kept (s s' : JwksRun) : Prop :=
  ∀ (j : ℕ) (kid : Json) (point : KeyPoint), s.calls[j]? = some ⟨kid, point⟩ →
    ∃ point', s'.calls[j]? = some ⟨kid, point'⟩ ∧ ∀ out, point = .ended out → point' = .ended out

theorem Kept.refl (s : JwksRun) : Kept s s := fun _ _ point hcall => ⟨point, hcall, fun _ h => h⟩

theorem Kept.trans (h : Kept s s') (h' : Kept s' s'') : Kept s s'' := by
  intro j kid point hcall
  obtain ⟨point', hcall', hended⟩ := h j kid point hcall
  obtain ⟨point'', hcall'', hended'⟩ := h' j kid point' hcall'
  exact ⟨point'', hcall'', fun out hout => hended' out (hended out hout)⟩

/-- A call that is under way goes to a new point. -/
theorem Kept.set (hcall : s.calls[i]? = some ⟨kid, point⟩) (hpoint : ∀ out, point ≠ .ended out)
    (hcalls : s'.calls = s.calls.set i ⟨kid, point'⟩) : Kept s s' := by
  intro j kid' p hj
  rw [hcalls]
  by_cases hij : i = j
  · subst hij
    rw [hcall] at hj
    obtain ⟨rfl, rfl⟩ := KeyCall.mk.inj (Option.some.inj hj)
    refine ⟨point', ?_, fun out hout => absurd hout (hpoint out)⟩
    rw [List.getElem?_set_self (List.getElem?_eq_some_iff.mp hcall).1]
  · exact ⟨p, (List.getElem?_set_ne hij).trans hj, fun _ h => h⟩

theorem kept_move (hmove : Move cache s s') : Kept s s' := by
  cases hmove with
  | enter kid =>
    intro j kid' p hj
    refine ⟨p, ?_, fun _ h => h⟩
    show (s.calls ++ _)[j]? = _
    rw [List.getElem?_append_left (List.getElem?_eq_some_iff.mp hj).1, hj]
  | discover hcall => exact .set hcall (by simp) rfl
  | wake hcall => exact .set hcall (by simp) rfl
  | send hcall => exact .set hcall (by simp) rfl
  | refuse hcall => exact .set hcall (by simp) rfl
  | discovered hcall => exact .set hcall (by simp) rfl
  | discoveryFailed hcall => exact .set hcall (by simp) rfl
  | refreshed hcall => exact .set hcall (by simp) rfl
  | refreshFailed hcall => exact .set hcall (by simp) rfl
  | finish hcall => exact .set hcall (by simp) rfl
  | trigger hcall => exact .set hcall (by simp) rfl
  | cancelWaiting hcall => exact .set hcall (by simp) rfl
  | cancelRequesting hcall => exact .set hcall (by simp) rfl

theorem kept_moves (hmoves : Moves cache s s') : Kept s s' := by
  induction hmoves with
  | refl => exact .refl s
  | tail _ hlast ih => exact ih.trans (kept_move hlast)

theorem kept_step (cache : JwksCache) (s : JwksRun) (a : JwksAction) : Kept s (s.step cache a) :=
  kept_moves (moves_step s a)

/-- A call that starts is the last one. -/
theorem get_step_start (cache : JwksCache) (s : JwksRun) (kid : Json) (now : ℚ) :
    ∃ point, (s.step cache (.start kid now)).calls[s.calls.length]? = some ⟨kid, point⟩ := by
  have hcall : (s.addCall kid).calls[s.calls.length]? = some ⟨kid, .running⟩ := by simp [addCall]
  have hmoves : Moves cache (s.addCall kid) (s.step cache (.start kid now)) := moves_getKey now hcall
  obtain ⟨point, hpoint, -⟩ := kept_moves hmoves _ _ _ hcall
  exact ⟨point, hpoint⟩

/-! ## What was asked for -/

/-- Every response is to a request that the call has sent. -/
structure Asked (s : JwksRun) : Prop where
  requesting : ∀ (i : ℕ) (kid : Json) (purpose : IdpPurpose),
    s.calls[i]? = some ⟨kid, .requesting purpose⟩ →
      ∃ q ∈ s.requests, q.caller = i ∧ q.purpose = purpose
  responses : ∀ r ∈ s.responses, ∃ q ∈ s.requests, q.caller = r.caller ∧ q.purpose = r.purpose

/-- A call goes to a new point; it has sent the request that it awaits, and those that were answered. -/
theorem Asked.set (h : Asked s) (reqs : List IdpRequest) (rs : List IdpResponse)
    (hcalls : s'.calls = s.calls.set i ⟨kid, point'⟩) (hrequests : s'.requests = s.requests ++ reqs)
    (hresponses : s'.responses = s.responses ++ rs)
    (hpoint : ∀ purpose, point' = .requesting purpose →
      ∃ q ∈ s'.requests, q.caller = i ∧ q.purpose = purpose)
    (hrs : ∀ r ∈ rs, ∃ q ∈ s'.requests, q.caller = r.caller ∧ q.purpose = r.purpose) : Asked s' where
  requesting j kid' purpose hj := by
    rw [hcalls] at hj
    rcases Calls.get_set_cases hj with ⟨rfl, hnew⟩ | ⟨-, hj⟩
    · exact hpoint purpose (KeyCall.mk.inj hnew).2.symm
    · obtain ⟨q, hq, hrest⟩ := h.requesting j kid' purpose hj
      exact ⟨q, hrequests ▸ List.mem_append_left _ hq, hrest⟩
  responses r hr := by
    rw [hresponses] at hr
    rcases List.mem_append.mp hr with hold | hnew
    · obtain ⟨q, hq, hrest⟩ := h.responses r hold
      exact ⟨q, hrequests ▸ List.mem_append_left _ hq, hrest⟩
    · exact hrs r hnew

/-- A call goes to a new point and awaits nothing; what was answered is what it awaited. -/
theorem Asked.quiet (h : Asked s) (rs : List IdpResponse)
    (hcalls : s'.calls = s.calls.set i ⟨kid, point'⟩) (hrequests : s'.requests = s.requests)
    (hresponses : s'.responses = s.responses ++ rs) (hpoint : ∀ purpose, point' ≠ .requesting purpose)
    (hrs : ∀ r ∈ rs, s.calls[i]? = some ⟨kid, .requesting r.purpose⟩ ∧ r.caller = i) : Asked s' := by
  refine h.set [] rs hcalls (hrequests.trans (List.append_nil _).symm) hresponses
    (fun purpose hp => absurd hp (hpoint purpose)) fun r hr => ?_
  obtain ⟨hcall, rfl⟩ := hrs r hr
  obtain ⟨q, hq, hrest⟩ := h.requesting _ kid r.purpose hcall
  exact ⟨q, hrequests ▸ hq, hrest⟩

/-- A call is there already, or is the one that has come. -/
theorem get_addCall {c : KeyCall} (h : (s.addCall kid).calls[i]? = some c) :
    s.calls[i]? = some c ∨ (i = s.calls.length ∧ c = ⟨kid, .running⟩) := Calls.get_append_cases h

theorem Asked.move (h : Asked s) (hmove : Move cache s s') : Asked s' := by
  cases hmove with
  | enter kid =>
    refine ⟨fun i kid' purpose hi => ?_, h.responses⟩
    rcases get_addCall hi with hold | ⟨-, hnew⟩
    · exact h.requesting i kid' purpose hold
    · cases (KeyCall.mk.inj hnew).2
  | discover hcall =>
    exact h.quiet [] rfl rfl (List.append_nil _).symm (by simp) (by simp)
  | wake hcall => exact h.quiet [] rfl rfl (List.append_nil _).symm (by simp) (by simp)
  | send hcall =>
    refine h.set _ [] rfl rfl (List.append_nil _).symm ?_ (by simp)
    rintro purpose ⟨⟩
    exact ⟨_, List.mem_append_right _ (List.mem_singleton_self _), rfl, rfl⟩
  | refuse hcall =>
    refine h.set _ _ rfl rfl rfl (by simp) fun r hr => ?_
    obtain rfl := List.mem_singleton.mp hr
    exact ⟨_, List.mem_append_right _ (List.mem_singleton_self _), rfl, rfl⟩
  | discovered hcall => exact h.quiet _ rfl rfl rfl (by simp) (by simpa using hcall)
  | discoveryFailed hcall => exact h.quiet _ rfl rfl rfl (by simp) (by simpa using hcall)
  | refreshed hcall => exact h.quiet _ rfl rfl rfl (by simp) (by simpa using hcall)
  | refreshFailed hcall => exact h.quiet _ rfl rfl rfl (by simp) (by simpa using hcall)
  | finish hcall => exact h.quiet [] rfl rfl (List.append_nil _).symm (by simp) (by simp)
  | trigger hcall => exact h.quiet [] rfl rfl (List.append_nil _).symm (by simp) (by simp)
  | cancelWaiting hcall =>
    exact h.quiet [] rfl rfl (List.append_nil _).symm (by simp) (by simp)
  | cancelRequesting hcall =>
    exact h.quiet [] rfl rfl (List.append_nil _).symm (by simp) (by simp)

/-- **Every response of a run** is to a request of the run. -/
theorem asked_exec (cache : JwksCache) (acts : List JwksAction) :
    Asked (Runs.exec (step cache) {} acts) :=
  exec_of_moves ⟨by simp, by simp⟩ (fun _ _ h hmove => h.move hmove) acts

/-! ## What calls end with -/

/-- The call has ended as it should: cancelled, or with a failure exactly if there was a reason for
it. -/
def EndedFor (s : JwksRun) (i : ℕ) (kid : Json) (out : KeyOutcome) : Prop :=
  out = .error Exn.cancelled ∨
    (Succeeds out ↔ kid.hashed.isSome ∧ ∀ r ∈ s.responses, r.caller = i → r.Readable)

/-- The outcomes of the calls are accounted for by what came of their requests. -/
structure Accounted (s : JwksRun) : Prop where
  callers : ∀ r ∈ s.responses, r.caller < s.calls.length
  underway : ∀ (i : ℕ) (c : KeyCall), s.calls[i]? = some c → (∀ out, c.point ≠ .ended out) →
    ∀ r ∈ s.responses, r.caller = i → r.Readable
  ended : ∀ (i : ℕ) (kid : Json) (out : KeyOutcome), s.calls[i]? = some ⟨kid, .ended out⟩ →
    s.EndedFor i kid out

/-- A call that is under way goes to a new point, with what came of its requests. -/
theorem Accounted.set (h : Accounted s) (rs : List IdpResponse)
    (hcall : s.calls[i]? = some ⟨kid, point⟩) (hpoint : ∀ out, point ≠ .ended out)
    (hcalls : s'.calls = s.calls.set i ⟨kid, point'⟩) (hresponses : s'.responses = s.responses ++ rs)
    (hcaller : ∀ r ∈ rs, r.caller = i)
    (hunderway : (∀ out, point' ≠ .ended out) → ∀ r ∈ rs, r.Readable)
    (hended : ∀ out, point' = .ended out → out = .error Exn.cancelled ∨
      (Succeeds out ↔ kid.hashed.isSome ∧ ∀ r ∈ rs, r.Readable)) : Accounted s' := by
  have hlt := (List.getElem?_eq_some_iff.mp hcall).1
  have hbefore := h.underway i _ hcall hpoint
  have hother (j : ℕ) (hij : i ≠ j) (r : IdpResponse) (hr : r ∈ s'.responses) (hj : r.caller = j) :
      r ∈ s.responses := by
    rw [hresponses] at hr
    rcases List.mem_append.mp hr with hold | hnew
    · exact hold
    · exact absurd ((hcaller r hnew).symm.trans hj) hij
  constructor
  · intro r hr
    rw [hcalls, List.length_set]
    rw [hresponses] at hr
    rcases List.mem_append.mp hr with hold | hnew
    · exact h.callers r hold
    · rwa [hcaller r hnew]
  · intro j c hj hc r hr hrj
    rw [hcalls] at hj
    rcases Calls.get_set_cases hj with ⟨rfl, rfl⟩ | ⟨hij, hj⟩
    · rw [hresponses] at hr
      rcases List.mem_append.mp hr with hold | hnew
      · exact hbefore r hold hrj
      · exact hunderway hc r hnew
    · exact h.underway j c hj hc r (hother j hij r hr hrj) hrj
  · intro j kid' out hj
    rw [hcalls] at hj
    rcases Calls.get_set_cases hj with ⟨rfl, hnew⟩ | ⟨hij, hj⟩
    · obtain ⟨rfl, rfl⟩ := KeyCall.mk.inj hnew
      refine (hended out rfl).imp_right fun hiff => hiff.trans (and_congr_right fun _ => ?_)
      rw [hresponses]
      constructor
      · intro hrs r hr hrj
        rcases List.mem_append.mp hr with hold | hnew
        · exact hbefore r hold hrj
        · exact hrs r hnew
      · exact fun hall r hr => hall r (List.mem_append_right _ hr) (hcaller r hr)
    · refine (h.ended j kid' out hj).imp_right fun hiff => hiff.trans (and_congr_right fun _ => ?_)
      constructor
      · exact fun hall r hr hrj => hall r (hother j hij r hr hrj) hrj
      · exact fun hall r hr hrj => hall r (hresponses ▸ List.mem_append_left _ hr) hrj

/-- A call that is under way goes to a new point, and has not ended. -/
theorem Accounted.quiet (h : Accounted s) (hcall : s.calls[i]? = some ⟨kid, point⟩)
    (hpoint : ∀ out, point ≠ .ended out) (hcalls : s'.calls = s.calls.set i ⟨kid, point'⟩)
    (hresponses : s'.responses = s.responses) (hpoint' : ∀ out, point' ≠ .ended out) : Accounted s' :=
  h.set [] hcall hpoint hcalls (hresponses.trans (List.append_nil _).symm) (by simp) (by simp)
    fun out hout => absurd hout (hpoint' out)

/-- A call ends for what came of its last request. -/
theorem Accounted.fail {r : IdpResponse} {x : Exn} (h : Accounted s)
    (hcall : s.calls[i]? = some ⟨kid, point⟩) (hpoint : ∀ out, point ≠ .ended out)
    (hcalls : s'.calls = s.calls.set i ⟨kid, .ended (.error x)⟩)
    (hresponses : s'.responses = s.responses ++ [r]) (hcaller : r.caller = i) (hr : ¬ r.Readable) :
    Accounted s' := by
  refine h.set _ hcall hpoint hcalls hresponses (by simpa using hcaller) (by simp) ?_
  rintro out hout
  cases hout
  refine .inr (iff_of_false (not_succeeds_error x) ?_)
  rintro ⟨-, hall⟩
  exact hr (hall r (List.mem_singleton_self r))

theorem Accounted.cancel (h : Accounted s) (hcall : s.calls[i]? = some ⟨kid, point⟩)
    (hpoint : ∀ out, point ≠ .ended out)
    (hcalls : s'.calls = s.calls.set i ⟨kid, .ended (.error Exn.cancelled)⟩)
    (hresponses : s'.responses = s.responses) : Accounted s' := by
  refine h.set [] hcall hpoint hcalls (hresponses.trans (List.append_nil _).symm) (by simp)
    (by simp) ?_
  rintro out hout
  cases hout
  exact .inl rfl

theorem readable_discovery {ans : IdpAnswer} :
    (⟨i, .discovery, ans⟩ : IdpResponse).Readable ↔ Succeeds ans.readUri := by
  simp [IdpResponse.Readable]

theorem readable_keys {purpose : IdpPurpose} {ans : IdpAnswer} (h : purpose ≠ .discovery) :
    (⟨i, purpose, ans⟩ : IdpResponse).Readable ↔ Succeeds ans.readKeys := by
  simp [IdpResponse.Readable, h]

/-- A lookup fails only on a key id that cannot be looked up. -/
theorem succeeds_find : Succeeds (s.find kid) ↔ kid.hashed.isSome := by
  unfold find
  cases kid.hashed with
  | some k => exact iff_of_true (succeeds_ok _) rfl
  | none => exact iff_of_false (not_succeeds_error _) (by simp)

/-- A call that comes has had no response yet. -/
theorem Accounted.enter (h : Accounted s) (kid : Json) : Accounted (s.addCall kid) where
  callers r hr := by
    have hlt := h.callers r hr
    simp only [addCall, List.length_append, List.length_singleton]
    omega
  underway i c hi hc r hr hri := by
    rcases get_addCall hi with hold | ⟨hnew, -⟩
    · exact h.underway i c hold hc r hr hri
    · have hlt := h.callers r hr
      omega
  ended i kid' out hi := by
    rcases get_addCall hi with hold | ⟨-, hnew⟩
    · exact h.ended i kid' out hold
    · cases (KeyCall.mk.inj hnew).2

theorem Accounted.move (h : Accounted s) (hmove : Move cache s s') : Accounted s' := by
  cases hmove with
  | enter kid => exact h.enter kid
  | discover hcall => exact h.quiet hcall (by simp) rfl rfl (by simp)
  | wake hcall => exact h.quiet hcall (by simp) rfl rfl (by simp)
  | send hcall => exact h.quiet hcall (by simp) rfl rfl (by simp)
  | refuse hcall hholder hqueue hpurpose =>
    refine h.fail hcall (by simp) rfl rfl rfl ?_
    rw [readable_keys hpurpose]
    exact not_succeeds_error _
  | discovered hcall hans =>
    refine h.set _ hcall (by simp) rfl rfl (by simp) ?_ (by simp)
    intro _ r hr
    obtain rfl := List.mem_singleton.mp hr
    exact readable_discovery.mpr ⟨_, hans⟩
  | discoveryFailed hcall hans =>
    refine h.fail hcall (by simp) rfl rfl rfl ?_
    rw [readable_discovery, hans]
    exact not_succeeds_error _
  | refreshed hcall hpurpose hans =>
    refine h.set _ hcall (by simp) rfl rfl (by simp) ?_ (by simp)
    intro _ r hr
    obtain rfl := List.mem_singleton.mp hr
    exact (readable_keys hpurpose).mpr ⟨_, hans⟩
  | refreshFailed hcall hpurpose hans =>
    refine h.fail hcall (by simp) rfl rfl rfl ?_
    rw [readable_keys hpurpose, hans]
    exact not_succeeds_error _
  | finish hcall =>
    refine h.set [] hcall (by simp) rfl (List.append_nil _).symm (by simp) (by simp) ?_
    rintro out hout
    cases hout
    exact .inr (succeeds_find.trans (and_iff_left (by simp)).symm)
  | trigger hcall => exact h.quiet hcall (by simp) rfl rfl (by simp)
  | cancelWaiting hcall => exact h.cancel hcall (by simp) rfl rfl
  | cancelRequesting hcall => exact h.cancel hcall (by simp) rfl rfl

/-- **In every run** the outcomes of the calls are accounted for. -/
theorem accounted_exec (cache : JwksCache) (acts : List JwksAction) :
    Accounted (Runs.exec (step cache) {} acts) :=
  exec_of_moves ⟨by simp, by simp, by simp⟩ (fun _ _ h hmove => h.move hmove) acts

/-! ## What calls raise -/

theorem noAuthError_getD (x : Json) (k : String) (default : Json) : NoAuthError (x.getD k default) := by
  cases x with
  | obj d => exact raises_ok _
  | _ => exact raises_error rfl

theorem noAuthError_contains (x : Json) (k : String) : NoAuthError (x.contains k) := by
  cases x with
  | obj d => exact raises_ok _
  | arr xs => exact raises_ok _
  | str s => exact raises_ok _
  | _ => exact raises_error rfl

theorem noAuthError_item (x : Json) (k : String) : NoAuthError (x.item k) := by
  cases x with
  | obj d =>
    show NoAuthError ((d.lookup k).elim (.error Exn.keyError) .ok)
    cases d.lookup k with
    | none => exact raises_error rfl
    | some y => exact raises_ok _
  | _ => exact raises_error rfl

theorem noAuthError_iter (x : Json) : NoAuthError x.iter := by
  cases x with
  | arr xs => exact raises_ok _
  | obj d => exact raises_ok _
  | str s => exact raises_ok _
  | _ => exact raises_error rfl

theorem noAuthError_mapError (json : Except String Json) :
    NoAuthError (json.mapError Exn.exception) := by
  cases json with
  | ok x => exact raises_ok _
  | error name => exact raises_error rfl

theorem noAuthError_readUri (ans : IdpAnswer) : NoAuthError ans.readUri := by
  cases ans with
  | failed name => exact raises_error rfl
  | response statusCode json =>
    by_cases hstatus : statusCode ≠ 200
    · simp only [IdpAnswer.readUri, if_pos hstatus]
      exact raises_error rfl
    · simp only [IdpAnswer.readUri, if_neg hstatus]
      apply (noAuthError_mapError json).bind
      intro body
      apply (noAuthError_getD body "jwks_uri" .null).bind
      intro uri
      split
      · exact raises_error rfl
      · exact raises_ok _

theorem noAuthError_addKey (keys : Dict DictKey Json) (k : Json) : NoAuthError (addKey keys k) := by
  unfold addKey
  refine (noAuthError_contains k "kid").bind fun has => ?_
  split
  · refine (noAuthError_item k "kid").bind fun kid => ?_
    split
    · exact raises_ok _
    · exact raises_error rfl
  · exact raises_ok _

theorem noAuthError_readKeys (ans : IdpAnswer) : NoAuthError ans.readKeys := by
  cases ans with
  | failed name => exact raises_error rfl
  | response statusCode json =>
    by_cases hstatus : statusCode ≠ 200
    · simp only [IdpAnswer.readKeys, if_pos hstatus]
      exact raises_ok _
    · simp only [IdpAnswer.readKeys, if_neg hstatus]
      apply (noAuthError_mapError json).bind
      intro body
      apply (noAuthError_getD body "keys" (.arr [])).bind
      intro keys
      exact (noAuthError_iter keys).bind fun xs => (Raises.foldlM noAuthError_addKey xs []).map

/-- No call has failed with an `AuthError`. -/
def NoAuthErrors (s : JwksRun) : Prop :=
  ∀ (i : ℕ) (kid : Json) (out : KeyOutcome), s.calls[i]? = some ⟨kid, .ended out⟩ → NoAuthError out

/-- A call goes to a new point, and if it ends, then not with an `AuthError`. -/
theorem NoAuthErrors.set (h : NoAuthErrors s) (hcalls : s'.calls = s.calls.set i ⟨kid, point'⟩)
    (hended : ∀ out, point' = .ended out → NoAuthError out) : NoAuthErrors s' := by
  intro j kid' out hj
  rw [hcalls] at hj
  rcases Calls.get_set_cases hj with ⟨rfl, hnew⟩ | ⟨-, hj⟩
  · exact hended out (KeyCall.mk.inj hnew).2.symm
  · exact h j kid' out hj

theorem NoAuthErrors.move (h : NoAuthErrors s) (hmove : Move cache s s') : NoAuthErrors s' := by
  cases hmove with
  | enter kid =>
    intro i kid' out hi
    rcases get_addCall hi with hold | ⟨-, hnew⟩
    · exact h i kid' out hold
    · cases (KeyCall.mk.inj hnew).2
  | discover hcall => exact h.set rfl (by simp)
  | wake hcall => exact h.set rfl (by simp)
  | send hcall => exact h.set rfl (by simp)
  | refuse hcall => exact h.set rfl fun out hout => KeyPoint.ended.inj hout ▸ raises_error rfl
  | discovered hcall => exact h.set rfl (by simp)
  | discoveryFailed hcall hans =>
    refine h.set rfl fun out hout => KeyPoint.ended.inj hout ▸ raises_error ?_
    exact noAuthError_readUri _ _ hans
  | refreshed hcall => exact h.set rfl (by simp)
  | refreshFailed hcall hpurpose hans =>
    refine h.set rfl fun out hout => KeyPoint.ended.inj hout ▸ raises_error ?_
    exact noAuthError_readKeys _ _ hans
  | @finish i kid hcall =>
    refine h.set rfl fun out hout => KeyPoint.ended.inj hout ▸ ?_
    unfold find
    cases kid.hashed with
    | some k => exact raises_ok _
    | none => exact raises_error rfl
  | trigger hcall => exact h.set rfl (by simp)
  | cancelWaiting hcall => exact h.set rfl fun out hout => KeyPoint.ended.inj hout ▸ raises_error rfl
  | cancelRequesting hcall => exact h.set rfl fun out hout => KeyPoint.ended.inj hout ▸ raises_error rfl

/-- **No call of `get_key` raises an `AuthError`**, in any run. -/
theorem noAuthErrors_exec (cache : JwksCache) (acts : List JwksAction) :
    NoAuthErrors (Runs.exec (step cache) {} acts) :=
  exec_of_moves (by simp [NoAuthErrors]) (fun _ _ h hmove => h.move hmove) acts

end JwksRun

end WazuhMcp
