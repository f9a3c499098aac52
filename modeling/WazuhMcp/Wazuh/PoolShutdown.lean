import WazuhMcp.Wazuh.PoolSafety

/-!
# The shutdown of the client pools

`aclose_all` calls `aclose` on each client in turn, and awaits it. The pool of the Server API holds the
lock meanwhile, and first sets a flag that refuses all later calls of `acquire`; the pool of the indexer
takes a list of its clients and empties its map without the lock, so that a call of `acquire` that is under
way, or comes later, constructs a client that nothing closes. In both, an `aclose` that raises ends
`aclose_all`, and the clients that were to come after are not closed.

So, once `aclose_all` has ended and all calls of `acquire` have, every client of the pool has been closed
exactly if no `aclose` but the last has raised, and, for the pool of the indexer, no client has been
constructed since `aclose_all` began (`closesEverything_iff`).
-/

namespace WazuhMcp

/-! ## Runs -/

/-- Where the call of `aclose_all` stands. -/
inductive ClosePoint where
  | notCalled
  /-- awaiting the lock -/
  | waiting
  /-- awaiting the `aclose` of a client, before those of the rest -/
  | closing (rest : List ℕ)
  /-- returned or raised -/
  | ended

/-- A pool with its calls of `acquire`, the call of `aclose_all`, and the clients on which `aclose` has been
called. -/
structure ShutdownState where
  pool : PoolState
  close : ClosePoint
  aclosed : List ℕ

/-- A new pool. -/
def ShutdownState.new : ShutdownState := ⟨.new, .notCalled, []⟩

/-- A step of a call of `acquire`, or of the call of `aclose_all`: it begins, gets the lock, or goes on when
the `aclose` that it awaits has returned or raised. -/
inductive ShutdownAction where
  | call (a : AcquireAction)
  | close
  | closeEnter
  | acloseEnded (out : Except Exn Unit)

section Step

variable (pool : ClientPool) (registry : SettingsRegistry)

/-- `aclose_all` goes on to the next client, or ends. -/
def ShutdownState.closeNext (st : ShutdownState) : List ℕ → ShutdownState
  | [] =>
    if pool.guarded then
      { st with pool := { st.pool with clients := [], lock := none }, close := .ended }
    else
      { st with close := .ended }
  | k :: rest => { st with aclosed := st.aclosed ++ [k], close := .closing rest }

/-- One step; a step that is not enabled changes nothing. -/
def ShutdownState.step (st : ShutdownState) : ShutdownAction → ShutdownState
  | .call a => { st with pool := st.pool.acquireStep pool registry a }
  | .close =>
    match st.close with
    | .notCalled =>
      if pool.guarded then { st with close := .waiting }
      else
        { st with pool := { st.pool with clients := [] } }.closeNext pool (st.pool.clients.map Prod.snd)
    | _ => st
  | .closeEnter =>
    match st.close, st.pool.lock with
    | .waiting, none =>
      if st.pool.closed then { st with close := .ended }
      else
        { st with pool := { st.pool with closed := true, lock := some .close } }.closeNext pool
          (st.pool.clients.map Prod.snd)
    | _, _ => st
  | .acloseEnded out =>
    match st.close, out with
    | .closing rest, .ok () => st.closeNext pool rest
    | .closing _, .error _ =>
      if pool.guarded then { st with pool := { st.pool with lock := none }, close := .ended }
      else { st with close := .ended }
    | _, _ => st

end Step

/-! ## What is to be closed -/

/-- `aclose_all` has returned or raised, and every call of `acquire` has. -/
def ShutdownState.Settled (st : ShutdownState) : Prop :=
  st.close = .ended ∧ ∀ c ∈ st.pool.calls, ∃ out, c.point = .ended out

/-- Once all is settled, `aclose` has been called on every client that the pool has constructed, and on
every client that it has handed out. -/
def ShutdownState.ClosesEverything (st : ShutdownState) : Prop :=
  st.Settled → (∀ k < st.pool.made.length, k ∈ st.aclosed) ∧
    ∀ t k, st.pool.Returned t k → k ∈ st.aclosed

/-- The step of a call that constructs a client. -/
def PoolState.Constructs (st : PoolState) (a : AcquireAction) : Prop :=
  ∃ i password t tenant user, a = .passwordFetched i (.ok password) (.ok ()) ∧
    st.calls[i]? = some ⟨t, .fetchingPassword tenant user⟩

/-- The step is not an `aclose` that raises while there are clients to come, nor, in a pool that does not
guard against it, the construction of a client since `aclose_all` began. -/
def LosesNoClient (pool : ClientPool) (st : ShutdownState) : ShutdownAction → Prop
  | .acloseEnded (.error _) => ∀ rest, st.close = .closing rest → rest = []
  | .call a => pool.guarded = false → st.pool.Constructs a → st.close = .notCalled
  | _ => True

/-! ## The steps of `acquire` -/

variable {pool : ClientPool} {registry : SettingsRegistry}

variable (pool registry) in
/-- A step constructs a client, or leaves those that there are. -/
theorem made_acquireStep (st : PoolState) (a : AcquireAction) :
    (st.Constructs a ∧ ∃ m, (st.acquireStep pool registry a).made = st.made ++ [m]) ∨
      ¬ st.Constructs a ∧ (st.acquireStep pool registry a).made = st.made := by
  by_cases hconstructs : st.Constructs a
  · obtain ⟨i, password, t, tenant, user, rfl, hcall⟩ := id hconstructs
    refine .inl ⟨hconstructs, ⟨t, pool.client tenant user password⟩, ?_⟩
    simp [PoolState.acquireStep, hcall, PoolState.construct, PoolState.answer]
  · refine .inr ⟨hconstructs, ?_⟩
    have heffect := acquireStep_effect pool registry st a
    generalize st.acquireStep pool registry a = st' at heffect
    cases heffect with
    | constructed hcall => exact absurd ⟨_, _, _, _, _, rfl, hcall⟩ hconstructs
    | _ => rfl

/-- No call is inside the lock. -/
def PoolState.Outside (st : PoolState) : Prop := ∀ c ∈ st.calls, c.point.holding = false

theorem PoolState.Outside.not_constructs {st : PoolState} (h : st.Outside) (a : AcquireAction) :
    ¬ st.Constructs a := by
  rintro ⟨i, password, t, tenant, user, -, hcall⟩
  cases h _ (List.mem_of_getElem? hcall)

/-- Once a pool that guards against it is closed, no call gets inside the lock. -/
theorem PoolState.Outside.acquireStep {st : PoolState} (h : st.Outside) (hguarded : pool.guarded = true)
    (hclosed : st.closed = true) (a : AcquireAction) :
    (st.acquireStep pool registry a).Outside ∧ (st.acquireStep pool registry a).closed = true := by
  have hset (i : ℕ) {c : AcquireCall} (hc : c.point.holding = false) :
      ∀ d ∈ st.calls.set i c, d.point.holding = false := by
    intro d hd
    rcases List.mem_or_eq_of_mem_set hd with hd | rfl
    · exact h d hd
    · exact hc
  have hadd {c : AcquireCall} (hc : c.point.holding = false) :
      ∀ d ∈ st.calls ++ [c], d.point.holding = false := by
    intro d hd
    rcases List.mem_append.mp hd with hd | hd
    · exact h d hd
    · obtain rfl := List.mem_singleton.mp hd
      exact hc
  have heffect := acquireStep_effect pool registry st a
  generalize st.acquireStep pool registry a = st' at heffect
  cases heffect with
  | begun | hit => exact ⟨hadd rfl, hclosed⟩
  | found | refused | failed => exact ⟨hset _ rfl, hclosed⟩
  | entered hcall hlock hopen =>
    rw [hopen hguarded] at hclosed
    cases hclosed
  | userFetched hcall | constructed hcall => cases h _ (List.mem_of_getElem? hcall)
  | idle => exact ⟨h, hclosed⟩

/-- The numbers in the map, and those that have been returned, are numbers of clients. -/
def PoolState.Known (st : PoolState) : Prop :=
  ∀ t k, st.clients.get t = some k ∨ st.Returned t k → k < st.made.length

/-- A call that is at a point has come to it, or was there. -/
theorem returned_setPoint {st : PoolState} {i : ℕ} {t t' : String} {p : AcquirePoint} {k : ℕ}
    (h : (st.setPoint i t p).Returned t' k) : st.Returned t' k ∨ t = t' ∧ p = .ended (.ok k) := by
  obtain ⟨c, hc, ht, hpoint⟩ := h
  rcases List.mem_or_eq_of_mem_set hc with hc | rfl
  · exact .inl ⟨c, hc, ht, hpoint⟩
  · exact .inr ⟨ht, hpoint⟩

theorem returned_addCall {st : PoolState} {t t' : String} {p : AcquirePoint} {k : ℕ}
    (h : (st.addCall t p).Returned t' k) : st.Returned t' k ∨ t = t' ∧ p = .ended (.ok k) := by
  obtain ⟨c, hc, ht, hpoint⟩ := h
  rcases List.mem_append.mp hc with hc | hc
  · exact .inl ⟨c, hc, ht, hpoint⟩
  · obtain rfl := List.mem_singleton.mp hc
    exact .inr ⟨ht, hpoint⟩

theorem PoolState.Known.acquireStep {st : PoolState} (h : st.Known) (a : AcquireAction) :
    (st.acquireStep pool registry a).Known := by
  have heffect := acquireStep_effect pool registry st a
  generalize st.acquireStep pool registry a = st' at heffect
  cases heffect with
  | begun =>
    rintro t' k (hk | hk)
    · exact h t' k (.inl hk)
    · rcases returned_addCall hk with hk | ⟨-, hk⟩
      · exact h t' k (.inr hk)
      · cases hk
  | @hit t k₀ hget =>
    rintro t' k (hk | hk)
    · exact h t' k (.inl hk)
    · rcases returned_addCall hk with hk | ⟨-, hk⟩
      · exact h t' k (.inr hk)
      · cases hk
        exact h t k₀ (.inl hget)
  | @found i t k₀ hcall hget =>
    rintro t' k (hk | hk)
    · exact h t' k (.inl hk)
    · rcases returned_setPoint hk with hk | ⟨-, hk⟩
      · exact h t' k (.inr hk)
      · cases hk
        exact h t k₀ (.inl hget)
  | refused | entered | userFetched | failed =>
    rintro t' k (hk | hk)
    · exact h t' k (.inl hk)
    · rcases returned_setPoint hk with hk | ⟨-, hk⟩
      · exact h t' k (.inr hk)
      · cases hk
  | @constructed i t tenant user password hcall =>
    rintro t' k hk
    show k < (st.made ++ [_]).length
    rw [List.length_append, List.length_singleton]
    rcases hk with hk | hk
    · change (st.clients.set t st.made.length).get t' = some k at hk
      rw [Dict.get_set] at hk
      split at hk
      · cases hk
        omega
      · have hlt := h t' k (.inl hk)
        omega
    · rcases returned_setPoint hk with hk | ⟨-, hk⟩
      · have hlt := h t' k (.inr hk)
        omega
      · cases hk
        show st.made.length < _
        omega
  | idle => exact h

/-! ## The invariant -/

/-- The client is still to be closed, as far as `aclose_all` goes. -/
def ClosePoint.Pending : ClosePoint → ℕ → Prop
  | .closing rest, k => k ∈ rest
  | .ended, _ => False
  | _, _ => True

/-- The call of `aclose_all` has not got to the clients. -/
def ClosePoint.opened : ClosePoint → Bool
  | .notCalled => true
  | .waiting => true
  | _ => false

/-- What holds of a pool and its shutdown. -/
structure ShutdownInv (pool : ClientPool) (registry : SettingsRegistry) (st : ShutdownState) : Prop where
  known : st.pool.Known
  /-- until `aclose_all` gets to the clients, all that have been constructed are in the map -/
  opened : st.close.opened = true → PoolInv pool registry st.pool ∧ st.pool.closed = false ∧
    st.aclosed = [] ∧ st.pool.clients.map Prod.snd = List.range st.pool.made.length
  /-- then no call is inside the lock, in a pool that guards against it -/
  shut : st.close.opened = false → pool.guarded = true →
    st.pool.Outside ∧ st.pool.closed = true
  waiting : st.close = .waiting → pool.guarded = true
  bounded : ∀ k ∈ st.aclosed, k < st.pool.made.length
  rest : ∀ rest, st.close = .closing rest →
    rest.Nodup ∧ ∀ k ∈ rest, k < st.pool.made.length ∧ k ∉ st.aclosed

/-- No client is lost: each has been closed, or is still to be. -/
def ShutdownState.Keeps (st : ShutdownState) : Prop :=
  ∀ k < st.pool.made.length, k ∈ st.aclosed ∨ st.close.Pending k

variable {st : ShutdownState}

theorem ShutdownInv.new : ShutdownInv pool registry .new where
  known t k h := by
    rcases h with h | ⟨c, hc, -⟩
    · cases h
    · cases hc
  opened _ := ⟨.new, rfl, rfl, rfl⟩
  shut h := by cases h
  waiting h := by cases h
  bounded k hk := by cases hk
  rest rest h := by cases h

theorem ShutdownState.Keeps.of_opened (h : st.close.opened = true) : st.Keeps := by
  intro k hk
  right
  cases hclose : st.close with
  | notCalled | waiting => trivial
  | closing rest | ended =>
    rw [hclose] at h
    cases h

variable (pool) in
theorem ShutdownState.closeNext_pool (st : ShutdownState) (ks : List ℕ) :
    (st.closeNext pool ks).pool.made = st.pool.made ∧ (st.closeNext pool ks).pool.calls = st.pool.calls ∧
      (st.closeNext pool ks).pool.closed = st.pool.closed ∧
      ∀ t k, (st.closeNext pool ks).pool.clients.get t = some k → st.pool.clients.get t = some k := by
  cases ks with
  | nil =>
    unfold ShutdownState.closeNext
    dsimp only
    split
    · exact ⟨rfl, rfl, rfl, fun t k hk => by cases hk⟩
    · exact ⟨rfl, rfl, rfl, fun t k hk => hk⟩
  | cons k ks => exact ⟨rfl, rfl, rfl, fun t k hk => hk⟩

variable (pool) in
theorem ShutdownState.closeNext_close (st : ShutdownState) (ks : List ℕ) :
    (ks = [] ∧ (st.closeNext pool ks).close = .ended ∧ (st.closeNext pool ks).aclosed = st.aclosed) ∨
      ∃ k rest, ks = k :: rest ∧ (st.closeNext pool ks).close = .closing rest ∧
        (st.closeNext pool ks).aclosed = st.aclosed ++ [k] := by
  cases ks with
  | nil =>
    refine .inl ⟨rfl, ?_⟩
    unfold ShutdownState.closeNext
    dsimp only
    split <;> exact ⟨rfl, rfl⟩
  | cons k ks => exact .inr ⟨k, ks, rfl, rfl, rfl⟩

/-- As `aclose_all` goes on to the clients that it has left, none of these is lost. -/
theorem ShutdownState.keeps_closeNext (st : ShutdownState) (ks : List ℕ) :
    (st.closeNext pool ks).Keeps ↔ ∀ k < st.pool.made.length, k ∈ st.aclosed ∨ k ∈ ks := by
  unfold ShutdownState.Keeps
  rw [(st.closeNext_pool pool ks).1]
  rcases st.closeNext_close pool ks with ⟨rfl, hclose, haclosed⟩ | ⟨k, rest, rfl, hclose, haclosed⟩
  · rw [hclose, haclosed]
    simp [ClosePoint.Pending]
  · rw [hclose, haclosed]
    simp only [ClosePoint.Pending, List.mem_append, List.mem_cons, List.not_mem_nil, or_false,
      or_assoc]

theorem ShutdownInv.closeNext {ks : List ℕ} (hknown : st.pool.Known)
    (hshut : pool.guarded = true → st.pool.Outside ∧ st.pool.closed = true)
    (hbounded : ∀ k ∈ st.aclosed, k < st.pool.made.length) (hnodup : ks.Nodup)
    (hks : ∀ k ∈ ks, k < st.pool.made.length ∧ k ∉ st.aclosed) :
    ShutdownInv pool registry (st.closeNext pool ks) := by
  obtain ⟨hmade, hcalls, hclosed, hclients⟩ := st.closeNext_pool pool ks
  have hopened : (st.closeNext pool ks).close.opened = false := by
    rcases st.closeNext_close pool ks with ⟨-, hclose, -⟩ | ⟨k, rest, -, hclose, -⟩ <;>
      rw [hclose] <;> rfl
  constructor
  · rintro t k (hk | ⟨c, hc, hpoint⟩)
    · rw [hmade]
      exact hknown t k (.inl (hclients t k hk))
    · rw [hmade]
      rw [hcalls] at hc
      exact hknown t k (.inr ⟨c, hc, hpoint⟩)
  · intro h
    rw [hopened] at h
    cases h
  · intro _ hguarded
    obtain ⟨houtside, hset⟩ := hshut hguarded
    unfold PoolState.Outside
    rw [hcalls, hclosed]
    exact ⟨houtside, hset⟩
  · intro h
    rw [h] at hopened
    cases hopened
  · rcases st.closeNext_close pool ks with ⟨rfl, hclose, haclosed⟩ | ⟨k, rest, rfl, hclose, haclosed⟩
    · rw [haclosed, hmade]
      exact hbounded
    · rw [haclosed, hmade]
      intro j hj
      rcases List.mem_append.mp hj with hj | hj
      · exact hbounded j hj
      · obtain rfl := List.mem_singleton.mp hj
        exact (hks j List.mem_cons_self).1
  · intro rest' hrest'
    rcases st.closeNext_close pool ks with ⟨rfl, hclose, haclosed⟩ | ⟨k, rest, rfl, hclose, haclosed⟩
    · rw [hclose] at hrest'
      cases hrest'
    · rw [hclose] at hrest'
      cases hrest'
      obtain ⟨hk, hrest⟩ := List.nodup_cons.mp hnodup
      refine ⟨hrest, fun j hj => ?_⟩
      obtain ⟨hlt, hnot⟩ := hks j (List.mem_cons_of_mem _ hj)
      rw [hmade, haclosed]
      refine ⟨hlt, fun hmem => ?_⟩
      rcases List.mem_append.mp hmem with hmem | hmem
      · exact hnot hmem
      · obtain rfl := List.mem_singleton.mp hmem
        exact hk hj

theorem closed_acquireStep (st : PoolState) (a : AcquireAction) :
    (st.acquireStep pool registry a).closed = st.closed := by
  have heffect := acquireStep_effect pool registry st a
  generalize st.acquireStep pool registry a = st' at heffect
  cases heffect <;> rfl

/-- The map holds the clients in the order in which they are constructed. -/
theorem values_acquireStep {st : PoolState} (h : PoolInv pool registry st)
    (hvalues : st.clients.map Prod.snd = List.range st.made.length) (a : AcquireAction) :
    (st.acquireStep pool registry a).clients.map Prod.snd =
      List.range (st.acquireStep pool registry a).made.length := by
  have heffect := acquireStep_effect pool registry st a
  generalize st.acquireStep pool registry a = st' at heffect
  cases heffect with
  | @constructed i t tenant user password hcall =>
    obtain ⟨-, hnone⟩ := (h.calls _ (List.mem_of_getElem? hcall)).fetching tenant rfl
    show (st.clients.set t st.made.length).map Prod.snd = List.range (st.made ++ [_]).length
    rw [Dict.set_of_get_none hnone, List.map_append, hvalues, List.length_append, List.length_singleton,
      List.range_succ]
    rfl
  | _ => exact hvalues

/-- **What a step preserves.** -/
theorem ShutdownInv.step (h : ShutdownInv pool registry st) (a : ShutdownAction) :
    ShutdownInv pool registry (st.step pool registry a) := by
  cases a with
  | call a =>
    have hle : st.pool.made.length ≤ (st.pool.acquireStep pool registry a).made.length := by
      rcases made_acquireStep pool registry st.pool a with ⟨-, m, hmade⟩ | ⟨-, hmade⟩
      · rw [hmade, List.length_append]
        omega
      · rw [hmade]
    constructor
    · exact h.known.acquireStep a
    · intro hopened
      obtain ⟨hinv, hclosed, haclosed, hvalues⟩ := h.opened hopened
      exact ⟨hinv.step a, (closed_acquireStep _ a).trans hclosed, haclosed, values_acquireStep hinv hvalues a⟩
    · intro hopened hguarded
      obtain ⟨houtside, hclosed⟩ := h.shut hopened hguarded
      exact houtside.acquireStep hguarded hclosed a
    · exact h.waiting
    · intro k hk
      exact Nat.lt_of_lt_of_le (h.bounded k hk) hle
    · intro rest hrest
      obtain ⟨hnodup, hks⟩ := h.rest rest hrest
      exact ⟨hnodup, fun k hk => ⟨Nat.lt_of_lt_of_le (hks k hk).1 hle, (hks k hk).2⟩⟩
  | close =>
    unfold ShutdownState.step
    cases hclose : st.close with
    | notCalled =>
      obtain ⟨hinv, hclosed, haclosed, hvalues⟩ := h.opened (by rw [hclose]; rfl)
      cases hguarded : pool.guarded with
      | true =>
        exact ⟨h.known, fun _ => ⟨hinv, hclosed, haclosed, hvalues⟩, fun hopened => (by cases hopened),
          fun _ => hguarded, h.bounded, fun rest hrest => (by cases hrest)⟩
      | false =>
        refine ShutdownInv.closeNext ?_ (fun hguarded' => ?_) h.bounded ?_ ?_
        · rintro t k (hk | hk)
          · cases hk
          · exact h.known t k (.inr hk)
        · rw [hguarded] at hguarded'
          cases hguarded'
        · rw [hvalues]
          exact List.nodup_range
        · intro k hk
          rw [hvalues, List.mem_range] at hk
          refine ⟨hk, ?_⟩
          rw [haclosed]
          exact List.not_mem_nil
    | waiting => simpa only [hclose] using h
    | closing rest => simpa only [hclose] using h
    | ended => simpa only [hclose] using h
  | closeEnter =>
    unfold ShutdownState.step
    dsimp only
    split
    · rename_i hclose hlock
      have hguarded := h.waiting hclose
      obtain ⟨hinv, hclosed, haclosed, hvalues⟩ := h.opened (by rw [hclose]; rfl)
      rw [hclosed, if_neg Bool.false_ne_true]
      refine ShutdownInv.closeNext ?_ (fun _ => ⟨?_, rfl⟩) h.bounded ?_ ?_
      · exact h.known
      · intro c hc
        obtain ⟨i, hi⟩ := List.getElem?_of_mem hc
        rw [Bool.eq_false_iff]
        intro hholding
        have hheld := (hinv.holder i).mpr ⟨c, hi, hholding⟩
        rw [hlock] at hheld
        cases hheld
      · rw [hvalues]
        exact List.nodup_range
      · intro k hk
        rw [hvalues, List.mem_range] at hk
        refine ⟨hk, ?_⟩
        show k ∉ st.aclosed
        rw [haclosed]
        exact List.not_mem_nil
    · exact h
  | acloseEnded out =>
    unfold ShutdownState.step
    cases hclose : st.close with
    | closing rest =>
      have hshut := h.shut (by rw [hclose]; rfl)
      cases out with
      | ok u =>
        obtain ⟨hnodup, hks⟩ := h.rest rest hclose
        exact .closeNext h.known hshut h.bounded hnodup hks
      | error x =>
        dsimp only
        split
        · exact ⟨h.known, fun hopened => (by cases hopened), fun _ => hshut,
            fun hwaiting => (by cases hwaiting), h.bounded, fun rest hrest => (by cases hrest)⟩
        · exact ⟨h.known, fun hopened => (by cases hopened), fun _ => hshut,
            fun hwaiting => (by cases hwaiting), h.bounded, fun rest hrest => (by cases hrest)⟩
    | notCalled | waiting | ended => simpa only [hclose] using h

/-- **A step loses no client** exactly if it is not one of the two that do. -/
theorem keeps_step (h : ShutdownInv pool registry st) (a : ShutdownAction) :
    (st.step pool registry a).Keeps ↔ st.Keeps ∧ LosesNoClient pool st a := by
  cases a with
  | call a =>
    unfold LosesNoClient
    rcases made_acquireStep pool registry st.pool a with
      ⟨hconstructs, m, hmade⟩ | ⟨hnot, hmade⟩
    · cases hopened : st.close.opened with
      | true =>
        have hkeeps : (st.step pool registry (.call a)).Keeps := .of_opened hopened
        refine iff_of_true hkeeps ⟨.of_opened hopened, fun hguarded _ => ?_⟩
        cases hclose : st.close with
        | notCalled => rfl
        | waiting =>
          rw [h.waiting hclose] at hguarded
          cases hguarded
        | closing rest | ended =>
          rw [hclose] at hopened
          cases hopened
      | false =>
        cases hguarded : pool.guarded with
        | true => exact absurd hconstructs ((h.shut hopened hguarded).1.not_constructs a)
        | false =>
          refine iff_of_false (fun hkeeps => ?_) fun hand => ?_
          · -- the client that has just been constructed is nowhere
            have hlt : st.pool.made.length < (st.pool.acquireStep pool registry a).made.length := by
              rw [hmade, List.length_append, List.length_singleton]
              omega
            rcases hkeeps st.pool.made.length hlt with hk | hk
            · exact Nat.lt_irrefl _ (h.bounded _ hk)
            · change st.close.Pending _ at hk
              cases hclose : st.close with
              | notCalled | waiting =>
                rw [hclose] at hopened
                cases hopened
              | closing rest =>
                rw [hclose] at hk
                exact Nat.lt_irrefl _ ((h.rest rest hclose).2 _ hk).1
              | ended =>
                rw [hclose] at hk
                exact hk
          · rw [hand.2 rfl hconstructs] at hopened
            cases hopened
    · unfold ShutdownState.Keeps ShutdownState.step
      dsimp only
      rw [hmade]
      exact ⟨fun hkeeps => ⟨hkeeps, fun _ hconstructs => absurd hconstructs hnot⟩, And.left⟩
  | close =>
    unfold LosesNoClient
    rw [and_true]
    unfold ShutdownState.step
    cases hclose : st.close with
    | notCalled =>
      obtain ⟨-, -, -, hvalues⟩ := h.opened (by rw [hclose]; rfl)
      refine iff_of_true ?_ (.of_opened (by rw [hclose]; rfl))
      dsimp only
      split
      · exact .of_opened rfl
      · rw [ShutdownState.keeps_closeNext]
        intro k hk
        right
        rw [hvalues, List.mem_range]
        exact hk
    | waiting => rfl
    | closing rest => rfl
    | ended => rfl
  | closeEnter =>
    unfold LosesNoClient
    rw [and_true]
    unfold ShutdownState.step
    dsimp only
    split
    · rename_i hclose hlock
      obtain ⟨-, hclosed, -, hvalues⟩ := h.opened (by rw [hclose]; rfl)
      rw [hclosed, if_neg Bool.false_ne_true, ShutdownState.keeps_closeNext]
      refine iff_of_true (fun k hk => ?_) (.of_opened (by rw [hclose]; rfl))
      right
      rw [hvalues, List.mem_range]
      exact hk
    · rfl
  | acloseEnded out =>
    cases out with
    | ok u =>
      unfold LosesNoClient
      rw [and_true]
      unfold ShutdownState.step
      dsimp only
      cases hclose : st.close with
      | closing rest =>
        dsimp only
        rw [ShutdownState.keeps_closeNext]
        unfold ShutdownState.Keeps
        rw [hclose]
        rfl
      | notCalled | waiting | ended => rfl
    | error x =>
      unfold LosesNoClient ShutdownState.step
      dsimp only
      cases hclose : st.close with
      | closing rest =>
        have hafter : (if pool.guarded = true then
            ({ st with pool := { st.pool with lock := none }, close := .ended } : ShutdownState)
            else { st with close := .ended }).Keeps ↔ ∀ k < st.pool.made.length, k ∈ st.aclosed := by
          unfold ShutdownState.Keeps
          split <;> simp [ClosePoint.Pending]
        rw [hafter]
        obtain ⟨-, hks⟩ := h.rest rest hclose
        constructor
        · intro hall
          refine ⟨fun k hk => .inl (hall k hk), fun rest' hrest' => ?_⟩
          cases hrest'
          rw [List.eq_nil_iff_forall_not_mem]
          exact fun k hk => (hks k hk).2 (hall k (hks k hk).1)
        · rintro ⟨hkeeps, hrest⟩ k hk
          obtain rfl := hrest rest rfl
          rcases hkeeps k hk with hk | hk
          · exact hk
          · rw [hclose] at hk
            cases hk
      | notCalled | waiting | ended =>
        refine ⟨fun hkeeps => ⟨hkeeps, fun rest hrest => ?_⟩, And.left⟩
        cases hrest

/-! ## Shutdown -/

/-- In every run, no client is lost exactly if no step loses one. -/
theorem keeps_iff (acts : List ShutdownAction) :
    (Runs.exec (ShutdownState.step pool registry) .new acts).Keeps ↔
      Runs.EachStep (ShutdownState.step pool registry) (LosesNoClient pool) .new acts :=
  have hstep : ∀ st _, ShutdownInv pool registry st → True → _ := fun _ a h _ => keeps_step h a
  Runs.exec_iff_eachStep_within .new (.of_opened rfl) (fun _ a h _ => h.step a) hstep
    fun _ _ _ _ => trivial

/-- Once all is settled, no client is lost exactly if everything is closed. -/
theorem ShutdownInv.keeps_iff_of_settled (h : ShutdownInv pool registry st) (hsettled : st.Settled) :
    st.Keeps ↔ (∀ k < st.pool.made.length, k ∈ st.aclosed) ∧
      ∀ t k, st.pool.Returned t k → k ∈ st.aclosed := by
  unfold ShutdownState.Keeps
  rw [hsettled.1]
  constructor
  · intro hkeeps
    have hclosed : ∀ k < st.pool.made.length, k ∈ st.aclosed := fun k hk => (hkeeps k hk).elim id False.elim
    exact ⟨hclosed, fun t k hk => hclosed k (h.known t k (.inr hk))⟩
  · exact fun hclosed k hk => .inl (hclosed.1 k hk)

/-- **Pool shutdown.** Whatever calls of `acquire` run beside `aclose_all`, and whichever calls of `aclose`
raise: once all is settled, everything is closed exactly if no `aclose` but the last has raised and, in the
pool of the indexer, no client has been constructed since `aclose_all` began. -/
theorem closesEverything_iff (kind : PoolKind) (registry : SettingsRegistry)
    (acts : List ShutdownAction) :
    let step := ShutdownState.step kind.pool registry
    let st := Runs.exec step .new acts
    st.ClosesEverything ↔ (st.Settled → Runs.EachStep step (LosesNoClient kind.pool) .new acts) := by
  intro step st
  have hinv : ShutdownInv kind.pool registry st :=
    Runs.exec_invariant .new (fun _ a h => h.step a) acts
  refine forall_congr' fun hsettled => ?_
  rw [← hinv.keeps_iff_of_settled hsettled]
  exact keeps_iff acts

/-- A call of `acquire` awaits the password while `aclose_all` runs, and constructs its client then. -/
def lateAcquire : List ShutdownAction :=
  [.call (.acquire "acme"), .call (.enter 0), .call (.userFetched 0 (.ok "admin")), .close,
    .call (.passwordFetched 0 (.ok "secret") (.ok ()))]

/-- The client that it returns is never closed. -/
theorem late_client_open :
    ¬ ∀ (kind : PoolKind) (registry : SettingsRegistry) (acts : List ShutdownAction),
      (Runs.exec (ShutdownState.step kind.pool registry) .new acts).ClosesEverything := by
  intro h
  let acme : TenantSettings :=
    { tenantId := "acme", defaultRbacRole := "analyst", indexerUrl := "https://indexer:9200/" }
  have hclosed := h .indexer (.single acme) lateAcquire ⟨rfl, fun c hc => ?_⟩
  · cases hclosed.1 0 (by decide)
  · obtain rfl := List.mem_singleton.mp hc
    exact ⟨_, rfl⟩

end WazuhMcp
