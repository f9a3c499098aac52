import WazuhMcp.Secrets.Caching

/-!
# Rotation of a cached secret

`invalidate` drops the entry of a key from the cache, and leaves a flight for it alone. So an `inner.get`
that was under way goes on to store its value, and later calls join it or find what it stored.

`fresh_of_quiet`: in runs where `invalidate` never finds a flight for its key, no call that starts after
it yields the value of an `inner.get` that started before it.
-/

namespace WazuhMcp.Secrets

open StoreRun

/-- No call yields a value whose `inner.get` started before an `invalidate` of its key that had returned
when the call started. -/
def Fresh (s : StoreRun) : Prop :=
  ∀ c ∈ s.calls, ∀ value, c.point.outcome = some (.ok value) → c.floor ≤ c.point.flight

/-- An `invalidate` finds no flight for its key. -/
def Quiet (s : StoreRun) : StoreAction → Prop
  | .invalidate key => s.inflight.get key = none
  | _ => True

/-- What the cache, the flights under way and the calls hold started after the last `invalidate` of the
key that they know of. -/
structure Rotated (s : StoreRun) : Prop where
  floor_le : ∀ key, s.floor key ≤ s.flights.length
  cache : ∀ key entry, s.cache.get key = some entry → s.floor key ≤ entry.flight
  inflight : ∀ key f, s.inflight.get key = some f → s.floor key ≤ f
  calls : ∀ c ∈ s.calls, c.floor ≤ c.point.flight

variable {ttl : ℚ} {s : StoreRun}

namespace Rotated

theorem empty : Rotated {} := by
  constructor <;> simp [StoreRun.floor]

/-- **Every quiet step keeps it.** -/
theorem step (h : Rotated s) (hcoherent : s.Coherent ttl) {a : StoreAction} (hquiet : Quiet s a) :
    Rotated (s.step ttl a) := by
  unfold StoreRun.step
  have heffect := act_effect ttl s a
  generalize s.act ttl a = s' at heffect
  cases heffect with
  | hit hentry =>
    exact ⟨h.floor_le, h.cache, h.inflight, forall_addCall h.calls (h.cache _ _ hentry)⟩
  | joined hin =>
    exact ⟨h.floor_le, h.cache, h.inflight, forall_addCall h.calls (h.inflight _ _ hin)⟩
  | opened hnone =>
    refine ⟨?_, h.cache, ?_, forall_addCall (s := s.openFlight _) h.calls (h.floor_le _)⟩
    · intro key
      exact (h.floor_le key).trans (by simp [StoreRun.addCall, StoreRun.openFlight])
    · intro key f hin
      rename_i key' now recheck
      by_cases hk : key = key'
      · obtain rfl : s.flights.length = f := by
          simpa [StoreRun.addCall, StoreRun.openFlight, hk] using hin
        exact h.floor_le key
      · exact h.inflight key f (by
          simpa [StoreRun.addCall, StoreRun.openFlight, Dict.get_set_of_ne _ hk] using hin)
  | completed hcall hpoint hflight =>
    rename_i i f out now c flight
    obtain ⟨hfetch, hkey, -⟩ := hcoherent.of_owner hcall hpoint hflight
    have hin := (hcoherent.owned f flight hflight hfetch).1
    rw [hkey] at hin
    refine ⟨?_, ?_, ?_, ?_⟩
    · intro key
      exact (h.floor_le key).trans (by simp [StoreRun.complete])
    · intro key entry hentry
      cases out with
      | error x => exact h.cache key entry hentry
      | ok value =>
        by_cases hk : key = c.key
        · obtain rfl : CacheEntry.mk (now + ttl) value f = entry := by
            simpa [StoreRun.complete, hk] using hentry
          rw [hk]
          exact h.inflight _ _ hin
        · exact h.cache key entry (by
            simpa [StoreRun.complete, Dict.get_set_of_ne _ hk] using hentry)
    · intro key g hg
      have hg' : (s.inflight.pop c.key).get key = some g := hg
      rw [Dict.get_pop] at hg'
      split at hg'
      · cases hg'
      · exact h.inflight key g hg'
    · have hold := h.calls c (List.mem_of_getElem? hcall)
      rw [hpoint] at hold
      exact forall_setCall h.calls hold
  | resumed hcall hpoint =>
    have hold := h.calls _ (List.mem_of_getElem? hcall)
    rw [hpoint] at hold
    exact ⟨h.floor_le, h.cache, h.inflight, forall_setCall h.calls hold⟩
  | ownerCancelled hcall =>
    have hold := h.calls _ (List.mem_of_getElem? hcall)
    exact ⟨h.floor_le, h.cache, h.inflight, forall_setCall h.calls hold⟩
  | waiterCancelled hcall =>
    have hold := h.calls _ (List.mem_of_getElem? hcall)
    refine ⟨?_, h.cache, h.inflight, forall_setCall h.calls hold⟩
    intro key
    exact (h.floor_le key).trans (by simp)
  | invalidated =>
    rename_i key
    have hfloor : ∀ k, ((s.invalidated.set key s.flights.length).get k).getD 0 =
        if k = key then s.flights.length else s.floor k := by
      intro k
      rw [Dict.get_set]
      split <;> rfl
    refine ⟨?_, ?_, ?_, h.calls⟩
    · intro k
      show ((s.invalidated.set key s.flights.length).get k).getD 0 ≤ s.flights.length
      rw [hfloor]
      split
      · exact le_rfl
      · exact h.floor_le k
    · intro k entry hentry
      have hentry' : (s.cache.pop key).get k = some entry := hentry
      show ((s.invalidated.set key s.flights.length).get k).getD 0 ≤ entry.flight
      rw [Dict.get_pop] at hentry'
      rw [hfloor]
      split at hentry'
      · cases hentry'
      · rename_i hk
        rw [if_neg hk]
        exact h.cache k entry hentry'
    · intro k f hin
      show ((s.invalidated.set key s.flights.length).get k).getD 0 ≤ f
      rw [hfloor]
      have hk : k ≠ key := by
        rintro rfl
        rw [show s.inflight.get k = none from hquiet] at hin
        cases hin
      rw [if_neg hk]
      exact h.inflight k f hin
  | idle => exact ⟨h.floor_le, h.cache, h.inflight, h.calls⟩

end Rotated

theorem Rotated.fresh (h : Rotated s) : Fresh s := fun c hc _ _ => h.calls c hc

/-- **Where `invalidate` finds no flight for its key**, later calls yield what was fetched after it, in
every state of the run. -/
theorem fresh_of_quiet (ttl : ℚ) (acts : List StoreAction)
    (h : Runs.EachStep (StoreRun.step ttl) Quiet {} acts) :
    Runs.Always (StoreRun.step ttl) Fresh {} acts := by
  have hall : Runs.Always (StoreRun.step ttl) (fun s => s.Coherent ttl ∧ Rotated s) {} acts := by
    refine Runs.always_of_eachStep ⟨coherent_empty, Rotated.empty⟩ ?_ h
    rintro s a ⟨hcoherent, hrotated⟩ hquiet
    exact ⟨hcoherent.step a, hrotated.step hcoherent hquiet⟩
  exact hall.mono fun s hs => hs.2.fresh

/-- The secret is rotated, and invalidated, between two fetches. -/
theorem fresh_of_quiet_rotation :
    Runs.Always (StoreRun.step 300) Fresh {} [.get ("acme", "pw") 0 0,
      .innerEnded 0 (.ok ⟨"old"⟩) 1, .invalidate ("acme", "pw"), .get ("acme", "pw") 2 2,
      .innerEnded 1 (.ok ⟨"new"⟩) 3] := by
  apply fresh_of_quiet
  refine Runs.eachStep_cons trivial (Runs.eachStep_cons trivial (Runs.eachStep_cons rfl ?_))
  exact Runs.eachStep_cons trivial (Runs.eachStep_cons trivial Runs.eachStep_nil)

/-- The secret is rotated and invalidated while it is being fetched: the next call waits for the fetch
under way, and yields the old value. -/
theorem not_fresh :
    ¬ ∀ (ttl : ℚ) (acts : List StoreAction), Runs.Always (StoreRun.step ttl) Fresh {} acts := by
  intro h
  have hlaw := h 300 [.get ("acme", "pw") 0 0, .invalidate ("acme", "pw"), .get ("acme", "pw") 1 1,
    .innerEnded 0 (.ok ⟨"old"⟩) 2, .resume 1] _ [] (List.append_nil _).symm
  have hfloor : 1 ≤ 0 := hlaw
    ⟨("acme", "pw"), 2, [1, 1], 1, false, .ended 0 (.ok ⟨"old"⟩)⟩
    (List.mem_of_getElem? (i := 1) rfl) ⟨"old"⟩ rfl
  omega

end WazuhMcp.Secrets
