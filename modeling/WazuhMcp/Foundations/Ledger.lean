import Mathlib.Data.List.Perm.Basic
import Mathlib.Logic.Relation
import Mathlib.Data.List.Nodup

/-!
# Custody of numbered entries

What a forwarding component owes for the entries it has been given, whatever its queues look like.
Entries are numbered in the order they are submitted. Each is waiting, held by the worker, dropped
with a report, or gone; what has been delivered is recorded besides, since a held entry may have been
delivered already without the worker knowing. From the moment the ledger is closed, only the entries
submitted before are owed.

`Sound` is the invariant: no entry is in two places, a waiting entry has not been delivered, no entry
is both dropped and delivered, and every owed entry is accounted for. Every move of an entry keeps
it, with two provisos that `Move` states: held entries may be dropped only while they are
undelivered, and let go only once the owed ones among them are delivered. `Sound.settled` says what
is left when nothing owed is in custody (`Quiet`), which moves keep once the ledger is closed.
-/

/-- The custody of numbered entries. -/
structure Ledger where
  submitted : ℕ
  closed : Option ℕ
  waiting : List ℕ
  held : List ℕ
  dropped : List ℕ
  delivered : List ℕ

namespace Ledger

/-- The entry was submitted, and before the ledger was closed if it is. -/
def Owed (l : Ledger) (e : ℕ) : Prop := e < l.closed.getD l.submitted

instance (l : Ledger) (e : ℕ) : Decidable (l.Owed e) := inferInstanceAs (Decidable (_ < _))

/-- The entry is delivered and not dropped, or dropped once and not delivered. -/
def Settled (l : Ledger) (e : ℕ) : Prop :=
  (e ∈ l.delivered ∧ e ∉ l.dropped) ∨ (e ∉ l.delivered ∧ l.dropped.count e = 1)

/-- Nothing owed is in custody. -/
def Quiet (l : Ledger) : Prop := ∀ e ∈ l.waiting ++ l.held, ¬ l.Owed e

/-! ## Moves -/

/-- No entry has been submitted. -/
def empty : Ledger := ⟨0, none, [], [], [], []⟩

/-- A new entry is submitted, and waits. -/
def enter (l : Ledger) : Ledger :=
  { l with submitted := l.submitted + 1, waiting := l.waiting ++ [l.submitted] }

/-- The oldest waiting entry is dropped. -/
def evict (l : Ledger) : Ledger :=
  { l with waiting := l.waiting.tail, dropped := l.dropped ++ l.waiting.head?.toList }

/-- The worker takes the oldest waiting entry. -/
def take (l : Ledger) : Ledger :=
  { l with waiting := l.waiting.tail, held := l.held ++ l.waiting.head?.toList }

/-- Some of the held entries are delivered. -/
def accept (l : Ledger) (p : ℕ → Bool) : Ledger :=
  { l with delivered := l.delivered ++ l.held.filter p }

/-- The held entries are dropped. -/
def discard (l : Ledger) : Ledger := { l with dropped := l.dropped ++ l.held, held := [] }

/-- The held entries are let go. -/
def release (l : Ledger) : Ledger := { l with held := [] }

/-- The ledger is closed. -/
def close (l : Ledger) : Ledger := { l with closed := some (l.closed.getD l.submitted) }

/-- A new entry changes nothing for those before it. -/
theorem owed_enter {l : Ledger} {e : ℕ} (h : e < l.submitted) : l.enter.Owed e ↔ l.Owed e := by
  rw [Owed, Owed, enter]
  cases l.closed with
  | none => exact iff_of_true (Nat.lt_succ_of_lt h) h
  | some n => exact Iff.rfl

/-! ## Soundness -/

/-- The invariant of custody. -/
structure Sound (l : Ledger) : Prop where
  closed_le : ∀ n ∈ l.closed, n ≤ l.submitted
  fresh : ∀ e ∈ l.waiting ++ l.held ++ l.dropped, e < l.submitted
  delivered_fresh : ∀ e ∈ l.delivered, e < l.submitted
  once : (l.waiting ++ l.held ++ l.dropped).Nodup
  untouched : ∀ e ∈ l.waiting, e ∉ l.delivered
  apart : ∀ e ∈ l.dropped, e ∉ l.delivered
  accounted : ∀ e, l.Owed e → e ∈ l.waiting ∨ e ∈ l.held ∨ e ∈ l.dropped ∨ e ∈ l.delivered

namespace Sound

theorem empty : Ledger.empty.Sound where
  closed_le := by simp [Ledger.empty]
  fresh := by simp [Ledger.empty]
  delivered_fresh := by simp [Ledger.empty]
  once := by simp [Ledger.empty]
  untouched := by simp [Ledger.empty]
  apart := by simp [Ledger.empty]
  accounted := by simp [Ledger.empty, Owed]

variable {l : Ledger}

private theorem enter_perm :
    (l.enter.waiting ++ l.enter.held ++ l.enter.dropped).Perm
      (l.submitted :: (l.waiting ++ l.held ++ l.dropped)) := by
  simp only [Ledger.enter, List.append_assoc, List.singleton_append]
  exact List.perm_middle

theorem enter (h : l.Sound) : l.enter.Sound where
  closed_le n hn := Nat.le_succ_of_le (h.closed_le n hn)
  fresh e he := by
    rcases List.mem_cons.mp (enter_perm.mem_iff.mp he) with rfl | he
    · exact Nat.lt_succ_self _
    · exact Nat.lt_succ_of_lt (h.fresh e he)
  delivered_fresh e he := Nat.lt_succ_of_lt (h.delivered_fresh e he)
  once := by
    rw [enter_perm.nodup_iff, List.nodup_cons]
    exact ⟨fun hmem => Nat.lt_irrefl _ (h.fresh l.submitted hmem), h.once⟩
  untouched e he hdel := by
    rcases List.mem_append.mp he with he | he
    · exact h.untouched e he hdel
    · rw [List.mem_singleton.mp he] at hdel
      exact absurd (h.delivered_fresh _ hdel) (Nat.lt_irrefl _)
  apart := h.apart
  accounted e howed := by
    by_cases he : e = l.submitted
    · exact .inl (by simp [Ledger.enter, he])
    · have howed' : l.Owed e := by
        cases hc : l.closed with
        | none =>
          have : e < l.submitted + 1 := by simpa [Owed, Ledger.enter, hc] using howed
          simp only [Owed, hc, Option.getD_none]
          omega
        | some n => simpa [Owed, Ledger.enter, hc] using howed
      rcases h.accounted e howed' with hw | hrest
      · exact .inl (by simp [Ledger.enter, hw])
      · exact .inr hrest

theorem evict (h : l.Sound) : l.evict.Sound := by
  obtain ⟨submitted, closed, waiting, held, dropped, delivered⟩ := l
  cases waiting with
  | nil => simpa [Ledger.evict] using h
  | cons w ws =>
    have hperm : (ws ++ held ++ (dropped ++ [w])).Perm (w :: ws ++ held ++ dropped) := by
      rw [← List.append_assoc]
      exact List.perm_append_singleton _ _
    refine ⟨h.closed_le, fun e he => h.fresh e (hperm.mem_iff.mp he), h.delivered_fresh,
      hperm.nodup_iff.mpr h.once, fun e he => h.untouched e (List.mem_cons_of_mem _ he),
      fun e he => ?_, fun e howed => ?_⟩
    · rcases List.mem_append.mp he with he | he
      · exact h.apart e he
      · obtain rfl : e = w := by simpa using he
        exact h.untouched e List.mem_cons_self
    · have := h.accounted e howed
      simp only [Ledger.evict, List.tail_cons, List.head?_cons, Option.toList_some,
        List.mem_append, List.mem_cons] at this ⊢
      tauto

theorem take (h : l.Sound) : l.take.Sound := by
  obtain ⟨submitted, closed, waiting, held, dropped, delivered⟩ := l
  cases waiting with
  | nil => simpa [Ledger.take] using h
  | cons w ws =>
    have hperm : (ws ++ (held ++ [w]) ++ dropped).Perm (w :: ws ++ held ++ dropped) := by
      rw [← List.append_assoc]
      exact (List.perm_append_singleton _ _).append_right _
    refine ⟨h.closed_le, fun e he => h.fresh e (hperm.mem_iff.mp he), h.delivered_fresh,
      hperm.nodup_iff.mpr h.once, fun e he => h.untouched e (List.mem_cons_of_mem _ he), h.apart,
      fun e howed => ?_⟩
    have := h.accounted e howed
    simp only [Ledger.take, List.tail_cons, List.head?_cons, Option.toList_some,
      List.mem_append, List.mem_cons] at this ⊢
    tauto

theorem accept (h : l.Sound) (p : ℕ → Bool) : (l.accept p).Sound where
  closed_le := h.closed_le
  fresh := h.fresh
  delivered_fresh e he := by
    rcases List.mem_append.mp he with he | he
    · exact h.delivered_fresh e he
    · exact h.fresh e (by simp [(List.mem_filter.mp he).1])
  once := h.once
  untouched e he hdel := by
    rcases List.mem_append.mp hdel with hdel | hdel
    · exact h.untouched e he hdel
    · have hdisj := (List.nodup_append.mp (List.nodup_append.mp h.once).1).2.2
      exact hdisj e he e (List.mem_filter.mp hdel).1 rfl
  apart e he hdel := by
    rcases List.mem_append.mp hdel with hdel | hdel
    · exact h.apart e he hdel
    · have hdisj := (List.nodup_append.mp h.once).2.2
      exact hdisj e (by simp [(List.mem_filter.mp hdel).1]) e he rfl
  accounted e howed := by
    rcases h.accounted e howed with hw | hh | hd | hdel
    · exact .inl hw
    · exact .inr (.inl hh)
    · exact .inr (.inr (.inl hd))
    · exact .inr (.inr (.inr (List.mem_append_left _ hdel)))

/-- Held entries may be dropped while they are undelivered. -/
theorem discard (h : l.Sound) (hheld : ∀ e ∈ l.held, e ∉ l.delivered) :
    l.discard.Sound := by
  have hperm : (l.waiting ++ [] ++ (l.dropped ++ l.held)).Perm
      (l.waiting ++ l.held ++ l.dropped) := by
    rw [List.append_nil, List.append_assoc]
    exact List.perm_append_comm.append_left _
  refine ⟨h.closed_le, fun e he => h.fresh e (hperm.mem_iff.mp he), h.delivered_fresh,
    hperm.nodup_iff.mpr h.once, h.untouched, fun e he => ?_, fun e howed => ?_⟩
  · rcases List.mem_append.mp he with he | he
    · exact h.apart e he
    · exact hheld e he
  · have := h.accounted e howed
    simp only [Ledger.discard, List.mem_append, List.not_mem_nil, false_or] at this ⊢
    tauto

/-- Held entries may be let go once the owed ones among them are delivered. -/
theorem release (h : l.Sound) (hheld : ∀ e ∈ l.held, l.Owed e → e ∈ l.delivered) :
    l.release.Sound := by
  have hsub : (l.waiting ++ [] ++ l.dropped).Sublist (l.waiting ++ l.held ++ l.dropped) := by
    rw [List.append_nil]
    exact (List.sublist_append_left _ _).append_right _
  refine ⟨h.closed_le, fun e he => h.fresh e (hsub.subset he), h.delivered_fresh, h.once.sublist hsub,
    h.untouched, h.apart, fun e howed => ?_⟩
  have := h.accounted e howed
  have := hheld e
  simp only [Ledger.release, List.not_mem_nil, false_or] at this ⊢
  tauto

theorem close (h : l.Sound) : l.close.Sound where
  closed_le n hn := by
    obtain rfl : l.closed.getD l.submitted = n := by simpa [Ledger.close] using hn
    cases hc : l.closed with
    | none => simp [Ledger.close]
    | some n => simpa [Ledger.close] using h.closed_le n hc
  fresh := h.fresh
  delivered_fresh := h.delivered_fresh
  once := h.once
  untouched := h.untouched
  apart := h.apart
  accounted e howed := h.accounted e (by simpa [Owed, Ledger.close] using howed)

/-- **When nothing owed is in custody**, everything owed is settled. -/
theorem settled (h : l.Sound) (hquiet : l.Quiet) {e : ℕ} (howed : l.Owed e) : l.Settled e := by
  have hdropped := (List.nodup_append.mp h.once).2.1
  rcases h.accounted e howed with hw | hh | hd | hdel
  · exact absurd howed (hquiet e (by simp [hw]))
  · exact absurd howed (hquiet e (by simp [hh]))
  · exact .inr ⟨h.apart e hd, List.count_eq_one_of_mem hdropped hd⟩
  · exact .inl ⟨hdel, fun hd => h.apart e hd hdel⟩

end Sound

/-! ## Runs of moves -/

/-- A move of custody. -/
inductive Move : Ledger → Ledger → Prop
  | enter (l : Ledger) : Move l l.enter
  | evict (l : Ledger) : Move l l.evict
  | take (l : Ledger) : Move l l.take
  | accept (l : Ledger) (p : ℕ → Bool) : Move l (l.accept p)
  | discard (l : Ledger) (h : ∀ e ∈ l.held, e ∉ l.delivered) : Move l l.discard
  | release (l : Ledger) (h : ∀ e ∈ l.held, l.Owed e → e ∈ l.delivered) : Move l l.release

/-- Any number of moves. -/
abbrev Moves : Ledger → Ledger → Prop := Relation.ReflTransGen Move

variable {l l' : Ledger}

theorem Move.sound (h : Move l l') (hl : l.Sound) : l'.Sound := by
  cases h with
  | enter => exact hl.enter
  | evict => exact hl.evict
  | take => exact hl.take
  | accept p => exact hl.accept p
  | discard h => exact hl.discard h
  | release h => exact hl.release h

theorem Move.closed_eq (h : Move l l') : l'.closed = l.closed := by
  cases h <;> rfl

/-- Once the ledger is closed, a move brings nothing owed into custody. -/
theorem Move.quiet (h : Move l l') (hl : l.Sound) (hclosed : l.closed.isSome) (hquiet : l.Quiet) :
    l'.Quiet := by
  obtain ⟨n, hn⟩ := Option.isSome_iff_exists.mp hclosed
  have hle := hl.closed_le n hn
  obtain ⟨submitted, closed, waiting, held, dropped, delivered⟩ := l
  obtain rfl : closed = some n := hn
  have hwaiting : ∀ e ∈ waiting ++ held, ¬ e < n := hquiet
  cases h with
  | enter =>
    intro e he
    simp only [Ledger.enter, List.mem_append, List.mem_singleton] at he hwaiting
    rcases he with (he | rfl) | he
    · exact hwaiting e (.inl he)
    · exact Nat.not_lt.mpr hle
    · exact hwaiting e (.inr he)
  | evict =>
    intro e he
    rcases List.mem_append.mp he with he | he
    · exact hwaiting e (List.mem_append_left _ (List.mem_of_mem_tail he))
    · exact hwaiting e (List.mem_append_right _ he)
  | take =>
    intro e he
    have hmem : e ∈ waiting ++ held := by
      cases waiting with
      | nil => simpa [Ledger.take] using he
      | cons w ws =>
        simp only [Ledger.take, List.tail_cons, List.head?_cons, Option.toList_some,
          List.mem_append, List.mem_cons, List.not_mem_nil, or_false] at he ⊢
        tauto
    exact hwaiting e hmem
  | accept p => exact hquiet
  | discard h =>
    intro e he
    exact hwaiting e (List.mem_append_left _ (by simpa [Ledger.discard] using he))
  | release h =>
    intro e he
    exact hwaiting e (List.mem_append_left _ (by simpa [Ledger.release] using he))

/-- **Moves keep the ledger sound**, and quiet once it is closed. -/
theorem Moves.sound (h : Moves l l') (hl : l.Sound) :
    l'.Sound ∧ l'.closed = l.closed ∧ (l.closed.isSome → l.Quiet → l'.Quiet) := by
  induction h with
  | refl => exact ⟨hl, rfl, fun _ h => h⟩
  | tail _ hmove ih =>
    obtain ⟨hsound, hclosed, hquiet⟩ := ih
    refine ⟨hmove.sound hsound, hmove.closed_eq.trans hclosed, fun hc hq => ?_⟩
    exact hmove.quiet hsound (hclosed ▸ hc) (hquiet hc hq)

end Ledger
