import WazuhMcp.Foundations.Interpret

/-!
# What a program may spend

Every event of a run costs something. `AtMost cost n p` says that no run of the program costs more than `n`,
whatever is answered.

* `AtMost.bind`: costs add up along a sequence.
* `AtMost.interpret`: a program costs what its operations cost when they are spelled out.
-/

namespace Interact

variable {E E' : Type} {R : E → Type} {R' : E' → Type} {X α β : Type}

/-- What a trace costs. -/
def spent (cost : Event E R → ℕ) : List (Event E R) → ℕ
  | [] => 0
  | ev :: tr => cost ev + spent cost tr

theorem spent_append (cost : Event E R → ℕ) (tr tr' : List (Event E R)) :
    spent cost (tr ++ tr') = spent cost tr + spent cost tr' := by
  induction tr with
  | nil => exact (Nat.zero_add _).symm
  | cons ev tr ih =>
    show cost ev + spent cost (tr ++ tr') = cost ev + spent cost tr + spent cost tr'
    omega

theorem spent_embed {f : E' → E} (cost : Event E R → ℕ) (tr : List (Event E' fun e => R (f e))) :
    spent cost (tr.map (Event.embed f)) = spent (fun ev => cost (ev.embed f)) tr := by
  induction tr with
  | nil => rfl
  | cons ev tr ih =>
    show cost (ev.embed f) + spent cost (tr.map (Event.embed f)) = _
    rw [ih]
    rfl

/-- Where the events that count cost one each, a trace costs as many as there are. -/
theorem spent_eq_length {S : Type} (see : Event E R → Option S) (tr : List (Event E R)) :
    spent (fun ev => (see ev).elim 0 fun _ => 1) tr = (tr.filterMap see).length := by
  induction tr with
  | nil => rfl
  | cons ev tr ih =>
    show (see ev).elim 0 (fun _ => 1) + spent _ tr = _
    rw [List.filterMap_cons, ih]
    cases see ev with
    | none => exact Nat.zero_add _
    | some s => exact Nat.add_comm ..

namespace Prog

variable {cost : Event E R → ℕ} {m n : ℕ} {p : Prog E R X α} {f : α → Prog E R X β}

/-- **No run costs more**, whatever is answered. -/
def AtMost (cost : Event E R → ℕ) (n : ℕ) (p : Prog E R X α) : Prop := p.All fun tr _ => spent cost tr ≤ n

theorem AtMost.mono (h : p.AtMost cost m) (hle : m ≤ n) : p.AtMost cost n :=
  All.mono h fun _ _ htr => Nat.le_trans htr hle

theorem atMost_pure (a : α) : (pure a : Prog E R X α).AtMost cost n := n.zero_le

theorem atMost_raise (x : X) : (raise x : Prog E R X α).AtMost cost n := n.zero_le

theorem atMost_ofExcept (out : Except X α) : (ofExcept out : Prog E R X α).AtMost cost n :=
  (all_ofExcept ..).mpr n.zero_le

theorem atMost_op {e : E} {k : R e → Prog E R X α} (he : ∀ r, cost ⟨e, r⟩ ≤ m)
    (hk : ∀ r, (k r).AtMost cost n) : (op e k).AtMost cost (m + n) :=
  fun r => All.mono (hk r) fun _ _ htr => Nat.add_le_add (he r) htr

/-- A step that costs nothing. -/
theorem atMost_free {e : E} {k : R e → Prog E R X α} (he : ∀ r, cost ⟨e, r⟩ = 0)
    (hk : ∀ r, (k r).AtMost cost n) : (op e k).AtMost cost n :=
  Nat.zero_add n ▸ atMost_op (fun r => Nat.le_of_eq (he r)) hk

/-- **Costs add up** along a sequence. -/
theorem AtMost.bind (hp : p.AtMost cost m) (hf : ∀ a, (f a).AtMost cost n) : (p >>= f).AtMost cost (m + n) := by
  refine (all_bind ..).mpr (All.mono hp fun tr out htr => ?_)
  cases out with
  | ok a =>
    refine All.mono (hf a) fun tr' _ htr' => ?_
    rw [spent_append]
    omega
  | error x => exact Nat.le_trans htr (Nat.le_add_right m n)

/-- What costs nothing, before what may cost something. -/
theorem AtMost.first (hp : p.AtMost cost 0) (hf : ∀ a, (f a).AtMost cost n) : (p >>= f).AtMost cost n :=
  Nat.zero_add n ▸ hp.bind hf

/-- What may cost something, before what costs nothing. -/
theorem AtMost.last (hp : p.AtMost cost n) (hf : ∀ a, (f a).AtMost cost 0) : (p >>= f).AtMost cost n :=
  hp.bind hf

theorem AtMost.attempt (hp : p.AtMost cost n) : p.attempt.AtMost cost n := (all_attempt ..).mpr hp

theorem AtMost.embed {f : E' → E} {p : Prog E' (fun e => R (f e)) X α}
    (hp : p.AtMost (fun ev => cost (ev.embed f)) n) : (p.embed f).AtMost cost n := by
  refine (all_embed ..).mpr (All.mono hp fun tr _ htr => ?_)
  rwa [spent_embed]

/-- A program none of whose steps cost anything. -/
theorem atMost_of_every (h : p.Every fun ev => cost ev = 0) : p.AtMost cost n := by
  induction p with
  | ret a => exact n.zero_le
  | raise x => exact n.zero_le
  | op e k ih => exact atMost_free (fun r => (h r).1) fun r => ih r (h r).2

/-- What a program costs when its operations are spelled out, each at its price. -/
theorem AtMost.interpret [∀ e, Inhabited (R e)] {cost' : Event E' R' → ℕ} {price : E → ℕ}
    {f : ∀ e, Prog E' R' X (R e)} (hf : ∀ e, (f e).AtMost cost' (price e))
    (hp : p.AtMost (fun ev => price ev.op) n) : (p.interpret f).AtMost cost' n := by
  induction p generalizing n with
  | ret a => exact n.zero_le
  | raise x => exact n.zero_le
  | op e k ih =>
    have hprice : price e ≤ n :=
      Nat.le_trans (Nat.le_add_right ..) (All.run (hp default) fun _ => default)
    refine ((hf e).bind fun r => ih r (n := n - price e) (All.mono (hp r) fun tr _ htr => ?_)).mono (by omega)
    exact Nat.le_sub_of_add_le' htr

end Prog

end Interact
