import WazuhMcp.Foundations.Prog

/-!
# What a program may do, seen from outside

`Prog.Runs p tr out` says that `p` has a run with the trace `tr` and the outcome `out`, which is what
`Prog.All` speaks of (`all_iff_runs`). An observer sees of each event only `f ev`:
`Prog.Observes f p steps out` says that some run of `p` shows `steps` and ends with `out`.

Two programs with the same observations are the same to the observer (`Prog.Same`). It is a congruence
for sequencing (`Same.bind`), so two programs are compared piece by piece. Two observers of one program
are compared step by step (`observes_congr`).
-/

namespace Interact.Prog

variable {E : Type} {R : E → Type} {X α β S : Type}

/-! ## Runs -/

/-- The program has a run with this trace and this outcome. -/
def Runs : Prog E R X α → List (Event E R) → Except X α → Prop
  | .ret a, tr, out => tr = [] ∧ out = .ok a
  | .raise x, tr, out => tr = [] ∧ out = .error x
  | .op e k, tr, out => ∃ r tr', tr = ⟨e, r⟩ :: tr' ∧ (k r).Runs tr' out

theorem all_iff_runs {p : Prog E R X α} {Q : List (Event E R) → Except X α → Prop} :
    p.All Q ↔ ∀ tr out, p.Runs tr out → Q tr out := by
  induction p generalizing Q with
  | ret a =>
    constructor
    · rintro h _ _ ⟨rfl, rfl⟩
      exact h
    · exact fun h => h _ _ ⟨rfl, rfl⟩
  | raise x =>
    constructor
    · rintro h _ _ ⟨rfl, rfl⟩
      exact h
    · exact fun h => h _ _ ⟨rfl, rfl⟩
  | op e k ih =>
    constructor
    · rintro h _ out ⟨r, tr', rfl, hr⟩
      exact (ih r).mp (h r) tr' out hr
    · intro h r
      exact (ih r).mpr fun tr' out hr => h _ out ⟨r, tr', rfl, hr⟩

theorem runs_bind {p : Prog E R X α} {f : α → Prog E R X β} {tr : List (Event E R)}
    {out : Except X β} :
    (p >>= f).Runs tr out ↔
      (∃ tr₁ tr₂ a, tr = tr₁ ++ tr₂ ∧ p.Runs tr₁ (.ok a) ∧ (f a).Runs tr₂ out) ∨
        ∃ x, out = .error x ∧ p.Runs tr (.error x) := by
  change (p.bind f).Runs tr out ↔ _
  induction p generalizing tr with
  | ret a =>
    constructor
    · exact fun h => .inl ⟨[], tr, a, rfl, ⟨rfl, rfl⟩, h⟩
    · rintro (⟨_, tr₂, _, rfl, ⟨rfl, ha⟩, h⟩ | ⟨x, -, -, hx⟩)
      · cases ha
        exact h
      · cases hx
  | raise x =>
    constructor
    · rintro ⟨rfl, rfl⟩
      exact .inr ⟨x, rfl, rfl, rfl⟩
    · rintro (⟨_, _, _, -, ⟨-, ha⟩, -⟩ | ⟨y, rfl, rfl, hy⟩)
      · cases ha
      · cases hy
        exact ⟨rfl, rfl⟩
  | op e k ih =>
    constructor
    · rintro ⟨r, tr', rfl, h⟩
      rcases (ih r).mp h with ⟨tr₁, tr₂, a, rfl, h₁, h₂⟩ | ⟨x, rfl, hx⟩
      · exact .inl ⟨⟨e, r⟩ :: tr₁, tr₂, a, rfl, ⟨r, tr₁, rfl, h₁⟩, h₂⟩
      · exact .inr ⟨x, rfl, r, tr', rfl, hx⟩
    · rintro (⟨_, tr₂, a, rfl, ⟨r, tr₁, rfl, h₁⟩, h₂⟩ | ⟨x, rfl, r, tr', rfl, hx⟩)
      · exact ⟨r, tr₁ ++ tr₂, rfl, (ih r).mpr (.inl ⟨tr₁, tr₂, a, rfl, h₁, h₂⟩)⟩
      · exact ⟨r, tr', rfl, (ih r).mpr (.inr ⟨x, rfl, hx⟩)⟩

/-! ## Observations -/

/-- Some run of the program shows these steps and ends so. -/
def Observes (f : Event E R → S) (p : Prog E R X α) (steps : List S) (out : Except X α) : Prop :=
  ∃ tr, p.Runs tr out ∧ tr.map f = steps

theorem observes_op {f : Event E R → S} {e : E} {k : R e → Prog E R X α} {steps : List S}
    {out : Except X α} :
    (op e k).Observes f steps out ↔ ∃ r rest, steps = f ⟨e, r⟩ :: rest ∧ (k r).Observes f rest out := by
  constructor
  · rintro ⟨_, ⟨r, tr, rfl, h⟩, rfl⟩
    exact ⟨r, tr.map f, rfl, tr, h, rfl⟩
  · rintro ⟨r, _, rfl, tr, h, rfl⟩
    exact ⟨⟨e, r⟩ :: tr, ⟨r, tr, rfl, h⟩, rfl⟩

theorem observes_bind {f : Event E R → S} {p : Prog E R X α} {g : α → Prog E R X β} {steps : List S}
    {out : Except X β} :
    (p >>= g).Observes f steps out ↔
      (∃ steps₁ steps₂ a, steps = steps₁ ++ steps₂ ∧ p.Observes f steps₁ (.ok a) ∧
        (g a).Observes f steps₂ out) ∨ ∃ x, out = .error x ∧ p.Observes f steps (.error x) := by
  constructor
  · rintro ⟨tr, h, rfl⟩
    rcases runs_bind.mp h with ⟨tr₁, tr₂, a, rfl, h₁, h₂⟩ | ⟨x, rfl, hx⟩
    · exact .inl ⟨_, _, a, List.map_append, ⟨tr₁, h₁, rfl⟩, tr₂, h₂, rfl⟩
    · exact .inr ⟨x, rfl, tr, hx, rfl⟩
  · rintro (⟨_, _, a, rfl, ⟨tr₁, h₁, rfl⟩, tr₂, h₂, rfl⟩ | ⟨x, rfl, tr, hx, rfl⟩)
    · exact ⟨tr₁ ++ tr₂, runs_bind.mpr (.inl ⟨tr₁, tr₂, a, rfl, h₁, h₂⟩), List.map_append⟩
    · exact ⟨tr, runs_bind.mpr (.inr ⟨x, rfl, hx⟩), rfl⟩

/-- **The same to the observer**: whatever one program may show and come to, the other may. -/
def Same (f : Event E R → S) (p q : Prog E R X α) : Prop :=
  ∀ steps out, p.Observes f steps out ↔ q.Observes f steps out

variable {f : Event E R → S}

theorem Same.refl (p : Prog E R X α) : Same f p p := fun _ _ => Iff.rfl

/-- Two sequences are the same when their parts are. -/
theorem Same.bind {p q : Prog E R X α} {g h : α → Prog E R X β} (hpq : Same f p q)
    (hgh : ∀ a, Same f (g a) (h a)) : Same f (p >>= g) (q >>= h) := by
  intro steps out
  rw [observes_bind, observes_bind]
  apply or_congr
  · refine exists_congr fun steps₁ => exists_congr fun steps₂ => exists_congr fun a => ?_
    exact and_congr_right fun _ => and_congr (hpq steps₁ _) (hgh a steps₂ out)
  · exact exists_congr fun x => and_congr_right fun _ => hpq steps _

/-! ## Two observers -/

/-- Two observers who see every step of a program alike see the same of it. -/
theorem observes_congr {f g : Event E R → S} {p : Prog E R X α} (h : p.Every fun ev => f ev = g ev)
    (steps : List S) (out : Except X α) : p.Observes f steps out ↔ p.Observes g steps out := by
  have hmap : ∀ tr, p.Runs tr out → tr.map f = tr.map g := fun tr hruns =>
    List.map_congr_left (all_iff_runs.mp h.all tr out hruns)
  constructor
  · rintro ⟨tr, hruns, rfl⟩
    exact ⟨tr, hruns, (hmap tr hruns).symm⟩
  · rintro ⟨tr, hruns, rfl⟩
    exact ⟨tr, hruns, hmap tr hruns⟩

end Interact.Prog
