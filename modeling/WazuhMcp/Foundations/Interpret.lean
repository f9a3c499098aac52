import WazuhMcp.Foundations.Observe

/-!
# Spelling out operations

A program over some operations becomes a program over others when each of its operations is spelled out
(`Prog.interpret`). Sequencing goes through (`interpret_bind`), and so does `attempt` where no operation
raises when it is spelled out (`interpret_attempt`).

`runs_interpret`: what an observer sees of a run of the spelled out program, who sees of the spelling of
an operation what there is to be seen of it, is what there is to be seen of a run of the program.
-/

namespace Interact.Prog

variable {E E' : Type} {R : E → Type} {R' : E' → Type} {X α β γ S : Type}

theorem bind_assoc (p : Prog E R X α) (f : α → Prog E R X β) (g : β → Prog E R X γ) :
    p >>= f >>= g = p >>= fun a => f a >>= g := by
  show (p.bind f).bind g = p.bind fun a => (f a).bind g
  induction p with
  | ret a => rfl
  | raise x => rfl
  | op e k ih => exact congrArg (op e) (funext ih)

theorem attempt_bind_ofExcept (p : Prog E R X α) : p.attempt >>= ofExcept = p := by
  show p.attempt.bind ofExcept = p
  induction p with
  | ret a => rfl
  | raise x => rfl
  | op e k ih => exact congrArg (op e) (funext ih)

theorem embed_bind (f : E → E') (p : Prog E (fun e => R' (f e)) X α)
    (g : α → Prog E (fun e => R' (f e)) X β) :
    (p >>= g).embed f = p.embed f >>= fun a => (g a).embed f := by
  show (p.bind g).embed f = (p.embed f).bind fun a => (g a).embed f
  induction p with
  | ret a => rfl
  | raise x => rfl
  | op e k ih => exact congrArg (op (f e)) (funext ih)

theorem embed_ofExcept (f : E → E') (out : Except X α) :
    (ofExcept out : Prog E (fun e => R' (f e)) X α).embed f = ofExcept out := by
  cases out <;> rfl

/-! ## Interpretation -/

/-- The program with every operation spelled out. -/
def interpret (f : ∀ e, Prog E' R' X (R e)) : Prog E R X α → Prog E' R' X α
  | .ret a => .ret a
  | .raise x => .raise x
  | .op e k => f e >>= fun r => (k r).interpret f

variable {f : ∀ e, Prog E' R' X (R e)}

@[simp] theorem interpret_pure (a : α) : (pure a : Prog E R X α).interpret f = pure a := rfl

@[simp] theorem interpret_raise (x : X) : (raise x : Prog E R X α).interpret f = raise x := rfl

@[simp] theorem interpret_ofExcept (out : Except X α) :
    (ofExcept out : Prog E R X α).interpret f = ofExcept out := by
  cases out <;> rfl

/-- An operation that is spelled out as an attempt, and raises what that came to, is what was attempted. -/
theorem attempt_bind_interpret (p : Prog E' R' X α) :
    (p.attempt >>= fun out => (ofExcept out : Prog E R X α).interpret f) = p := by
  refine Eq.trans ?_ (attempt_bind_ofExcept p)
  exact congrArg (p.attempt >>= ·) (funext interpret_ofExcept)

theorem interpret_bind (p : Prog E R X α) (g : α → Prog E R X β) :
    (p >>= g).interpret f = p.interpret f >>= fun a => (g a).interpret f := by
  change (p.bind g).interpret f = _
  induction p with
  | ret a => rfl
  | raise x => rfl
  | op e k ih =>
    show (f e >>= fun r => ((k r).bind g).interpret f) = f e >>= (fun r => (k r).interpret f) >>= _
    rw [bind_assoc]
    exact congrArg (f e >>= ·) (funext ih)

/-- What holds of every step of the spellings holds of every step of the spelled out program. -/
theorem every_interpret {P : Event E' R' → Prop} (hf : ∀ e, (f e).Every P) (p : Prog E R X α) :
    (p.interpret f).Every P := by
  induction p with
  | ret a => trivial
  | raise x => trivial
  | op e k ih => exact every_bind (hf e) ih

/-- The program does not raise, so that whatever is tried behind it is tried after it. -/
def Quiet (p : Prog E R X α) : Prop :=
  ∀ {β : Type} (g : α → Prog E R X β), (p >>= g).attempt = p >>= fun a => (g a).attempt

theorem quiet_attempt (p : Prog E R X α) : p.attempt.Quiet := by
  intro β g
  change (p.attempt.bind g).attempt = p.attempt.bind fun out => (g out).attempt
  induction p with
  | ret a => rfl
  | raise x => rfl
  | op e k ih => exact congrArg (op e) (funext ih)

theorem interpret_attempt (hf : ∀ e, (f e).Quiet) (p : Prog E R X α) :
    p.attempt.interpret f = (p.interpret f).attempt := by
  induction p with
  | ret a => rfl
  | raise x => rfl
  | op e k ih =>
    show (f e >>= fun r => (k r).attempt.interpret f) = (f e >>= fun r => (k r).interpret f).attempt
    rw [hf e]
    exact congrArg (f e >>= ·) (funext ih)

/-! ## Runs -/

theorem runs_attempt {p : Prog E R X α} {tr : List (Event E R)} {out : Except X (Except X α)} :
    p.attempt.Runs tr out ↔ ∃ out', out = .ok out' ∧ p.Runs tr out' := by
  induction p generalizing tr with
  | ret a => exact ⟨fun h => ⟨_, h.2, h.1, rfl⟩, fun h => by obtain ⟨_, rfl, rfl, rfl⟩ := h; exact ⟨rfl, rfl⟩⟩
  | raise x => exact ⟨fun h => ⟨_, h.2, h.1, rfl⟩, fun h => by obtain ⟨_, rfl, rfl, rfl⟩ := h; exact ⟨rfl, rfl⟩⟩
  | op e k ih =>
    constructor
    · rintro ⟨r, tr', rfl, h⟩
      obtain ⟨out', rfl, hout⟩ := (ih r).mp h
      exact ⟨out', rfl, r, tr', rfl, hout⟩
    · rintro ⟨out', rfl, r, tr', rfl, h⟩
      exact ⟨r, tr', rfl, (ih r).mpr ⟨out', rfl, h⟩⟩

/-- **A run of the spelled out program** looks like a run of the program. -/
theorem runs_interpret {see : Event E R → List S} {see' : Event E' R' → List S}
    (hf : ∀ e tr out, (f e).Runs tr out → ∃ r, out = .ok r ∧ tr.flatMap see' = see ⟨e, r⟩)
    {p : Prog E R X α} {tr : List (Event E' R')} {out : Except X α} (h : (p.interpret f).Runs tr out) :
    ∃ trc, p.Runs trc out ∧ tr.flatMap see' = trc.flatMap see := by
  induction p generalizing tr with
  | ret a =>
    obtain ⟨rfl, rfl⟩ := h
    exact ⟨[], ⟨rfl, rfl⟩, rfl⟩
  | raise x =>
    obtain ⟨rfl, rfl⟩ := h
    exact ⟨[], ⟨rfl, rfl⟩, rfl⟩
  | op e k ih =>
    rcases runs_bind.mp h with ⟨tr₁, tr₂, r, rfl, h₁, h₂⟩ | ⟨x, rfl, hx⟩
    · obtain ⟨r', hr', hsee⟩ := hf e tr₁ _ h₁
      cases hr'
      obtain ⟨trc, hrun, hrest⟩ := ih r h₂
      refine ⟨⟨e, r⟩ :: trc, ⟨r, trc, rfl, hrun⟩, ?_⟩
      rw [List.flatMap_append, hsee, hrest, List.flatMap_cons]
    · obtain ⟨r, hr, -⟩ := hf e tr _ hx
      cases hr

end Interact.Prog
