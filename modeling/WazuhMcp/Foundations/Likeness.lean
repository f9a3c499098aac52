import WazuhMcp.Foundations.Interpret

/-!
# Two runs that are alike

A likeness says which operations, and which answers to them, differ only in what is not to matter. Two programs
are in step (`Prog.InStep`) when they perform alike operations for as long as these are answered alike, and then
return related values or raise the same.

* `InStep.bind`, `InStep.attempt`, `InStep.embed`, `inStep_interpret`: it goes through whatever programs are put
  together by.
* `inStep_of_every`: a program whose answers all matter is in step with itself.
* `InStep.blind`: two runs of a program in step with itself that are answered alike are alike, and end with the
  same.
-/

namespace Interact

/-- Which operations, and which events, are alike. -/
structure Likeness (E : Type) (R : E → Type) where
  ops : E → E → Prop
  ops_refl : ∀ e, ops e e
  events : Event E R → Event E R → Prop

namespace Likeness

variable {E E' : Type} {R : E → Type} (L : Likeness E R)

/-- Two traces are answered alike, for as long as what is asked is alike. -/
def Answered : List (Event E R) → List (Event E R) → Prop
  | ev :: tr, ev' :: tr' => L.ops ev.op ev'.op → L.events ev ev' ∧ Answered tr tr'
  | _, _ => True

/-- All of the answer matters. -/
def Plain (ev : Event E R) : Prop := ∀ r, L.events ev ⟨ev.op, r⟩ → ev.ans = r

/-- **Whatever is not to matter does not**: two runs of the program that are answered alike are alike, and end
with the same. -/
def Blind {X α : Type} (p : Prog E R X α) : Prop :=
  ∀ tr out tr' out', p.Runs tr out → p.Runs tr' out' → L.Answered tr tr' →
    List.Forall₂ L.events tr tr' ∧ out = out'

/-- The likeness in a larger signature, where the other operations are only like themselves. -/
def lift (f : E' → E) (L : Likeness E' fun e => R (f e)) : Likeness E R where
  ops e e' := e = e' ∨ ∃ a a', f a = e ∧ f a' = e' ∧ L.ops a a'
  ops_refl _ := .inl rfl
  events ev ev' :=
    ev = ev' ∨ ∃ a a' : Event E' fun e => R (f e), a.embed f = ev ∧ a'.embed f = ev' ∧ L.events a a'

/-- All of the answer to another operation matters. -/
theorem plain_lift {f : E' → E} {L : Likeness E' fun e => R (f e)} {e : E} {r : R e} (h : ∀ e', f e' ≠ e) :
    (L.lift f).Plain ⟨e, r⟩ := by
  rintro r' (heq | ⟨a, a', ha, -⟩)
  · exact eq_of_heq (Event.mk.inj heq).2
  · exact absurd (congrArg Event.op ha) (h _)

end Likeness

theorem Event.embed_injective {E E' : Type} {R : E → Type} {f : E' → E} (hf : Function.Injective f) :
    Function.Injective (Event.embed f : (Event E' fun e => R (f e)) → Event E R) := by
  rintro ⟨op, ans⟩ ⟨op', ans'⟩ h
  obtain ⟨hop, hans⟩ := Event.mk.inj h
  obtain rfl : op = op' := hf hop
  exact congrArg (Event.mk op) (eq_of_heq hans)

namespace Prog

variable {E E' : Type} {R : E → Type} {R' : E' → Type} {X α α' β β' : Type}

/-- **In step**: alike operations for as long as they are answered alike, and then the same end. -/
def InStep (L : Likeness E R) (T : α → α' → Prop) : Prog E R X α → Prog E R X α' → Prop
  | .ret a, .ret a' => T a a'
  | .raise x, .raise x' => x = x'
  | .op e k, .op e' k' => L.ops e e' ∧ ∀ r r', L.events ⟨e, r⟩ ⟨e', r'⟩ → InStep L T (k r) (k' r')
  | _, _ => False

variable {L : Likeness E R} {T : α → α' → Prop} {U : β → β' → Prop}

theorem InStep.bind {p : Prog E R X α} {q : Prog E R X α'} {f : α → Prog E R X β} {g : α' → Prog E R X β'}
    (h : InStep L T p q) (hfg : ∀ a a', T a a' → InStep L U (f a) (g a')) : InStep L U (p >>= f) (q >>= g) := by
  change InStep L U (p.bind f) (q.bind g)
  induction p generalizing q with
  | ret a =>
    cases q with
    | ret a' => exact hfg a a' h
    | _ => exact h.elim
  | raise x =>
    cases q with
    | raise x' => exact h
    | _ => exact h.elim
  | op e k ih =>
    cases q with
    | op e' k' => exact ⟨h.1, fun r r' hr => ih r (h.2 r r' hr)⟩
    | _ => exact h.elim

/-- A program in step with itself, before programs that are in step. -/
theorem InStep.seq {p : Prog E R X α} {f : α → Prog E R X β} {g : α → Prog E R X β'} (h : InStep L Eq p p)
    (hfg : ∀ a, InStep L U (f a) (g a)) : InStep L U (p >>= f) (p >>= g) :=
  h.bind fun a _ heq => heq ▸ hfg a

theorem inStep_ofExcept (out : Except X α) : InStep L Eq (ofExcept out : Prog E R X α) (ofExcept out) := by
  cases out <;> exact rfl

/-- A program whose answers all matter is in step with itself. -/
theorem inStep_of_every {S : α → α → Prop} (hS : ∀ a, S a a) {p : Prog E R X α} (h : p.Every L.Plain) :
    InStep L S p p := by
  induction p with
  | ret a => exact hS a
  | raise x => exact rfl
  | op e k ih =>
    refine ⟨L.ops_refl e, fun r r' hr => ?_⟩
    obtain rfl := (h r).1 r' hr
    exact ih r (h r).2

theorem InStep.attempt {p q : Prog E R X α} (h : InStep L Eq p q) : InStep L Eq p.attempt q.attempt := by
  induction p generalizing q with
  | ret a =>
    cases q with
    | ret a' => exact congrArg Except.ok h
    | _ => exact h.elim
  | raise x =>
    cases q with
    | raise x' => exact congrArg Except.error h
    | _ => exact h.elim
  | op e k ih =>
    cases q with
    | op e' k' => exact ⟨h.1, fun r r' hr => ih r (h.2 r r' hr)⟩
    | _ => exact h.elim

theorem InStep.map {p : Prog E R X α} (h : InStep L Eq p p) (f : α → β) : InStep L Eq (f <$> p) (f <$> p) :=
  h.seq fun _ => rfl

/-- Programs in step are so in a larger signature. -/
theorem InStep.embed {f : E' → E} (hf : Function.Injective f) {L : Likeness E' fun e => R (f e)}
    (hrefl : ∀ ev, L.events ev ev) {p q : Prog E' (fun e => R (f e)) X α} (h : InStep L Eq p q) :
    InStep (L.lift f) Eq (p.embed f) (q.embed f) := by
  induction p generalizing q with
  | ret a =>
    cases q with
    | ret a' => exact h
    | _ => exact h.elim
  | raise x =>
    cases q with
    | raise x' => exact h
    | _ => exact h.elim
  | op e k ih =>
    cases q with
    | op e' k' =>
      refine ⟨.inr ⟨e, e', rfl, rfl, h.1⟩, fun r r' hev => ih r (h.2 r r' ?_)⟩
      rcases hev with hev | ⟨a, a', ha, ha', hlike⟩
      · have heq : (⟨e, r⟩ : Event E' fun e => R (f e)) = ⟨e', r'⟩ := Event.embed_injective hf hev
        rw [heq]
        exact hrefl _
      · have heq : a = ⟨e, r⟩ := Event.embed_injective hf ha
        have heq' : a' = ⟨e', r'⟩ := Event.embed_injective hf ha'
        rwa [heq, heq'] at hlike
    | _ => exact h.elim

/-- Spelling out the operations of a program keeps it in step with itself. -/
theorem inStep_interpret {R' : E' → Type} {f : ∀ e, Prog E R X (R' e)} (hf : ∀ e, InStep L Eq (f e) (f e))
    (p : Prog E' R' X α) : InStep L Eq (p.interpret f) (p.interpret f) := by
  induction p with
  | ret a => exact rfl
  | raise x => exact rfl
  | op e k ih => exact (hf e).seq ih

/-- **Two runs** of programs in step that are answered alike are alike, and end with the same. -/
theorem InStep.runs {p q : Prog E R X α} (h : InStep L Eq p q) {tr tr' : List (Event E R)}
    {out out' : Except X α} (hp : p.Runs tr out) (hq : q.Runs tr' out') (hans : L.Answered tr tr') :
    List.Forall₂ L.events tr tr' ∧ out = out' := by
  induction p generalizing q tr tr' with
  | ret a =>
    cases q with
    | ret a' =>
      obtain ⟨rfl, rfl⟩ := hp
      obtain ⟨rfl, rfl⟩ := hq
      exact ⟨.nil, congrArg Except.ok h⟩
    | _ => exact h.elim
  | raise x =>
    cases q with
    | raise x' =>
      obtain ⟨rfl, rfl⟩ := hp
      obtain ⟨rfl, rfl⟩ := hq
      exact ⟨.nil, congrArg Except.error h⟩
    | _ => exact h.elim
  | op e k ih =>
    cases q with
    | op e' k' =>
      obtain ⟨r, rest, rfl, hp⟩ := hp
      obtain ⟨r', rest', rfl, hq⟩ := hq
      obtain ⟨hev, hrest⟩ := hans h.1
      obtain ⟨hrests, hout⟩ := ih r (h.2 r r' hev) hp hq hrest
      exact ⟨.cons hev hrests, hout⟩
    | _ => exact h.elim

theorem InStep.blind {p : Prog E R X α} (h : InStep L Eq p p) : L.Blind p :=
  fun _ _ _ _ hp hq hans => h.runs hp hq hans

end Prog

end Interact
