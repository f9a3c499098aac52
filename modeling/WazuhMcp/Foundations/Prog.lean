import Mathlib.Logic.Basic
import Mathlib.Data.List.Basic

/-!
# Programs that talk to an environment

A `Prog E R X α` is straight-line asynchronous code: it returns an `α`, raises an `X`, or performs
an operation `e : E` and continues with the answer `r : R e` of the environment. Nothing is said
about the environment: an operation may be answered by any `r : R e`, so an answer type that
contains failures and cancellation stands for an environment that may fail or cancel there.

* `Prog.All p Q` says that every run of `p` ends with a trace and an outcome that satisfy `Q`. It
  is the demonic weakest precondition, a recursion on `p`, with one rule for each way to build a
  program (`all_pure`, `all_raise`, `all_op`, `all_bind`, `all_attempt`, `all_embed`).
* `Prog.Every p P` says that every event of every run satisfies `P`.
* `Prog.run env p` is the run of `p` against one environment; `All.run` reads an `All` statement
  at that run, which is how a single bad run refutes it.
* `Guarded G P tr` says that what precedes a `P`-event of a trace satisfies `G`.
-/

namespace Interact

/-- A program over the operations `E`: return, raise, or perform an operation and go on with the
environment's answer. -/
inductive Prog (E : Type) (R : E → Type) (X α : Type) where
  | ret (a : α)
  | raise (x : X)
  | op (e : E) (k : R e → Prog E R X α)

/-- An operation performed, with the answer the environment gave. -/
structure Event (E : Type) (R : E → Type) where
  op : E
  ans : R op

/-- The event with its operation renamed into a larger signature. -/
def Event.embed {E E' : Type} {R' : E' → Type} (f : E → E') (ev : Event E fun e => R' (f e)) :
    Event E' R' := ⟨f ev.op, ev.ans⟩

namespace Prog

variable {E : Type} {R : E → Type} {X α β : Type}

/-! ## Building programs -/

/-- Run `p`, and `f` on what it returns. -/
def bind : Prog E R X α → (α → Prog E R X β) → Prog E R X β
  | .ret a, f => f a
  | .raise x, _ => .raise x
  | .op e k, f => .op e fun r => (k r).bind f

instance : Monad (Prog E R X) where
  pure := .ret
  bind := bind

/-- Perform one operation and return its answer. -/
def perform (e : E) : Prog E R X (R e) := .op e .ret

/-- Return a value or raise. -/
def ofExcept : Except X α → Prog E R X α
  | .ok a => .ret a
  | .error x => .raise x

instance : MonadLift (Except X) (Prog E R X) := ⟨ofExcept⟩

@[simp] theorem monadLift_eq_ofExcept (out : Except X α) :
    (MonadLiftT.monadLift out : Prog E R X α) = ofExcept out := rfl

/-- Perform an operation whose answer may be a failure, and raise that failure. -/
def await {A : E → Type} (e : E) : Prog E (fun e => Except X (A e)) X (A e) :=
  .op e ofExcept

/-- Run `p` and return its outcome: the program that never raises. -/
def attempt : Prog E R X α → Prog E R X (Except X α)
  | .ret a => .ret (.ok a)
  | .raise x => .ret (.error x)
  | .op e k => .op e fun r => (k r).attempt

/-- The program with its operations renamed into a larger signature. -/
def embed {E' : Type} {R' : E' → Type} (f : E → E') :
    Prog E (fun e => R' (f e)) X α → Prog E' R' X α
  | .ret a => .ret a
  | .raise x => .raise x
  | .op e k => .op (f e) fun r => (k r).embed f

/-! ## Every run -/

/-- **Every run of the program** ends with a trace and an outcome that satisfy `Q`. -/
def All : Prog E R X α → (List (Event E R) → Except X α → Prop) → Prop
  | .ret a, Q => Q [] (.ok a)
  | .raise x, Q => Q [] (.error x)
  | .op e k, Q => ∀ r, (k r).All fun tr out => Q (⟨e, r⟩ :: tr) out

@[simp] theorem all_pure (a : α) (Q : List (Event E R) → Except X α → Prop) :
    (pure a : Prog E R X α).All Q ↔ Q [] (.ok a) := Iff.rfl

@[simp] theorem all_ret (a : α) (Q : List (Event E R) → Except X α → Prop) :
    (ret a).All Q ↔ Q [] (.ok a) := Iff.rfl

@[simp] theorem all_raise (x : X) (Q : List (Event E R) → Except X α → Prop) :
    (raise x).All Q ↔ Q [] (.error x) := Iff.rfl

@[simp] theorem all_op (e : E) (k : R e → Prog E R X α)
    (Q : List (Event E R) → Except X α → Prop) :
    (op e k).All Q ↔ ∀ r, (k r).All fun tr out => Q (⟨e, r⟩ :: tr) out := Iff.rfl

@[simp] theorem all_perform (e : E) (Q : List (Event E R) → Except X (R e) → Prop) :
    (perform e).All Q ↔ ∀ r, Q [⟨e, r⟩] (.ok r) := Iff.rfl

@[simp] theorem all_ofExcept (out : Except X α) (Q : List (Event E R) → Except X α → Prop) :
    (ofExcept out).All Q ↔ Q [] out := by
  cases out <;> rfl

@[simp] theorem all_await {A : E → Type} (e : E)
    (Q : List (Event E fun e => Except X (A e)) → Except X (A e) → Prop) :
    (await (A := A) e).All Q ↔ ∀ out, Q [⟨e, out⟩] out :=
  forall_congr' fun out => all_ofExcept out _

theorem All.mono {p : Prog E R X α} {Q Q' : List (Event E R) → Except X α → Prop}
    (h : p.All Q) (hQ : ∀ tr out, Q tr out → Q' tr out) : p.All Q' := by
  induction p generalizing Q Q' with
  | ret a => exact hQ _ _ h
  | raise x => exact hQ _ _ h
  | op e k ih => exact fun r => ih r (h r) fun tr out => hQ _ out

theorem all_congr {p : Prog E R X α} {Q Q' : List (Event E R) → Except X α → Prop}
    (h : ∀ tr out, Q tr out ↔ Q' tr out) : p.All Q ↔ p.All Q' :=
  ⟨fun hp => hp.mono fun tr out => (h tr out).mp, fun hp => hp.mono fun tr out => (h tr out).mpr⟩

theorem All.and {p : Prog E R X α} {Q Q' : List (Event E R) → Except X α → Prop}
    (h : p.All Q) (h' : p.All Q') : p.All fun tr out => Q tr out ∧ Q' tr out := by
  induction p generalizing Q Q' with
  | ret a => exact ⟨h, h'⟩
  | raise x => exact ⟨h, h'⟩
  | op e k ih => exact fun r => ih r (h r) (h' r)

/-- What holds of every trace and outcome holds of every run. -/
theorem all_of_forall (p : Prog E R X α) {Q : List (Event E R) → Except X α → Prop}
    (h : ∀ tr out, Q tr out) : p.All Q := by
  induction p generalizing Q with
  | ret a => exact h _ _
  | raise x => exact h _ _
  | op e k ih => exact fun r => ih r fun tr out => h _ out

/-- The rule of sequencing: a run of `p >>= f` is a run of `p` and, when `p` returns, a run of `f`
on what it returned. -/
theorem all_bind (p : Prog E R X α) (f : α → Prog E R X β)
    (Q : List (Event E R) → Except X β → Prop) :
    (p >>= f).All Q ↔ p.All fun tr out =>
      match out with
      | .ok a => (f a).All fun tr' out' => Q (tr ++ tr') out'
      | .error x => Q tr (.error x) := by
  change (p.bind f).All Q ↔ _
  induction p generalizing Q with
  | ret a => exact Iff.rfl
  | raise x => exact Iff.rfl
  | op e k ih => exact forall_congr' fun r => ih r _

/-- A program that begins with a value read, or with an exception. -/
theorem all_ofExcept_bind {out : Except X α} {f : α → Prog E R X β}
    {Q : List (Event E R) → Except X β → Prop} (hok : ∀ a, out = .ok a → (f a).All Q)
    (herror : ∀ x, out = .error x → Q [] (.error x)) : (ofExcept out >>= f).All Q := by
  cases out with
  | ok a => exact hok a rfl
  | error x => exact herror x rfl

theorem all_map (f : α → β) (p : Prog E R X α) (Q : List (Event E R) → Except X β → Prop) :
    (f <$> p).All Q ↔ p.All fun tr out => Q tr (out.map f) := by
  refine (all_bind p (fun a => pure (f a)) Q).trans (all_congr fun tr out => ?_)
  cases out with
  | ok a => simp [Except.map]
  | error x => exact Iff.rfl

theorem all_attempt (p : Prog E R X α) (Q : List (Event E R) → Except X (Except X α) → Prop) :
    p.attempt.All Q ↔ p.All fun tr out => Q tr (.ok out) := by
  induction p generalizing Q with
  | ret a => exact Iff.rfl
  | raise x => exact Iff.rfl
  | op e k ih => exact forall_congr' fun r => ih r _

/-- The runs of a renamed program are the renamed runs. -/
theorem all_embed {E' : Type} {R' : E' → Type} (f : E → E') (p : Prog E (fun e => R' (f e)) X α)
    (Q : List (Event E' R') → Except X α → Prop) :
    (p.embed f).All Q ↔ p.All fun tr out => Q (tr.map (Event.embed f)) out := by
  induction p generalizing Q with
  | ret a => exact Iff.rfl
  | raise x => exact Iff.rfl
  | op e k ih => exact forall_congr' fun r => ih r _

/-! ## Every event -/

/-- **Every event of every run** satisfies `P`. -/
def Every : Prog E R X α → (Event E R → Prop) → Prop
  | .ret _, _ => True
  | .raise _, _ => True
  | .op e k, P => ∀ r, P ⟨e, r⟩ ∧ (k r).Every P

variable {P P' : Event E R → Prop}

@[simp] theorem every_pure (a : α) : (pure a : Prog E R X α).Every P := trivial

@[simp] theorem every_ret (a : α) : (ret a : Prog E R X α).Every P := trivial

@[simp] theorem every_raise (x : X) : (raise x : Prog E R X α).Every P := trivial

@[simp] theorem every_op (e : E) (k : R e → Prog E R X α) :
    (op e k).Every P ↔ ∀ r, P ⟨e, r⟩ ∧ (k r).Every P := Iff.rfl

@[simp] theorem every_ofExcept (out : Except X α) : (ofExcept out : Prog E R X α).Every P := by
  cases out <;> trivial

@[simp] theorem every_perform (e : E) :
    (perform e : Prog E R X (R e)).Every P ↔ ∀ r, P ⟨e, r⟩ :=
  forall_congr' fun _ => and_iff_left trivial

/-- What every event satisfies holds of all the events of a run's trace. -/
theorem Every.all {p : Prog E R X α} (h : p.Every P) :
    p.All fun tr _ => ∀ ev ∈ tr, P ev := by
  induction p with
  | ret a => simp
  | raise x => simp
  | op e k ih =>
    intro r
    refine (ih r (h r).2).mono fun tr _ htr ev hev => ?_
    rcases List.mem_cons.mp hev with rfl | hev
    · exact (h r).1
    · exact htr ev hev

@[simp] theorem every_await {A : E → Type} {P : (Event E fun e => Except X (A e)) → Prop} (e : E) :
    (await (A := A) e).Every P ↔ ∀ out, P ⟨e, out⟩ :=
  forall_congr' fun out => and_iff_left (every_ofExcept out)

theorem Every.mono {p : Prog E R X α} (h : p.Every P) (hP : ∀ ev, P ev → P' ev) :
    p.Every P' := by
  induction p with
  | ret a => trivial
  | raise x => trivial
  | op e k ih => exact fun r => ⟨hP _ (h r).1, ih r (h r).2⟩

/-- What every event satisfies holds of the events of every run. -/
theorem Every.and {p : Prog E R X α} (h : p.Every P) (h' : p.Every P') :
    p.Every fun ev => P ev ∧ P' ev := by
  induction p with
  | ret a => trivial
  | raise x => trivial
  | op e k ih => exact fun r => ⟨⟨(h r).1, (h' r).1⟩, ih r (h r).2 (h' r).2⟩

theorem every_of_forall (p : Prog E R X α) (h : ∀ ev, P ev) : p.Every P := by
  induction p with
  | ret a => trivial
  | raise x => trivial
  | op e k ih => exact fun r => ⟨h _, ih r⟩

theorem every_bind {p : Prog E R X α} {f : α → Prog E R X β} (hp : p.Every P)
    (hf : ∀ a, (f a).Every P) : (p >>= f).Every P := by
  change (p.bind f).Every P
  induction p with
  | ret a => exact hf a
  | raise x => trivial
  | op e k ih => exact fun r => ⟨(hp r).1, ih r (hp r).2⟩

theorem every_mapM {f : α → Prog E R X β} (h : ∀ a, (f a).Every P) (as : List α) :
    Every (as.mapM f) P := by
  suffices hloop : ∀ acc, Every (List.mapM.loop f as acc) P from hloop []
  induction as with
  | nil => exact fun acc => every_pure _
  | cons a as ih => exact fun acc => every_bind (h a) fun b => ih (b :: acc)

theorem every_attempt {p : Prog E R X α} (hp : p.Every P) : p.attempt.Every P := by
  induction p with
  | ret a => trivial
  | raise x => trivial
  | op e k ih => exact fun r => ⟨(hp r).1, ih r (hp r).2⟩

theorem every_embed {E' : Type} {R' : E' → Type} {f : E → E'} {P' : Event E' R' → Prop}
    {p : Prog E (fun e => R' (f e)) X α} :
    (p.embed f).Every P' ↔ p.Every fun ev => P' (ev.embed f) := by
  induction p with
  | ret a => exact Iff.rfl
  | raise x => exact Iff.rfl
  | op e k ih => exact forall_congr' fun r => and_congr_right fun _ => ih r

/-! ## One run -/

/-- The run of the program against an environment that answers each operation by `env`. -/
def run (env : ∀ e, R e) : Prog E R X α → List (Event E R) × Except X α
  | .ret a => ([], .ok a)
  | .raise x => ([], .error x)
  | .op e k =>
    let (tr, out) := (k (env e)).run env
    (⟨e, env e⟩ :: tr, out)

@[simp] theorem run_pure (env : ∀ e, R e) (a : α) : (pure a : Prog E R X α).run env = ([], .ok a) := rfl

@[simp] theorem run_raise (env : ∀ e, R e) (x : X) :
    (raise x : Prog E R X α).run env = ([], .error x) := rfl

@[simp] theorem run_perform (env : ∀ e, R e) (e : E) :
    (perform e : Prog E R X (R e)).run env = ([⟨e, env e⟩], .ok (env e)) := rfl

theorem run_bind (env : ∀ e, R e) (p : Prog E R X α) (f : α → Prog E R X β) :
    (p >>= f).run env =
      match (p.run env).2 with
      | .ok a => ((p.run env).1 ++ ((f a).run env).1, ((f a).run env).2)
      | .error x => ((p.run env).1, .error x) := by
  change (p.bind f).run env = _
  induction p with
  | ret a => rfl
  | raise x => rfl
  | op e k ih =>
    rw [bind, run, run, ih (env e)]
    cases ((k (env e)).run env).2 <;> rfl

theorem run_attempt (env : ∀ e, R e) (p : Prog E R X α) :
    p.attempt.run env = ((p.run env).1, .ok (p.run env).2) := by
  induction p with
  | ret a => rfl
  | raise x => rfl
  | op e k ih =>
    rw [attempt, run, run, ih (env e)]

/-- What holds of every run holds of the run against `env`. -/
theorem All.run {p : Prog E R X α} {Q : List (Event E R) → Except X α → Prop} (h : p.All Q)
    (env : ∀ e, R e) : Q (p.run env).1 (p.run env).2 := by
  induction p generalizing Q with
  | ret a => exact h
  | raise x => exact h
  | op e k ih => exact ih (env e) (h (env e))

/-- What every event satisfies holds of the events of the run against `env`. -/
theorem Every.run {p : Prog E R X α} {P : Event E R → Prop} (h : p.Every P) (env : ∀ e, R e) :
    ∀ ev ∈ (p.run env).1, P ev := h.all.run env

end Prog

/-! ## What precedes an event -/

section Guarded

variable {E : Type} {R : E → Type}

/-- What precedes a `P`-event of the trace satisfies `G`. -/
def Guarded (G : List (Event E R) → Prop) (P : Event E R → Prop) (tr : List (Event E R)) : Prop :=
  ∀ pre ev post, tr = pre ++ ev :: post → P ev → G pre

variable {G : List (Event E R) → Prop} {P : Event E R → Prop}

theorem Guarded.mono {G' : List (Event E R) → Prop} {tr : List (Event E R)} (h : Guarded G P tr)
    (hG : ∀ pre, G pre → G' pre) : Guarded G' P tr :=
  fun pre ev post htr hev => hG pre (h pre ev post htr hev)

/-- A trace without `P`-events is guarded. -/
theorem guarded_of_forall_not {tr : List (Event E R)} (h : ∀ ev ∈ tr, ¬ P ev) : Guarded G P tr := by
  rintro pre ev post rfl hev
  exact absurd hev (h ev (by simp))

/-- A trace whose only `P`-event is in sight is guarded when what stands before it satisfies `G`. -/
theorem guarded_single {pre post : List (Event E R)} {ev : Event E R} (hpre : ∀ ev ∈ pre, ¬ P ev)
    (hpost : ∀ ev ∈ post, ¬ P ev) (hG : G pre) : Guarded G P (pre ++ ev :: post) := by
  intro pre' ev' post' htr hev'
  rcases List.append_eq_append_iff.mp htr with ⟨mid, rfl, hmid⟩ | ⟨mid, rfl, hmid⟩
  · rcases mid with _ | ⟨ev'', mid⟩
    · rwa [List.append_nil]
    · obtain ⟨-, rfl⟩ : ev = ev'' ∧ post = mid ++ ev' :: post' := by simpa using hmid
      exact absurd hev' (hpost ev' (by simp))
  · rcases mid with _ | ⟨ev'', mid⟩
    · rwa [List.append_nil] at hG
    · obtain ⟨rfl, -⟩ : ev' = ev'' ∧ post' = mid ++ ev :: post := by simpa using hmid
      exact absurd hev' (hpre ev' (by simp))

/-- A trace is guarded when there is no `P`-event up to some point, and every stretch from its start
past that point satisfies `G`. -/
theorem guarded_of_forall_not_append {tr tr' : List (Event E R)} (h : ∀ ev ∈ tr, ¬ P ev)
    (hG : ∀ mid post, tr' = mid ++ post → G (tr ++ mid)) : Guarded G P (tr ++ tr') := by
  intro pre ev post htr hev
  rcases List.append_eq_append_iff.mp htr with ⟨mid, rfl, hmid⟩ | ⟨mid, rfl, hpost⟩
  · exact hG mid (ev :: post) hmid
  · rcases mid with _ | ⟨ev', mid⟩
    · simpa using hG [] tr' rfl
    · obtain ⟨rfl, -⟩ : ev = ev' ∧ post = mid ++ tr' := by simpa using hpost
      exact absurd hev (h ev (by simp))

/-- A trace is guarded when it is so up to some point, and what comes before that point already
satisfies `G`, which lasts. -/
theorem guarded_append {tr tr' : List (Event E R)} (h : Guarded G P tr) (hG : G tr)
    (hmono : ∀ more, G tr → G (tr ++ more)) : Guarded G P (tr ++ tr') := by
  intro pre ev post htr hev
  rcases List.append_eq_append_iff.mp htr with ⟨mid, rfl, rfl⟩ | ⟨mid, rfl, hpost⟩
  · exact hmono mid hG
  · rcases mid with _ | ⟨ev', mid⟩
    · rw [List.append_nil] at hG
      exact hG
    · obtain ⟨rfl, rfl⟩ : ev = ev' ∧ post = mid ++ tr' := by simpa using hpost
      exact h pre ev mid rfl hev

end Guarded

end Interact
