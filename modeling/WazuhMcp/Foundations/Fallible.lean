import Mathlib.Data.List.Basic
import Mathlib.Logic.Basic

/-!
# Computations that may fail

When a computation in `Except` succeeds, and what it can fail with, along sequencing and the traversals
of a list: `succeeds_bind`, `succeeds_mapM`, `filterM_eq_ok` and the rules of `Raises`. What of a loop's
result comes from some of the elements alone: `read_foldlM_congr`.
-/

namespace Fallible

variable {ε α β : Type}

/-- The computation succeeds. -/
def Succeeds (out : Except ε α) : Prop := ∃ a, out = .ok a

/-- The computation fails with such errors only. -/
def Raises (P : ε → Prop) (out : Except ε α) : Prop := ∀ x, out = .error x → P x

variable {P : ε → Prop}

theorem succeeds_ok (a : α) : Succeeds (.ok a : Except ε α) := ⟨a, rfl⟩

theorem not_succeeds_error (x : ε) : ¬ Succeeds (.error x : Except ε α) := by
  rintro ⟨a, ⟨⟩⟩

theorem raises_ok (a : α) : Raises P (.ok a : Except ε α) := by
  rintro x ⟨⟩

theorem raises_error {x : ε} (h : P x) : Raises P (.error x : Except ε α) := by
  rintro y ⟨⟩
  exact h

theorem raises_error_iff {x : ε} : Raises P (.error x : Except ε α) ↔ P x :=
  ⟨fun h => h x rfl, raises_error⟩

/-! ## Sequencing -/

theorem bind_eq_ok {p : Except ε α} {f : α → Except ε β} {b : β} :
    p >>= f = .ok b ↔ ∃ a, p = .ok a ∧ f a = .ok b := by
  cases p with
  | ok a => simp [bind, Except.bind]
  | error x => simp [bind, Except.bind]

theorem succeeds_bind {p : Except ε α} {f : α → Except ε β} :
    Succeeds (p >>= f) ↔ ∃ a, p = .ok a ∧ Succeeds (f a) := by
  cases p with
  | ok a => simp [Succeeds, bind, Except.bind]
  | error x => simp [Succeeds, bind, Except.bind]

/-- A sequence raises what its parts raise. -/
theorem raises_bind {p : Except ε α} {f : α → Except ε β} :
    Raises P (p >>= f) ↔ Raises P p ∧ ∀ a, p = .ok a → Raises P (f a) := by
  cases p with
  | ok a => simp [bind, Except.bind, raises_ok]
  | error x => simp [bind, Except.bind, raises_error_iff]

theorem Raises.bind {p : Except ε α} {f : α → Except ε β} (hp : Raises P p)
    (hf : ∀ a, Raises P (f a)) : Raises P (p >>= f) := by
  cases p with
  | ok a => exact hf a
  | error x => exact raises_error (hp x rfl)

theorem succeeds_map {f : α → β} {p : Except ε α} : Succeeds (f <$> p) ↔ Succeeds p := by
  cases p with
  | ok a => exact iff_of_true (succeeds_ok _) (succeeds_ok a)
  | error x => exact iff_of_false (not_succeeds_error x) (not_succeeds_error x)

theorem Raises.map {f : α → β} {p : Except ε α} (hp : Raises P p) : Raises P (f <$> p) := by
  cases p with
  | ok a => exact raises_ok _
  | error x => exact raises_error (hp x rfl)

/-! ## Traversals -/

theorem succeeds_mapM {f : α → Except ε β} {xs : List α} :
    Succeeds (xs.mapM f) ↔ ∀ x ∈ xs, Succeeds (f x) := by
  induction xs with
  | nil => simp [Succeeds, pure, Except.pure]
  | cons x xs ih =>
    rw [List.mapM_cons, succeeds_bind, List.forall_mem_cons, ← ih]
    constructor
    · rintro ⟨y, hy, hrest⟩
      obtain ⟨ys, hys, -⟩ := succeeds_bind.mp hrest
      exact ⟨⟨y, hy⟩, ⟨ys, hys⟩⟩
    · rintro ⟨⟨y, hy⟩, ⟨ys, hys⟩⟩
      exact ⟨y, hy, succeeds_bind.mpr ⟨ys, hys, succeeds_ok _⟩⟩

/-- A traversal returns one result for each element. -/
theorem length_of_mapM {f : α → Except ε β} {xs : List α} {ys : List β} (h : xs.mapM f = .ok ys) :
    ys.length = xs.length := by
  induction xs generalizing ys with
  | nil =>
    cases h
    rfl
  | cons x xs ih =>
    rw [List.mapM_cons, bind_eq_ok] at h
    obtain ⟨y, -, h⟩ := h
    obtain ⟨zs, hzs, h⟩ := bind_eq_ok.mp h
    cases h
    rw [List.length_cons, List.length_cons, ih hzs]

/-- What a traversal returns for each element. -/
theorem forall₂_of_mapM {f : α → Except ε β} {xs : List α} {ys : List β} (h : xs.mapM f = .ok ys) :
    List.Forall₂ (fun x y => f x = .ok y) xs ys := by
  induction xs generalizing ys with
  | nil =>
    cases h
    exact .nil
  | cons x xs ih =>
    rw [List.mapM_cons, bind_eq_ok] at h
    obtain ⟨y, hy, h⟩ := h
    obtain ⟨zs, hzs, h⟩ := bind_eq_ok.mp h
    cases h
    exact .cons hy (ih hzs)

/-- A traversal that never fails is a map. -/
theorem mapM_eq_some_map {xs : List α} {f : α → Option β} {g : α → β}
    (h : ∀ x ∈ xs, f x = some (g x)) : xs.mapM f = some (xs.map g) := by
  induction xs with
  | nil => rfl
  | cons x xs ih =>
    obtain ⟨hx, hxs⟩ := List.forall_mem_cons.mp h
    rw [List.mapM_cons, hx, ih hxs]
    rfl

/-- A loop whose turns do not depend on its state is a traversal and a fold. -/
theorem foldlM_eq_ok {σ : Type} {f : α → Except ε β} {g : σ → β → σ} {xs : List α} {s s' : σ} :
    xs.foldlM (fun s x => do return g s (← f x)) s = .ok s' ↔
      ∃ ys, xs.mapM f = .ok ys ∧ s' = ys.foldl g s := by
  induction xs generalizing s with
  | nil =>
    constructor
    · rintro ⟨⟩
      exact ⟨[], rfl, rfl⟩
    · rintro ⟨ys, ⟨⟩, rfl⟩
      rfl
  | cons x xs ih =>
    rw [List.foldlM_cons, bind_eq_ok, List.mapM_cons]
    constructor
    · rintro ⟨t, ht, h⟩
      obtain ⟨y, hy, heq⟩ := bind_eq_ok.mp ht
      obtain rfl := Except.ok.inj heq
      obtain ⟨ys, hys, rfl⟩ := ih.mp h
      exact ⟨y :: ys, bind_eq_ok.mpr ⟨y, hy, bind_eq_ok.mpr ⟨ys, hys, rfl⟩⟩, rfl⟩
    · rintro ⟨zs, hzs, rfl⟩
      obtain ⟨y, hy, hrest⟩ := bind_eq_ok.mp hzs
      obtain ⟨ys, hys, heq⟩ := bind_eq_ok.mp hrest
      obtain rfl := Except.ok.inj heq
      exact ⟨g s y, bind_eq_ok.mpr ⟨y, hy, rfl⟩, ih.mpr ⟨ys, hys, rfl⟩⟩

/-- A traversal of a concatenation is two traversals. -/
theorem mapM_append_eq_ok {f : α → Except ε β} {xs xs' : List α} {ys ys' : List β}
    (h : xs.mapM f = .ok ys) (h' : xs'.mapM f = .ok ys') : (xs ++ xs').mapM f = .ok (ys ++ ys') := by
  rw [List.mapM_append, h, h']
  rfl

theorem Raises.mapM {f : α → Except ε β} {xs : List α} (h : ∀ x ∈ xs, Raises P (f x)) :
    Raises P (xs.mapM f) := by
  induction xs with
  | nil => exact raises_ok _
  | cons x xs ih =>
    obtain ⟨hx, hxs⟩ := List.forall_mem_cons.mp h
    rw [List.mapM_cons]
    exact hx.bind fun y => (ih hxs).bind fun ys => raises_ok _

theorem Raises.foldlM {f : β → α → Except ε β} (h : ∀ b a, Raises P (f b a)) (xs : List α) (b : β) :
    Raises P (xs.foldlM f b) := by
  induction xs generalizing b with
  | nil => exact raises_ok _
  | cons x xs ih =>
    rw [List.foldlM_cons]
    exact (h b x).bind ih

/-- Whether the test succeeds, and says yes. -/
def holds (out : Except ε Bool) : Bool :=
  match out with
  | .ok b => b
  | .error _ => false

theorem filterAuxM_eq_ok {p : α → Except ε Bool} {xs acc ys : List α} :
    xs.filterAuxM p acc = .ok ys ↔
      (∀ x ∈ xs, Succeeds (p x)) ∧ ys = (xs.filter fun x => holds (p x)).reverse ++ acc := by
  induction xs generalizing acc with
  | nil => simp [List.filterAuxM, pure, Except.pure, eq_comm]
  | cons x xs ih =>
    rw [List.filterAuxM, bind_eq_ok, List.forall_mem_cons]
    cases hx : p x with
    | error e => simp [Succeeds]
    | ok b => cases b <;> simp [ih, Succeeds, holds, hx]

/-- A traversal that filters succeeds if every test does. -/
theorem filterM_eq_ok {p : α → Except ε Bool} {xs ys : List α} :
    xs.filterM p = .ok ys ↔ (∀ x ∈ xs, Succeeds (p x)) ∧ ys = xs.filter fun x => holds (p x) := by
  rw [List.filterM, bind_eq_ok]
  simp only [filterAuxM_eq_ok, List.append_nil]
  constructor
  · rintro ⟨zs, ⟨hall, rfl⟩, hys⟩
    exact ⟨hall, by simpa using (Except.ok.inj hys).symm⟩
  · rintro ⟨hall, rfl⟩
    exact ⟨_, ⟨hall, rfl⟩, by simp [pure, Except.pure]⟩

theorem Raises.filterM {p : α → Except ε Bool} {xs : List α} (h : ∀ x ∈ xs, Raises P (p x)) :
    Raises P (xs.filterM p) := by
  have haux (xs acc : List α) (h : ∀ x ∈ xs, Raises P (p x)) : Raises P (xs.filterAuxM p acc) := by
    induction xs generalizing acc with
    | nil => exact raises_ok _
    | cons x xs ih =>
      obtain ⟨hx, hxs⟩ := List.forall_mem_cons.mp h
      exact hx.bind fun b => ih _ hxs
  exact (haux xs [] h).bind fun ys => raises_ok _

/-- A conjunction over a list that says yes has a yes for every element. -/
theorem allM_eq_ok_true {p : α → Except ε Bool} {xs : List α} :
    xs.allM p = .ok true ↔ ∀ x ∈ xs, p x = .ok true := by
  induction xs with
  | nil => simp [List.allM, pure, Except.pure]
  | cons x xs ih =>
    rw [List.allM, bind_eq_ok, List.forall_mem_cons, ← ih]
    cases hx : p x with
    | error e => simp
    | ok b => cases b <;> simp [pure, Except.pure]

/-- A conjunction over a list that says no has a no for some element. -/
theorem exists_of_allM_eq_ok_false {p : α → Except ε Bool} {xs : List α} (h : xs.allM p = .ok false) :
    ∃ x ∈ xs, p x = .ok false := by
  induction xs with
  | nil => cases h
  | cons x xs ih =>
    rw [List.allM] at h
    obtain ⟨b, hx, h⟩ := bind_eq_ok.mp h
    cases b with
    | false => exact ⟨x, List.mem_cons_self, hx⟩
    | true =>
      obtain ⟨y, hy, hno⟩ := ih h
      exact ⟨y, List.mem_cons_of_mem _ hy, hno⟩

/-! ## Reading the result of a loop -/

section Read

variable {γ : Type} {f : β → α → Except ε β} {q : α → Bool} {read : β → γ}

/-- What is read of the result depends on the selected elements only, if the others do not change it and
the selected ones do with it what they do on their own. -/
theorem read_foldlM_filter (hother : ∀ b a b', q a = false → f b a = .ok b' → read b' = read b)
    (hown : ∀ b c a b', q a = true → read b = read c → f b a = .ok b' →
      ∃ c', f c a = .ok c' ∧ read b' = read c')
    {xs : List α} {b c b' : β} (hread : read b = read c) (h : xs.foldlM f b = .ok b') :
    ∃ c', (xs.filter q).foldlM f c = .ok c' ∧ read b' = read c' := by
  induction xs generalizing b c with
  | nil =>
    obtain rfl := Except.ok.inj h
    exact ⟨c, rfl, hread⟩
  | cons x xs ih =>
    rw [List.foldlM_cons, bind_eq_ok] at h
    obtain ⟨b₁, hx, h⟩ := h
    cases hq : q x with
    | false =>
      rw [List.filter_cons_of_neg (by simp [hq])]
      exact ih ((hother b x b₁ hq hx).trans hread) h
    | true =>
      obtain ⟨c₁, hc, hread₁⟩ := hown b c x b₁ hq hread hx
      obtain ⟨c', hc', hread'⟩ := ih hread₁ h
      rw [List.filter_cons_of_pos hq, List.foldlM_cons]
      exact ⟨c', bind_eq_ok.mpr ⟨c₁, hc, hc'⟩, hread'⟩

variable (q read) in
/-- Two loops over lists with the same selected elements come to results that read the same. -/
theorem read_foldlM_congr (hother : ∀ b a b', q a = false → f b a = .ok b' → read b' = read b)
    (hown : ∀ b c a b', q a = true → read b = read c → f b a = .ok b' →
      ∃ c', f c a = .ok c' ∧ read b' = read c')
    {xs xs' : List α} {b b₁ b₂ : β} (hfilter : xs.filter q = xs'.filter q)
    (h₁ : xs.foldlM f b = .ok b₁) (h₂ : xs'.foldlM f b = .ok b₂) : read b₁ = read b₂ := by
  obtain ⟨c₁, hc₁, hread₁⟩ := read_foldlM_filter hother hown rfl h₁
  obtain ⟨c₂, hc₂, hread₂⟩ := read_foldlM_filter hother hown rfl h₂
  rw [hfilter, hc₂] at hc₁
  rw [hread₁, hread₂, Except.ok.inj hc₁]

end Read

end Fallible
