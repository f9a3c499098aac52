import Mathlib.Data.List.Count
import Mathlib.Data.List.Nodup
import WazuhMcp.Foundations.Dict

/-!
# Tallies

A tally counts how often each key has come: `d[k] = d.get(k, 0) + 1`. Its counts are those of the list of
the keys that came (`count_foldl_add`), its total is the length of that list (`total_foldl_add`), and the
counts of any keys that include all that came sum to it (`sumBy_count`).
-/

/-- How often each key has come. -/
abbrev Tally (κ : Type) := Dict κ ℕ

namespace Tally

variable {α β κ : Type}

/-- `sum(f(x) for x in xs)` -/
def sumBy (f : α → ℕ) : List α → ℕ
  | [] => 0
  | x :: xs => f x + sumBy f xs

theorem sumBy_congr {f g : α → ℕ} {xs : List α} (h : ∀ x ∈ xs, f x = g x) : sumBy f xs = sumBy g xs := by
  induction xs with
  | nil => rfl
  | cons x xs ih =>
    obtain ⟨hx, hxs⟩ := List.forall_mem_cons.mp h
    rw [sumBy, sumBy, hx, ih hxs]

theorem sumBy_map (f : β → ℕ) (g : α → β) (xs : List α) :
    sumBy f (xs.map g) = sumBy (fun x => f (g x)) xs := by
  induction xs with
  | nil => rfl
  | cons x xs ih => rw [List.map_cons, sumBy, sumBy, ih]

theorem sumBy_add (f g : α → ℕ) (xs : List α) :
    sumBy (fun x => f x + g x) xs = sumBy f xs + sumBy g xs := by
  induction xs with
  | nil => rfl
  | cons x xs ih =>
    simp only [sumBy, ih]
    omega

/-- `sum(d.values())` -/
def total (d : Tally κ) : ℕ := sumBy Prod.snd d

variable [DecidableEq κ] (d : Tally κ) (k : κ)

/-- `d.get(k, 0)` -/
def count : ℕ := (d.get k).getD 0

/-- `d[k] = d.get(k, 0) + 1` -/
def add : Tally κ := d.set k (d.count k + 1)

@[simp] theorem count_nil : count ([] : Tally κ) k = 0 := rfl

theorem count_cons (kv : κ × ℕ) : count (kv :: d) k = if k = kv.1 then kv.2 else d.count k := by
  unfold count Dict.get
  rw [Dict.lookup_cons]
  split <;> rfl

theorem count_add (k' : κ) : (d.add k).count k' = if k' = k then d.count k + 1 else d.count k' := by
  unfold count add
  rw [Dict.get_set]
  split <;> rfl

theorem total_add : (d.add k).total = d.total + 1 := by
  suffices h : ∀ d : Tally κ, total (d.set k (d.count k + 1)) = d.total + 1 from h d
  intro d
  induction d with
  | nil => rfl
  | cons kv d ih =>
    rw [count_cons, Dict.set]
    by_cases hk : kv.1 = k
    · rw [if_pos hk, if_pos hk.symm]
      simp only [total, sumBy]
      omega
    · rw [if_neg hk, if_neg (Ne.symm hk)]
      simp only [total, sumBy] at ih ⊢
      omega

/-! ## The tally of a list -/

/-- A tally counts what came. -/
theorem count_foldl_add (xs : List κ) : (xs.foldl add d).count k = d.count k + xs.count k := by
  induction xs generalizing d with
  | nil => rfl
  | cons x xs ih =>
    rw [List.foldl_cons, ih, count_add, List.count_cons]
    by_cases hx : k = x
    · simp only [hx, if_true, beq_self_eq_true]
      omega
    · simp [hx, Ne.symm hx]

/-- The total of a tally is the number of keys that came. -/
theorem total_foldl_add (xs : List κ) : (xs.foldl add d).total = d.total + xs.length := by
  induction xs generalizing d with
  | nil => rfl
  | cons x xs ih =>
    rw [List.foldl_cons, ih, total_add, List.length_cons]
    omega

variable {d k}

theorem mem_keys_foldl_add {xs : List κ} : k ∈ Dict.keys (xs.foldl add d) ↔ k ∈ Dict.keys d ∨ k ∈ xs := by
  induction xs generalizing d with
  | nil => simp
  | cons x xs ih =>
    rw [List.foldl_cons, ih, add, Dict.keys_set, List.mem_cons]
    by_cases hx : x ∈ Dict.keys d
    · rw [if_pos hx]
      refine ⟨Or.imp_right .inr, ?_⟩
      rintro (h | rfl | h)
      · exact .inl h
      · exact .inl hx
      · exact .inr h
    · rw [if_neg hx, List.mem_append, List.mem_singleton, or_assoc]

theorem keys_foldl_add_nodup (h : (Dict.keys d).Nodup) (xs : List κ) :
    (Dict.keys (xs.foldl add d)).Nodup := by
  induction xs generalizing d with
  | nil => exact h
  | cons x xs ih => exact ih (Dict.keys_set_nodup h x _)

/-- What one more key adds to a sum of counts. -/
theorem sumBy_count_cons {ks : List κ} (hnodup : ks.Nodup) {x : κ} (hx : x ∈ ks) (xs : List κ) :
    sumBy (fun k => (x :: xs).count k) ks = sumBy (fun k => xs.count k) ks + 1 := by
  induction ks with
  | nil => cases hx
  | cons k ks ih =>
    obtain ⟨hk, hnodup⟩ := List.nodup_cons.mp hnodup
    simp only [sumBy]
    rcases List.mem_cons.mp hx with rfl | hmem
    · have hrest : sumBy (fun k => (x :: xs).count k) ks = sumBy (fun k => xs.count k) ks := by
        apply sumBy_congr
        intro k' hk'
        exact List.count_cons_of_ne fun heq : x = k' => hk (heq.symm ▸ hk')
      rw [List.count_cons_self, hrest]
      omega
    · have hne : x ≠ k := fun heq => hk (heq ▸ hmem)
      rw [List.count_cons_of_ne hne, ih hnodup hmem]
      omega

/-- **The counts of keys that include all that came sum to the number that came.** -/
theorem sumBy_count {ks xs : List κ} (hnodup : ks.Nodup) (hall : ∀ x ∈ xs, x ∈ ks) :
    sumBy (fun k => xs.count k) ks = xs.length := by
  induction xs with
  | nil =>
    clear hnodup hall
    induction ks with
    | nil => rfl
    | cons k ks ih => exact (Nat.zero_add _).trans ih
  | cons x xs ih =>
    obtain ⟨hx, hxs⟩ := List.forall_mem_cons.mp hall
    rw [sumBy_count_cons hnodup hx, ih hxs, List.length_cons]

/-- A tally that starts with nothing is the sum of its counts. -/
theorem sumBy_count_foldl_add {d : Tally κ} (hcount : ∀ k, d.count k = 0) (htotal : d.total = 0)
    {ks xs : List κ} (hnodup : ks.Nodup) (hall : ∀ x ∈ xs, x ∈ ks) :
    sumBy (xs.foldl add d).count ks = (xs.foldl add d).total := by
  rw [total_foldl_add, htotal, Nat.zero_add, ← sumBy_count hnodup hall]
  apply sumBy_congr
  intro k _
  rw [count_foldl_add, hcount, Nat.zero_add]

end Tally
