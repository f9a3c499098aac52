import Mathlib.Data.List.Basic

/-!
# Insertion-ordered dictionaries

A dictionary is the list of its entries in the order their keys were first set. Setting a key again
keeps its place. `lookup_set` and `get_pop` say what a `set` and a `pop` do to every key.
-/

/-- An insertion-ordered dictionary. -/
abbrev Dict (κ ν : Type) := List (κ × ν)

namespace Dict

variable {κ ν : Type}

/-- `list(d.keys())` -/
def keys (d : Dict κ ν) : List κ := d.map Prod.fst

@[simp] theorem keys_nil : keys ([] : Dict κ ν) = [] := rfl

@[simp] theorem keys_cons (kv : κ × ν) (d : Dict κ ν) : keys (kv :: d) = kv.1 :: d.keys := rfl

variable [DecidableEq κ]

/-- `k in d` -/
def has (d : Dict κ ν) (k : κ) : Bool := k ∈ d.keys

/-- `d[k] = v` -/
def set : Dict κ ν → κ → ν → Dict κ ν
  | [], k, v => [(k, v)]
  | kv :: d, k, v => if kv.1 = k then (k, v) :: d else kv :: set d k v

theorem lookup_cons (kv : κ × ν) (d : Dict κ ν) (k : κ) :
    List.lookup k (kv :: d) = if k = kv.1 then some kv.2 else d.lookup k := by
  rw [List.lookup_cons]
  by_cases h : k = kv.1
  · rw [if_pos h, beq_iff_eq.mpr h]
  · rw [if_neg h, beq_eq_false_iff_ne.mpr h]

theorem lookup_isSome (d : Dict κ ν) (k : κ) : (d.lookup k).isSome = d.has k := by
  induction d with
  | nil => rfl
  | cons kv d ih =>
    by_cases h : k = kv.1
    · simp [lookup_cons, h, has]
    · simpa [lookup_cons, h, has] using ih

/-- What a `set` does to a lookup. -/
theorem lookup_set (d : Dict κ ν) (k k' : κ) (v : ν) :
    (d.set k v).lookup k' = if k' = k then some v else d.lookup k' := by
  induction d with
  | nil => rw [set, lookup_cons]
  | cons kv d ih =>
    by_cases hkv : kv.1 = k
    · by_cases h : k' = k <;> simp [set, hkv, lookup_cons, h]
    · rw [set, if_neg hkv, lookup_cons, lookup_cons, ih]
      by_cases h : k' = k
      · have : k ≠ kv.1 := fun h' => hkv h'.symm
        simp [h, this]
      · simp [h]

@[simp] theorem lookup_set_self (d : Dict κ ν) (k : κ) (v : ν) :
    (d.set k v).lookup k = some v := by
  rw [lookup_set, if_pos rfl]

/-- `d.get(k)` -/
def get (d : Dict κ ν) (k : κ) : Option ν := d.lookup k

@[simp] theorem get_nil (k : κ) : get ([] : Dict κ ν) k = none := rfl

/-- What a `set` does to a `get`. -/
theorem get_set (d : Dict κ ν) (k k' : κ) (v : ν) :
    (d.set k v).get k' = if k' = k then some v else d.get k' := lookup_set d k k' v

@[simp] theorem get_set_self (d : Dict κ ν) (k : κ) (v : ν) : (d.set k v).get k = some v :=
  lookup_set_self d k v

theorem get_set_of_ne (d : Dict κ ν) {k k' : κ} (h : k' ≠ k) (v : ν) :
    (d.set k v).get k' = d.get k' := by
  rw [get_set, if_neg h]

/-- A new key comes last. -/
theorem set_of_get_none {d : Dict κ ν} {k : κ} (h : d.get k = none) (v : ν) : d.set k v = d ++ [(k, v)] := by
  induction d with
  | nil => rfl
  | cons kv d ih =>
    rw [get, lookup_cons] at h
    by_cases hk : k = kv.1
    · rw [if_pos hk] at h
      cases h
    · rw [if_neg hk] at h
      rw [set, if_neg (Ne.symm hk), ih h, List.cons_append]

/-- A set key keeps its place, and a new one comes last. -/
theorem keys_set (d : Dict κ ν) (k : κ) (v : ν) :
    (d.set k v).keys = if k ∈ d.keys then d.keys else d.keys ++ [k] := by
  induction d with
  | nil => rfl
  | cons kv d ih =>
    by_cases hkv : kv.1 = k
    · simp [set, hkv]
    · rw [set, if_neg hkv, keys_cons, keys_cons, ih]
      by_cases hk : k ∈ keys d <;> simp [hk, Ne.symm hkv]

/-- No key comes twice in a dict that sets build. -/
theorem keys_set_nodup {d : Dict κ ν} (h : d.keys.Nodup) (k : κ) (v : ν) : (d.set k v).keys.Nodup := by
  rw [keys_set]
  split
  · exact h
  · rename_i hk
    exact List.nodup_append.mpr ⟨h, by simp, fun a ha b hb hab =>
      hk (List.mem_singleton.mp hb ▸ hab ▸ ha)⟩

/-- Of entries with one key, the last one stays. -/
theorem get_foldl_set (d : Dict κ ν) (xs : List (κ × ν)) (k : κ) :
    get (xs.foldl (fun d x => d.set x.1 x.2) d) k = (xs.reverse.lookup k).or (d.get k) := by
  induction xs generalizing d with
  | nil => rfl
  | cons x xs ih =>
    rw [List.foldl_cons, ih, get_set, List.reverse_cons, List.lookup_append, lookup_cons, Option.or_assoc]
    split <;> rfl

section OfList

variable {α : Type} (key : α → κ) (val : α → ν)

/-- A dict that lists elements by a key. -/
theorem get_map (xs : List α) (k : κ) :
    get (xs.map fun x => (key x, val x)) k = (xs.find? fun x => key x = k).map val := by
  induction xs with
  | nil => rfl
  | cons x xs ih =>
    rw [get, List.map_cons, lookup_cons]
    by_cases hx : key x = k
    · rw [if_pos hx.symm, List.find?_cons_of_pos (by simpa using hx), Option.map_some]
    · rw [if_neg (Ne.symm hx), List.find?_cons_of_neg (by simpa using hx)]
      exact ih

/-- `{key(x): val(x) for x in xs}`, where no two elements have one key. -/
theorem foldl_set {xs : List α} (hnodup : (xs.map key).Nodup) :
    xs.foldl (fun (d : Dict κ ν) x => d.set (key x) (val x)) [] = xs.map fun x => (key x, val x) := by
  suffices hloop : ∀ (xs : List α) (base : Dict κ ν), (xs.map key).Nodup →
      (∀ x ∈ xs, base.get (key x) = none) →
      xs.foldl (fun (d : Dict κ ν) x => d.set (key x) (val x)) base =
        base ++ xs.map fun x => (key x, val x) from hloop xs [] hnodup fun _ _ => rfl
  intro xs
  induction xs with
  | nil => exact fun base _ _ => (List.append_nil base).symm
  | cons x xs ih =>
    intro base hnodup hbase
    obtain ⟨hx, hnodup⟩ := List.nodup_cons.mp hnodup
    rw [List.foldl_cons, ih _ hnodup ?_, set_of_get_none (hbase x List.mem_cons_self), List.map_cons,
      List.append_assoc, List.singleton_append]
    intro y hy
    rw [get_set_of_ne _ fun heq => hx (List.mem_map.mpr ⟨y, hy, heq⟩)]
    exact hbase y (List.mem_cons_of_mem _ hy)

end OfList

/-- `d.pop(k, None)` -/
def pop (d : Dict κ ν) (k : κ) : Dict κ ν := d.filter fun kv => kv.1 ≠ k

/-- What a `pop` does to a `get`. -/
theorem get_pop (d : Dict κ ν) (k k' : κ) :
    (d.pop k).get k' = if k' = k then none else d.get k' := by
  induction d with
  | nil => simp [pop, get]
  | cons kv d ih =>
    unfold pop get at ih ⊢
    rw [List.filter_cons]
    by_cases hkv : kv.1 = k
    · simp only [hkv, ne_eq, not_true_eq_false, decide_false, Bool.false_eq_true, if_false, ih,
        lookup_cons]
      split <;> rfl
    · simp only [hkv, ne_eq, not_false_eq_true, decide_true, if_true, lookup_cons, ih]
      by_cases h : k' = k
      · have hne : k ≠ kv.1 := fun h' => hkv h'.symm
        simp [h, hne]
      · simp [h]

@[simp] theorem get_pop_self (d : Dict κ ν) (k : κ) : (d.pop k).get k = none := by
  rw [get_pop, if_pos rfl]

theorem get_pop_of_ne (d : Dict κ ν) {k k' : κ} (h : k' ≠ k) : (d.pop k).get k' = d.get k' := by
  rw [get_pop, if_neg h]

end Dict
