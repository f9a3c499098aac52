import Mathlib.Data.List.Count
import Mathlib.Data.List.Nodup
import Mathlib.Data.List.Perm.Subperm

/-!
# Roll calls

Ids are to be answered, each once, and an answer counts for the last id with its name. If no answer names
anything else, this comes to a comparison of numbers: no id is there twice, no answer comes twice, and there
are as many answers as ids (`onceEach_iff`).
-/

namespace RollCall

variable {κ : Type} {ids keys : List κ}

/-- The key is that of the id at `i`, and of no later one. -/
def Names (ids : List κ) (i : ℕ) (k : κ) : Prop := ids[i]? = some k ∧ k ∉ ids.drop (i + 1)

theorem names_iff (hnodup : ids.Nodup) {i : ℕ} (hi : i < ids.length) {k : κ} :
    Names ids i k ↔ k = ids[i] := by
  unfold Names
  rw [List.getElem?_eq_getElem hi, Option.some.injEq]
  constructor
  · exact fun h => h.1.symm
  · rintro rfl
    refine ⟨rfl, fun hmem => ?_⟩
    obtain ⟨j, hj, heq⟩ := List.mem_drop_iff_getElem.mp hmem
    have hsame := (List.Nodup.getElem_inj_iff hnodup).mp heq
    omega

variable [DecidableEq κ]

instance (ids : List κ) (i : ℕ) (k : κ) : Decidable (Names ids i k) :=
  inferInstanceAs (Decidable (_ ∧ _))

/-- Each of the ids is named by exactly one of the keys. -/
def OnceEach (ids keys : List κ) : Prop := ∀ i < ids.length, keys.countP (fun k => Names ids i k) = 1

/-- An id that comes again is not named where it comes first. -/
theorem nodup_of_onceEach (h : OnceEach ids keys) : ids.Nodup := by
  rw [List.nodup_iff_pairwise_ne, List.pairwise_iff_getElem]
  intro i j hi hj hij heq
  have hlater : ids[i] ∈ ids.drop (i + 1) := by
    rw [heq, List.mem_drop_iff_getElem]
    exact ⟨j - (i + 1), by omega, by congr 1; omega⟩
  have hzero : keys.countP (fun k => Names ids i k) = 0 := by
    rw [List.countP_eq_zero]
    intro k _ hk
    obtain ⟨hget, hnot⟩ := of_decide_eq_true hk
    rw [List.getElem?_eq_getElem hi, Option.some.injEq] at hget
    exact hnot (hget ▸ hlater)
  have hone := h i hi
  omega

theorem countP_names (hnodup : ids.Nodup) {i : ℕ} (hi : i < ids.length) (keys : List κ) :
    keys.countP (fun k => Names ids i k) = keys.count ids[i] := by
  apply List.countP_congr
  intro k _
  simp [names_iff hnodup hi]

theorem onceEach_iff_count (hnodup : ids.Nodup) : OnceEach ids keys ↔ ∀ k ∈ ids, keys.count k = 1 := by
  constructor
  · intro h k hk
    obtain ⟨i, hi, rfl⟩ := List.mem_iff_getElem.mp hk
    rw [← countP_names hnodup hi]
    exact h i hi
  · intro h i hi
    rw [countP_names hnodup hi]
    exact h _ (List.getElem_mem hi)

/-- If the keys name each id once and nothing else, they are the ids in some order. -/
theorem perm_of_onceEach (hall : ∀ k ∈ keys, k ∈ ids) (h : OnceEach ids keys) : keys.Perm ids := by
  have hnodup := nodup_of_onceEach h
  rw [List.perm_iff_count]
  intro k
  by_cases hk : k ∈ ids
  · rw [(onceEach_iff_count hnodup).mp h k hk, List.count_eq_one_of_mem hnodup hk]
  · rw [List.count_eq_zero_of_not_mem hk, List.count_eq_zero_of_not_mem fun hmem => hk (hall k hmem)]

/-- **Each id is named once** if no id and no key comes twice and there are as many keys as ids. -/
theorem onceEach_iff (hall : ∀ k ∈ keys, k ∈ ids) :
    OnceEach ids keys ↔ ids.Nodup ∧ keys.Nodup ∧ keys.length = ids.length := by
  constructor
  · intro h
    have hnodup := nodup_of_onceEach h
    have hperm := perm_of_onceEach hall h
    exact ⟨hnodup, hperm.nodup_iff.mpr hnodup, hperm.length_eq⟩
  · rintro ⟨hids, hkeys, hlength⟩
    have hperm : keys.Perm ids := (hkeys.subperm hall).perm_of_length_le (Nat.le_of_eq hlength.symm)
    rw [onceEach_iff_count hids]
    intro k hk
    rw [hperm.count_eq, List.count_eq_one_of_mem hids hk]

/-- The ids that have a right answer are as many as the right answers. -/
theorem countP_right {answers : List (κ × Bool)} (hperm : (answers.map Prod.fst).Perm ids)
    (hnodup : ids.Nodup) : ids.countP (fun k => (k, true) ∈ answers) = answers.countP Prod.snd := by
  have hkeys : (answers.map Prod.fst).Nodup := hperm.nodup_iff.mpr hnodup
  rw [← hperm.countP_eq, List.countP_map]
  apply List.countP_congr
  intro a ha
  rw [Function.comp_apply, decide_eq_true_iff]
  constructor
  · intro hright
    rw [List.inj_on_of_nodup_map hkeys ha hright rfl]
  · intro hright
    rw [← hright]
    exact ha

end RollCall
