import Mathlib.Data.List.Sort
import WazuhMcp.Foundations.Dict

/-!
# Dictionaries in the order of their keys

The entries of a dictionary sorted by key. Where no key comes twice, this is a normal form: two dictionaries
have the same one exactly if they have the same value for every key (`sortByKey_eq_iff`).
-/

namespace Dict

variable {κ ν : Type} [LinearOrder κ]

/-- `sorted(d.items())`, where no key comes twice. -/
def sortByKey (d : Dict κ ν) : Dict κ ν := d.insertionSort fun kv kv' => kv.1 ≤ kv'.1

theorem mem_sortByKey {d : Dict κ ν} {kv : κ × ν} : kv ∈ d.sortByKey ↔ kv ∈ d :=
  List.mem_insertionSort _

theorem keys_sortByKey_nodup {d : Dict κ ν} (hd : d.keys.Nodup) : d.sortByKey.keys.Nodup :=
  ((List.perm_insertionSort _ d).map Prod.fst).nodup_iff.mpr hd

/-- What is found under a key is the entry with this key. -/
theorem get_eq_some_iff {d : Dict κ ν} (hd : d.keys.Nodup) {k : κ} {v : ν} :
    d.get k = some v ↔ (k, v) ∈ d := by
  induction d with
  | nil => simp
  | cons kv d ih =>
    obtain ⟨hkv, hrest⟩ := List.nodup_cons.mp hd
    rw [get, lookup_cons, List.mem_cons, ← ih hrest]
    split
    · rename_i hk
      subst hk
      have hnone : (kv.1, v) ∉ d := fun hmem => hkv (List.mem_map.mpr ⟨_, hmem, rfl⟩)
      rw [ih hrest, Option.some_inj, Prod.ext_iff, eq_comm]
      simp [hnone]
    · rename_i hk
      simp [hk, Prod.ext_iff, get]

theorem get_sortByKey {d : Dict κ ν} (hd : d.keys.Nodup) (k : κ) : d.sortByKey.get k = d.get k := by
  apply Option.ext
  intro v
  rw [get_eq_some_iff (keys_sortByKey_nodup hd), get_eq_some_iff hd, mem_sortByKey]

theorem pairwise_sortByKey (d : Dict κ ν) : d.sortByKey.Pairwise fun kv kv' => kv.1 ≤ kv'.1 := by
  have hkeys : (d.sortByKey.map Prod.fst).Pairwise (· ≤ ·) := by
    rw [sortByKey, List.map_insertionSort _ (· ≤ ·) Prod.fst d fun _ _ _ _ => Iff.rfl]
    exact List.pairwise_insertionSort _ _
  exact List.pairwise_map.mp hkeys

/-- **Sorting makes dictionaries equal exactly if they have the same values.** -/
theorem sortByKey_eq_iff {d d' : Dict κ ν} (hd : d.keys.Nodup) (hd' : d'.keys.Nodup) :
    d.sortByKey = d'.sortByKey ↔ ∀ k, d.get k = d'.get k := by
  constructor
  · intro h k
    rw [← get_sortByKey hd, h, get_sortByKey hd']
  · intro h
    have hmem : ∀ kv : κ × ν, kv ∈ d ↔ kv ∈ d' := fun kv => by
      rw [← get_eq_some_iff hd, ← get_eq_some_iff hd', h]
    have hperm : d.Perm d' :=
      (List.perm_ext_iff_of_nodup (List.Nodup.of_map _ hd) (List.Nodup.of_map _ hd')).mpr hmem
    refine List.Perm.eq_of_pairwise ?_ (pairwise_sortByKey d) (pairwise_sortByKey d')
      ((List.perm_insertionSort _ d).trans (hperm.trans (List.perm_insertionSort _ d').symm))
    -- of two entries with one key, both have the value that is found under it
    intro kv kv' hkv hkv' hle hle'
    have hkey : kv.1 = kv'.1 := le_antisymm hle hle'
    have hval : d.get kv.1 = some kv.2 := (get_eq_some_iff hd).mpr (mem_sortByKey.mp hkv)
    have hval' : d.get kv.1 = some kv'.2 := by
      rw [h, hkey]
      exact (get_eq_some_iff hd').mpr (mem_sortByKey.mp hkv')
    exact Prod.ext hkey (Option.some.inj (hval.symm.trans hval'))

end Dict
