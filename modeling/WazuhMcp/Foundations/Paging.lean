import Mathlib.Data.List.Nodup
import Mathlib.Data.List.Perm.Subperm
import Mathlib.Order.Defs.LinearOrder
import Mathlib.Tactic.Linarith

/-!
# Reading a list page by page

Elements are served in descending order of a key, a page of `size` at a time; the next page begins
strictly after the key of the last element of the page before, and an empty page is the end. Elements of
one key may come in any order, and in another order each time (`IsPage`).

* `Collects.subperm`: nothing is served twice.
* `Collects.length_eq_iff`: everything is served exactly if no page ends between two elements of one key
  (`Straddles`), which the next page would both leave out.
* `exists_collects`: the end is always reached.
* `complete_iff`: from the beginning, everything is served once and in order exactly if no page ends so.
-/

namespace Paging

variable {α κ : Type} [LinearOrder κ] (key : α → κ)

/-- The element comes strictly after the cursor. -/
def isAfter (cursor : Option κ) (x : α) : Bool := cursor.all fun v => key x < v

/-- The elements strictly after the cursor. -/
def after (cursor : Option κ) (xs : List α) : List α := xs.filter (isAfter key cursor)

/-- In descending order of the key. -/
def Descending (xs : List α) : Prop := xs.Pairwise fun a b => key b ≤ key a

/-- A page: the first elements after the cursor, in some descending order. -/
def IsPage (xs : List α) (size : ℕ) (cursor : Option κ) (page : List α) : Prop :=
  ∃ l, l.Perm (after key cursor xs) ∧ Descending key l ∧ page = l.take size

/-- What is collected from a cursor on: page after page, until one is empty. -/
inductive Collects (page : Option κ → List α) : Option κ → List α → Prop where
  | done {cursor : Option κ} (hempty : page cursor = []) : Collects page cursor []
  | more {cursor : Option κ} {x : α} {rest : List α} (hlast : (page cursor).getLast? = some x)
      (hrest : Collects page (some (key x)) rest) : Collects page cursor (page cursor ++ rest)

/-- Some page ends between two elements of one key: more come before the second of them than fill `m`
pages, and fewer before the first. -/
def Straddles (xs : List α) (size : ℕ) : Prop :=
  ∃ x ∈ xs, ∃ m, (xs.countP fun y => key x < key y) < size * m ∧
    size * m < xs.countP fun y => key x ≤ key y

variable {key} {xs l page rest : List α} {size : ℕ} {cursor : Option κ} {x : α}

theorem mem_after : x ∈ after key cursor xs ↔ x ∈ xs ∧ isAfter key cursor x = true :=
  List.mem_filter

/-- After a later cursor there is less. -/
theorem after_after (h : isAfter key cursor x = true) :
    after key (some (key x)) (after key cursor xs) = after key (some (key x)) xs := by
  rw [after, after, List.filter_filter]
  apply List.filter_congr
  intro y _
  cases cursor with
  | none => simp [isAfter]
  | some v =>
    simp only [isAfter, Option.all_some, decide_eq_true_eq] at h ⊢
    rw [← Bool.decide_and]
    exact decide_eq_decide.mpr ⟨And.left, fun hy => ⟨hy, hy.trans h⟩⟩

theorem Straddles.perm {ys : List α} (hperm : xs.Perm ys) (h : Straddles key xs size) :
    Straddles key ys size := by
  obtain ⟨x, hx, m, hlo, hhi⟩ := h
  refine ⟨x, hperm.mem_iff.mp hx, m, ?_, ?_⟩
  · rwa [← hperm.countP_eq]
  · rwa [← hperm.countP_eq]

theorem straddles_congr {ys : List α} (hperm : xs.Perm ys) :
    Straddles key xs size ↔ Straddles key ys size := ⟨.perm hperm, .perm hperm.symm⟩

/-- What fits on one page is never cut. -/
theorem not_straddles_of_length_le (h : xs.length ≤ size) : ¬ Straddles key xs size := by
  rintro ⟨x, -, m, hlo, hhi⟩
  have hm : size * m < size := hhi.trans_le (List.countP_le_length.trans h)
  have hzero : m = 0 := by
    by_contra hne
    have hle : size * 1 ≤ size * m := Nat.mul_le_mul_left size (Nat.one_le_iff_ne_zero.mpr hne)
    omega
  rw [hzero, Nat.mul_zero] at hlo
  exact absurd hlo (Nat.not_lt_zero _)

/-- What comes no later than a key comes before it, or is of the key. -/
theorem countP_le_eq (v : κ) : (xs.countP fun y => v ≤ key y) =
    (xs.countP fun y => v < key y) + xs.countP fun y => key y = v := by
  induction xs with
  | nil => rfl
  | cons y ys ih =>
    simp only [List.countP_cons, ih, decide_eq_true_eq]
    rcases lt_trichotomy v (key y) with h | h | h
    · simp [h.le, h, h.ne']
      omega
    · simp [h]
      omega
    · simp [h.not_ge, h.not_gt, h.ne]

/-- Where no two elements are of one key, no page is cut. -/
theorem not_straddles_of_nodup (h : (xs.map key).Nodup) : ¬ Straddles key xs size := by
  rintro ⟨x, -, m, hlo, hhi⟩
  have hone : (xs.countP fun y => key y = key x) ≤ 1 := by
    have hcount := List.nodup_iff_count_le_one.mp h (key x)
    rw [List.count, List.countP_map] at hcount
    refine le_trans (List.countP_mono_left fun y _ hy => ?_) hcount
    exact beq_iff_eq.mpr (of_decide_eq_true hy)
  rw [countP_le_eq] at hhi
  omega

/-! ## One page -/

/-- The order is all that matters of the key. -/
theorem isPage_comp {κ' : Type} [LinearOrder κ'] {f : κ → κ'} (hf : StrictMono f) :
    IsPage (f ∘ key) xs size (cursor.map f) page ↔ IsPage key xs size cursor page := by
  have hafter : after (f ∘ key) (cursor.map f) xs = after key cursor xs := by
    refine List.filter_congr fun x _ => ?_
    cases cursor with
    | none => rfl
    | some v => simp [isAfter, hf.lt_iff_lt]
  unfold IsPage Descending
  simp only [hafter, Function.comp_apply, hf.le_iff_le]

/-- A page of what the elements are mapped to. -/
theorem IsPage.map {β : Type} {g : β → α} {ys page : List β} (h : IsPage (key ∘ g) ys size cursor page) :
    IsPage key (ys.map g) size cursor (page.map g) := by
  obtain ⟨l, hperm, hdesc, rfl⟩ := h
  refine ⟨l.map g, ?_, List.pairwise_map.mpr hdesc, List.map_take⟩
  rw [after, List.filter_map]
  exact hperm.map g

/-- The elements of a page do not come after its last. -/
theorem le_of_mem_page (hdesc : Descending key l) (hlast : (l.take size).getLast? = some x) {a : α}
    (ha : a ∈ l.take size) : key x ≤ key a := by
  obtain ⟨pre, hpre⟩ := List.getLast?_eq_some_iff.mp hlast
  have hpw : (l.take size).Pairwise fun a b => key b ≤ key a :=
    hdesc.sublist (List.take_sublist size l)
  rw [hpre] at ha hpw
  rcases List.mem_append.mp ha with ha | ha
  · exact (List.pairwise_append.mp hpw).2.2 a ha x (by simp)
  · rw [List.mem_singleton.mp ha]

/-- A full page of which the key of its last element goes on: it is cut there. -/
theorem straddles_of_mem_drop (hdesc : Descending key l) (hlast : (l.take size).getLast? = some x)
    {y : α} (hy : y ∈ l.drop size) (hkey : key y = key x) : Straddles key l size := by
  have hsize : (l.take size).length = size := by
    rw [List.length_take, Nat.min_eq_left]
    by_contra hlt
    rw [List.drop_eq_nil_of_le (by omega)] at hy
    cases hy
  have hsplit : l.take size ++ l.drop size = l := List.take_append_drop size l
  obtain ⟨pre, hpre⟩ := List.getLast?_eq_some_iff.mp hlast
  have hxl : x ∈ l := by
    rw [← hsplit, hpre]
    simp
  have hpw : (l.take size ++ l.drop size).Pairwise fun a b => key b ≤ key a := by rwa [hsplit]
  have hcross := (List.pairwise_append.mp hpw).2.2
  refine ⟨x, hxl, 1, ?_, ?_⟩
  · -- the elements before `x` are among the others of the page
    rw [← hsplit, List.countP_append]
    have hzero : (l.drop size).countP (fun z => key x < key z) = 0 := by
      rw [List.countP_eq_zero]
      intro z hz
      have hle : key z ≤ key x := hcross x (by rw [hpre]; simp) z hz
      simpa using hle
    have hlt : (l.take size).countP (fun z => key x < key z) ≤ pre.length := by
      rw [hpre, List.countP_append]
      have hx : [x].countP (fun z => key x < key z) = 0 := by simp
      rw [hx]
      exact List.countP_le_length
    have hlen : (l.take size).length = pre.length + 1 := by rw [hpre, List.length_append]; rfl
    omega
  · -- all of the page come at or before `x`, and so does `y`
    rw [← hsplit, List.countP_append]
    have hall : (l.take size).countP (fun z => key x ≤ key z) = (l.take size).length := by
      rw [List.countP_eq_length]
      intro z hz
      simpa using le_of_mem_page hdesc hlast hz
    have hpos : 0 < (l.drop size).countP fun z => key x ≤ key z :=
      List.countP_pos_iff.mpr ⟨y, hy, by simp [hkey]⟩
    omega

/-- A full page that ends between two keys: only the rest may be cut. -/
theorem straddles_drop_iff (hfull : size ≤ l.length)
    (hlt : ∀ a ∈ l.take size, ∀ b ∈ l.drop size, key b < key a) :
    Straddles key l size ↔ Straddles key (l.drop size) size := by
  have hsplit : l.take size ++ l.drop size = l := List.take_append_drop size l
  have hlen : (l.take size).length = size := by rw [List.length_take, Nat.min_eq_left hfull]
  have hcount : ∀ p : α → Bool, l.countP p = (l.take size).countP p + (l.drop size).countP p := by
    intro p
    rw [← List.countP_append, hsplit]
  -- all of the page come before an element of the rest
  have hrest : ∀ y ∈ l.drop size,
      ((l.take size).countP fun z => key y < key z) = size ∧
        ((l.take size).countP fun z => key y ≤ key z) = size := by
    intro y hy
    constructor
    · rw [List.countP_eq_length.mpr, hlen]
      exact fun z hz => by simpa using hlt z hz y hy
    · rw [List.countP_eq_length.mpr, hlen]
      exact fun z hz => by simpa using (hlt z hz y hy).le
  constructor
  · rintro ⟨y, hy, m, hlo, hhi⟩
    rw [hcount] at hlo hhi
    rw [← hsplit] at hy
    rcases List.mem_append.mp hy with hy | hy
    · have hnone : ((l.drop size).countP fun z => key y ≤ key z) = 0 := by
        rw [List.countP_eq_zero]
        intro z hz
        simpa using hlt y hy z hz
      have hle : ((l.take size).countP fun z => key y ≤ key z) ≤ size :=
        List.countP_le_length.trans_eq hlen
      have hm : m = 0 := by
        by_contra hne
        have hone : size * 1 ≤ size * m := Nat.mul_le_mul_left size (Nat.one_le_iff_ne_zero.mpr hne)
        omega
      rw [hm, Nat.mul_zero] at hlo
      exact absurd hlo (Nat.not_lt_zero _)
    · obtain ⟨hbefore, hat⟩ := hrest y hy
      rw [hbefore] at hlo
      rw [hat] at hhi
      obtain ⟨n, rfl⟩ : ∃ n, m = n + 1 := by
        cases m with
        | zero =>
          rw [Nat.mul_zero] at hlo
          exact absurd hlo (Nat.not_lt_zero _)
        | succ n => exact ⟨n, rfl⟩
      rw [Nat.mul_succ] at hlo hhi
      exact ⟨y, hy, n, by omega, by omega⟩
  · rintro ⟨y, hy, m, hlo, hhi⟩
    obtain ⟨hbefore, hat⟩ := hrest y hy
    refine ⟨y, by rw [← hsplit]; exact List.mem_append_right _ hy, m + 1, ?_, ?_⟩
    · rw [hcount, hbefore, Nat.mul_succ]
      omega
    · rw [hcount, hat, Nat.mul_succ]
      omega

/-- What comes after a page, of what came before it in the order it was taken from. -/
theorem after_last (hdesc : Descending key l) (hlast : (l.take size).getLast? = some x) :
    after key (some (key x)) l = after key (some (key x)) (l.drop size) := by
  have hsplit : l.take size ++ l.drop size = l := List.take_append_drop size l
  have hnone : after key (some (key x)) (l.take size) = [] := by
    rw [after, List.filter_eq_nil_iff]
    intro z hz
    simpa [isAfter] using le_of_mem_page hdesc hlast hz
  conv_lhs => rw [← hsplit, after, List.filter_append]
  rw [← after, hnone, List.nil_append]
  rfl

/-! ## All pages -/

section All

variable {serve : Option κ → List α} {ys : List α}

/-- The elements after a page that is not the last. -/
theorem after_page (hperm : l.Perm (after key cursor xs)) (hdesc : Descending key l)
    (hlast : (l.take size).getLast? = some x) :
    (after key (some (key x)) xs).Perm (after key (some (key x)) (l.drop size)) := by
  have hx : x ∈ l := (List.take_subset size l) (List.mem_of_getLast? hlast)
  rw [← after_after (mem_after.mp (hperm.mem_iff.mp hx)).2, ← after_last hdesc hlast]
  exact (hperm.filter _).symm

/-- Pages are served in order, and nothing on them twice. -/
theorem Collects.subperm (hserve : ∀ cursor, IsPage key xs size cursor (serve cursor))
    (h : Collects key serve cursor ys) : ys.Subperm (after key cursor xs) ∧ Descending key ys := by
  induction h with
  | done hempty => exact ⟨List.nil_subperm, List.Pairwise.nil⟩
  | @more cursor x rest hlast hrest ih =>
    obtain ⟨l, hperm, hdesc, hpage⟩ := hserve cursor
    rw [hpage] at hlast ⊢
    have hafter := after_page hperm hdesc hlast
    have hrests : rest.Subperm (after key (some (key x)) (l.drop size)) := ih.1.trans hafter.subperm
    constructor
    · have hall : (l.take size ++ rest).Subperm (l.take size ++ l.drop size) :=
        (List.Subperm.refl _).append (hrests.trans List.filter_sublist.subperm)
      rw [List.take_append_drop] at hall
      exact hall.trans hperm.subperm
    · refine List.pairwise_append.mpr ⟨hdesc.sublist (List.take_sublist size l), ih.2, ?_⟩
      intro a ha b hb
      have hbx : key b < key x := by
        simpa [isAfter] using (mem_after.mp (hrests.subset hb)).2
      exact hbx.le.trans (le_of_mem_page hdesc hlast ha)

/-- **Everything is served** exactly if no page ends between two elements of one key. -/
theorem Collects.length_eq_iff (hserve : ∀ cursor, IsPage key xs size cursor (serve cursor))
    (hsize : 0 < size) (h : Collects key serve cursor ys) :
    ys.length = (after key cursor xs).length ↔ ¬ Straddles key (after key cursor xs) size := by
  induction h with
  | done hempty =>
    obtain ⟨l, hperm, -, hpage⟩ := hserve _
    have hnil : l = [] := by
      have htake : l.take size = [] := hpage.symm.trans hempty
      rcases List.take_eq_nil_iff.mp htake with hzero | hnil
      · omega
      · exact hnil
    have hafter : after key _ xs = [] := (hnil ▸ hperm).nil_eq.symm
    rw [hafter]
    exact iff_of_true rfl (not_straddles_of_length_le (Nat.zero_le size))
  | @more cursor x rest hlast hrest ih =>
    obtain ⟨l, hperm, hdesc, hpage⟩ := hserve cursor
    rw [hpage] at hlast ⊢
    have hafter := after_page hperm hdesc hlast
    rw [straddles_congr hafter, hafter.length_eq] at ih
    rw [straddles_congr hperm.symm, ← hperm.length_eq, List.length_append]
    have hlen : l.length = (l.take size).length + (l.drop size).length := by
      rw [← List.length_append, List.take_append_drop]
    have hle : ∀ y ∈ l.drop size, key y ≤ key x := by
      have hpw : (l.take size ++ l.drop size).Pairwise fun a b => key b ≤ key a := by
        rwa [List.take_append_drop]
      exact (List.pairwise_append.mp hpw).2.2 x (List.mem_of_getLast? hlast)
    by_cases htie : ∃ y ∈ l.drop size, key y = key x
    · -- the elements of the key that are not on the page are lost
      obtain ⟨y, hy, hkey⟩ := htie
      refine iff_of_false ?_ (not_not.mpr (straddles_of_mem_drop hdesc hlast hy hkey))
      have hlost : (after key (some (key x)) (l.drop size)).length < (l.drop size).length := by
        refine List.length_filter_lt_length_iff_exists.mpr ⟨y, hy, ?_⟩
        simp [isAfter, hkey]
      have hrest_le := ((hrest.subperm hserve).1.trans hafter.subperm).length_le
      omega
    · have hlt : ∀ y ∈ l.drop size, key y < key x :=
        fun y hy => lt_of_le_of_ne (hle y hy) fun hkey => htie ⟨y, hy, hkey⟩
      have hall : after key (some (key x)) (l.drop size) = l.drop size := by
        rw [after, List.filter_eq_self]
        intro y hy
        simpa [isAfter] using hlt y hy
      rw [hall] at ih
      by_cases hfull : size ≤ l.length
      · rw [straddles_drop_iff hfull, ← ih]
        · omega
        · intro a ha b hb
          exact (hlt b hb).trans_le (le_of_mem_page hdesc hlast ha)
      · have hshort : l.length ≤ size := by omega
        have hdrop : l.drop size = [] := List.drop_eq_nil_of_le hshort
        refine iff_of_true ?_ (not_straddles_of_length_le hshort)
        rw [hdrop] at ih hlen
        have hnot : ¬ Straddles key ([] : List α) size := not_straddles_of_length_le (Nat.zero_le _)
        have hzero := ih.mpr hnot
        omega

/-- **The end is reached.** -/
theorem exists_collects (hserve : ∀ cursor, IsPage key xs size cursor (serve cursor))
    (cursor : Option κ) : ∃ ys, Collects key serve cursor ys := by
  induction hn : (after key cursor xs).length using Nat.strong_induction_on generalizing cursor with
  | _ n ih =>
    cases hlast : (serve cursor).getLast? with
    | none => exact ⟨[], .done (List.getLast?_eq_none_iff.mp hlast)⟩
    | some x =>
      obtain ⟨l, hperm, hdesc, hpage⟩ := hserve cursor
      have hx : x ∈ after key cursor xs := by
        rw [hpage] at hlast
        exact hperm.mem_iff.mp (List.take_subset size l (List.mem_of_getLast? hlast))
      have hless : (after key (some (key x)) xs).length < n := by
        rw [← hn, ← after_after (mem_after.mp hx).2]
        refine List.length_filter_lt_length_iff_exists.mpr ⟨x, hx, ?_⟩
        simp [isAfter]
      obtain ⟨rest, hrest⟩ := ih _ hless (some (key x)) rfl
      exact ⟨_, .more hlast hrest⟩

@[simp] theorem after_none : after key none xs = xs := by simp [after, isAfter]

/-- **Reading page by page** serves every element once and in order, exactly if no page ends between two
elements of one key. -/
theorem complete_iff (hserve : ∀ cursor, IsPage key xs size cursor (serve cursor)) (hsize : 0 < size) :
    (∃ ys, Collects key serve none ys ∧ ys.Perm xs ∧ Descending key ys) ↔ ¬ Straddles key xs size := by
  constructor
  · rintro ⟨ys, hys, hperm, -⟩
    have hlength := hys.length_eq_iff hserve hsize
    rw [after_none] at hlength
    exact hlength.mp hperm.length_eq
  · intro h
    obtain ⟨ys, hys⟩ := exists_collects hserve none
    have hlength := hys.length_eq_iff hserve hsize
    obtain ⟨hsub, hdesc⟩ := hys.subperm hserve
    rw [after_none] at hlength hsub
    exact ⟨ys, hys, hsub.perm_of_length_le (hlength.mpr h).ge, hdesc⟩

end All

end Paging
