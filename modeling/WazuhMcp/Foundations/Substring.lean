import Mathlib.Data.List.Infix
import WazuhMcp.Foundations.Text

/-!
# Occurrences of a text in another

`Text.contains` and `Text.replace` by the parts of a text: an occurrence in `x ++ y` lies in one of the
two if `y` starts with a character that only the head of the pattern could be
(`infix_append_iff_of_head`), so that a replacement goes part by part (`replaceChars_append`).

* `not_infix_replaceChars`: nothing is left to replace where everything has been replaced.
-/

namespace Text

theorem contains_iff {s p : String} : contains s p = true ↔ p.toList <:+: s.toList := by
  unfold contains
  rw [List.any_eq_true, List.infix_iff_prefix_suffix]
  constructor
  · rintro ⟨t, ht, hp⟩
    exact ⟨t, List.isPrefixOf_iff_prefix.mp hp, (List.mem_tails t _).mp ht⟩
  · rintro ⟨t, hp, ht⟩
    exact ⟨t, (List.mem_tails t _).mpr ht, List.isPrefixOf_iff_prefix.mpr hp⟩

section

variable {old new x y : List Char}

/-! ## Where an occurrence lies -/

/-- What starts in `x` ends in `x`, if what follows cannot be in the tail of the pattern. -/
theorem prefix_of_prefix_append (hx : x ≠ []) (hy : ∀ c, y.head? = some c → c ∉ old.tail)
    (h : old <+: x ++ y) : old <+: x := by
  rcases List.prefix_or_prefix_of_prefix h (List.prefix_append x y) with hle | ⟨z, rfl⟩
  · exact hle
  · cases z with
    | nil => simp
    | cons c z =>
      have hz : c :: z <+: y := (List.prefix_append_right_inj x).mp h
      obtain ⟨rest, rfl⟩ := hz
      refine absurd ?_ (hy c rfl)
      rw [List.tail_append_of_ne_nil hx]
      simp

theorem infix_append_iff_of_head (hold : old ≠ []) (hy : ∀ c, y.head? = some c → c ∉ old.tail) :
    old <:+: x ++ y ↔ old <:+: x ∨ old <:+: y := by
  induction x with
  | nil => simp [hold]
  | cons a x ih =>
    rw [List.cons_append, List.infix_cons_iff, List.infix_cons_iff, ih, ← List.cons_append, or_assoc]
    refine or_congr_left ⟨fun h => prefix_of_prefix_append (List.cons_ne_nil a x) hy h, fun h => ?_⟩
    exact h.trans (List.prefix_append _ _)

/-- An occurrence does not start in what lacks its head. -/
theorem infix_append_iff_of_not_mem {o : Char} {os : List Char} (ho : o ∉ x) :
    o :: os <:+: x ++ y ↔ o :: os <:+: y := by
  induction x with
  | nil => rfl
  | cons a x ih =>
    rw [List.mem_cons, not_or] at ho
    rw [List.cons_append, List.infix_cons_iff, ih ho.2, or_iff_right]
    intro h
    exact ho.1 (List.cons_prefix_cons.mp h).1

/-! ## Replacing -/

theorem replaceChars_skip : replaceChars old new x.length (x ++ y) = replaceChars old new 0 y := by
  induction x with
  | nil => rfl
  | cons a x ih => exact ih

/-- An occurrence at the front is replaced. -/
theorem replaceChars_match {o : Char} {os : List Char} :
    replaceChars (o :: os) new 0 (o :: os ++ y) = new ++ replaceChars (o :: os) new 0 y := by
  have hmatch : (o :: os).isPrefixOf (o :: (os ++ y)) = true :=
    List.isPrefixOf_iff_prefix.mpr (List.prefix_append (o :: os) y)
  rw [List.cons_append, replaceChars, if_pos hmatch, List.length_cons, Nat.add_sub_cancel,
    replaceChars_skip]

/-- What holds no occurrence is left as it is, whatever comes behind. -/
theorem replaceChars_append (hx : ¬ old <:+: x) (hy : ∀ c, y.head? = some c → c ∉ old.tail) :
    replaceChars old new 0 (x ++ y) = x ++ replaceChars old new 0 y := by
  induction x with
  | nil => rfl
  | cons a x ih =>
    rw [List.infix_cons_iff, not_or] at hx
    have hout : ¬ old.isPrefixOf (a :: (x ++ y)) = true := by
      rw [List.isPrefixOf_iff_prefix]
      exact fun h => hx.1 (prefix_of_prefix_append (List.cons_ne_nil a x) hy h)
    rw [List.cons_append, replaceChars, if_neg hout, ih hx.2, List.cons_append]

theorem replaceChars_of_not_infix (hx : ¬ old <:+: x) : replaceChars old new 0 x = x := by
  have h := @replaceChars_append old new x [] hx (by simp)
  rwa [List.append_nil, replaceChars, List.append_nil] at h

end

/-! ## What is left after a replacement -/

section

variable {o a b : Char} {os ns : List Char}

/-- Up to the next head of the pattern, the characters are the ones that were there. -/
theorem prefix_of_prefix_replaceChars {p cs : List Char} (hp : o ∉ p)
    (h : p <+: replaceChars (o :: os) (o :: ns) 0 cs) : p <+: cs := by
  induction p generalizing cs with
  | nil => exact List.nil_prefix
  | cons d p ih =>
    rw [List.mem_cons, not_or] at hp
    cases cs with
    | nil => exact h
    | cons c cs =>
      rw [replaceChars] at h
      split at h
      · exact absurd (List.cons_prefix_cons.mp h).1.symm hp.1
      · obtain ⟨hdc, hrest⟩ := List.cons_prefix_cons.mp h
        exact List.cons_prefix_cons.mpr ⟨hdc, ih hp.2 hrest⟩

/-- **Nothing is left to replace**, if the new text starts like the old one, and differs from it in the
next character. -/
theorem not_infix_replaceChars (hab : a ≠ b) (hos : o ∉ a :: os) (hns : o ∉ b :: ns) (skip : ℕ)
    (cs : List Char) :
    ¬ o :: a :: os <:+: replaceChars (o :: a :: os) (o :: b :: ns) skip cs := by
  induction cs generalizing skip with
  | nil => simp [replaceChars]
  | cons c cs ih =>
    cases skip with
    | succ skip => exact ih skip
    | zero =>
      rw [replaceChars]
      split
      · rw [List.cons_append, List.infix_cons_iff, infix_append_iff_of_not_mem hns]
        rintro (hfront | hrest)
        · rw [List.cons_prefix_cons, List.cons_append, List.cons_prefix_cons] at hfront
          exact hab hfront.2.1
        · exact ih _ hrest
      · rename_i hout
        rw [List.infix_cons_iff]
        rintro (hfront | hrest)
        · obtain ⟨hc, htail⟩ := List.cons_prefix_cons.mp hfront
          apply hout
          rw [List.isPrefixOf_iff_prefix, List.cons_prefix_cons]
          exact ⟨hc, prefix_of_prefix_replaceChars hos htail⟩
        · exact ih _ hrest

end

end Text
