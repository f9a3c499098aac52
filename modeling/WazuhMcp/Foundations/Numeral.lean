import WazuhMcp.Foundations.Text

/-!
# Decimal numerals

The numerals without leading zeros, as lists of characters: `Nat.toDigits 10` writes them and
`Text.natOfDigits` reads them.

* `natOfDigits_toDigits` and `toDigits_natOfDigits`: reading and writing undo each other.
* `isNumeral_iff`: the digit lists that do not start with a zero are what the positive numbers are
  written as.
-/

namespace Text

/-- Digits of which the first is not a zero. -/
def IsNumeral (cs : List Char) : Prop := cs ≠ [] ∧ cs.head? ≠ some '0' ∧ cs.all Char.isDigit = true

/-! ## Reading -/

theorem natOfDigits_append (cs : List Char) (d : Char) :
    natOfDigits (cs ++ [d]) = 10 * natOfDigits cs + (d.toNat - '0'.toNat) := by
  simp [natOfDigits]

theorem natOfDigits_toDigits (n : ℕ) : natOfDigits (Nat.toDigits 10 n) = n := by
  rw [natOfDigits, ← Nat.ofDigitChars_eq_foldl]
  exact Nat.ofDigitChars_ten_toDigits

/-- A digit is the character of its value. -/
theorem digitChar_of_isDigit {d : Char} (hd : d.isDigit = true) :
    d.toNat - '0'.toNat < 10 ∧ Nat.digitChar (d.toNat - '0'.toNat) = d := by
  obtain ⟨hlo, hhi⟩ := Char.isDigit_iff_toNat.mp hd
  have hlt : d.toNat - '0'.toNat < 10 := by
    show d.toNat - 48 < 10
    have h9 : d.toNat ≤ 57 := hhi
    omega
  refine ⟨hlt, Char.toNat_inj.mp ?_⟩
  rw [Nat.toNat_digitChar_of_lt_ten hlt]
  show 48 + (d.toNat - 48) = d.toNat
  have h0 : 48 ≤ d.toNat := hlo
  omega

/-! ## Writing -/

theorem toDigits_pos_head (n : ℕ) (hn : 0 < n) : (Nat.toDigits 10 n).head? ≠ some '0' := by
  induction n using Nat.strong_induction_on with
  | _ n ih =>
    by_cases hlt : n < 10
    · rw [Nat.toDigits_of_lt_base hlt]
      simp
      omega
    · have hge : 10 ≤ n := by omega
      rw [Nat.toDigits_of_base_le (by omega) hge, List.head?_append_of_ne_nil _ Nat.toDigits_ne_nil]
      exact ih (n / 10) (by omega) (by omega)

theorem isNumeral_toDigits {n : ℕ} (hn : 0 < n) : IsNumeral (Nat.toDigits 10 n) := by
  refine ⟨Nat.toDigits_ne_nil, toDigits_pos_head n hn, List.all_eq_true.mpr ?_⟩
  intro c hc
  exact Nat.isDigit_of_mem_toDigits (by omega) (by omega) hc

theorem IsNumeral.natOfDigits_pos {cs : List Char} (h : IsNumeral cs) : 0 < natOfDigits cs := by
  obtain ⟨hne, hhead, hall⟩ := h
  induction cs using List.reverseRecOn with
  | nil => exact absurd rfl hne
  | append_singleton cs d ih =>
    rw [natOfDigits_append]
    rw [List.all_append, Bool.and_eq_true] at hall
    cases cs with
    | nil =>
      -- a single digit, which is not a zero
      have hd : d.isDigit = true := by simpa using hall.2
      obtain ⟨-, hchar⟩ := digitChar_of_isDigit hd
      have hpos : d.toNat - '0'.toNat ≠ 0 := by
        intro hzero
        rw [hzero] at hchar
        apply hhead
        rw [← hchar]
        rfl
      omega
    | cons c cs =>
      have hcs := ih (by simp) (by simpa using hhead) hall.1
      omega

theorem IsNumeral.toDigits_natOfDigits {cs : List Char} (h : IsNumeral cs) :
    Nat.toDigits 10 (natOfDigits cs) = cs := by
  obtain ⟨hne, hhead, hall⟩ := h
  induction cs using List.reverseRecOn with
  | nil => exact absurd rfl hne
  | append_singleton cs d ih =>
    rw [List.all_append, Bool.and_eq_true] at hall
    obtain ⟨hlt, hchar⟩ := digitChar_of_isDigit (d := d) (by simpa using hall.2)
    rw [natOfDigits_append]
    cases cs with
    | nil =>
      show Nat.toDigits 10 (10 * 0 + (d.toNat - '0'.toNat)) = [d]
      rw [Nat.mul_zero, Nat.zero_add, Nat.toDigits_of_lt_base hlt, hchar]
    | cons c cs =>
      have hhead' : (c :: cs).head? ≠ some '0' := by simpa using hhead
      have hpos := IsNumeral.natOfDigits_pos ⟨by simp, hhead', hall.1⟩
      rw [← Nat.toDigits_append_toDigits (by omega) hpos hlt, ih (by simp) hhead' hall.1,
        Nat.toDigits_of_lt_base hlt, hchar]

/-- **The numerals are what the positive numbers are written as.** -/
theorem isNumeral_iff {cs : List Char} {n : ℕ} :
    (IsNumeral cs ∧ natOfDigits cs = n) ↔ (0 < n ∧ cs = Nat.toDigits 10 n) := by
  constructor
  · rintro ⟨hcs, rfl⟩
    exact ⟨hcs.natOfDigits_pos, hcs.toDigits_natOfDigits.symm⟩
  · rintro ⟨hn, rfl⟩
    exact ⟨isNumeral_toDigits hn, natOfDigits_toDigits n⟩

end Text
