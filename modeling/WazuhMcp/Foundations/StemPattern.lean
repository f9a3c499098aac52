import Mathlib.Data.List.Basic

/-!
# Words and stems

A pattern is a word, which matches itself, or a stem, which matches every word that begins with it. A list of
patterns matches what one of them does.

* `Pattern.Covers` compares two patterns by their texts, and `Covers.matches` says that a pattern that covers
  another one matches all that it does.
* `subset_iff`: where stems end with a separator, a list of patterns matches all that another list does exactly
  if each pattern of the latter is covered by a single one. Several patterns never cover a pattern together.
-/

namespace StemPattern

/-- A word, or a stem and whatever may follow it. -/
inductive Pattern (α : Type*) where
  | word (w : List α)
  | stem (s : List α)

namespace Pattern

variable {α : Type*}

/-- The pattern matches the word. -/
def Matches : Pattern α → List α → Prop
  | word w, v => v = w
  | stem s, v => s <+: v

/-- The first pattern covers the second, as their texts say. -/
def Covers : Pattern α → Pattern α → Prop
  | word w, word w' => w' = w
  | word _, stem _ => False
  | stem s, word w => s <+: w
  | stem s, stem s' => s <+: s'

instance [DecidableEq α] : ∀ q p : Pattern α, Decidable (q.Covers p)
  | word w, word w' => inferInstanceAs (Decidable (w' = w))
  | word _, stem _ => inferInstanceAs (Decidable False)
  | stem s, word w => inferInstanceAs (Decidable (s <+: w))
  | stem s, stem s' => inferInstanceAs (Decidable (s <+: s'))

/-- The stem is empty or ends with the separator. -/
def Separated (sep : α) : Pattern α → Prop
  | word _ => True
  | stem s => s = [] ∨ ∃ init, s = init ++ [sep]

/-- The length of the text. -/
def length : Pattern α → ℕ
  | word w => w.length
  | stem s => s.length

/-- A word that the pattern matches: a stem is followed by many letters. -/
def instanceOf (c : α) (n : ℕ) : Pattern α → List α
  | word w => w
  | stem s => s ++ List.replicate n c

theorem matches_instanceOf (c : α) (n : ℕ) (p : Pattern α) : p.Matches (p.instanceOf c n) := by
  cases p with
  | word w => exact rfl
  | stem s => exact List.prefix_append _ _

theorem Covers.matches {q p : Pattern α} (h : q.Covers p) {v : List α} (hv : p.Matches v) : q.Matches v := by
  cases q with
  | word w =>
    cases p with
    | word w' => exact hv.trans h
    | stem s => exact h.elim
  | stem s =>
    cases p with
    | word w =>
      obtain rfl : v = w := hv
      exact h
    | stem s' => exact List.IsPrefix.trans h hv

/-- A stem that ends with the separator does not end within the letters. -/
theorem covers_of_matches_instanceOf {sep c : α} (hc : c ≠ sep) {q p : Pattern α} (hq : q.Separated sep) {n : ℕ}
    (hn : q.length < n) (h : q.Matches (p.instanceOf c n)) : q.Covers p := by
  cases p with
  | word w =>
    cases q with
    | word w' => exact h
    | stem s => exact h
  | stem s =>
    cases q with
    | word w =>
      obtain rfl : s ++ List.replicate n c = w := h
      change (s ++ List.replicate n c).length < n at hn
      rw [List.length_append, List.length_replicate] at hn
      omega
    | stem t =>
      change t <+: s ++ List.replicate n c at h
      rcases hq with rfl | ⟨init, rfl⟩
      · exact List.nil_prefix
      · rcases Nat.lt_or_ge init.length s.length with hlt | hle
        · refine List.prefix_of_prefix_length_le h (List.prefix_append _ _) ?_
          simpa using Nat.succ_le_of_lt hlt
        · obtain ⟨rest, hrest⟩ := h
          have hinit : init.length - s.length < n := by
            change (init ++ [sep]).length < n at hn
            rw [List.length_append] at hn
            omega
          have hat := congrArg (fun v => v[init.length]?) hrest
          simp [List.getElem?_append_right hle, hinit] at hat
          exact absurd hat.symm hc

end Pattern

variable {α : Type*}

theorem exists_length_lt (ps : List (Pattern α)) : ∃ n, ∀ p ∈ ps, p.length < n := by
  induction ps with
  | nil => exact ⟨0, fun _ hp => absurd hp List.not_mem_nil⟩
  | cons p ps ih =>
    obtain ⟨n, hn⟩ := ih
    refine ⟨max n (p.length + 1), List.forall_mem_cons.mpr ⟨by omega, fun q hq => ?_⟩⟩
    have := hn q hq
    omega

/-- **Inclusion is decided pattern by pattern.** -/
theorem subset_iff {sep c : α} (hc : c ≠ sep) {ps qs : List (Pattern α)} (hqs : ∀ q ∈ qs, q.Separated sep) :
    (∀ v, (∃ p ∈ ps, p.Matches v) → ∃ q ∈ qs, q.Matches v) ↔ ∀ p ∈ ps, ∃ q ∈ qs, q.Covers p := by
  constructor
  · intro h p hp
    obtain ⟨n, hn⟩ := exists_length_lt qs
    obtain ⟨q, hq, hmatch⟩ := h _ ⟨p, hp, p.matches_instanceOf c n⟩
    exact ⟨q, hq, Pattern.covers_of_matches_instanceOf hc (hqs q hq) (hn q hq) hmatch⟩
  · rintro h v ⟨p, hp, hv⟩
    obtain ⟨q, hq, hcovers⟩ := h p hp
    exact ⟨q, hq, hcovers.matches hv⟩

end StemPattern
