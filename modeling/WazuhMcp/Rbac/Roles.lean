import WazuhMcp.Foundations.StemPattern
import WazuhMcp.Rbac.Policy

/-!
# What roles allow

The pattern language of the role allowlists, and how two roles compare.

* `toolPattern` is what a pattern stands for: a name, or a stem that ends with a dot, or all names.
* `AtMost` compares two allowlists pattern by pattern, which says all there is to say about the tools that they
  allow (`toolMatches_subset_iff`).
* `role_atMost_iff`: how the roles of two tenants compare.
-/

namespace WazuhMcp

open StemPattern

/-! ## Patterns -/

/-- What a pattern stands for. -/
def toolPattern (pattern : String) : Pattern Char :=
  if pattern = "*" then .stem []
  else if Text.endsWith pattern ".*" then .stem pattern.toList.dropLast
  else .word pattern.toList

/-- The text of a pattern for a domain. -/
theorem endsWith_star {pattern : String} (h : Text.endsWith pattern ".*" = true) :
    ∃ domain, pattern.toList = domain ++ ['.', '*'] := by
  obtain ⟨domain, hdomain⟩ := List.isSuffixOf_iff_suffix.mp h
  exact ⟨domain, hdomain.symm⟩

theorem separated_toolPattern (pattern : String) : (toolPattern pattern).Separated '.' := by
  rw [toolPattern]
  split
  · exact .inl rfl
  · split
    · rename_i hend
      obtain ⟨domain, hdomain⟩ := endsWith_star hend
      exact .inr ⟨domain, by simp [hdomain]⟩
    · trivial

/-- **A pattern matches** what it stands for. -/
theorem patternMatches_iff {toolName pattern : String} :
    patternMatches toolName pattern = true ↔ (toolPattern pattern).Matches toolName.toList := by
  rw [patternMatches, toolPattern]
  by_cases hstar : pattern = "*"
  · simp [hstar, Pattern.Matches]
  · rw [if_neg hstar]
    by_cases hend : Text.endsWith pattern ".*" = true
    · obtain ⟨domain, hdomain⟩ := endsWith_star hend
      have hdrop : (Text.dropRight pattern 2 ++ ".").toList = domain ++ ['.'] := by
        simp [Text.dropRight, hdomain]
      have hstem : pattern.toList.dropLast = domain ++ ['.'] := by simp [hdomain]
      have hself : pattern = toolName → domain ++ ['.'] <+: toolName.toList := by
        rintro rfl
        exact ⟨['*'], by simp [hdomain]⟩
      simp only [hend, if_true, hstem, Bool.or_eq_true, beq_iff_eq, hstar, false_or, Bool.true_and,
        Text.startsWith, hdrop, List.isPrefixOf_iff_prefix]
      exact or_iff_right_of_imp hself
    · simp only [hend, hstar, if_false, Bool.false_eq_true, Bool.or_eq_true, beq_iff_eq, false_or,
        Bool.false_and, or_false, Pattern.Matches]
      exact eq_comm.trans String.toList_inj.symm

theorem toolMatches_iff {toolName : String} {allowlist : List String} :
    toolMatches toolName allowlist = true ↔
      ∃ p ∈ allowlist.map toolPattern, p.Matches toolName.toList := by
  simp [toolMatches, List.any_eq_true, patternMatches_iff]

/-! ## Allowlists -/

/-- Each pattern of the first allowlist is covered by one of the second. -/
def AtMost (allowlist allowlist' : List String) : Prop :=
  ∀ pattern ∈ allowlist, ∃ pattern' ∈ allowlist', (toolPattern pattern').Covers (toolPattern pattern)

instance (allowlist allowlist' : List String) : Decidable (AtMost allowlist allowlist') :=
  inferInstanceAs (Decidable (∀ pattern ∈ allowlist, ∃ pattern' ∈ allowlist', _))

/-- **What allowlists allow compares as their patterns do**, over all names that a tool could have. -/
theorem toolMatches_subset_iff {allowlist allowlist' : List String} :
    (∀ toolName, toolMatches toolName allowlist = true → toolMatches toolName allowlist' = true) ↔
      AtMost allowlist allowlist' := by
  have hcovers : (∀ p ∈ allowlist.map toolPattern, ∃ q ∈ allowlist'.map toolPattern, q.Covers p) ↔
      AtMost allowlist allowlist' := by simp [AtMost]
  have hsubset := @subset_iff _ '.' 'a' (by decide) (allowlist.map toolPattern) (allowlist'.map toolPattern)
    (List.forall_mem_map.mpr fun pattern _ => separated_toolPattern pattern)
  rw [← hcovers, ← hsubset]
  constructor
  · intro h v hv
    have hname := h (String.ofList v)
    rw [toolMatches_iff, toolMatches_iff, String.toList_ofList] at hname
    exact hname hv
  · intro h toolName
    rw [toolMatches_iff, toolMatches_iff]
    exact h toolName.toList

/-- What a policy allows to a role. -/
def Policy.patterns (policy : Policy) (role : String) : List String := (policy.lookup role).getD []

theorem isAllowed_eq (session : Session) (toolName : String) (policy : Policy) :
    isAllowed session toolName policy = toolMatches toolName (policy.patterns session.rbacRole) := by
  rw [isAllowed, Policy.patterns]
  cases policy.lookup session.rbacRole <;> rfl

/-- **Comparing roles**: a session may use every tool that another one may exactly if each pattern that is in
effect for the latter, by its tenant's override of its role or by default, is covered by one that is in effect
for the former. -/
theorem role_atMost_iff (registry : TenantRegistry) (session session' : Session) :
    (∀ toolName, isAllowed session toolName (effectivePolicy registry session) = true →
      isAllowed session' toolName (effectivePolicy registry session') = true) ↔
    AtMost ((effectivePolicy registry session).patterns session.rbacRole)
      ((effectivePolicy registry session').patterns session'.rbacRole) := by
  simp only [isAllowed_eq]
  exact toolMatches_subset_iff

example : AtMost (defaultRoleToolAllowlist.patterns "readonly") (defaultRoleToolAllowlist.patterns "analyst") ∧
    AtMost (defaultRoleToolAllowlist.patterns "analyst") (defaultRoleToolAllowlist.patterns "admin") := by
  decide

end WazuhMcp
