import WazuhMcp.Server.Resources
import WazuhMcp.Tools.Write
import WazuhMcp.Wazuh.GroupFanout

/-!
# Identifiers at the upstream boundaries

The identifiers of agents, techniques, rules and vulnerabilities have documented grammars, and a tool, a
resource or a prompt checks one before it puts it into a path, a parameter or a query. There are four ways
to check: by a pattern of an argument model, which takes the grammar as it is; by `re.match` of a pattern
that ends in `$`, which also takes a newline after the identifier; by its length alone; and not at all.
`accepts_iff` says of each boundary which of them it is.
-/

namespace WazuhMcp

open Fallible

/-! ## Grammars -/

/-- The kinds of identifiers. -/
inductive Identifier where
  | agent
  | technique
  | rule
  | cve
  deriving DecidableEq, Repr

/-- ASCII digits only. -/
def AllDigits (cs : List Char) : Prop := ∀ c ∈ cs, c.isDigit = true

/-- **The documented grammar** of a kind of identifier. -/
def Identifier.Grammar : Identifier → List Char → Prop
  | agent, cs => AllDigits cs ∧ 3 ≤ cs.length ∧ cs.length ≤ 10
  | technique, cs => ∃ base, AllDigits base ∧ base.length = 4 ∧
      (cs = 'T' :: base ∨ ∃ sub, AllDigits sub ∧ sub.length = 3 ∧ cs = 'T' :: (base ++ '.' :: sub))
  | rule, cs => AllDigits cs ∧ 1 ≤ cs.length ∧ cs.length ≤ 12
  | cve, cs => ∃ year serial, AllDigits year ∧ AllDigits serial ∧ year.length = 4 ∧ 4 ≤ serial.length ∧
      cs = 'C' :: 'V' :: 'E' :: '-' :: (year ++ '-' :: serial)

/-- The characters that part identifiers from each other and from what is around them. -/
def separators : List Char := [',', ';', '/', '?', '\n']

theorem allDigits_iff {cs : List Char} : cs.all Char.isDigit = true ↔ AllDigits cs :=
  List.all_eq_true

/-- An identifier is made of digits and the characters of its pattern. -/
theorem Identifier.mem_of_grammar {k : Identifier} {cs : List Char} (h : k.Grammar cs) {c : Char}
    (hc : c ∈ cs) : c.isDigit = true ∨ c ∈ ['T', '.', 'C', 'V', 'E', '-'] := by
  cases k with
  | agent => exact .inl (h.1 c hc)
  | rule => exact .inl (h.1 c hc)
  | technique =>
    obtain ⟨base, hbase, -, rfl | ⟨sub, hsub, -, rfl⟩⟩ := h
    · rcases List.mem_cons.mp hc with rfl | hc
      · exact .inr (by decide)
      · exact .inl (hbase c hc)
    · simp only [List.mem_cons, List.mem_append] at hc
      rcases hc with rfl | hc | rfl | hc
      · exact .inr (by decide)
      · exact .inl (hbase c hc)
      · exact .inr (by decide)
      · exact .inl (hsub c hc)
  | cve =>
    obtain ⟨year, serial, hyear, hserial, -, -, rfl⟩ := h
    simp only [List.mem_cons, List.mem_append] at hc
    rcases hc with rfl | rfl | rfl | rfl | hc | rfl | hc
    · exact .inr (by decide)
    · exact .inr (by decide)
    · exact .inr (by decide)
    · exact .inr (by decide)
    · exact .inl (hyear c hc)
    · exact .inr (by decide)
    · exact .inl (hserial c hc)

/-- An identifier has no separator in it. -/
theorem Identifier.not_separator_of_grammar {k : Identifier} {cs : List Char} (h : k.Grammar cs) {c : Char}
    (hc : c ∈ separators) : c ∉ cs := by
  intro hmem
  have hchar := Identifier.mem_of_grammar h hmem
  simp only [separators, List.mem_cons, List.not_mem_nil, or_false] at hc
  rcases hc with rfl | rfl | rfl | rfl | rfl <;> exact absurd hchar (by decide)

/-! ## Patterns -/

/-- What `re.match` takes for a pattern between `^` and `$`. -/
theorem reMatch_iff {p : List Char → Bool} {P : List Char → Prop} (h : ∀ cs, p cs = true ↔ P cs)
    {s : String} : Text.reMatch p s = true ↔ P s.toList ∨ ∃ cs, s.toList = cs ++ ['\n'] ∧ P cs := by
  rw [Text.reMatch, Bool.or_eq_true, h, Bool.and_eq_true, h, beq_iff_eq]
  refine or_congr_right ?_
  constructor
  · rintro ⟨hlast, hinit⟩
    exact ⟨s.toList.dropLast, (List.dropLast_append_getLast? _ hlast).symm, hinit⟩
  · rintro ⟨cs, hcs, hinit⟩
    rw [hcs]
    simpa using hinit

theorem digits_iff {lo hi : ℕ} {cs : List Char} :
    (cs.all Char.isDigit && lo ≤ cs.length && cs.length ≤ hi) = true ↔
      AllDigits cs ∧ lo ≤ cs.length ∧ cs.length ≤ hi := by
  rw [Bool.and_eq_true, Bool.and_eq_true, allDigits_iff, decide_eq_true_iff, decide_eq_true_iff,
    and_assoc]

/-- What follows four digits. -/
theorem four_digits_iff {cs rest : List Char} :
    (((cs.take 4).length = 4 && (cs.take 4).all Char.isDigit) = true ∧ cs.drop 4 = rest) ↔
      ∃ ds, AllDigits ds ∧ ds.length = 4 ∧ cs = ds ++ rest := by
  rw [Bool.and_eq_true, decide_eq_true_iff, allDigits_iff]
  constructor
  · rintro ⟨⟨hlength, hdigits⟩, rfl⟩
    exact ⟨cs.take 4, hdigits, hlength, (List.take_append_drop 4 cs).symm⟩
  · rintro ⟨ds, hdigits, hlength, rfl⟩
    rw [List.take_left' hlength, List.drop_left' hlength]
    exact ⟨⟨hlength, hdigits⟩, rfl⟩

theorem mitreIdMatches_iff {s : String} :
    mitreIdMatches s = true ↔ Identifier.technique.Grammar s.toList ∨
      ∃ cs, s.toList = cs ++ ['\n'] ∧ Identifier.technique.Grammar cs := by
  apply reMatch_iff
  intro cs
  constructor
  · intro h
    split at h
    · rename_i cs
      rw [Bool.and_eq_true] at h
      obtain ⟨hfour, hrest⟩ := h
      obtain ⟨base, hbase, hlength, hcs⟩ := four_digits_iff.mp ⟨hfour, rfl⟩
      refine ⟨base, hbase, hlength, ?_⟩
      split at hrest
      · rename_i hdrop
        rw [hdrop, List.append_nil] at hcs
        exact .inl (congrArg _ hcs)
      · rename_i ds hdrop
        rw [hdrop] at hcs
        rw [Bool.and_eq_true, decide_eq_true_iff, allDigits_iff] at hrest
        exact .inr ⟨ds, hrest.2, hrest.1, congrArg _ hcs⟩
      · cases hrest
    · cases h
  · rintro ⟨base, hbase, hlength, rfl | ⟨sub, hsub, hsubLength, rfl⟩⟩
    · obtain ⟨hfour, hdrop⟩ := four_digits_iff.mpr ⟨base, hbase, hlength, (List.append_nil base).symm⟩
      refine Bool.and_eq_true_iff.mpr ⟨hfour, ?_⟩
      rw [hdrop]
    · obtain ⟨hfour, hdrop⟩ := four_digits_iff.mpr ⟨base, hbase, hlength, Eq.refl (base ++ '.' :: sub)⟩
      refine Bool.and_eq_true_iff.mpr ⟨hfour, ?_⟩
      rw [hdrop]
      exact Bool.and_eq_true_iff.mpr ⟨decide_eq_true hsubLength, allDigits_iff.mpr hsub⟩

theorem cveIdMatches_iff {s : String} :
    cveIdMatches s = true ↔ Identifier.cve.Grammar s.toList ∨
      ∃ cs, s.toList = cs ++ ['\n'] ∧ Identifier.cve.Grammar cs := by
  apply reMatch_iff
  intro cs
  constructor
  · intro h
    split at h
    · rename_i cs
      rw [Bool.and_eq_true] at h
      obtain ⟨hfour, hrest⟩ := h
      obtain ⟨year, hyear, hlength, hcs⟩ := four_digits_iff.mp ⟨hfour, rfl⟩
      split at hrest
      · rename_i ds hdrop
        rw [hdrop] at hcs
        rw [Bool.and_eq_true, decide_eq_true_iff, allDigits_iff] at hrest
        exact ⟨year, ds, hyear, hrest.2, hlength, hrest.1, hcs ▸ rfl⟩
      · cases hrest
    · cases h
  · rintro ⟨year, serial, hyear, hserial, hlength, hserialLength, rfl⟩
    obtain ⟨hfour, hdrop⟩ := four_digits_iff.mpr ⟨year, hyear, hlength, Eq.refl (year ++ '-' :: serial)⟩
    refine Bool.and_eq_true_iff.mpr ⟨hfour, ?_⟩
    rw [hdrop]
    exact Bool.and_eq_true_iff.mpr ⟨decide_eq_true hserialLength, allDigits_iff.mpr hserial⟩

theorem agentIdMatches_iff {s : String} :
    agentIdMatches s = true ↔ Identifier.agent.Grammar s.toList ∨
      ∃ cs, s.toList = cs ++ ['\n'] ∧ Identifier.agent.Grammar cs :=
  reMatch_iff fun _ => digits_iff

theorem readRule_valid_iff {s : String} :
    readRule.valid s = true ↔ Identifier.rule.Grammar s.toList ∨
      ∃ cs, s.toList = cs ++ ['\n'] ∧ Identifier.rule.Grammar cs :=
  reMatch_iff (P := Identifier.rule.Grammar) fun _ => digits_iff

theorem isAgentId_iff {s : String} : isAgentId s = true ↔ Identifier.agent.Grammar s.toList := digits_iff

/-! ## Boundaries -/

/-- How an identifier is checked. -/
inductive Check where
  /-- a pattern of an argument model -/
  | pattern
  /-- `re.match` of a pattern that ends in `$` -/
  | dollar
  | length (lo hi : ℕ)
  | unchecked
  deriving DecidableEq, Repr

/-- What passes a check of the identifiers of a kind. -/
def Check.Passes (k : Identifier) (s : String) : Check → Prop
  | pattern => k.Grammar s.toList
  | dollar => k.Grammar s.toList ∨ ∃ cs, s.toList = cs ++ ['\n'] ∧ k.Grammar cs
  | length lo hi => lo ≤ s.length ∧ s.length ≤ hi
  | unchecked => True

/-- The texts on which a check does what the grammar says. -/
def Check.Agrees (k : Identifier) (s : String) : Check → Prop
  | pattern => True
  | dollar => ¬ ∃ cs, s.toList = cs ++ ['\n'] ∧ k.Grammar cs
  | length lo hi => k.Grammar s.toList ∨ ¬ (lo ≤ s.length ∧ s.length ≤ hi)
  | unchecked => k.Grammar s.toList

/-- Where a tool, a resource or a prompt puts an identifier into a path or a parameter of the Server API,
or a query builder validates one. -/
inductive Boundary where
  | alertsByAgent
  | alertsByMitre
  | listVulnerabilitiesByAgent
  | searchVulnerabilities
  | fimChangesByAgent
  | getAgent
  | agentProcesses
  | agentPackages
  | agentPorts
  | getMitreTechnique
  | isolateAgent
  | restartAgent
  | addAgentToGroup
  | removeAgentFromGroup
  | runActiveResponse
  | runActiveResponseOnGroup
  | readRule
  | readMitreTechnique
  | readAgentConfig
  | investigateAlert
  | agentPosture
  deriving DecidableEq, Repr

namespace Boundary

/-- The kind of the identifier. -/
def identifier : Boundary → Identifier
  | alertsByMitre | getMitreTechnique | readMitreTechnique => .technique
  | searchVulnerabilities => .cve
  | readRule => .rule
  | _ => .agent

/-- How it is checked. -/
def check : Boundary → Check
  | alertsByAgent | alertsByMitre | listVulnerabilitiesByAgent | searchVulnerabilities
  | fimChangesByAgent | getMitreTechnique | readRule | readMitreTechnique | readAgentConfig => .dollar
  | agentProcesses | agentPackages | agentPorts | restartAgent | addAgentToGroup
  | removeAgentFromGroup => .pattern
  | getAgent | investigateAlert | agentPosture => .length 1 16
  | isolateAgent | runActiveResponse | runActiveResponseOnGroup => .unchecked

/-- **The identifiers that the code takes**: those of arguments that the model accepts, and the builder,
the handler or the resource after it. -/
def Accepts : Boundary → String → Prop
  | alertsByAgent, s => ∃ args : AlertsByAgentArgs, args.agentId.1 = s ∧
      Succeeds (buildAlertsByAgentQuery args.agentId args.timeRange args.size args.cursor)
  | alertsByMitre, s => ∃ args : AlertsByMitreArgs, args.techniqueId.1 = s ∧
      Succeeds (buildAlertsByMitreQuery args.techniqueId args.timeRange args.size args.cursor)
  | listVulnerabilitiesByAgent, s => ∃ args : ListVulnerabilitiesByAgentArgs, args.agentId.1 = s ∧
      Succeeds (buildVulnerabilitiesByAgentQuery args.agentId args.minSeverity args.size args.cursor)
  | searchVulnerabilities, s => ∃ args : SearchVulnerabilitiesArgs, args.cveId = some s ∧
      Succeeds (buildSearchVulnerabilitiesQuery args.cveId args.minSeverity args.size args.cursor)
  | fimChangesByAgent, s => ∃ args : FimChangesArgs, args.agentId.1 = s ∧
      Succeeds (buildFimChangesByAgentQuery args.agentId args.timeRange args.size args.cursor)
  | getAgent, s => ∃ args : GetAgentArgs, args.agentId.1 = s
  | agentProcesses, s | agentPackages, s | agentPorts, s => ∃ args : AgentSubquery, args.agentId.1 = s
  | getMitreTechnique, s => ∃ args : GetMitreTechniqueArgs, args.techniqueId.1 = s ∧
      Succeeds (require (mitreIdMatches args.techniqueId))
  | isolateAgent, s => ∃ args : IsolateAgentArgs, s ∈ args.agentIds
  | restartAgent, s => ∃ args : RestartAgentArgs, args.agentId = s
  | addAgentToGroup, s | removeAgentFromGroup, s => ∃ args : AgentGroupArgs, args.agentId = s
  | runActiveResponse, s => ∃ args : RunActiveResponseArgs, s ∈ args.agentIds
  | runActiveResponseOnGroup, s =>
    -- the agents are those that the Server API lists
    ∃ resp agentIds, ServerApiClient.groupAgentIds resp = .ok agentIds ∧ s ∈ agentIds
  | readRule, s => Succeeds (require (WazuhMcp.readRule.valid s))
  | readMitreTechnique, s => Succeeds (require (WazuhMcp.readMitreTechnique.valid s))
  | readAgentConfig, s => Succeeds (require (WazuhMcp.readAgentConfig.valid s))
  | investigateAlert, s | agentPosture, s => Succeeds (sizedField 1 16 s)

theorem succeeds_require {c : Bool} : Succeeds (require c) ↔ c = true := by
  cases c <;> simp [require, Succeeds]

theorem succeeds_require_bind {α : Type} {c : Bool} {f : Unit → Except Exn α} :
    Succeeds (require c >>= f) ↔ c = true ∧ Succeeds (f ()) := by
  rw [succeeds_bind]
  cases c with
  | true => exact ⟨fun ⟨_, _, h⟩ => ⟨rfl, h⟩, fun h => ⟨(), rfl, h.2⟩⟩
  | false => simp [require]

/-- The lookback that a tool is called with if it is given none. -/
theorem validateTimeRange_default : validateTimeRange "24h" = .ok () := by decide +kernel

/-- What a pattern ending in `$` takes is no longer than an identifier and a newline. -/
theorem length_of_dollar {k : Identifier} {s : String} {lo hi : ℕ}
    (hk : ∀ cs, k.Grammar cs → lo ≤ cs.length ∧ cs.length < hi) (h : Check.Passes k s .dollar) :
    lo ≤ s.length ∧ s.length ≤ hi := by
  rw [← String.length_toList]
  rcases h with h | ⟨cs, hcs, h⟩
  · have := hk _ h
    omega
  · have := hk _ h
    rw [hcs, List.length_append, List.length_singleton]
    omega

theorem length_agent {cs : List Char} (h : Identifier.agent.Grammar cs) : 1 ≤ cs.length ∧ cs.length < 16 := by
  obtain ⟨-, hlo, hhi⟩ := h
  omega

theorem length_technique {cs : List Char} (h : Identifier.technique.Grammar cs) :
    4 ≤ cs.length ∧ cs.length < 16 := by
  obtain ⟨base, -, hlength, rfl | ⟨sub, -, hsub, rfl⟩⟩ := h
  · rw [List.length_cons]
    omega
  · rw [List.length_cons, List.length_append, List.length_cons]
    omega

/-- A list of agents that nothing checks may hold any text. -/
theorem accepts_isolateAgent (s : String) : isolateAgent.Accepts s :=
  ⟨⟨[s], le_rfl, (by decide : 1 ≤ arAgentsMax)⟩, List.mem_singleton_self s⟩

theorem accepts_runActiveResponse (s : String) : runActiveResponse.Accepts s :=
  ⟨⟨[s], "isolate", none, le_rfl, (by decide : 1 ≤ arAgentsMax), by decide, by decide⟩,
    List.mem_singleton_self s⟩

theorem accepts_runActiveResponseOnGroup (s : String) : runActiveResponseOnGroup.Accepts s :=
  ⟨.obj [("data", .obj [("affected_items", .arr (ServerApiClient.agentItems [s]))])], [s],
    ServerApiClient.groupAgentIds_of_items rfl rfl, List.mem_singleton_self s⟩

theorem succeeds_sizedField {lo hi : ℕ} {s : String} :
    Succeeds (sizedField lo hi s) ↔ lo ≤ s.length ∧ s.length ≤ hi := by
  unfold sizedField
  split
  · rename_i h
    exact iff_of_true (succeeds_ok _) h
  · rename_i h
    exact iff_of_false (not_succeeds_error _) h

/-- A field of bounded length, on whose text a pattern ending in `$` decides. -/
theorem accepts_dollar_iff {Args α : Type} {k : Identifier} {lo hi : ℕ} {valid : String → Bool}
    (field : Args → Sized lo hi) (make : Sized lo hi → Args) (run : Args → Except Exn α) {s : String}
    (hvalid : valid s = true ↔ Check.Passes k s .dollar)
    (hk : ∀ cs, k.Grammar cs → lo ≤ cs.length ∧ cs.length < hi) (hmake : ∀ text, field (make text) = text)
    (hrun : ∀ args, Succeeds (run args) → valid (field args).1 = true)
    (hpassed : ∀ text, valid text.1 = true → Succeeds (run (make text))) :
    (∃ args, (field args).1 = s ∧ Succeeds (run args)) ↔ Check.Passes k s .dollar := by
  constructor
  · rintro ⟨args, rfl, h⟩
    exact hvalid.mp (hrun args h)
  · intro h
    let text : Sized lo hi := ⟨s, length_of_dollar hk h⟩
    exact ⟨make text, congrArg Subtype.val (hmake text), hpassed text (hvalid.mpr h)⟩

/-- A builder that checks an identifier, and a lookback that is the default one. -/
theorem succeeds_lookback {α : Type} {c : Bool} {f : Unit → Unit → Except Exn α} (hc : c = true)
    (h : Succeeds (f () ())) :
    Succeeds (require c >>= fun u => validateTimeRange "24h" >>= fun v => f u v) :=
  succeeds_require_bind.mpr ⟨hc, succeeds_bind.mpr ⟨(), validateTimeRange_default, h⟩⟩

/-- **How the identifiers of each boundary are checked.** -/
theorem accepts_iff (b : Boundary) (s : String) : b.Accepts s ↔ b.check.Passes b.identifier s := by
  cases b with
  | alertsByAgent =>
    refine accepts_dollar_iff AlertsByAgentArgs.agentId (fun text => ⟨text, "24h", ⟨25, by decide⟩, none⟩)
      (fun args => buildAlertsByAgentQuery args.agentId args.timeRange args.size args.cursor)
      agentIdMatches_iff (fun _ => length_agent) (fun _ => rfl) (fun _ h => ?_) fun _ h => ?_
    · exact (succeeds_require_bind.mp h).1
    · exact succeeds_lookback h ⟨_, rfl⟩
  | alertsByMitre =>
    refine accepts_dollar_iff AlertsByMitreArgs.techniqueId (fun text => ⟨text, "24h", ⟨25, by decide⟩, none⟩)
      (fun args => buildAlertsByMitreQuery args.techniqueId args.timeRange args.size args.cursor)
      mitreIdMatches_iff (fun _ => length_technique) (fun _ => rfl) (fun _ h => ?_) fun _ h => ?_
    · exact (succeeds_require_bind.mp h).1
    · exact succeeds_lookback h ⟨_, rfl⟩
  | listVulnerabilitiesByAgent =>
    refine accepts_dollar_iff ListVulnerabilitiesByAgentArgs.agentId
      (fun text => ⟨text, none, ⟨25, by decide⟩, none⟩)
      (fun args => buildVulnerabilitiesByAgentQuery args.agentId args.minSeverity args.size args.cursor)
      agentIdMatches_iff (fun _ => length_agent) (fun _ => rfl) (fun _ h => ?_) fun _ h => ?_
    · exact (succeeds_require_bind.mp h).1
    · exact succeeds_require_bind.mpr ⟨h, _, rfl⟩
  | searchVulnerabilities =>
    constructor
    · rintro ⟨args, hcve, h⟩
      rw [hcve] at h
      exact cveIdMatches_iff.mp (succeeds_require_bind.mp (succeeds_require_bind.mp h).2).1
    · intro h
      refine ⟨⟨some s, none, ⟨25, by decide⟩, none⟩, rfl, ?_⟩
      exact succeeds_require_bind.mpr
        ⟨rfl, succeeds_require_bind.mpr ⟨cveIdMatches_iff.mpr h, _, rfl⟩⟩
  | fimChangesByAgent =>
    refine accepts_dollar_iff FimChangesArgs.agentId (fun text => ⟨text, "24h", ⟨25, by decide⟩, none⟩)
      (fun args => buildFimChangesByAgentQuery args.agentId args.timeRange args.size args.cursor)
      agentIdMatches_iff (fun _ => length_agent) (fun _ => rfl) (fun _ h => ?_) fun _ h => ?_
    · exact (succeeds_require_bind.mp h).1
    · exact succeeds_lookback h ⟨_, rfl⟩
  | getAgent =>
    constructor
    · rintro ⟨args, rfl⟩
      exact args.agentId.2
    · intro h
      exact ⟨⟨⟨s, h⟩⟩, rfl⟩
  | agentProcesses | agentPackages | agentPorts =>
    constructor
    · rintro ⟨args, rfl⟩
      exact isAgentId_iff.mp args.agentId.2
    · intro h
      exact ⟨⟨⟨s, isAgentId_iff.mpr h⟩, ⟨100, by decide⟩, ⟨0, by decide⟩⟩, rfl⟩
  | getMitreTechnique =>
    exact accepts_dollar_iff GetMitreTechniqueArgs.techniqueId GetMitreTechniqueArgs.mk
      (fun args => require (mitreIdMatches args.techniqueId)) mitreIdMatches_iff (fun _ => length_technique)
      (fun _ => rfl) (fun _ h => succeeds_require.mp h) fun _ h => succeeds_require.mpr h
  | isolateAgent => exact iff_of_true (accepts_isolateAgent s) trivial
  | restartAgent =>
    constructor
    · rintro ⟨args, rfl⟩
      exact isAgentId_iff.mp args.isAgentId
    · intro h
      exact ⟨⟨s, isAgentId_iff.mpr h⟩, rfl⟩
  | addAgentToGroup | removeAgentFromGroup =>
    constructor
    · rintro ⟨args, rfl⟩
      exact isAgentId_iff.mp args.isAgentId
    · intro h
      exact ⟨⟨s, "default", isAgentId_iff.mpr h, by decide, by decide⟩, rfl⟩
  | runActiveResponse => exact iff_of_true (accepts_runActiveResponse s) trivial
  | runActiveResponseOnGroup => exact iff_of_true (accepts_runActiveResponseOnGroup s) trivial
  | readRule => exact succeeds_require.trans readRule_valid_iff
  | readMitreTechnique => exact succeeds_require.trans mitreIdMatches_iff
  | readAgentConfig => exact succeeds_require.trans agentIdMatches_iff
  | investigateAlert | agentPosture => exact succeeds_sizedField

/-- No identifier ends in a newline. -/
theorem not_grammar_newline {k : Identifier} {s : String}
    (h : ∃ cs, s.toList = cs ++ ['\n'] ∧ k.Grammar cs) : ¬ k.Grammar s.toList := by
  obtain ⟨cs, hcs, -⟩ := h
  intro hgrammar
  have hnewline : '\n' ∉ s.toList := Identifier.not_separator_of_grammar hgrammar (by decide)
  apply hnewline
  rw [hcs]
  exact List.mem_append_right _ (List.mem_singleton_self _)

/-- The identifiers whose length alone is checked are those of agents. -/
theorem length_of_check {b : Boundary} {lo hi : ℕ} (hcheck : b.check = .length lo hi) {s : String}
    (h : b.identifier.Grammar s.toList) : lo ≤ s.length ∧ s.length ≤ hi := by
  have hagent : b.identifier = .agent ∧ lo = 1 ∧ hi = 16 := by
    cases b <;> cases hcheck <;> exact ⟨rfl, rfl, rfl⟩
  obtain ⟨hkind, rfl, rfl⟩ := hagent
  rw [hkind] at h
  have hlength := length_agent h
  rw [String.length_toList] at hlength
  omega

/-- A check takes exactly the identifiers of the grammar on the texts where it agrees with it. -/
theorem passes_iff_grammar (b : Boundary) (s : String) :
    (b.check.Passes b.identifier s ↔ b.identifier.Grammar s.toList) ↔ b.check.Agrees b.identifier s := by
  cases hcheck : b.check with
  | pattern => exact iff_of_true Iff.rfl trivial
  | dollar =>
    rw [Check.Passes, Check.Agrees, or_iff_left_iff_imp]
    constructor
    · intro h hnewline
      exact not_grammar_newline hnewline (h hnewline)
    · intro h hnewline
      exact absurd hnewline h
  | length lo hi =>
    have hlength := @length_of_check b lo hi hcheck s
    rw [Check.Passes, Check.Agrees]
    constructor
    · intro h
      by_cases hpasses : lo ≤ s.length ∧ s.length ≤ hi
      · exact .inl (h.mp hpasses)
      · exact .inr hpasses
    · rintro (hgrammar | hfails)
      · exact iff_of_true (hlength hgrammar) hgrammar
      · exact iff_of_false hfails fun hgrammar => hfails (hlength hgrammar)
  | unchecked =>
    rw [Check.Passes, Check.Agrees, true_iff]

end Boundary

/-- **Where the identifiers are those of the grammar.** For every text and every boundary: the code takes
the text exactly if it is in the documented grammar, and no text that it takes has a separator in it, so
that a list of it alone names it alone, just when the check of the boundary agrees with the grammar on the
text. A pattern of an argument model always does; `re.match` with a `$` does unless the text is an
identifier and a newline; a check of the length does where the text is an identifier or too short or too
long; and where nothing is checked the text has to be an identifier. -/
theorem identifier_grammar_iff (b : Boundary) (s : String) :
    ((b.Accepts s ↔ b.identifier.Grammar s.toList) ∧
      (b.Accepts s → (∀ c ∈ separators, c ∉ s.toList) ∧ Text.split ',' s = [s])) ↔
    b.check.Agrees b.identifier s := by
  rw [← b.passes_iff_grammar s, ← b.accepts_iff s, and_iff_left_iff_imp]
  intro h haccepts
  have hclean : ∀ c ∈ separators, c ∉ s.toList := fun c hc =>
    Identifier.not_separator_of_grammar (h.mp haccepts) hc
  refine ⟨hclean, ?_⟩
  have hsplit : Text.split ',' (Text.join ',' [s]) = [s] :=
    Text.split_join (fun p hp => List.mem_singleton.mp hp ▸ hclean ',' (by decide)) (List.cons_ne_nil _ _)
  rwa [Text.join_singleton] at hsplit

/-- An agent list of two agents passes for the id of one. -/
theorem not_identifier_grammar :
    ¬ ∀ (b : Boundary) (s : String), (b.Accepts s ↔ b.identifier.Grammar s.toList) ∧
      (b.Accepts s → (∀ c ∈ separators, c ∉ s.toList) ∧ Text.split ',' s = [s]) := by
  intro h
  have haccepts : Boundary.getAgent.Accepts "001,002" := ⟨⟨⟨"001,002", by decide⟩⟩, rfl⟩
  exact absurd (((h .getAgent "001,002").2 haccepts).1 ',' (by decide)) (by decide)

end WazuhMcp
