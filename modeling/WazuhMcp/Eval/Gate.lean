import WazuhMcp.Eval.Counting
import WazuhMcp.Foundations.RollCall

/-!
# The gate of an evaluation

`thresholds_met` decides whether a run passes. It should not do so unless every entry of every tier that has
a threshold was answered and counted once (`TierSound`). The counters are those of the results, whatever they
name: a tier without results has the accuracy 1, and a result that comes twice counts twice. So it holds for
the runs whose results account for the corpus (`gateSound_iff`), and not for all (`not_gateSound`).
-/

namespace WazuhMcp

namespace Eval

open Fallible

variable {files : EvalFiles} {turns : List Turn} {report : ThresholdMet}

/-! ## The counters and the answers -/

namespace EvalFiles

variable (files : EvalFiles) (t : Tier)

/-- The ids that the answers to a tier name. -/
def named : List YamlKey := (files.answersTo t).map Prod.fst

/-- How many answers to a tier are right. -/
def right : ℕ := (files.answersTo t).countP Prod.snd

/-- How many answers a tier has. -/
def answered : ℕ := (files.answersTo t).length

/-- The threshold that applies to a key, if there is one. -/
def gate (key : String) : Option Yaml := files.effective.toOption.bind fun effective => gateOf effective key

/-- The share of right answers does not reach the threshold of a key. -/
def Misses (key : String) (right answered : ℕ) : Prop :=
  ∃ gate v, files.gate key = some gate ∧ gate.number = some v ∧ atLeast (share right answered) v = false

/-- The answers miss the threshold of a tier, or the one for all tiers together. -/
def MissesAny : Prop :=
  files.Misses "overall" (Tally.sumBy files.right Tier.all) (Tally.sumBy files.answered Tier.all) ∨
    ∃ t, files.Misses t.name (files.right t) (files.answered t)

end EvalFiles

/-- The stats of a tier at the end of the turns. -/
def tierStats (turns : List Turn) (t : Tier) : TierStats :=
  stats ((scoringOf turns).byTierPassed.count t) ((scoringOf turns).byTierFailed.count t)

theorem get_byTier (turns : List Turn) (t : Tier) :
    (scoringOf turns).byTier.get t = some (tierStats turns t) := by
  cases t <;> rfl

namespace Scored

variable (hscored : Scored files turns report)
include hscored

theorem count_passed_eq (t : Tier) : (scoringOf turns).byTierPassed.count t = files.right t := by
  rw [count_passed]
  exact (countP_answers (fun _ _ _ _ => rfl) hscored.reads).symm

theorem count_failed_eq (t : Tier) :
    (scoringOf turns).byTierFailed.count t = (files.answersTo t).countP fun a => !a.2 := by
  rw [count_failed]
  exact (countP_answers (fun _ _ _ _ => rfl) hscored.reads).symm

/-- Every answer to a tier is counted once. -/
theorem count_answered_eq (t : Tier) :
    (scoringOf turns).byTierPassed.count t + (scoringOf turns).byTierFailed.count t = files.answered t := by
  rw [hscored.count_passed_eq, hscored.count_failed_eq, EvalFiles.answered,
    List.length_eq_countP_add_countP Prod.snd]
  refine congrArg (files.right t + ·) (List.countP_congr ?_)
  intro a _
  simp

theorem known_iff : (∀ u ∈ turns, u.isKnown = true) ↔ ∀ t, ∀ a ∈ files.answersTo t, a.1 ∈ files.ids t := by
  have hcount (t : Tier) : (files.answersTo t).countP (fun a => a.1 ∉ files.ids t) =
      turns.countP fun u => u.tier == t && !u.isKnown := by
    apply countP_answers _ hscored.reads
    intro u k _ hknown
    cases hu : u.isKnown with
    | true => simpa [hu] using hknown
    | false => simpa [hu] using hknown
  constructor
  · intro hall t a ha
    have hnone : (files.answersTo t).countP (fun a => a.1 ∉ files.ids t) = 0 := by
      rw [hcount, List.countP_eq_zero]
      intro u hu
      simp [hall u hu]
    simpa using List.countP_eq_zero.mp hnone a ha
  · intro hall u hu
    have hnone : turns.countP (fun u' => u'.tier == u.tier && !u'.isKnown) = 0 := by
      rw [← hcount, List.countP_eq_zero]
      intro a ha
      simpa using hall u.tier a ha
    simpa using List.countP_eq_zero.mp hnone u hu

/-- The share of right answers to a tier. -/
theorem accuracy_tier (t : Tier) :
    (tierStats turns t).accuracy = share (files.right t) (files.answered t) := by
  rw [← hscored.count_passed_eq, ← hscored.count_answered_eq]
  rfl

theorem accuracy_overall : report.overall.accuracy =
    share (Tally.sumBy files.right Tier.all) (Tally.sumBy files.answered Tier.all) := by
  obtain ⟨hpassed, hfailed⟩ := splits_iff.mp (byTier_splits turns)
  have hright : Tally.sumBy files.right Tier.all = (scoringOf turns).byTierPassed.total := by
    rw [← hpassed]
    exact Tally.sumBy_congr fun t _ => (hscored.count_passed_eq t).symm
  have hanswered : Tally.sumBy files.answered Tier.all =
      (scoringOf turns).byTierPassed.total + (scoringOf turns).byTierFailed.total := by
    rw [← hpassed, ← hfailed, ← Tally.sumBy_add]
    exact Tally.sumBy_congr fun t _ => (hscored.count_answered_eq t).symm
  rw [hscored.overall, hright, hanswered]
  rfl

end Scored

/-! ## The thresholds -/

theorem meets_eq_false {effective : Dict YamlKey Yaml} {key : String} {s : TierStats} {right answered : ℕ}
    (heffective : files.effective = .ok effective) (haccuracy : s.accuracy = share right answered) :
    meets effective key s = .ok false ↔ files.Misses key right answered := by
  have hgate : files.gate key = gateOf effective key := by
    rw [EvalFiles.gate, heffective]
    rfl
  unfold meets EvalFiles.Misses
  rw [hgate, haccuracy]
  cases gateOf effective key with
  | none => simp
  | some gate =>
    cases hnumber : gate.number with
    | none => simp [hnumber]
    | some v => simp [hnumber]

theorem thresholdsMet_eq_false {effective : Dict YamlKey Yaml} {overall : TierStats}
    {byTier : Dict Tier TierStats} {b : Bool} (h : thresholdsMet effective overall byTier = .ok b) :
    b = false ↔ meets effective "overall" overall = .ok false ∨
      ∃ kv ∈ byTier, meets effective kv.1.name kv.2 = .ok false := by
  obtain ⟨met, hmet, h⟩ := bind_eq_ok.mp h
  cases met with
  | false =>
    obtain rfl := Except.ok.inj h
    exact iff_of_true rfl (.inl hmet)
  | true =>
    rw [hmet]
    constructor
    · rintro rfl
      exact .inr (exists_of_allM_eq_ok_false h)
    · rintro (⟨⟨⟩⟩ | ⟨kv, hkv, hno⟩)
      cases b with
      | false => rfl
      | true =>
        rw [allM_eq_ok_true.mp h kv hkv] at hno
        cases hno

/-- The thresholds are met if the answers miss none. -/
theorem Scored.met_iff (hscored : Scored files turns report) :
    report.thresholdsMet = true ↔ ¬ files.MissesAny := by
  obtain ⟨effective, heffective, hmet⟩ := hscored.met
  rw [← Bool.not_eq_false, not_iff_not, thresholdsMet_eq_false hmet,
    meets_eq_false heffective hscored.accuracy_overall]
  refine or_congr_right ?_
  rw [hscored.byTier]
  constructor
  · rintro ⟨kv, hkv, hno⟩
    obtain ⟨t, -, rfl⟩ := List.mem_map.mp hkv
    exact ⟨t, (meets_eq_false heffective (hscored.accuracy_tier t)).mp hno⟩
  · rintro ⟨t, hmiss⟩
    exact ⟨_, List.mem_map.mpr ⟨t, t.mem_all, rfl⟩,
      (meets_eq_false heffective (hscored.accuracy_tier t)).mpr hmiss⟩

/-! ## Soundness -/

/-- Every entry of the tier is answered exactly once, and counted once: the passed ones are the entries that
have a right answer, the total is the number of entries and of answers that name none, and the accuracy is
the share of the one in the other. -/
structure TierSound (files : EvalFiles) (report : ThresholdMet) (t : Tier) : Prop where
  answered : RollCall.OnceEach (files.ids t) (files.named t)
  counted : ∃ s, report.byTier.get t = some s ∧
    s.passed = (files.ids t).countP (fun k => (k, true) ∈ files.answersTo t) ∧
    s.total = (files.ids t).length + (files.answersTo t).countP (fun a => a.1 ∉ files.ids t) ∧
    s.accuracy = share s.passed s.total

/-- The report passes only if every tier that has a threshold is sound, and its breakdowns sum to the
whole. -/
structure GateSound (files : EvalFiles) (report : ThresholdMet) : Prop where
  tiers : report.thresholdsMet = true → ∀ t, files.gate t.name ≠ none → TierSound files report t
  byCategory : Splits report.byCategory report.overall
  byTier : Splits report.byTier report.overall

/-- No two entries of the tier have one id, no two answers name one id, and there are as many answers as
entries. -/
structure EvalFiles.Complete (files : EvalFiles) (t : Tier) : Prop where
  ids : (files.ids t).Nodup
  named : (files.named t).Nodup
  length : (files.named t).length = (files.ids t).length

/-- The results account for the corpus: each names an entry of its tier, and they miss a threshold or are
complete for every tier that has one. -/
structure EvalFiles.Accountable (files : EvalFiles) : Prop where
  known : ∀ t, ∀ a ∈ files.answersTo t, a.1 ∈ files.ids t
  complete : files.MissesAny ∨ ∀ t, files.gate t.name ≠ none → files.Complete t

theorem Scored.tierSound_iff (hscored : Scored files turns report) {t : Tier}
    (hknown : ∀ a ∈ files.answersTo t, a.1 ∈ files.ids t) : TierSound files report t ↔ files.Complete t := by
  have hall : ∀ k ∈ files.named t, k ∈ files.ids t := by
    rintro k hk
    obtain ⟨a, ha, rfl⟩ := List.mem_map.mp hk
    exact hknown a ha
  constructor
  · intro hsound
    obtain ⟨hids, hnamed, hlength⟩ := (RollCall.onceEach_iff hall).mp hsound.answered
    exact ⟨hids, hnamed, hlength⟩
  · intro hcomplete
    have honce : RollCall.OnceEach (files.ids t) (files.named t) :=
      (RollCall.onceEach_iff hall).mpr ⟨hcomplete.ids, hcomplete.named, hcomplete.length⟩
    refine ⟨honce, tierStats turns t, ?_, ?_, ?_, rfl⟩
    · rw [hscored.byTier]
      exact get_byTier turns t
    · rw [RollCall.countP_right (RollCall.perm_of_onceEach hall honce) hcomplete.ids]
      exact hscored.count_passed_eq t
    · have hnone : (files.answersTo t).countP (fun a => a.1 ∉ files.ids t) = 0 := by
        rw [List.countP_eq_zero]
        intro a ha
        simpa using hknown a ha
      have hlength : files.answered t = (files.ids t).length := by
        rw [← hcomplete.length, EvalFiles.named, List.length_map]
        rfl
      rw [hnone, Nat.add_zero, ← hlength]
      exact hscored.count_answered_eq t

/-- **The gate is sound** just for the runs whose results account for the corpus. -/
theorem gateSound_iff (files : EvalFiles) (report : ThresholdMet) (h : scoreRun files = .ok report) :
    GateSound files report ↔ files.Accountable := by
  obtain ⟨turns, hscored⟩ := scored_of_scoreRun h
  have hbyTier : Splits report.byTier report.overall := by
    rw [hscored.byTier, hscored.overall]
    exact byTier_splits turns
  have hbyCategory : Splits report.byCategory report.overall ↔
      ∀ t, ∀ a ∈ files.answersTo t, a.1 ∈ files.ids t := by
    rw [hscored.byCategory, hscored.overall, byCategory_splits_iff]
    exact hscored.known_iff
  constructor
  · intro hsound
    have hknown := hbyCategory.mp hsound.byCategory
    refine ⟨hknown, ?_⟩
    by_cases hmiss : files.MissesAny
    · exact .inl hmiss
    · right
      intro t hgate
      exact (hscored.tierSound_iff (hknown t)).mp (hsound.tiers (hscored.met_iff.mpr hmiss) t hgate)
  · intro haccount
    refine ⟨?_, hbyCategory.mpr haccount.known, hbyTier⟩
    intro hmet t hgate
    have hcomplete := haccount.complete.resolve_left (hscored.met_iff.mp hmet)
    exact (hscored.tierSound_iff (haccount.known t)).mpr (hcomplete t hgate)

/-! ## Two runs -/

/-- An entry of the corpus. -/
def exampleEntry : Yaml :=
  .obj [(.str "id", .str "t1"), (.str "prompt", .str "p1"),
    (.str "expected_tool", .str "alerts.search_alerts"), (.str "category", .str "triage")]

/-- A corpus of one entry. -/
def exampleCorpus : Tier → Yaml
  | .selectionOnly => .arr [exampleEntry]
  | _ => .arr []

/-- Thresholds of 85 percent for this tier and in all. -/
def exampleThresholds : Yaml :=
  .obj [(.str "default", .obj [(.str "selection_only", .float ⟨.fin (17 / 20), "0.85"⟩),
    (.str "overall", .float ⟨.fin (17 / 20), "0.85"⟩)])]

/-- A run of some results against the entry. -/
def exampleRun (results : List Json) : EvalFiles where
  raw := .obj [("model", .str "x"), ("run_date", .str "2026-04-28"), ("results", .arr results)]
  corpus := exampleCorpus
  thresholds := exampleThresholds

/-- The right answer to the entry. -/
def exampleAnswer : Json :=
  .obj [("tier", .str "selection_only"), ("id", .str "t1"), ("picked_tool", .str "alerts.search_alerts")]

theorem exists_report (files : EvalFiles)
    (h : (scoreRun files).toOption.map ThresholdMet.thresholdsMet = some true) :
    ∃ report, scoreRun files = .ok report ∧ report.thresholdsMet = true := by
  obtain ⟨report, hreport, hmet⟩ := Option.map_eq_some_iff.mp h
  cases hrun : scoreRun files with
  | error e =>
    rw [hrun] at hreport
    cases hreport
  | ok report' =>
    rw [hrun] at hreport
    obtain rfl := Option.some.inj hreport
    exact ⟨report', rfl, hmet⟩

/-- With the right answer the run passes, and the gate is sound. -/
theorem gateSound_oneAnswer : ∃ report, scoreRun (exampleRun [exampleAnswer]) = .ok report ∧
    report.thresholdsMet = true ∧ GateSound (exampleRun [exampleAnswer]) report := by
  obtain ⟨report, hrun, hmet⟩ := exists_report (exampleRun [exampleAnswer]) (by decide +kernel)
  refine ⟨report, hrun, hmet, (gateSound_iff _ report hrun).mpr ⟨?_, .inr ?_⟩⟩
  · intro t
    cases t <;> decide +kernel
  · intro t _
    cases t <;> exact ⟨by decide +kernel, by decide +kernel, by decide +kernel⟩

/-- Without an answer it passes too. -/
theorem not_gateSound : ¬ ∀ files report, scoreRun files = .ok report → GateSound files report := by
  intro hall
  obtain ⟨report, hrun, hmet⟩ := exists_report (exampleRun []) (by decide +kernel)
  have hgate : (exampleRun []).gate "selection_only" ≠ none := by
    apply Option.isSome_iff_ne_none.mp
    decide +kernel
  have hsound := (hall _ report hrun).tiers hmet .selectionOnly hgate
  have hnamed : (exampleRun []).named .selectionOnly = [] := by decide +kernel
  have hentry : 0 < ((exampleRun []).ids .selectionOnly).length := by decide +kernel
  have honce := hsound.answered 0 hentry
  rw [hnamed] at honce
  cases honce

end Eval

end WazuhMcp
