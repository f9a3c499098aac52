import WazuhMcp.Eval.Score
import WazuhMcp.Foundations.Fallible

/-!
# What the counters count

The answers to a tier are the results that name it, each with the id that it names and with whether its pick
is right (`EvalFiles.answersTo`). They are read off the files alone. At the end of a run the counters of the
tier are the numbers of its right answers and of the others (`Scored.passed`, `Scored.total`), and what the
categories lack are the answers that name no entry (`Scored.known_iff`).
-/

namespace WazuhMcp

namespace Eval

open Fallible

/-! ## The answers -/

namespace EvalFiles

variable (files : EvalFiles)

/-- The entries of the file of a tier, with their ids. -/
def entries (t : Tier) : List (YamlKey × YamlObject) := (loadTier (files.corpus t)).toOption.getD []

/-- The ids of the entries of a tier, in the order of its file. -/
def ids (t : Tier) : List YamlKey := (files.entries t).map Prod.fst

/-- The recorded results. -/
def results : List Json := (resultsOf files.raw).toOption.getD []

end EvalFiles

/-- The tier and the id that a result names. -/
def address (picked : Json) : Option (Tier × YamlKey) := do
  let tier ← (picked.item "tier").toOption
  let entryId ← (picked.item "id").toOption
  return (← Tier.ofKey (← tier.hashed), .plain (← entryId.hashed))

/-- Whether the pick is right for the entry of the id; of entries with one id, the last one counts. -/
def isRight (entries : List (YamlKey × YamlObject)) (t : Tier) (k : YamlKey) (picked : Json) : Bool :=
  (entries.reverse.lookup k).any fun expected => holds (check t picked expected)

/-- The result as an answer to the tier, if it is one. -/
def answer (entries : List (YamlKey × YamlObject)) (t : Tier) (picked : Json) : Option (YamlKey × Bool) :=
  match address picked with
  | some (t', k) => if t' = t then some (k, isRight entries t k picked) else none
  | none => none

/-- The answers to a tier: the id that each names, and whether it is right. -/
def EvalFiles.answersTo (files : EvalFiles) (t : Tier) : List (YamlKey × Bool) :=
  files.results.filterMap (answer (files.entries t) t)

/-! ## What a turn says of its result -/

namespace Turn

def tier : Turn → Tier
  | .unknown t _ => t
  | .right t _ => t
  | .wrong t _ _ => t

def isRight : Turn → Bool
  | .right _ _ => true
  | _ => false

def isKnown : Turn → Bool
  | .unknown _ _ => false
  | _ => true

end Turn

section Turn

variable {corpus : Corpus} {picked : Json} {u : Turn}

theorem lookupKey_eq_ok {x : Json} {k : DictKey} : lookupKey x = .ok k ↔ x.hashed = some k := by
  unfold lookupKey
  cases x.hashed with
  | none => simp
  | some k' => simp

/-- What is known of a turn that is made for a result: the result names its tier and an id, and its pick is
checked against the entry of the id, if there is one. -/
theorem turn_eq_ok (h : turn corpus picked = .ok u) : ∃ k, address picked = some (u.tier, k) ∧
    u.isKnown = ((corpus u.tier).get k).isSome ∧
    u.isRight = ((corpus u.tier).get k).any fun expected => holds (check u.tier picked expected) := by
  obtain ⟨tierField, htier, h⟩ := bind_eq_ok.mp h
  obtain ⟨entryId, hid, h⟩ := bind_eq_ok.mp h
  obtain ⟨key, hkey, h⟩ := bind_eq_ok.mp h
  obtain ⟨t, ht, h⟩ := bind_eq_ok.mp h
  obtain ⟨k, hk, h⟩ := bind_eq_ok.mp h
  have haddress : address picked = some (t, .plain k) := by
    rw [lookupKey_eq_ok] at hkey hk
    cases hof : Tier.ofKey key with
    | none => simp [hof] at ht
    | some t' =>
      rw [hof] at ht
      obtain rfl := Except.ok.inj ht
      simp [address, htier, hid, hkey, hk, hof, Except.toOption]
  refine ⟨.plain k, ?_⟩
  cases hget : (corpus t).get (.plain k) with
  | none =>
    rw [hget] at h
    obtain ⟨sequence, -, h⟩ := bind_eq_ok.mp h
    obtain ⟨shown, -, h⟩ := bind_eq_ok.mp h
    obtain rfl := Except.ok.inj h
    rw [Turn.tier, hget]
    exact ⟨haddress, rfl, rfl⟩
  | some expected =>
    rw [hget] at h
    obtain ⟨ok, hok, h⟩ := bind_eq_ok.mp h
    obtain ⟨repr, -, h⟩ := bind_eq_ok.mp h
    obtain ⟨category, -, h⟩ := bind_eq_ok.mp h
    cases ok with
    | true =>
      obtain rfl := Except.ok.inj h
      rw [Turn.tier, hget, Option.any_some, hok]
      exact ⟨haddress, rfl, rfl⟩
    | false =>
      obtain rfl := Except.ok.inj h
      rw [Turn.tier, hget, Option.any_some, hok]
      exact ⟨haddress, rfl, rfl⟩

end Turn

/-! ## The counters at the end of a run -/

namespace Turn

def passedTier : Turn → Option Tier
  | .right t _ => some t
  | _ => none

def failedTier : Turn → Option Tier
  | .unknown t _ => some t
  | .wrong t _ _ => some t
  | _ => none

def passedCategory : Turn → Option YamlKey
  | .right _ c => some c
  | _ => none

def failedCategory : Turn → Option YamlKey
  | .wrong _ c _ => some c
  | _ => none

end Turn

/-- A counter that a turn adds its key to, if it has one, is the tally of these keys. -/
theorem foldl_record {κ : Type} [DecidableEq κ] (read : Scoring → Tally κ) (key : Turn → Option κ)
    (hstep : ∀ s u, read (s.record u) = (key u).elim (read s) (read s).add) (s : Scoring)
    (turns : List Turn) :
    read (turns.foldl Scoring.record s) = (turns.filterMap key).foldl Tally.add (read s) := by
  induction turns generalizing s with
  | nil => rfl
  | cons u turns ih =>
    rw [List.foldl_cons, ih, hstep]
    cases hkey : key u with
    | none => rw [List.filterMap_cons_none hkey, Option.elim_none]
    | some k => rw [List.filterMap_cons_some hkey, Option.elim_some, List.foldl_cons]

/-- The counters after some turns. -/
def scoringOf (turns : List Turn) : Scoring := turns.foldl Scoring.record {}

section Counters

variable (turns : List Turn)

theorem byTierPassed_eq : (scoringOf turns).byTierPassed =
    (turns.filterMap Turn.passedTier).foldl Tally.add ({} : Scoring).byTierPassed :=
  foldl_record Scoring.byTierPassed Turn.passedTier (fun s u => by cases u <;> rfl) {} turns

theorem byTierFailed_eq : (scoringOf turns).byTierFailed =
    (turns.filterMap Turn.failedTier).foldl Tally.add ({} : Scoring).byTierFailed :=
  foldl_record Scoring.byTierFailed Turn.failedTier (fun s u => by cases u <;> rfl) {} turns

theorem byCatPassed_eq : (scoringOf turns).byCatPassed =
    (turns.filterMap Turn.passedCategory).foldl Tally.add [] :=
  foldl_record Scoring.byCatPassed Turn.passedCategory (fun s u => by cases u <;> rfl) {} turns

theorem byCatFailed_eq : (scoringOf turns).byCatFailed =
    (turns.filterMap Turn.failedCategory).foldl Tally.add [] :=
  foldl_record Scoring.byCatFailed Turn.failedCategory (fun s u => by cases u <;> rfl) {} turns

/-- What a tally of keys of the turns has counted of one key: the turns with this key. -/
theorem count_keys {κ : Type} [DecidableEq κ] {key : Turn → Option κ} {k : κ} {p : Turn → Bool}
    (hp : ∀ u, (key u == some k) = p u) {d : Tally κ} (hd : d.count k = 0) :
    ((turns.filterMap key).foldl Tally.add d).count k = turns.countP p := by
  rw [Tally.count_foldl_add, hd, Nat.zero_add, List.count, List.countP_filterMap]
  apply List.countP_congr
  intro u _
  rw [← hp u]
  cases key u <;> simp

/-- What it has counted in all: the turns with a key. -/
theorem total_keys {κ : Type} [DecidableEq κ] {key : Turn → Option κ} {p : Turn → Bool}
    (hp : ∀ u, (key u).isSome = p u) {d : Tally κ} (hd : d.total = 0) :
    ((turns.filterMap key).foldl Tally.add d).total = turns.countP p := by
  rw [Tally.total_foldl_add, hd, Nat.zero_add, List.length_filterMap_eq_countP]
  apply List.countP_congr
  intro u _
  rw [hp u]

theorem count_noTurns (t : Tier) : Tally.count (Tier.all.map fun t => (t, 0)) t = 0 := by
  cases t <;> rfl

theorem count_passed (t : Tier) : (scoringOf turns).byTierPassed.count t =
    turns.countP fun u => u.tier == t && u.isRight := by
  rw [byTierPassed_eq]
  apply count_keys turns _ (count_noTurns t)
  intro u
  cases u <;> simp [Turn.passedTier, Turn.tier, Turn.isRight]

theorem count_failed (t : Tier) : (scoringOf turns).byTierFailed.count t =
    turns.countP fun u => u.tier == t && !u.isRight := by
  rw [byTierFailed_eq]
  apply count_keys turns _ (count_noTurns t)
  intro u
  cases u <;> simp [Turn.failedTier, Turn.tier, Turn.isRight]

theorem total_passed : (scoringOf turns).byTierPassed.total = turns.countP Turn.isRight := by
  rw [byTierPassed_eq]
  exact total_keys turns (fun u => by cases u <;> rfl) rfl

theorem total_failed : (scoringOf turns).byTierFailed.total = turns.countP fun u => !u.isRight := by
  rw [byTierFailed_eq]
  exact total_keys turns (fun u => by cases u <;> rfl) rfl

end Counters

/-! ## The sums of the breakdowns -/

/-- The passed, failed and total counts of a breakdown sum to those of the whole. -/
structure Splits {κ : Type} (breakdown : Dict κ TierStats) (overall : TierStats) : Prop where
  passed : Tally.sumBy (fun kv => kv.2.passed) breakdown = overall.passed
  failed : Tally.sumBy (fun kv => kv.2.failed) breakdown = overall.failed
  total : Tally.sumBy (fun kv => kv.2.total) breakdown = overall.total

/-- A breakdown of two tallies splits the whole if their counts sum to it. -/
theorem splits_iff {κ : Type} [DecidableEq κ] {ks : List κ} {passed failed : Tally κ} {p f : ℕ} :
    Splits (ks.map fun k => (k, stats (passed.count k) (failed.count k))) (stats p f) ↔
      Tally.sumBy passed.count ks = p ∧ Tally.sumBy failed.count ks = f := by
  have hpassed := Tally.sumBy_map (fun kv : κ × TierStats => kv.2.passed)
    (fun k => (k, stats (passed.count k) (failed.count k))) ks
  have hfailed := Tally.sumBy_map (fun kv : κ × TierStats => kv.2.failed)
    (fun k => (k, stats (passed.count k) (failed.count k))) ks
  have htotal := (Tally.sumBy_map (fun kv : κ × TierStats => kv.2.total)
    (fun k => (k, stats (passed.count k) (failed.count k))) ks).trans
    (Tally.sumBy_add passed.count failed.count ks)
  constructor
  · intro h
    exact ⟨hpassed.symm.trans h.passed, hfailed.symm.trans h.failed⟩
  · rintro ⟨rfl, rfl⟩
    exact ⟨hpassed, hfailed, htotal⟩

theorem byTier_splits (turns : List Turn) : Splits (scoringOf turns).byTier (scoringOf turns).overall := by
  refine splits_iff.mpr ⟨?_, ?_⟩
  · rw [byTierPassed_eq]
    exact Tally.sumBy_count_foldl_add count_noTurns rfl Tier.all_nodup fun t _ => t.mem_all
  · rw [byTierFailed_eq]
    exact Tally.sumBy_count_foldl_add count_noTurns rfl Tier.all_nodup fun t _ => t.mem_all

section Categories

variable (turns : List Turn)

theorem mem_categories {c : YamlKey} : c ∈ (scoringOf turns).categories ↔
    c ∈ turns.filterMap Turn.passedCategory ∨ c ∈ turns.filterMap Turn.failedCategory := by
  have hpassed : c ∈ Dict.keys (scoringOf turns).byCatPassed ↔ c ∈ turns.filterMap Turn.passedCategory := by
    rw [byCatPassed_eq, Tally.mem_keys_foldl_add]
    exact or_iff_right List.not_mem_nil
  have hfailed : c ∈ Dict.keys (scoringOf turns).byCatFailed ↔ c ∈ turns.filterMap Turn.failedCategory := by
    rw [byCatFailed_eq, Tally.mem_keys_foldl_add]
    exact or_iff_right List.not_mem_nil
  rw [Scoring.categories, List.mem_append, List.mem_filter, ← hpassed, ← hfailed]
  by_cases h : c ∈ Dict.keys (scoringOf turns).byCatPassed <;> simp [h]

theorem categories_nodup : (scoringOf turns).categories.Nodup := by
  have hpassed : (Dict.keys (scoringOf turns).byCatPassed).Nodup := by
    rw [byCatPassed_eq]
    exact Tally.keys_foldl_add_nodup (d := []) List.nodup_nil _
  have hfailed : (Dict.keys (scoringOf turns).byCatFailed).Nodup := by
    rw [byCatFailed_eq]
    exact Tally.keys_foldl_add_nodup (d := []) List.nodup_nil _
  refine List.nodup_append.mpr ⟨hpassed, hfailed.filter _, ?_⟩
  rintro c hc c' hc' rfl
  exact of_decide_eq_true (List.mem_filter.mp hc').2 hc

theorem sumBy_byCatPassed : Tally.sumBy (scoringOf turns).byCatPassed.count (scoringOf turns).categories =
    turns.countP Turn.isRight := by
  have hall : ∀ c ∈ turns.filterMap Turn.passedCategory, c ∈ (scoringOf turns).categories :=
    fun c hc => (mem_categories turns).mpr (.inl hc)
  rw [byCatPassed_eq, Tally.sumBy_count_foldl_add (fun _ => rfl) rfl (categories_nodup turns) hall]
  exact total_keys turns (fun u => by cases u <;> rfl) rfl

theorem sumBy_byCatFailed : Tally.sumBy (scoringOf turns).byCatFailed.count (scoringOf turns).categories =
    turns.countP fun u => u.isKnown && !u.isRight := by
  have hall : ∀ c ∈ turns.filterMap Turn.failedCategory, c ∈ (scoringOf turns).categories :=
    fun c hc => (mem_categories turns).mpr (.inr hc)
  rw [byCatFailed_eq, Tally.sumBy_count_foldl_add (fun _ => rfl) rfl (categories_nodup turns) hall]
  exact total_keys turns (fun u => by cases u <;> rfl) rfl

/-- **What the categories lack are the answers that name no entry.** -/
theorem byCategory_splits_iff :
    Splits (scoringOf turns).byCategory (scoringOf turns).overall ↔ ∀ u ∈ turns, u.isKnown = true := by
  have hmissing : (turns.countP fun u => !u.isRight) =
      (turns.countP fun u => u.isKnown && !u.isRight) + turns.countP fun u => !u.isKnown := by
    induction turns with
    | nil => rfl
    | cons u turns ih =>
      simp only [List.countP_cons, ih]
      cases u <;> simp [Turn.isKnown, Turn.isRight] <;> omega
  unfold Scoring.byCategory Scoring.overall
  rw [splits_iff, sumBy_byCatPassed, sumBy_byCatFailed, total_passed, total_failed, hmissing]
  constructor
  · rintro ⟨-, hfailed⟩ u hu
    have hnone : turns.countP (fun u => !u.isKnown) = 0 := by omega
    simpa using List.countP_eq_zero.mp hnone u hu
  · intro hknown
    have hnone : turns.countP (fun u => !u.isKnown) = 0 :=
      List.countP_eq_zero.mpr fun u hu => by simp [hknown u hu]
    exact ⟨rfl, by omega⟩

end Categories

/-! ## A run and its files -/

/-- The turn says what the result is an answer to: it names an id of the tier of the turn, of an entry of
this tier if the turn has one, and is an answer to no other tier. -/
def Reads (files : EvalFiles) (picked : Json) (u : Turn) : Prop :=
  ∃ k, (u.isKnown = true ↔ k ∈ files.ids u.tier) ∧
    ∀ t, answer (files.entries t) t picked = if u.tier = t then some (k, u.isRight) else none

section Run

variable {files : EvalFiles} {corpus : Corpus}

theorem loadTier_eq_ok {t : Tier} {entries : List (YamlKey × YamlObject)}
    (h : loadTier (files.corpus t) = .ok entries) : entries = files.entries t := by
  rw [EvalFiles.entries, h]
  rfl

theorem loadCorpus_eq_ok (h : loadCorpus files.corpus = .ok corpus) (t : Tier) :
    corpus t = byId (files.entries t) := by
  obtain ⟨selectionOnly, hselection, h⟩ := bind_eq_ok.mp h
  obtain ⟨withArgs, hwith, h⟩ := bind_eq_ok.mp h
  obtain ⟨multiStep, hmulti, h⟩ := bind_eq_ok.mp h
  obtain rfl := Except.ok.inj h
  cases t with
  | selectionOnly => exact congrArg byId (loadTier_eq_ok hselection)
  | withArgs => exact congrArg byId (loadTier_eq_ok hwith)
  | multiStep => exact congrArg byId (loadTier_eq_ok hmulti)

theorem get_byId (entries : List (YamlKey × YamlObject)) (k : YamlKey) :
    (byId entries).get k = entries.reverse.lookup k := by
  rw [byId, Dict.get_foldl_set, Dict.get_nil, Option.or_none]

theorem isSome_get_byId {t : Tier} {k : YamlKey} :
    ((byId (files.entries t)).get k).isSome = true ↔ k ∈ files.ids t := by
  rw [get_byId, Dict.lookup_isSome, Dict.has, decide_eq_true_iff, Dict.keys, List.map_reverse,
    List.mem_reverse]
  rfl

theorem reads_of_turn (hload : loadCorpus files.corpus = .ok corpus) {picked : Json} {u : Turn}
    (h : turn corpus picked = .ok u) : Reads files picked u := by
  obtain ⟨k, haddress, hknown, hright⟩ := turn_eq_ok h
  rw [loadCorpus_eq_ok hload] at hknown hright
  refine ⟨k, ?_, ?_⟩
  · rw [hknown]
    exact isSome_get_byId
  · intro t
    rw [answer, haddress]
    by_cases ht : u.tier = t
    · subst ht
      rw [if_pos rfl]
      show (if u.tier = u.tier then _ else _) = _
      rw [if_pos rfl, hright, get_byId, isRight]
    · rw [if_neg ht]
      exact if_neg ht

end Run

/-- Answers to a tier are counted by their turns. -/
theorem countP_answers {files : EvalFiles} {t : Tier} {q : YamlKey × Bool → Bool} {q' : Turn → Bool}
    (hq : ∀ u k, u.tier = t → (u.isKnown = true ↔ k ∈ files.ids t) → q (k, u.isRight) = q' u)
    {results : List Json} {turns : List Turn} (h : List.Forall₂ (Reads files) results turns) :
    (results.filterMap (answer (files.entries t) t)).countP q =
      turns.countP fun u => u.tier == t && q' u := by
  induction h with
  | nil => rfl
  | @cons picked u results turns hread _ ih =>
    obtain ⟨k, hknown, hanswer⟩ := hread
    by_cases ht : u.tier = t
    · subst ht
      rw [List.filterMap_cons_some ((hanswer _).trans (if_pos rfl)), List.countP_cons, List.countP_cons, ih,
        hq u k rfl hknown]
      simp
    · rw [List.filterMap_cons_none ((hanswer t).trans (if_neg ht)), List.countP_cons_of_neg, ih]
      simp [ht]

/-- The thresholds that apply to a run. -/
def EvalFiles.effective (files : EvalFiles) : Except Exn (Dict YamlKey Yaml) := do
  let model ← files.raw.getD "model" (.str "unknown")
  resolveThresholds (if files.thresholds.truthy then files.thresholds else .obj []) model

/-- What a run has come to, of which the turns are given. -/
structure Scored (files : EvalFiles) (turns : List Turn) (report : ThresholdMet) : Prop where
  reads : List.Forall₂ (Reads files) files.results turns
  overall : report.overall = (scoringOf turns).overall
  byTier : report.byTier = (scoringOf turns).byTier
  byCategory : report.byCategory = (scoringOf turns).byCategory
  met : ∃ effective, files.effective = .ok effective ∧
    thresholdsMet effective report.overall report.byTier = .ok report.thresholdsMet

theorem scored_of_scoreRun {files : EvalFiles} {report : ThresholdMet} (h : scoreRun files = .ok report) :
    ∃ turns, Scored files turns report := by
  obtain ⟨corpus, hload, h⟩ := bind_eq_ok.mp h
  obtain ⟨model, hmodel, h⟩ := bind_eq_ok.mp h
  obtain ⟨runDate, -, h⟩ := bind_eq_ok.mp h
  obtain ⟨results, hresults, h⟩ := bind_eq_ok.mp h
  obtain ⟨scoring, hloop, h⟩ := bind_eq_ok.mp h
  obtain ⟨effective, heffective, h⟩ := bind_eq_ok.mp h
  obtain ⟨met, hmet, h⟩ := bind_eq_ok.mp h
  obtain rfl := Except.ok.inj h
  obtain ⟨turns, hturns, rfl⟩ := foldlM_eq_ok.mp hloop
  have hlist : files.results = results := by
    rw [EvalFiles.results, hresults]
    rfl
  refine ⟨turns, ?_, rfl, rfl, rfl, effective, bind_eq_ok.mpr ⟨model, hmodel, heffective⟩, hmet⟩
  rw [hlist]
  exact (forall₂_of_mapM hturns).imp fun _ _ => reads_of_turn hload

end Eval

end WazuhMcp
