import WazuhMcp.Base.Yaml
import WazuhMcp.Foundations.Binary64
import WazuhMcp.Foundations.Tally

/-!
# Scoring an evaluation

`score_run` compares the recorded picks of a model with the corpus and says whether the accuracies meet the
thresholds. Its loop runs through the results: what a result comes to is a `Turn`, which does not depend on
the results before it, and the counters are folded over the turns (`Scoring.record`).

The three files are taken as `json.loads` and `yaml.safe_load` read them.
-/

namespace WazuhMcp

namespace Eval

/-- The tiers of the corpus. -/
inductive Tier where
  | selectionOnly
  | withArgs
  | multiStep
  deriving DecidableEq

/-- The name of a tier, in the results and in the thresholds. -/
def Tier.name : Tier → String
  | .selectionOnly => "selection_only"
  | .withArgs => "with_args"
  | .multiStep => "multi_step"

/-- `("selection_only", "with_args", "multi_step")` -/
def Tier.all : List Tier := [.selectionOnly, .withArgs, .multiStep]

theorem Tier.mem_all (t : Tier) : t ∈ Tier.all := by
  cases t <;> simp [Tier.all]

theorem Tier.all_nodup : Tier.all.Nodup := by decide

/-- The tier of a key of the corpus. -/
def Tier.ofKey (k : DictKey) : Option Tier := Tier.all.find? fun t => k = .str t.name

/-- The files of an evaluation: the raw results, the corpus and the thresholds. -/
structure EvalFiles where
  raw : Json
  corpus : Tier → Yaml
  thresholds : Yaml

/-! ## The corpus -/

/-- An entry with its id. -/
def keyed (e : Yaml) : Except Exn (YamlKey × YamlObject) :=
  match e with
  | .obj fields => do
    let id ← Yaml.fieldItem fields "id"
    return (← id.key, fields)
  | _ => .error Exn.typeError

/-- The entries of the file of a tier, with their ids. -/
def loadTier (file : Yaml) : Except Exn (List (YamlKey × YamlObject)) := do
  let entries ← if file.truthy then file.iter else pure []
  entries.mapM keyed

/-- The entries of each tier, by their ids. -/
abbrev Corpus := Tier → Dict YamlKey YamlObject

/-- `{e["id"]: e for e in entries}` -/
def byId (entries : List (YamlKey × YamlObject)) : Dict YamlKey YamlObject :=
  entries.foldl (fun d e => d.set e.1 e.2) []

/-- `_load_corpus(corpus_dir)` -/
def loadCorpus (corpus : Tier → Yaml) : Except Exn Corpus := do
  let selectionOnly ← loadTier (corpus .selectionOnly)
  let withArgs ← loadTier (corpus .withArgs)
  let multiStep ← loadTier (corpus .multiStep)
  return fun
    | .selectionOnly => byId selectionOnly
    | .withArgs => byId withArgs
    | .multiStep => byId multiStep

/-! ## The checks -/

/-- `_check_selection(picked, expected)` -/
def checkSelection (picked : Json) (expected : YamlObject) : Except Exn Bool := do
  return (← picked.getD "picked_tool" .null).eqYaml (← Yaml.fieldItem expected "expected_tool")

/-- `x.get(k)` for the key of a mapping; an object has only strings for keys. -/
def getKey (x : Json) (k : Yaml) : Except Exn Json :=
  match k with
  | .str s => x.getD s .null
  | _ => x.getD "" .null >>= fun _ => .ok .null

/-- `all(picked_args.get(k) == v for k, v in expected_args.items())` -/
def hasArgs (pickedArgs : Json) (expectedArgs : YamlObject) : Except Exn Bool :=
  expectedArgs.allM fun kv => do return (← getKey pickedArgs kv.1).eqYaml kv.2

/-- `_check_with_args(picked, expected)` -/
def checkWithArgs (picked : Json) (expected : YamlObject) : Except Exn Bool := do
  let tool ← picked.getD "picked_tool" .null
  if !tool.eqYaml (← Yaml.fieldItem expected "expected_tool") then return false
  let args := Yaml.field expected "expected_args" .null
  let expectedArgs := if args.truthy then args else .obj []
  let pickedArgs := (← picked.getD "picked_args" .null).or (.obj [])
  hasArgs pickedArgs (← expectedArgs.items)

/-- A turn of the loop of `_check_multi_step`. -/
def checkStep (ps : Json) (es : Yaml) : Except Exn Bool := do
  let tool ← ps.getD "tool" .null
  if !tool.eqYaml (← es.item "tool") then return false
  match es.item? "args" with
  | none => return true
  | some args =>
    let psArgs := (← ps.getD "args" .null).or (.obj [])
    hasArgs psArgs (← args.items)

/-- `_check_multi_step(picked, expected)` -/
def checkMultiStep (picked : Json) (expected : YamlObject) : Except Exn Bool := do
  let expectedSeq ← Yaml.fieldItem expected "expected_sequence"
  let pickedSeq := (← picked.getD "picked_sequence" .null).or (.arr [])
  let pickedSteps ← pickedSeq.iter
  let expectedSteps ← expectedSeq.iter
  if pickedSteps.length ≠ expectedSteps.length then return false
  (pickedSteps.zip expectedSteps).allM fun step => checkStep step.1 step.2

/-- Whether the pick is right, by the check of the tier. -/
def check : Tier → Json → YamlObject → Except Exn Bool
  | .selectionOnly => checkSelection
  | .withArgs => checkWithArgs
  | .multiStep => checkMultiStep

/-- `expected_repr` and `picked_repr` -/
def reprs (tier : Tier) (picked : Json) (expected : YamlObject) : Except Exn (Yaml × Json) :=
  match tier with
  | .selectionOnly => do
    let tool ← Yaml.fieldItem expected "expected_tool"
    return (tool, ← picked.getD "picked_tool" .null)
  | .withArgs => do
    let tool ← Yaml.fieldItem expected "expected_tool"
    let args := Yaml.field expected "expected_args" (.obj [])
    return (.obj [(.str "tool", tool), (.str "args", args)],
      .obj [("tool", ← picked.getD "picked_tool" .null), ("args", ← picked.getD "picked_args" (.obj []))])
  | .multiStep => do
    let sequence ← Yaml.fieldItem expected "expected_sequence"
    return (sequence, ← picked.getD "picked_sequence" .null)

/-! ## A turn of the loop -/

/-- An entry of `failures`; that of an unknown id has no category. -/
structure Failure where
  id : Json
  tier : Json
  category : Option Yaml := none
  expected : Yaml
  picked : Json

/-- What a result comes to: its id is not in the corpus, or its pick is right or wrong. -/
inductive Turn where
  | unknown (tier : Tier) (failure : Failure)
  | right (tier : Tier) (category : YamlKey)
  | wrong (tier : Tier) (category : YamlKey) (failure : Failure)

/-- A value as the key of a lookup. -/
def lookupKey (x : Json) : Except Exn DictKey := x.hashed.elim (.error Exn.typeError) .ok

/-- A turn of the loop of `score_run`. -/
def turn (corpus : Corpus) (picked : Json) : Except Exn Turn := do
  let tierField ← picked.item "tier"
  let entryId ← picked.item "id"
  let tier ← (Tier.ofKey (← lookupKey tierField)).elim (.error Exn.keyError) .ok
  match (corpus tier).get (.plain (← lookupKey entryId)) with
  | none =>
    -- picked an id not in the corpus: it counts as a failure, under no category
    let sequence ← picked.getD "picked_sequence" .null
    return .unknown tier {
      id := entryId
      tier := tierField
      expected := .str "<not in corpus>"
      picked := ← picked.getD "picked_tool" sequence }
  | some expected =>
    let category := Yaml.field expected "category" (.str "uncategorized")
    let ok ← check tier picked expected
    let repr ← reprs tier picked expected
    let key ← category.key
    if ok then return .right tier key
    return .wrong tier key {
      id := entryId
      tier := tierField
      category := category
      expected := repr.1
      picked := repr.2 }

/-! ## The counters -/

/-- The counters of `score_run`. -/
structure Scoring where
  byTierPassed : Tally Tier := Tier.all.map fun t => (t, 0)
  byTierFailed : Tally Tier := Tier.all.map fun t => (t, 0)
  byCatPassed : Tally YamlKey := []
  byCatFailed : Tally YamlKey := []
  failures : List Failure := []

/-- What a turn does to the counters. -/
def Scoring.record (s : Scoring) : Turn → Scoring
  | .unknown tier failure =>
    { s with byTierFailed := s.byTierFailed.add tier, failures := s.failures ++ [failure] }
  | .right tier category =>
    { s with byTierPassed := s.byTierPassed.add tier, byCatPassed := s.byCatPassed.add category }
  | .wrong tier category failure =>
    { s with
      byTierFailed := s.byTierFailed.add tier
      byCatFailed := s.byCatFailed.add category
      failures := s.failures ++ [failure] }

/-- `set(by_cat_passed) | set(by_cat_failed)`, in some order. -/
def Scoring.categories (s : Scoring) : List YamlKey :=
  s.byCatPassed.keys ++ s.byCatFailed.keys.filter (· ∉ s.byCatPassed.keys)

/-! ## The report -/

/-- `TierStats` -/
structure TierStats where
  accuracy : ℚ
  passed : ℕ
  failed : ℕ
  total : ℕ
  total_eq : total = passed + failed

/-- The share of `passed` in `total`, as a float; of nothing, all has passed. -/
def share (passed total : ℕ) : ℚ := if total = 0 then 1 else Binary64.nearest (passed / total)

/-- `_stats(passed, failed)` -/
def stats (passed failed : ℕ) : TierStats where
  accuracy := share passed (passed + failed)
  passed := passed
  failed := failed
  total := passed + failed
  total_eq := rfl

/-- `ThresholdMet`, the report of a run. -/
structure ThresholdMet where
  model : Json
  runDate : Json
  overall : TierStats
  byTier : Dict Tier TierStats
  byCategory : Dict YamlKey TierStats
  failures : List Failure
  thresholdsMet : Bool

/-! ## The thresholds -/

/-- `thresholds.get("per_model") or {}`, at a model. -/
def perModel (thresholds : Yaml) (model : Json) : Except Exn Yaml := do
  let overrides ← thresholds.getD "per_model" .null
  match if overrides.truthy then overrides else .obj [] with
  | .obj d => return (Yaml.find d (.plain (← lookupKey model))).getD .null
  | _ => throw Exn.attributeError

/-- `_resolve_thresholds(thresholds, model)` -/
def resolveThresholds (thresholds : Yaml) (model : Json) : Except Exn (Dict YamlKey Yaml) := do
  let default ← thresholds.getD "default" (.obj [])
  let base := Yaml.update [] (← default.pairs)
  let overrides ← perModel thresholds model
  if overrides.truthy then return Yaml.update base (← overrides.pairs)
  return base

/-- The threshold for a key, unless it is missing or `None`. -/
def gateOf (effective : Dict YamlKey Yaml) (key : String) : Option Yaml :=
  match effective.get (.plain (.str key)) with
  | some .null => none
  | gate => gate

/-- `q >= v` -/
def atLeast (q : ℚ) : FloatVal → Bool
  | .fin p => p ≤ q
  | .inf => false
  | .negInf => true
  | .nan => false

/-- `_meets(key, stats)` -/
def meets (effective : Dict YamlKey Yaml) (key : String) (stats : TierStats) : Except Exn Bool :=
  match gateOf effective key with
  | none => .ok true
  | some gate => gate.number.elim (.error Exn.typeError) fun v => .ok (atLeast stats.accuracy v)

/-- `thresholds_met` -/
def thresholdsMet (effective : Dict YamlKey Yaml) (overall : TierStats) (byTier : Dict Tier TierStats) :
    Except Exn Bool := do
  if ← meets effective "overall" overall then
    byTier.allM fun kv => meets effective kv.1.name kv.2
  else
    return false

/-! ## The run -/

/-- What the counters come to at the end of the results. -/
def Scoring.byTier (s : Scoring) : Dict Tier TierStats :=
  Tier.all.map fun t => (t, stats (s.byTierPassed.count t) (s.byTierFailed.count t))

def Scoring.byCategory (s : Scoring) : Dict YamlKey TierStats :=
  s.categories.map fun c => (c, stats (s.byCatPassed.count c) (s.byCatFailed.count c))

def Scoring.overall (s : Scoring) : TierStats := stats s.byTierPassed.total s.byTierFailed.total

/-- `raw.get("results", [])`, as the loop runs through it. -/
def resultsOf (raw : Json) : Except Exn (List Json) := do
  (← raw.getD "results" (.arr [])).iter

/-- `score_run(raw_path, corpus_dir, thresholds_path)` -/
def scoreRun (files : EvalFiles) : Except Exn ThresholdMet := do
  let corpus ← loadCorpus files.corpus
  let thresholds := if files.thresholds.truthy then files.thresholds else .obj []
  let model ← files.raw.getD "model" (.str "unknown")
  let runDate ← files.raw.getD "run_date" (.str "unknown")
  let results ← resultsOf files.raw
  let scoring ← results.foldlM (fun s picked => do return s.record (← turn corpus picked)) ({} : Scoring)
  let effective ← resolveThresholds thresholds model
  let met ← thresholdsMet effective scoring.overall scoring.byTier
  return {
    model := model
    runDate := runDate
    overall := scoring.overall
    byTier := scoring.byTier
    byCategory := scoring.byCategory
    failures := scoring.failures
    thresholdsMet := met }

end Eval

end WazuhMcp
