import WazuhMcp.Foundations.Fallible
import WazuhMcp.Foundations.Numeral
import WazuhMcp.Tools.Search

/-!
# Time ranges

What `_validate_time_range` accepts, against the grammar that its message states: a number without
leading zero, one unit, and less than 30 days. The `$` of the pattern matches before a final newline as
well, so that a time range with a newline behind it is accepted, and spliced into the date math with
the newline.

* `validateTimeRange_eq_ok_iff`: a text is accepted exactly if it is a time range, or one with a
  newline behind it.
* `timeRange_grammar`: the validator and every builder keep to the grammar exactly on the texts that
  are not a time range with a newline behind it.
-/

namespace WazuhMcp

open Fallible

/-! ## The grammar -/

/-- The units, with their seconds. -/
def timeUnits : List (Char × ℕ) := [('m', 60), ('h', 60 * 60), ('d', 24 * 60 * 60)]

/-- A number from 1 without leading zero, and a unit, that denote less than 30 days. -/
def IsTimeRange (cs : List Char) : Prop :=
  ∃ n : ℕ, ∃ unit ∈ timeUnits, 1 ≤ n ∧ cs = Nat.toDigits 10 n ++ [unit.1] ∧
    n * unit.2 < 30 * (24 * 60 * 60)

theorem unitSeconds_eq_some_iff {c : Char} {secs : ℕ} :
    unitSeconds c = some secs ↔ (c, secs) ∈ timeUnits := by
  unfold unitSeconds timeUnits
  split
  · simp
    omega
  · simp
    omega
  · simp
    omega
  · rename_i hm hh hd
    have hm' : c ≠ 'm' := hm
    have hh' : c ≠ 'h' := hh
    have hd' : c ≠ 'd' := hd
    simp [hm', hh', hd']

/-! ## The validator -/

/-- What stands before the unit is a numeral. -/
theorem timeRangeParts_append_singleton (cs : List Char) (c : Char) (n secs : ℕ) :
    timeRangeParts (cs ++ [c]) = some (n, secs) ↔
      (Text.IsNumeral cs ∧ Text.natOfDigits cs = n) ∧ (c, secs) ∈ timeUnits := by
  rw [← unitSeconds_eq_some_iff]
  unfold timeRangeParts
  rw [List.getLast?_concat, List.dropLast_concat]
  cases hunit : unitSeconds c with
  | none => simp [hunit]
  | some s =>
    cases cs with
    | nil => simp [Text.IsNumeral]
    | cons d ds =>
      by_cases hd : d = '0'
      · simp [Text.IsNumeral, hd]
      · by_cases hall : (d :: ds).all Char.isDigit = true
        · simp [hunit, Text.IsNumeral, hd, hall]
        · simp [Text.IsNumeral, hd, hall]

theorem timeRangeParts_eq_some_iff {cs : List Char} {n secs : ℕ} :
    timeRangeParts cs = some (n, secs) ↔
      ∃ unit : Char, (unit, secs) ∈ timeUnits ∧ 1 ≤ n ∧ cs = Nat.toDigits 10 n ++ [unit] := by
  induction cs using List.reverseRecOn with
  | nil => simp [timeRangeParts]
  | append_singleton cs c _ =>
    rw [timeRangeParts_append_singleton, Text.isNumeral_iff]
    constructor
    · rintro ⟨⟨hn, rfl⟩, hc⟩
      exact ⟨c, hc, hn, rfl⟩
    · rintro ⟨unit, hunit, hn, heq⟩
      obtain ⟨rfl, hc⟩ := List.append_inj' heq rfl
      obtain rfl : c = unit := by simpa using hc
      exact ⟨⟨hn, rfl⟩, hunit⟩

/-- The check of the number and the unit that were matched, against the cap. -/
def withinLookback (parts : Option (ℕ × ℕ)) : Bool :=
  parts.any fun p => decide (p.1 * p.2 < maxLookbackSeconds)

theorem withinLookback_timeRangeParts {cs : List Char} :
    withinLookback (timeRangeParts cs) = true ↔ IsTimeRange cs := by
  constructor
  · intro h
    cases hparts : timeRangeParts cs with
    | none => simp [withinLookback, hparts] at h
    | some p =>
      obtain ⟨n, secs⟩ := p
      obtain ⟨unit, hunit, hn, hcs⟩ := timeRangeParts_eq_some_iff.mp hparts
      have hlt : n * secs < maxLookbackSeconds := by simpa [withinLookback, hparts] using h
      exact ⟨n, (unit, secs), hunit, hn, hcs, hlt⟩
  · rintro ⟨n, ⟨unit, secs⟩, hunit, hn, hcs, hlt⟩
    rw [timeRangeParts_eq_some_iff.mpr ⟨unit, hunit, hn, hcs⟩]
    exact decide_eq_true hlt

theorem validateTimeRange_eq (s : String) :
    validateTimeRange s =
      if withinLookback (timeRangeMatch s) then .ok () else .error Exn.valueError := by
  unfold validateTimeRange
  cases timeRangeMatch s with
  | none => rfl
  | some p =>
    obtain ⟨n, secs⟩ := p
    by_cases hle : maxLookbackSeconds ≤ n * secs
    · have hlt : ¬ n * secs < maxLookbackSeconds := by omega
      simp [withinLookback, hle]
    · have hlt : n * secs < maxLookbackSeconds := by omega
      simp [withinLookback, hlt]

/-- No time range ends with a newline. -/
theorem IsTimeRange.getLast?_ne {cs : List Char} (h : IsTimeRange cs) : cs.getLast? ≠ some '\n' := by
  obtain ⟨n, unit, hunit, -, rfl, -⟩ := h
  simp only [timeUnits, List.mem_cons, List.not_mem_nil, or_false] at hunit
  rcases hunit with rfl | rfl | rfl <;> simp

/-- **What the validator accepts**: time ranges, with or without a newline behind them. -/
theorem validateTimeRange_eq_ok_iff {s : String} :
    validateTimeRange s = .ok () ↔
      IsTimeRange s.toList ∨ ∃ cs, IsTimeRange cs ∧ s.toList = cs ++ ['\n'] := by
  have hok : validateTimeRange s = .ok () ↔ withinLookback (timeRangeMatch s) = true := by
    rw [validateTimeRange_eq]
    split <;> simp_all
  rw [hok, timeRangeMatch]
  split
  · rename_i hlast
    rw [withinLookback_timeRangeParts]
    have hsplit : s.toList = s.toList.dropLast ++ ['\n'] :=
      (List.dropLast_append_getLast? '\n' hlast).symm
    constructor
    · intro h
      exact .inr ⟨s.toList.dropLast, h, hsplit⟩
    · rintro (h | ⟨cs, h, hcs⟩)
      · exact absurd hlast h.getLast?_ne
      · rw [hcs, List.dropLast_concat]
        exact h
  · rename_i hlast
    rw [withinLookback_timeRangeParts]
    constructor
    · exact .inl
    · rintro (h | ⟨cs, -, hcs⟩)
      · exact h
      · exact absurd (by rw [hcs]; simp) hlast

/-- What is not accepted raises a `ValueError`. -/
theorem validateTimeRange_error {s : String} (h : validateTimeRange s ≠ .ok ()) :
    validateTimeRange s = .error Exn.valueError := by
  rw [validateTimeRange_eq] at h ⊢
  split at h
  · exact absurd rfl h
  · rename_i hout
    rw [if_neg hout]

/-! ## The builders -/

/-- The arguments that a hunt has besides its time range. -/
structure HuntClauses where
  must : List HuntClause
  mustNot : List HuntClause
  size : Ranged 1 100
  cursor : Option (List Json)
  clauses_le : must.length + mustNot.length ≤ 20
  clauses_pos : 1 ≤ must.length + mustNot.length

/-- `HuntQueryArgs(time_range=..., ...)`: `_check_time_range` is a validator of the field. -/
def HuntClauses.withTimeRange (clauses : HuntClauses) (timeRange : String) :
    Except Exn HuntQueryArgs :=
  if h : validateTimeRange timeRange = .ok () then
    .ok { clauses with timeRange := timeRange, timeRange_valid := h }
  else
    .error .validation

/-- The builders that take a time range, each with its other arguments. -/
inductive TimedBuilder where
  | searchAlerts (minLevel : Option ℤ) (agentId : Option String) (size : ℤ)
      (cursor : Option (List Json))
  | alertsByAgent (agentId : String) (size : ℤ) (cursor : Option (List Json))
  | alertsByMitre (techniqueId : String) (size : ℤ) (cursor : Option (List Json))
  | fimHistoryForPath (path : String) (size : ℤ) (cursor : Option (List Json))
  | fimChangesByAgent (agentId : String) (size : ℤ) (cursor : Option (List Json))
  | hunt (clauses : HuntClauses)

/-- The body that a builder makes for a time range. -/
def TimedBuilder.build (timeRange : String) : TimedBuilder → Except Exn Json
  | searchAlerts minLevel agentId size cursor =>
    buildSearchAlertsQuery timeRange minLevel agentId size cursor
  | alertsByAgent agentId size cursor => buildAlertsByAgentQuery agentId timeRange size cursor
  | alertsByMitre techniqueId size cursor =>
    buildAlertsByMitreQuery techniqueId timeRange size cursor
  | fimHistoryForPath path size cursor => buildFimHistoryForPathQuery path timeRange size cursor
  | fimChangesByAgent agentId size cursor =>
    buildFimChangesByAgentQuery agentId timeRange size cursor
  | hunt clauses => buildHuntDsl <$> clauses.withTimeRange timeRange

/-- The date from which on a body asks for events, in the first clause of its `must`. -/
def lookback (body : Json) : Except Exn Json := do
  let bool ← (← body.item "query").item "bool"
  let clause ← (← bool.item "must").index 0
  (← (← clause.item "range").item "@timestamp").item "gte"

theorem lookback_boolQuery {timeRange sortKey : String} {clauses : List Json} {bool : JsonObject}
    {size : ℤ} {source : List String} {cursor : Option (List Json)} :
    lookback (boolQuery (("must", .arr (since timeRange :: clauses)) :: bool) size sortKey source
      cursor) = .ok (.str ("now-" ++ timeRange)) := by
  rfl

/-- What the builders share that check their own argument before the time range. -/
theorem lookback_of_checks {c : Bool} {s : String} {clauses : List Json} {source : List String} {size : ℤ}
    {cursor : Option (List Json)} {body : Json}
    (h : (require c >>= fun _ => validateTimeRange s >>= fun _ =>
      .ok (alertsQuery (since s :: clauses) size source cursor)) = .ok body) :
    validateTimeRange s = .ok () ∧ lookback body = .ok (.str ("now-" ++ s)) := by
  obtain ⟨_, -, hrest⟩ := bind_eq_ok.mp h
  obtain ⟨_, hvalid, hbody⟩ := bind_eq_ok.mp hrest
  obtain rfl := Except.ok.inj hbody
  exact ⟨hvalid, lookback_boolQuery⟩

/-- **A builder that makes a body has accepted the time range**, and asks from there on. -/
theorem TimedBuilder.build_eq_ok {b : TimedBuilder} {s : String} {body : Json}
    (h : b.build s = .ok body) :
    validateTimeRange s = .ok () ∧ lookback body = .ok (.str ("now-" ++ s)) := by
  cases b with
  | searchAlerts minLevel agentId size cursor =>
    obtain ⟨_, hvalid, hrest⟩ := bind_eq_ok.mp h
    obtain ⟨_, -, hbody⟩ := bind_eq_ok.mp hrest
    obtain rfl := Except.ok.inj hbody
    exact ⟨hvalid, lookback_boolQuery⟩
  | alertsByAgent agentId size cursor => exact lookback_of_checks h
  | alertsByMitre techniqueId size cursor => exact lookback_of_checks h
  | fimHistoryForPath path size cursor => exact lookback_of_checks h
  | fimChangesByAgent agentId size cursor => exact lookback_of_checks h
  | hunt clauses =>
    by_cases hvalid : validateTimeRange s = .ok ()
    · refine ⟨hvalid, ?_⟩
      simp only [build, HuntClauses.withTimeRange, dif_pos hvalid] at h
      obtain rfl := Except.ok.inj h
      exact lookback_boolQuery
    · simp only [build, HuntClauses.withTimeRange, dif_neg hvalid] at h
      cases h

/-! ## The grammar is kept -/

/-- The validator accepts a text exactly if it is a time range and raises a `ValueError` otherwise, and
a body asks for what happened since `now-<s>` only for a time range. -/
def KeepsTimeRanges (s : String) : Prop :=
  (validateTimeRange s = .ok () ↔ IsTimeRange s.toList) ∧
    (¬ IsTimeRange s.toList → validateTimeRange s = .error Exn.valueError) ∧
    ∀ (b : TimedBuilder) (body : Json), b.build s = .ok body →
      lookback body = .ok (.str ("now-" ++ s)) ∧ IsTimeRange s.toList

/-- **The grammar is kept exactly on what is not a time range with a newline behind it.** -/
theorem timeRange_grammar (s : String) :
    KeepsTimeRanges s ↔ ¬ ∃ t, IsTimeRange t ∧ s.toList = t ++ ['\n'] := by
  constructor
  · rintro ⟨hiff, -⟩ ⟨t, ht, hs⟩
    have hrange : IsTimeRange s.toList := hiff.mp (validateTimeRange_eq_ok_iff.mpr (.inr ⟨t, ht, hs⟩))
    apply hrange.getLast?_ne
    rw [hs, List.getLast?_concat]
  · intro hnl
    have hiff : validateTimeRange s = .ok () ↔ IsTimeRange s.toList := by
      rw [validateTimeRange_eq_ok_iff, or_iff_left hnl]
    refine ⟨hiff, fun hout => validateTimeRange_error (mt hiff.mp hout), ?_⟩
    intro b body hbuild
    obtain ⟨hvalid, hlookback⟩ := b.build_eq_ok hbuild
    exact ⟨hlookback, hiff.mp hvalid⟩

/-- An hour, with a newline behind it. -/
theorem timeRange_newline : ¬ KeepsTimeRanges "1h\n" := by
  rintro ⟨hiff, -⟩
  have hvalid : validateTimeRange "1h\n" = .ok () := by decide +kernel
  exact (hiff.mp hvalid).getLast?_ne rfl

end WazuhMcp
