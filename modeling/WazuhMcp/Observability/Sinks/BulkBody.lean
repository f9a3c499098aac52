import WazuhMcp.Foundations.Fallible
import WazuhMcp.Foundations.Lines
import WazuhMcp.Observability.Sinks.Documents

/-!
# The text of a bulk request

`_build_bulk_body` writes two lines of JSON for each event, the action and the event itself, and the indexer
reads the lines in pairs. If `json.loads` reads what `json.dumps` has written, it gets the events back in
order, each with an action that names the index of the day and has the event's own `event_id` for its `_id`
(`decodeBulk_buildBulkBody`).

For records of the audit log these are the pairs that the model of the indexer works with
(`decodeBulk_records`).
-/

namespace WazuhMcp

/-! ## JSON on one line -/

mutual

/-- `json.dumps(x)` -/
def Json.dumpsLine : Json → String
  | .null => "null"
  | .bool true => "true"
  | .bool false => "false"
  | .int i => toString i
  | .float f => dumpFloat f
  | .str s => dumpStr s
  | .arr xs => "[" ++ Json.lineItems xs ++ "]"
  | .obj kvs => "\x7b" ++ Json.lineMembers kvs ++ "\x7d"

/-- The items of a list, on one line. -/
def Json.lineItems : List Json → String
  | [] => ""
  | [x] => x.dumpsLine
  | x :: xs => x.dumpsLine ++ ", " ++ Json.lineItems xs

/-- The members of an object, on one line. -/
def Json.lineMembers : List (String × Json) → String
  | [] => ""
  | [(k, x)] => Json.dumpStr k ++ ": " ++ x.dumpsLine
  | (k, x) :: kvs => Json.dumpStr k ++ ": " ++ x.dumpsLine ++ ", " ++ Json.lineMembers kvs

end

theorem Json.dumpsLine_obj_ne (d : JsonObject) : (Json.obj d).dumpsLine ≠ "" := by
  intro h
  rw [Json.dumpsLine] at h
  simpa [String.toList_append] using congrArg String.toList h

namespace Sinks

/-! ## Writing -/

/-- What `WazuhIndexerSink` needs to know for a body. -/
structure WazuhIndexerSink where
  indexPrefix : String := "wazuh-mcp-audit"

namespace WazuhIndexerSink

variable (sink : WazuhIndexerSink) (today : UtcDate)

/-- `action`, for an event. -/
def action (index : String) (ev : JsonObject) : Json :=
  let fields : JsonObject := [("_index", .str index)]
  match ev.get "event_id" with
  | .null => .obj [("index", .obj fields)]
  | eventId => .obj [("index", .obj (fields.set "_id" eventId))]

/-- `_build_bulk_body(events)` -/
def buildBulkBody (events : List JsonObject) : String :=
  let index := todayIndex sink.indexPrefix today
  let lines := events.flatMap fun ev => [(action index ev).dumpsLine, (Json.obj ev).dumpsLine]
  Lines.write lines

/-- The values that are written, in order. -/
def written (events : List JsonObject) : List Json :=
  events.flatMap fun ev => [action (todayIndex sink.indexPrefix today) ev, .obj ev]

end WazuhIndexerSink

/-! ## Reading -/

/-- An `index` action: the index that it names, and the `_id` if it has one. -/
structure IndexAction where
  index : String
  id : Option Json

/-- What an action line says. -/
def IndexAction.ofJson : Json → Option IndexAction
  | .obj [(op, .obj fields)] =>
    match op == "index", fields.lookup "_index" with
    | true, some (.str index) => some ⟨index, fields.lookup "_id"⟩
    | _, _ => none
  | _ => none

/-- A body as the indexer reads it: pairs of lines, of which one is an action and the other its source. -/
def decodeBulk (loads : String → Option Json) (body : String) : Option (List (IndexAction × Json)) := do
  let lines ← Lines.readPairs body
  lines.mapM fun line => do
    let action ← IndexAction.ofJson (← loads line.1)
    let source ← loads line.2
    return (action, source)

/-- The `event_id` of an event, when it is present and not `None`. -/
def eventId? (ev : JsonObject) : Option Json :=
  match ev.get "event_id" with
  | .null => none
  | eventId => some eventId

namespace WazuhIndexerSink

variable {sink : WazuhIndexerSink} {today : UtcDate} {index : String} {ev : JsonObject}

theorem eventId?_of_ne (h : ev.get "event_id" ≠ .null) : eventId? ev = some (ev.get "event_id") := by
  unfold eventId?
  cases hid : ev.get "event_id" with
  | null => exact absurd hid h
  | _ => rfl

theorem eventId?_of_null (h : ev.get "event_id" = .null) : eventId? ev = none := by
  rw [eventId?, h]

theorem eventId?_fields (record : AuditRecord) : eventId? record.fields = record.eventId.map .str := by
  unfold AuditRecord.eventId
  rcases record.typed with h | ⟨id, h⟩
  · rw [eventId?_of_null h, h]
    rfl
  · rw [eventId?_of_ne (by simp [h]), h]
    rfl

theorem action_eq (index : String) (ev : JsonObject) : ∃ fields : JsonObject,
    action index ev = .obj [("index", .obj fields)] ∧ fields.lookup "_index" = some (.str index) ∧
      fields.lookup "_id" = eventId? ev := by
  unfold action eventId?
  split
  · exact ⟨_, rfl, rfl, rfl⟩
  · exact ⟨_, rfl, rfl, rfl⟩

/-- The action of an event is read as one for the index, with the event's own id. -/
theorem ofJson_action (index : String) (ev : JsonObject) :
    IndexAction.ofJson (action index ev) = some ⟨index, eventId? ev⟩ := by
  obtain ⟨fields, haction, hindex, hid⟩ := action_eq index ev
  rw [haction, IndexAction.ofJson, hindex, hid]
  rfl

theorem action_dumpsLine_ne (index : String) (ev : JsonObject) : (action index ev).dumpsLine ≠ "" := by
  obtain ⟨fields, haction, -, -⟩ := action_eq index ev
  rw [haction]
  exact Json.dumpsLine_obj_ne _

/-- What a body of events says: the events in order, each with an action that names the index and has the
`event_id` of the event for its `_id`, when that is present and not `None`, and no `_id` otherwise. -/
structure Says (index : String) (events : List JsonObject) (pairs : List (IndexAction × Json)) : Prop where
  sources : pairs.map Prod.snd = events.map .obj
  index : ∀ p ∈ pairs, p.1.index = index
  id : ∀ (action : IndexAction) (ev : JsonObject), (action, Json.obj ev) ∈ pairs →
    ev.get "event_id" ≠ .null → action.id = some (ev.get "event_id")
  no_id : ∀ (action : IndexAction) (ev : JsonObject), (action, Json.obj ev) ∈ pairs →
    ev.get "event_id" = .null → action.id = none

section Decode

variable {loads : String → Option Json} {events : List JsonObject}
  (hline : ∀ x ∈ sink.written today events, '\n' ∉ x.dumpsLine.toList)
  (hloads : ∀ x ∈ sink.written today events, loads x.dumpsLine = some x)
include hline hloads

theorem decodeBulk_eq : decodeBulk loads (sink.buildBulkBody today events) =
    some (events.map fun ev => (⟨todayIndex sink.indexPrefix today, eventId? ev⟩, .obj ev)) := by
  set index := todayIndex sink.indexPrefix today with hindex
  have haction : ∀ ev ∈ events, action index ev ∈ sink.written today events :=
    fun ev hev => List.mem_flatMap.mpr ⟨ev, hev, List.mem_cons_self⟩
  have hevent : ∀ ev ∈ events, .obj ev ∈ sink.written today events :=
    fun ev hev => List.mem_flatMap.mpr ⟨ev, hev, List.mem_cons_of_mem _ List.mem_cons_self⟩
  have hpairs : Lines.readPairs (sink.buildBulkBody today events) =
      some (events.map fun ev => ((action index ev).dumpsLine, (Json.obj ev).dumpsLine)) :=
    Lines.readPairs_write (fun ev hev => ⟨action_dumpsLine_ne index ev, hline _ (haction ev hev)⟩)
      fun ev hev => hline _ (hevent ev hev)
  rw [decodeBulk, hpairs]
  show List.mapM _ _ = _
  rw [List.mapM_map]
  apply Fallible.mapM_eq_some_map
  intro ev hev
  show (do let action ← IndexAction.ofJson (← loads _); let source ← loads _; some (action, source)) = _
  rw [hloads _ (haction ev hev), hloads _ (hevent ev hev)]
  show (IndexAction.ofJson (action index ev)).bind _ = _
  rw [ofJson_action]
  rfl

end Decode

/-- **A bulk body is read as what it was built from**, if `json.dumps` writes on one line and `json.loads`
reads what it writes. -/
theorem decodeBulk_buildBulkBody (sink : WazuhIndexerSink) (today : UtcDate)
    (loads : String → Option Json) (events : List JsonObject)
    (hline : ∀ x ∈ sink.written today events, '\n' ∉ x.dumpsLine.toList)
    (hloads : ∀ x ∈ sink.written today events, loads x.dumpsLine = some x) :
    ∃ pairs, decodeBulk loads (sink.buildBulkBody today events) = some pairs ∧
      Says (todayIndex sink.indexPrefix today) events pairs := by
  refine ⟨_, decodeBulk_eq hline hloads, ?_, ?_, ?_, ?_⟩
  · rw [List.map_map]
    rfl
  · intro p hp
    obtain ⟨ev, -, rfl⟩ := List.mem_map.mp hp
    rfl
  · intro action ev hp hid
    obtain ⟨ev', -, heq⟩ := List.mem_map.mp hp
    obtain ⟨rfl, hev⟩ := Prod.mk.inj heq
    obtain rfl := Json.obj.inj hev
    exact eventId?_of_ne hid
  · intro action ev hp hid
    obtain ⟨ev', -, heq⟩ := List.mem_map.mp hp
    obtain ⟨rfl, hev⟩ := Prod.mk.inj heq
    obtain rfl := Json.obj.inj hev
    exact eventId?_of_null hid

/-- Two events, of which the second has no id. -/
def twoEvents : List JsonObject :=
  [[("event_id", .str "id-A"), ("tool", .str "alerts.get_alert")],
    [("tool", .str "x"), ("result_count", .int 0)]]

def exampleDay : UtcDate := ⟨2026, 6, 7, by decide, by decide⟩

/-- `json.loads`, on the four lines that are written for the two events. -/
def exampleLoads (line : String) : Option Json :=
  if line = "\x7b\"index\": \x7b\"_index\": \"wazuh-mcp-audit-2026.06.07\", \"_id\": \"id-A\"\x7d\x7d" then
    some (.obj [("index", .obj [("_index", .str "wazuh-mcp-audit-2026.06.07"), ("_id", .str "id-A")])])
  else if line = "\x7b\"event_id\": \"id-A\", \"tool\": \"alerts.get_alert\"\x7d" then
    some (.obj [("event_id", .str "id-A"), ("tool", .str "alerts.get_alert")])
  else if line = "\x7b\"index\": \x7b\"_index\": \"wazuh-mcp-audit-2026.06.07\"\x7d\x7d" then
    some (.obj [("index", .obj [("_index", .str "wazuh-mcp-audit-2026.06.07")])])
  else if line = "\x7b\"tool\": \"x\", \"result_count\": 0\x7d" then
    some (.obj [("tool", .str "x"), ("result_count", .int 0)])
  else none

/-- The values of the lines are those that `json.loads` reads. -/
theorem written_twoEvents : written {} exampleDay twoEvents =
    [.obj [("index", .obj [("_index", .str "wazuh-mcp-audit-2026.06.07"), ("_id", .str "id-A")])],
      .obj [("event_id", .str "id-A"), ("tool", .str "alerts.get_alert")],
      .obj [("index", .obj [("_index", .str "wazuh-mcp-audit-2026.06.07")])],
      .obj [("tool", .str "x"), ("result_count", .int 0)]] := by
  have hindex : todayIndex "wazuh-mcp-audit" exampleDay = "wazuh-mcp-audit-2026.06.07" := by decide +kernel
  unfold written
  rw [hindex]
  rfl

theorem decodeBulk_twoEvents :
    ∃ pairs, decodeBulk exampleLoads (buildBulkBody {} exampleDay twoEvents) = some pairs ∧
      Says (todayIndex "wazuh-mcp-audit" exampleDay) twoEvents pairs := by
  refine decodeBulk_buildBulkBody {} exampleDay exampleLoads twoEvents ?_ ?_
  · decide +kernel
  · rw [written_twoEvents]
    intro x hx
    simp only [List.mem_cons, List.not_mem_nil, or_false] at hx
    unfold exampleLoads
    rcases hx with rfl | rfl | rfl | rfl
    · exact if_pos (by decide +kernel)
    · rw [if_neg (by decide +kernel)]
      exact if_pos (by decide +kernel)
    · rw [if_neg (by decide +kernel), if_neg (by decide +kernel)]
      exact if_pos (by decide +kernel)
    · rw [if_neg (by decide +kernel), if_neg (by decide +kernel), if_neg (by decide +kernel)]
      exact if_pos (by decide +kernel)

/-- For records of the audit log, the body is read as the pairs that the indexer works with. -/
theorem decodeBulk_records {loads : String → Option Json} {records : List AuditRecord}
    (hline : ∀ x ∈ sink.written today (records.map AuditRecord.fields), '\n' ∉ x.dumpsLine.toList)
    (hloads : ∀ x ∈ sink.written today (records.map AuditRecord.fields), loads x.dumpsLine = some x) :
    decodeBulk loads (sink.buildBulkBody today (records.map AuditRecord.fields)) =
      some ((Sinks.buildBulkBody sink.indexPrefix today records).map fun line =>
        (⟨line.1.index, line.1.id.map .str⟩, .obj line.2.fields)) := by
  rw [decodeBulk_eq hline hloads, List.map_map, Sinks.buildBulkBody, List.map_map]
  refine congrArg some (List.map_congr_left fun record _ => ?_)
  show (IndexAction.mk _ (eventId? record.fields), Json.obj record.fields) = _
  rw [eventId?_fields]
  rfl

end WazuhIndexerSink

end Sinks

end WazuhMcp
