import WazuhMcp.Base.JsonDumps
import WazuhMcp.Observability.Sinks.BulkBody
import WazuhMcp.Observability.Sinks.File

/-!
# Audit events in JSON

The texts in which audit events leave the server can be read back as the events, whatever their values are.

* `loads_dumpsLine`: `json.loads` undoes `json.dumps` on one line, and the line is printable ASCII
  (`printable_dumpsLine`).
* `readLines_writeLines`: the lines of a stream, each of which holds one event, are read as the events.
* `readLines_retained`: so are the archives and the file of a file sink, whatever rotations there have been:
  what is read is the events without some of the oldest.
* `decodeBulk_loads`: a bulk body is read as the events with their actions.
* `loads_payload`: the body of a webhook is read as the array of the events.
-/

namespace WazuhMcp

namespace Json

/-! ## One line -/

section OneLine

variable {depth : ℕ}

theorem lineItems_cons {x : Json} {xs : List Json}
    (h : ∀ y ∈ x :: xs, y.dumpsLine.toList = write oneLine depth y) :
    (lineItems (x :: xs)).toList =
      write oneLine depth x ++ xs.flatMap fun y => ',' :: (' ' :: write oneLine depth y) := by
  induction xs generalizing x with
  | nil => rw [lineItems, h x List.mem_cons_self, List.flatMap_nil, List.append_nil]
  | cons y ys ih =>
    obtain ⟨hx, hys⟩ := List.forall_mem_cons.mp h
    rw [lineItems, String.toList_append, String.toList_append, hx, ih hys, List.flatMap_cons,
      List.append_assoc]
    · rfl
    · simp

theorem lineMembers_cons {kv : String × Json} {kvs : List (String × Json)}
    (h : ∀ y ∈ kv :: kvs, y.2.dumpsLine.toList = write oneLine depth y.2) :
    (lineMembers (kv :: kvs)).toList = writeMember oneLine depth kv ++
      kvs.flatMap fun y => ',' :: (' ' :: writeMember oneLine depth y) := by
  induction kvs generalizing kv with
  | nil =>
    obtain ⟨k, x⟩ := kv
    rw [lineMembers, String.toList_append, String.toList_append, h _ List.mem_cons_self, List.flatMap_nil,
      List.append_nil, List.append_assoc]
    rfl
  | cons y ys ih =>
    obtain ⟨hx, hys⟩ := List.forall_mem_cons.mp h
    obtain ⟨k, x⟩ := kv
    rw [lineMembers, String.toList_append, String.toList_append, String.toList_append, String.toList_append,
      hx, ih hys, List.flatMap_cons]
    · simp [writeMember, oneLine]
    · simp

/-- What is written on one line has the layout without new lines. -/
theorem dumpsLine_toList (x : Json) (depth : ℕ) : x.dumpsLine.toList = write oneLine depth x := by
  induction x using Json.induct generalizing depth with
  | null => rfl
  | bool b => cases b <;> rfl
  | int i => rfl
  | float f => rfl
  | str s => rfl
  | arr xs ih =>
    cases xs with
    | nil => rfl
    | cons x xs =>
      have hitems := lineItems_cons fun y hy => ih y hy (depth + 1)
      rw [dumpsLine, String.toList_append, String.toList_append, hitems, write_arr_cons]
      simp [oneLine]
  | obj kvs ih =>
    cases kvs with
    | nil => rfl
    | cons kv kvs =>
      have hmembers := lineMembers_cons fun y hy => ih y hy (depth + 1)
      rw [dumpsLine, String.toList_append, String.toList_append, hmembers, write_obj_cons]
      simp [oneLine]

end OneLine

/-- A printable character of ASCII. -/
def PrintableAscii (c : Char) : Prop := 0x20 ≤ c.toNat ∧ c.toNat ≤ 0x7e

instance (c : Char) : Decidable (PrintableAscii c) :=
  inferInstanceAs (Decidable (0x20 ≤ c.toNat ∧ c.toNat ≤ 0x7e))

theorem printable_of_all {cs : List Char} (h : cs.all (fun c => decide (PrintableAscii c)) = true) :
    ∀ c ∈ cs, PrintableAscii c := fun c hc => of_decide_eq_true (List.all_eq_true.mp h c hc)

theorem printable_digitChar : ∀ d < 16, PrintableAscii (Nat.digitChar d) := by decide

theorem printable_unitEscape (n : ℕ) : ∀ c ∈ unitEscape n, PrintableAscii c := by
  have hdigit : ∀ d, PrintableAscii (Nat.digitChar (d % 16)) := fun d =>
    printable_digitChar _ (Nat.mod_lt _ (by omega))
  unfold unitEscape
  simp only [List.map_cons, List.map_nil, List.forall_mem_cons, hdigit, true_and]
  exact ⟨by decide, by decide, fun c hc => absurd hc List.not_mem_nil⟩

theorem printable_dumpChar (c : Char) : ∀ d ∈ dumpChar c, PrintableAscii d := by
  have hpair : ∀ e : Char, PrintableAscii e → ∀ d ∈ ['\\', e], PrintableAscii d := fun e he =>
    List.forall_mem_cons.mpr ⟨by decide, List.forall_mem_singleton.mpr he⟩
  unfold dumpChar
  split
  · rename_i hc
    simp only [Bool.or_eq_true, decide_eq_true_eq] at hc
    rcases hc with rfl | rfl <;> exact hpair _ (by decide)
  split
  · exact hpair _ (by decide)
  split
  · exact hpair _ (by decide)
  split
  · exact hpair _ (by decide)
  split
  · exact hpair _ (by decide)
  split
  · exact hpair _ (by decide)
  split
  · rename_i hc
    simp only [Bool.and_eq_true, decide_eq_true_eq] at hc
    exact List.forall_mem_singleton.mpr hc
  split
  · exact printable_unitEscape _
  · exact List.forall_mem_append.mpr ⟨printable_unitEscape _, printable_unitEscape _⟩

theorem printable_dumpStr (s : String) : ∀ c ∈ (dumpStr s).toList, PrintableAscii c := by
  rw [dumpStr_toList]
  refine List.forall_mem_cons.mpr ⟨by decide, List.forall_mem_append.mpr ⟨?_, ?_⟩⟩
  · intro c hc
    obtain ⟨d, -, hc⟩ := List.mem_flatMap.mp hc
    exact printable_dumpChar d c hc
  · exact List.forall_mem_singleton.mpr (by decide)

theorem printable_of_isNumberChar {c : Char} (hc : JsonText.IsNumberChar c) : PrintableAscii c := by
  rcases hc with hc | hc
  · obtain ⟨hlo, hhi⟩ := Char.isDigit_iff_toNat.mp hc
    have h0 : 48 ≤ c.toNat := hlo
    have h9 : c.toNat ≤ 57 := hhi
    exact ⟨by omega, by omega⟩
  · simp only [List.mem_cons, List.not_mem_nil, or_false] at hc
    rcases hc with rfl | rfl | rfl | rfl | rfl <;> decide

theorem printable_int (i : ℤ) : ∀ c ∈ (toString i).toList, PrintableAscii c := by
  obtain ⟨p, hscan, -, -, htext⟩ := JsonText.scanNumber_int i
  intro c hc
  rw [← htext] at hc
  exact printable_of_isNumberChar (JsonText.scanNumber_chars hscan c hc)

variable {readFloat : String → PyFloat}

theorem printable_dumpFloat {f : PyFloat} (hf : FloatReads readFloat f) :
    ∀ c ∈ (dumpFloat f).toList, PrintableAscii c := by
  obtain ⟨val, repr⟩ := f
  cases val with
  | fin q => exact fun c hc => printable_of_isNumberChar (JsonText.isFloat_chars hf.1 c hc)
  | inf => show ∀ c ∈ "Infinity".toList, _; exact printable_of_all (by decide)
  | negInf => show ∀ c ∈ "-Infinity".toList, _; exact printable_of_all (by decide)
  | nan => show ∀ c ∈ "NaN".toList, _; exact printable_of_all (by decide)

theorem printable_enclosed {B : Type} {text : B → List Char} {start next stop : List Char} {b : B}
    {bs : List B} {first last : Char} (hfirst : PrintableAscii first) (hlast : PrintableAscii last)
    (hstart : ∀ c ∈ start, PrintableAscii c) (hnext : ∀ c ∈ next, PrintableAscii c)
    (hstop : ∀ c ∈ stop, PrintableAscii c) (htext : ∀ y ∈ b :: bs, ∀ c ∈ text y, PrintableAscii c) :
    ∀ c ∈ first :: (start ++ text b ++ (bs.flatMap fun y => ',' :: (next ++ text y)) ++ stop ++ [last]),
      PrintableAscii c := by
  intro c hc
  simp only [List.mem_cons, List.mem_append, List.mem_flatMap, List.not_mem_nil, or_false] at hc
  rcases hc with rfl | (((hc | hc) | ⟨y, hy, rfl | hc | hc⟩) | hc) | rfl
  · exact hfirst
  · exact hstart c hc
  · exact htext b List.mem_cons_self c hc
  · decide
  · exact hnext c hc
  · exact htext y (List.mem_cons_of_mem _ hy) c hc
  · exact hstop c hc
  · exact hlast

/-- All that is written is printable ASCII, if the white space is. -/
theorem printable_write {layout : Layout} (hstart : ∀ depth, ∀ c ∈ layout.start depth, PrintableAscii c)
    (hnext : ∀ depth, ∀ c ∈ layout.next depth, PrintableAscii c)
    (hstop : ∀ depth, ∀ c ∈ layout.stop depth, PrintableAscii c)
    (hcolon : ∀ c ∈ layout.colon, PrintableAscii c) {x : Json} (hx : x.WellFormed readFloat) (depth : ℕ) :
    ∀ c ∈ write layout depth x, PrintableAscii c := by
  induction hx generalizing depth with
  | null => show ∀ c ∈ "null".toList, _; exact printable_of_all (by decide)
  | bool b =>
    cases b with
    | false => show ∀ c ∈ "false".toList, _; exact printable_of_all (by decide)
    | true => show ∀ c ∈ "true".toList, _; exact printable_of_all (by decide)
  | int i => exact printable_int i
  | float hf => exact printable_dumpFloat hf
  | str s => exact printable_dumpStr s
  | @arr xs _ ih =>
    cases xs with
    | nil => show ∀ c ∈ "[]".toList, _; exact printable_of_all (by decide)
    | cons x xs =>
      rw [write_arr_cons]
      exact printable_enclosed (by decide) (by decide) (hstart _) (hnext _) (hstop _) fun y hy => ih y hy _
  | @obj kvs _ _ ih =>
    cases kvs with
    | nil => show ∀ c ∈ "\x7b\x7d".toList, _; exact printable_of_all (by decide)
    | cons kv kvs =>
      have hmember : ∀ y ∈ kv :: kvs, ∀ c ∈ writeMember layout (depth + 1) y, PrintableAscii c := by
        intro y hy
        refine List.forall_mem_append.mpr ⟨printable_dumpStr _, List.forall_mem_cons.mpr ⟨by decide, ?_⟩⟩
        exact List.forall_mem_append.mpr ⟨hcolon, ih y hy _⟩
      rw [write_obj_cons]
      exact printable_enclosed (by decide) (by decide) (hstart _) (hnext _) (hstop _) hmember

section Line

variable {x : Json} (hx : x.WellFormed readFloat)
include hx

/-- **A line of JSON is printable ASCII**: there is no new line in it. -/
theorem printable_dumpsLine : ∀ c ∈ x.dumpsLine.toList, PrintableAscii c := by
  have hblank : ∀ c ∈ [' '], PrintableAscii c := printable_of_all (by decide)
  rw [dumpsLine_toList x 0]
  have hnone : ∀ depth : ℕ, ∀ c ∈ ([] : List Char), PrintableAscii c := fun _ _ hc => absurd hc List.not_mem_nil
  exact @printable_write _ oneLine hnone (fun _ => hblank) hnone hblank _ hx 0

theorem newline_not_mem_dumpsLine : '\n' ∉ x.dumpsLine.toList := by
  intro hmem
  have hprintable := (printable_dumpsLine hx _ hmem).1
  exact absurd hprintable (by decide)

theorem loads_dumpsLine : loads readFloat x.dumpsLine = some x := by
  have hread := loads_write oneLine hx 0 JsonText.Spaces.nil JsonText.Spaces.nil
  rwa [List.nil_append, List.append_nil, ← dumpsLine_toList, String.ofList_toList] at hread

/-- **`json.loads` undoes `json.dumps`** with each of the layouts in which the server writes JSON. -/
theorem loads_layouts : loads readFloat x.dumpsLine = some x ∧ loads readFloat x.dumps = some x ∧
    loads readFloat x.dumpsCompact = some x :=
  ⟨loads_dumpsLine hx, loads_dumps hx, loads_dumpsCompact hx⟩

end Line

/-- A value of every form, with a text that has to be escaped. -/
def exampleDocument : Json :=
  .obj [("text", .str "é 𝄞 \"quoted\"\n"), ("score", .float ⟨.fin (3 / 2), "1.5"⟩),
    ("items", .arr [.int (-7), .null, .bool true])]

/-- `float(s)`, on the text of the float in the document. -/
def exampleReadFloat (s : String) : PyFloat := if s = "1.5" then ⟨.fin (3 / 2), "1.5"⟩ else ⟨.nan, "nan"⟩

theorem exampleDocument_wellFormed : exampleDocument.WellFormed exampleReadFloat := by
  have hscore : FloatReads exampleReadFloat ⟨.fin (3 / 2), "1.5"⟩ := ⟨by decide, if_pos rfl⟩
  refine .obj (by decide) fun kv hkv => ?_
  simp only [List.mem_cons, List.not_mem_nil, or_false] at hkv
  rcases hkv with rfl | rfl | rfl
  · exact .str _
  · exact .float hscore
  · exact .arr (by simp [WellFormed.int, WellFormed.null, WellFormed.bool])

theorem loads_layouts_exampleDocument :
    loads exampleReadFloat exampleDocument.dumpsLine = some exampleDocument ∧
      loads exampleReadFloat exampleDocument.dumps = some exampleDocument ∧
      loads exampleReadFloat exampleDocument.dumpsCompact = some exampleDocument :=
  loads_layouts exampleDocument_wellFormed

end Json

/-! ## Streams and files -/

/-- The values of a text that holds one on each line. -/
def readLines (loads : String → Option Json) (text : String) : Option (List Json) :=
  (Lines.read text).bind fun lines => lines.mapM loads

namespace Sinks

/-- What a stream sink has written after these events: `_deliver` writes `json.dumps(event) + "\n"`. -/
def streamText (events : List JsonObject) : String :=
  Lines.terminated (events.map fun ev => (Json.obj ev).dumpsLine)

/-- `payload`, of a batch of events. -/
def payload (events : List JsonObject) : String := (Json.arr (events.map .obj)).dumpsCompact

/-- A file sink of events in JSON. -/
def fileSink (rotateSize : ℤ) (keep : ℕ) : FileSink JsonObject where
  rotateSize := rotateSize
  keep := keep
  dumps ev := .ok (Json.obj ev).dumpsLine

section Texts

variable {readFloat : String → PyFloat} {events : List JsonObject}
  (hevents : ∀ ev ∈ events, (Json.obj ev).WellFormed readFloat)
include hevents

/-- **The lines of a stream** are read as the events. -/
theorem readLines_streamText :
    readLines (Json.loads readFloat) (streamText events) = some (events.map .obj) := by
  have hlines : ∀ l ∈ events.map fun ev => (Json.obj ev).dumpsLine, '\n' ∉ l.toList := by
    intro l hl
    obtain ⟨ev, hev, rfl⟩ := List.mem_map.mp hl
    exact Json.newline_not_mem_dumpsLine (hevents ev hev)
  rw [readLines, streamText, Lines.read_terminated hlines, Option.bind_some, List.mapM_map]
  exact Fallible.mapM_eq_some_map fun ev hev => Json.loads_dumpsLine (hevents ev hev)

/-- **The body of a webhook** is read as the array of the events. -/
theorem loads_payload : Json.loads readFloat (payload events) = some (.arr (events.map .obj)) := by
  apply Json.loads_dumpsCompact
  refine .arr fun x hx => ?_
  obtain ⟨ev, hev, rfl⟩ := List.mem_map.mp hx
  exact hevents ev hev

omit hevents in
theorem action_wellFormed (index : String) {ev : JsonObject} (hev : (Json.obj ev).WellFormed readFloat) :
    (WazuhIndexerSink.action index ev).WellFormed readFloat := by
  have hindex : (Json.str index).WellFormed readFloat := .str index
  unfold WazuhIndexerSink.action
  split
  · exact .obj (by simp) (List.forall_mem_singleton.mpr (.obj (by simp) (List.forall_mem_singleton.mpr hindex)))
  · rename_i hid
    have hid' : (ev.get "event_id").WellFormed readFloat := by
      unfold JsonObject.get JsonObject.getD at hid ⊢
      cases hlookup : ev.lookup "event_id" with
      | none => exact .null
      | some x => exact hev.of_lookup hlookup
    have hfields : (Json.obj [("_index", .str index), ("_id", ev.get "event_id")]).WellFormed readFloat :=
      .obj (by simp) (List.forall_mem_cons.mpr ⟨hindex, List.forall_mem_singleton.mpr hid'⟩)
    exact .obj (by simp) (List.forall_mem_singleton.mpr hfields)

theorem written_wellFormed {sink : WazuhIndexerSink} {today : UtcDate} :
    ∀ x ∈ sink.written today events, x.WellFormed readFloat := by
  intro x hx
  obtain ⟨ev, hev, hx⟩ := List.mem_flatMap.mp hx
  rcases List.mem_pair.mp hx with rfl | rfl
  · exact action_wellFormed _ (hevents ev hev)
  · exact hevents ev hev

/-- **A bulk body** is read as the events in order, each with the action that was written for it. -/
theorem decodeBulk_loads (sink : WazuhIndexerSink) (today : UtcDate) :
    decodeBulk (Json.loads readFloat) (sink.buildBulkBody today events) =
      some (events.map fun ev => (⟨todayIndex sink.indexPrefix today, eventId? ev⟩, .obj ev)) :=
  WazuhIndexerSink.decodeBulk_eq
    (fun x hx => Json.newline_not_mem_dumpsLine (written_wellFormed hevents x hx))
    (fun x hx => Json.loads_dumpsLine (written_wellFormed hevents x hx))

end Texts

/-! ## The file -/

section File

variable (rotateSize : ℤ) (keep : ℕ)

/-- What the archives and the file hold, as one text. -/
def retainedText (events : List JsonObject) : String :=
  String.ofList
    (((fileSink rotateSize keep).retained ((fileSink rotateSize keep).after events)).flatMap String.toList)

/-- The last event is in the file. -/
theorem retained_append_line (log : RotatedLog String) (ev : JsonObject) :
    ∃ before, ((fileSink rotateSize keep).logAttempt log ev).retained =
      before ++ [(Json.obj ev).dumpsLine ++ "\n"] :=
  ⟨_, RotatedLog.retained_append _⟩

/-- What is retained is the lines of the events without some of the oldest, and the newest is among them. -/
theorem retained_eq_drop (events : List JsonObject) : ∃ n,
    (events ≠ [] → n < events.length) ∧
      (fileSink rotateSize keep).retained ((fileSink rotateSize keep).after events) =
        (events.drop n).map fun ev => (Json.obj ev).dumpsLine ++ "\n" := by
  set sink := fileSink rotateSize keep with hsink
  have hdelivered : sink.deliveredLines events = events.map fun ev => (Json.obj ev).dumpsLine ++ "\n" :=
    List.filterMap_eq_map (f := fun ev : JsonObject => (Json.obj ev).dumpsLine ++ "\n") ▸ rfl
  have hsuffix : (sink.logAfter events).retained <:+ sink.deliveredLines events :=
    FileSink.retained_logAfter events
  rw [FileSink.retained_eq (FileSink.represents_after events)]
  obtain ⟨n, hn⟩ : ∃ n, (sink.logAfter events).retained = (sink.deliveredLines events).drop n :=
    ⟨_, List.suffix_iff_eq_drop.mp hsuffix⟩
  rw [hdelivered, ← List.map_drop] at hn
  refine ⟨n, fun hne => ?_, hn⟩
  -- otherwise nothing is retained, but the last event is
  by_contra hle
  rw [List.drop_eq_nil_of_le (by omega), List.map_nil] at hn
  obtain ⟨front, last, rfl⟩ := List.eq_nil_or_concat events |>.resolve_left hne
  obtain ⟨before, hlast⟩ := retained_append_line rotateSize keep (sink.logAfter front) last
  rw [List.concat_eq_append, FileSink.logAfter, Runs.exec_append_singleton] at hn
  rw [FileSink.logAfter] at hlast
  rw [hlast] at hn
  simp at hn

/-- **The archives and the file are read as the events without some of the oldest**, whatever rotations there
have been. -/
theorem readLines_retained {readFloat : String → PyFloat} {events : List JsonObject}
    (hevents : ∀ ev ∈ events, (Json.obj ev).WellFormed readFloat) : ∃ n,
    (events ≠ [] → n < events.length) ∧
      readLines (Json.loads readFloat) (retainedText rotateSize keep events) =
        some ((events.drop n).map .obj) := by
  obtain ⟨n, hlast, hn⟩ := retained_eq_drop rotateSize keep events
  have htext : retainedText rotateSize keep events = streamText (events.drop n) := by
    unfold retainedText streamText Lines.terminated
    rw [hn, List.flatMap_map, List.flatMap_map]
    simp only [String.toList_append]
    rfl
  refine ⟨n, hlast, ?_⟩
  rw [htext]
  exact readLines_streamText fun ev hev => hevents ev (List.mem_of_mem_drop hev)

end File

end Sinks

end WazuhMcp
