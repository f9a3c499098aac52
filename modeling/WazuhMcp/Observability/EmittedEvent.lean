import Mathlib.Data.String.Basic
import WazuhMcp.Auth.Session
import WazuhMcp.Foundations.SortedDict
import WazuhMcp.Observability.Sinks.JsonLines

/-!
# The event that `emit` builds

`emit` builds a dict of texts and integers and hands it to the sinks. In place of the arguments of the call
it has their hash, `_hash_args(args)`, of the arguments as JSON with sorted keys.

* `hashPayload_eq_iff`: two calls have the same text to hash exactly if everything that can be looked up in
  the arguments of one, at any depth, is the same in the arguments of the other. The order in which a client
  sends its arguments plays no part, and no two different values are written alike.
* `emitted_formats_read`: whatever calls are audited, what the sinks write for them is read back as their
  events.
-/

namespace WazuhMcp

namespace Json

/-! ## Looking up -/

/-- A key of an object or an index of a list. -/
inductive Step where
  | key (k : String)
  | index (i : ℕ)
  deriving DecidableEq

/-- What is found one step down. -/
def child : Json → Step → Option Json
  | .obj kvs, .key k => Dict.get kvs k
  | .arr xs, .index i => xs[i]?
  | _, _ => none

/-- A value without what is in it. -/
def shape : Json → Json
  | .arr _ => .arr []
  | .obj _ => .obj []
  | x => x

/-- What is found at the end of a path, if the path leads anywhere. -/
def leafAt : Json → List Step → Option Json
  | x, [] => some x.shape
  | x, step :: path => (x.child step).bind fun y => y.leafAt path

/-! ## Sorting -/

mutual

/-- The value with the keys of every object sorted, as `sort_keys=True` writes it. -/
def sortKeys : Json → Json
  | .arr xs => .arr (sortItems xs)
  | .obj kvs => .obj (Dict.sortByKey (sortMembers kvs))
  | x => x

/-- The items of a list, sorted within. -/
def sortItems : List Json → List Json
  | [] => []
  | x :: xs => x.sortKeys :: sortItems xs

/-- The members of an object, sorted within. -/
def sortMembers : List (String × Json) → List (String × Json)
  | [] => []
  | (k, x) :: kvs => (k, x.sortKeys) :: sortMembers kvs

end

theorem sortItems_eq (xs : List Json) : sortItems xs = xs.map sortKeys := by
  induction xs with
  | nil => rfl
  | cons x xs ih => rw [sortItems, ih, List.map_cons]

theorem sortMembers_eq (kvs : List (String × Json)) :
    sortMembers kvs = kvs.map fun kv => (kv.1, kv.2.sortKeys) := by
  induction kvs with
  | nil => rfl
  | cons kv kvs ih =>
    obtain ⟨k, x⟩ := kv
    rw [sortMembers, ih, List.map_cons]

theorem sortKeys_arr (xs : List Json) : (Json.arr xs).sortKeys = .arr (xs.map sortKeys) := by
  rw [sortKeys, sortItems_eq]

theorem sortKeys_obj (kvs : List (String × Json)) : (Json.obj kvs).sortKeys =
    .obj (Dict.sortByKey (kvs.map fun kv => (kv.1, kv.2.sortKeys))) := by
  rw [sortKeys, sortMembers_eq]

theorem shape_sortKeys (x : Json) : x.sortKeys.shape = x.shape := by
  cases x with
  | null | bool | int | float | str => rfl
  | arr xs => rw [sortKeys_arr]; rfl
  | obj kvs => rw [sortKeys_obj]; rfl

variable {readFloat : String → PyFloat} {x y : Json}

theorem keys_map_sortKeys (kvs : List (String × Json)) :
    Dict.keys (kvs.map fun kv => (kv.1, kv.2.sortKeys)) = Dict.keys kvs := by
  simp [Dict.keys]

theorem get_map_sortKeys (kvs : List (String × Json)) (k : String) :
    Dict.get (kvs.map fun kv => (kv.1, kv.2.sortKeys)) k = (Dict.get kvs k).map sortKeys := by
  induction kvs with
  | nil => rfl
  | cons kv kvs ih =>
    unfold Dict.get at ih ⊢
    rw [List.map_cons, Dict.lookup_cons, Dict.lookup_cons, ih]
    split <;> rfl

/-- Sorting keeps a value well-formed. -/
theorem WellFormed.sortKeys (hx : x.WellFormed readFloat) : x.sortKeys.WellFormed readFloat := by
  induction hx with
  | null => exact .null
  | bool b => exact .bool b
  | int i => exact .int i
  | float hf => exact .float hf
  | str s => exact .str s
  | arr _ ih =>
    rw [sortKeys_arr]
    exact .arr (List.forall_mem_map.mpr ih)
  | @obj kvs hkeys _ ih =>
    have hkeys' : (Dict.keys (kvs.map fun kv => (kv.1, kv.2.sortKeys))).Nodup :=
      (keys_map_sortKeys kvs).symm ▸ hkeys
    rw [sortKeys_obj]
    refine .obj (Dict.keys_sortByKey_nodup hkeys') fun kv hkv => ?_
    obtain ⟨kv, hmem, rfl⟩ := List.mem_map.mp (Dict.mem_sortByKey.mp hkv)
    exact ih kv hmem

theorem child_sortKeys (hx : x.WellFormed readFloat) (step : Step) :
    x.sortKeys.child step = (x.child step).map Json.sortKeys := by
  cases hx with
  | null | bool | int | float | str => cases step <;> rfl
  | @arr xs _ =>
    rw [sortKeys_arr]
    cases step with
    | key k => rfl
    | index i => exact List.getElem?_map
  | @obj kvs hkeys _ =>
    have hkeys' : (Dict.keys (kvs.map fun kv => (kv.1, kv.2.sortKeys))).Nodup :=
      (keys_map_sortKeys kvs).symm ▸ hkeys
    rw [sortKeys_obj]
    cases step with
    | key k =>
      show Dict.get (Dict.sortByKey _) k = (Dict.get kvs k).map _
      rw [Dict.get_sortByKey hkeys', get_map_sortKeys]
    | index i => rfl

theorem WellFormed.child (hx : x.WellFormed readFloat) {step : Step} {y : Json}
    (hy : x.child step = some y) : y.WellFormed readFloat := by
  cases hx with
  | null | bool | int | float | str => cases step <;> cases hy
  | arr hxs =>
    cases step with
    | key k => cases hy
    | index i => exact hxs y (List.mem_of_getElem? hy)
  | obj hkeys hkvs =>
    cases step with
    | key k => exact hkvs _ ((Dict.get_eq_some_iff hkeys).mp hy)
    | index i => cases hy

/-- Sorting changes nothing that can be looked up. -/
theorem leafAt_sortKeys (hx : x.WellFormed readFloat) (path : List Step) :
    x.sortKeys.leafAt path = x.leafAt path := by
  induction path generalizing x with
  | nil => exact congrArg some (shape_sortKeys x)
  | cons step path ih =>
    rw [leafAt, leafAt, child_sortKeys hx, Option.bind_map]
    cases hy : x.child step with
    | none => rfl
    | some y => exact ih (hx.child hy)

/-- What can be looked up one step down. -/
theorem leafAt_child {x y x' y' : Json} {s : Step} (h : ∀ path, x.leafAt path = y.leafAt path)
    (hx : x.child s = some x') (hy : y.child s = some y') (path : List Step) :
    x'.leafAt path = y'.leafAt path := by
  have hstep := h (s :: path)
  rwa [leafAt, leafAt, hx, hy] at hstep

theorem isSome_child (h : ∀ path, x.leafAt path = y.leafAt path) (step : Step) :
    (x.child step).isSome = (y.child step).isSome := by
  have hstep := h [step]
  rw [leafAt, leafAt] at hstep
  cases hx : x.child step <;> cases hy : y.child step <;> simp_all [leafAt]

/-- Two lists or two dicts that agree where one has something agree. -/
theorem option_map_eq {f : Json → Json} {a b : Option Json} (hsome : a.isSome = b.isSome)
    (h : ∀ x y, a = some x → b = some y → f x = f y) : a.map f = b.map f := by
  cases a with
  | none =>
    cases b with
    | none => rfl
    | some y => cases hsome
  | some x =>
    cases b with
    | none => cases hsome
    | some y => exact congrArg some (h x y rfl rfl)

/-- **The sorted value is determined by what can be looked up.** -/
theorem sortKeys_eq (hx : x.WellFormed readFloat) (hy : y.WellFormed readFloat)
    (h : ∀ path, x.leafAt path = y.leafAt path) : x.sortKeys = y.sortKeys := by
  induction hx generalizing y with
  | null | bool _ | int _ | float _ | str _ =>
    have hshape := Option.some.inj (h [])
    cases hy <;> cases hshape
    rfl
  | @arr xs _ ih =>
    have hshape := Option.some.inj (h [])
    cases hy with
    | null | bool _ | int _ | float _ | str _ | obj _ _ => cases hshape
    | @arr ys hys =>
      rw [sortKeys_arr, sortKeys_arr]
      refine congrArg Json.arr (List.ext_getElem? fun i => ?_)
      rw [List.getElem?_map, List.getElem?_map]
      refine option_map_eq (isSome_child h (.index i)) fun x y hx hy => ?_
      exact ih x (List.mem_of_getElem? hx) (hys y (List.mem_of_getElem? hy))
        (leafAt_child (s := .index i) h hx hy)
  | @obj kvs hkeys _ ih =>
    have hshape := Option.some.inj (h [])
    cases hy with
    | null | bool _ | int _ | float _ | str _ | arr _ => cases hshape
    | @obj kvs' hkeys' hkvs' =>
      rw [sortKeys_obj, sortKeys_obj]
      refine congrArg Json.obj ((Dict.sortByKey_eq_iff ((keys_map_sortKeys kvs).symm ▸ hkeys)
        ((keys_map_sortKeys kvs').symm ▸ hkeys')).mpr fun k => ?_)
      rw [get_map_sortKeys, get_map_sortKeys]
      refine option_map_eq (isSome_child h (.key k)) fun x y hx hy => ?_
      exact ih _ ((Dict.get_eq_some_iff hkeys).mp hx) (hkvs' _ ((Dict.get_eq_some_iff hkeys').mp hy))
        (leafAt_child (s := .key k) h hx hy)

end Json

/-! ## The hash of the arguments -/

/-- `payload`, of `_hash_args(args)`. -/
def hashPayload (args : JsonObject) : String := (Json.obj args).sortKeys.dumpsLine

/-- `_hash_args(args)`, for a digest in hexadecimal. -/
def hashArgs (sha256 : String → String) (args : JsonObject) : String := sha256 (hashPayload args)

/-- **What is hashed says what the arguments are, and nothing else**: two calls have the same text exactly if
everything that can be looked up in their arguments is the same. -/
theorem hashPayload_eq_iff {readFloat : String → PyFloat} {args args' : JsonObject}
    (hargs : (Json.obj args).WellFormed readFloat) (hargs' : (Json.obj args').WellFormed readFloat) :
    hashPayload args = hashPayload args' ↔
      ∀ path, (Json.obj args).leafAt path = (Json.obj args').leafAt path := by
  constructor
  · intro h path
    have hsorted : (Json.obj args).sortKeys = (Json.obj args').sortKeys := by
      have hread := Json.loads_dumpsLine hargs.sortKeys
      have hread' := Json.loads_dumpsLine hargs'.sortKeys
      rw [show (Json.obj args).sortKeys.dumpsLine = (Json.obj args').sortKeys.dumpsLine from h] at hread
      exact Option.some.inj (hread.symm.trans hread')
    rw [← Json.leafAt_sortKeys hargs, hsorted, Json.leafAt_sortKeys hargs']
  · intro h
    exact congrArg Json.dumpsLine (Json.sortKeys_eq hargs hargs' h)

/-- Arguments, as a client may send them. -/
def searchArgs : JsonObject := [("size", .int 5), ("filter", .obj [("level", .int 7), ("agent", .str "é")])]

/-- The same arguments in another order. -/
def searchArgsReordered : JsonObject :=
  [("filter", .obj [("agent", .str "é"), ("level", .int 7)]), ("size", .int 5)]

theorem searchArgs_wellFormed (readFloat : String → PyFloat) :
    (Json.obj searchArgs).WellFormed readFloat ∧ (Json.obj searchArgsReordered).WellFormed readFloat := by
  have hlevel : (Json.int 7).WellFormed readFloat := .int 7
  have hagent : (Json.str "é").WellFormed readFloat := .str "é"
  have hsize : (Json.int 5).WellFormed readFloat := .int 5
  refine ⟨.obj (by decide) ?_, .obj (by decide) ?_⟩
  · exact List.forall_mem_cons.mpr ⟨hsize, List.forall_mem_singleton.mpr <| .obj (by decide) <|
      List.forall_mem_cons.mpr ⟨hlevel, List.forall_mem_singleton.mpr hagent⟩⟩
  · refine List.forall_mem_cons.mpr ⟨.obj (by decide) ?_, List.forall_mem_singleton.mpr hsize⟩
    exact List.forall_mem_cons.mpr ⟨hagent, List.forall_mem_singleton.mpr hlevel⟩

theorem hashPayload_eq_iff_reordered : hashPayload searchArgs = hashPayload searchArgsReordered ↔
    ∀ path, (Json.obj searchArgs).leafAt path = (Json.obj searchArgsReordered).leafAt path :=
  hashPayload_eq_iff (searchArgs_wellFormed fun s => ⟨.nan, s⟩).1
    (searchArgs_wellFormed fun s => ⟨.nan, s⟩).2

/-! ## The event -/

/-- What `emit` is called with. -/
structure EmitCall where
  session : Session
  tool : String
  args : JsonObject
  outcome : String
  resultCount : ℤ
  durationMs : ℤ
  errorCode : Option String
  errorReason : Option String

/-- What `emit` asks its surroundings for: the time, a fresh id and the id of the request. -/
structure EmitContext where
  timestamp : String
  eventId : String
  requestId : Option String

/-- A text or `None`. -/
def optionalText (s : Option String) : Json := s.elim .null .str

/-- `event["error_code"] = error_code`, unless it is `None`. -/
def setUnlessNone (event : JsonObject) (key : String) (value : Option String) : JsonObject :=
  match value with
  | none => event
  | some text => Dict.set event key (.str text)

/-- `event`, of `emit(...)`. -/
def emittedEvent (sha256 : String → String) (ctx : EmitContext) (call : EmitCall) : JsonObject :=
  let event : JsonObject :=
    [("timestamp", .str ctx.timestamp), ("tool", .str call.tool), ("user", .str call.session.userId),
      ("tenant", .str call.session.tenantId), ("rbac_role", .str call.session.rbacRole),
      ("arg_hash", .str (hashArgs sha256 call.args)), ("outcome", .str call.outcome),
      ("result_count", .int call.resultCount), ("duration_ms", .int call.durationMs)]
  let event := Dict.set event "event_id" (.str ctx.eventId)
  let event := Dict.set event "request_id" (optionalText ctx.requestId)
  let event := setUnlessNone event "error_code" call.errorCode
  setUnlessNone event "error_reason" call.errorReason

section Event

variable {readFloat : String → PyFloat} {d : JsonObject}

theorem Json.WellFormed.set (hd : (Json.obj d).WellFormed readFloat) (k : String) {x : Json}
    (hx : x.WellFormed readFloat) : (Json.obj (Dict.set d k x)).WellFormed readFloat := by
  cases hd with
  | obj hkeys hkvs =>
    refine .obj (Dict.keys_set_nodup hkeys k x) ?_
    clear hkeys
    induction d with
    | nil => exact List.forall_mem_singleton.mpr hx
    | cons kv d ih =>
      obtain ⟨hkv, hrest⟩ := List.forall_mem_cons.mp hkvs
      rw [Dict.set]
      split
      · exact List.forall_mem_cons.mpr ⟨hx, hrest⟩
      · exact List.forall_mem_cons.mpr ⟨hkv, ih hrest⟩

theorem setUnlessNone_wellFormed (hd : (Json.obj d).WellFormed readFloat) (k : String) (s : Option String) :
    (Json.obj (setUnlessNone d k s)).WellFormed readFloat := by
  cases s with
  | none => exact hd
  | some text => exact hd.set k (.str text)

theorem emittedEvent_wellFormed (sha256 : String → String) (ctx : EmitContext) (call : EmitCall) :
    (Json.obj (emittedEvent sha256 ctx call)).WellFormed readFloat := by
  unfold emittedEvent
  refine setUnlessNone_wellFormed (setUnlessNone_wellFormed (.set (.set (.obj ?_ ?_) _ (.str _)) _ ?_) _ _) _ _
  · simp
  · intro kv hkv
    simp only [List.mem_cons, List.not_mem_nil, or_false] at hkv
    rcases hkv with rfl | rfl | rfl | rfl | rfl | rfl | rfl | rfl | rfl <;> constructor
  · cases ctx.requestId with
    | none => exact .null
    | some id => exact .str id

theorem get_setUnlessNone {k k' : String} (h : k' ≠ k) (s : Option String) :
    Dict.get (setUnlessNone d k s) k' = Dict.get d k' := by
  cases s with
  | none => rfl
  | some text => exact Dict.get_set_of_ne d h _

/-- The id of the event is the fresh one. -/
theorem eventId?_emittedEvent (sha256 : String → String) (ctx : EmitContext) (call : EmitCall) :
    Sinks.eventId? (emittedEvent sha256 ctx call) = some (.str ctx.eventId) := by
  have hget : Dict.get (emittedEvent sha256 ctx call) "event_id" = some (.str ctx.eventId) := by
    unfold emittedEvent
    rw [get_setUnlessNone (by decide), get_setUnlessNone (by decide), Dict.get_set_of_ne _ (by decide),
      Dict.get_set_self]
  have hid : (emittedEvent sha256 ctx call).get "event_id" = .str ctx.eventId := by
    show ((emittedEvent sha256 ctx call).lookup "event_id").getD .null = _
    rw [show (emittedEvent sha256 ctx call).lookup "event_id" = _ from hget]
    rfl
  rw [Sinks.eventId?, hid]

/-- **What the sinks write for any calls is read back as the events of the calls**: the lines of a stream, the
archives and the file of a file sink without some of the oldest, the body of a webhook, and a bulk body, where
each event comes with its own id. -/
theorem emitted_formats_read (readFloat : String → PyFloat) (sha256 : String → String)
    (calls : List (EmitContext × EmitCall)) (sink : Sinks.WazuhIndexerSink) (today : Sinks.UtcDate)
    (rotateSize : ℤ) (keep : ℕ) :
    let event := fun call : EmitContext × EmitCall => emittedEvent sha256 call.1 call.2
    let events := calls.map event
    readLines (Json.loads readFloat) (Sinks.streamText events) = some (events.map .obj) ∧
      (∃ n, (events ≠ [] → n < events.length) ∧
        readLines (Json.loads readFloat) (Sinks.retainedText rotateSize keep events) =
          some ((events.drop n).map .obj)) ∧
      Json.loads readFloat (Sinks.payload events) = some (.arr (events.map .obj)) ∧
      Sinks.decodeBulk (Json.loads readFloat) (sink.buildBulkBody today events) =
        some (calls.map fun call =>
          (⟨Sinks.todayIndex sink.indexPrefix today, some (.str call.1.eventId)⟩, .obj (event call))) := by
  intro event events
  have hevents : ∀ ev ∈ events, (Json.obj ev).WellFormed readFloat := by
    intro ev hev
    obtain ⟨call, -, rfl⟩ := List.mem_map.mp hev
    exact emittedEvent_wellFormed sha256 call.1 call.2
  refine ⟨Sinks.readLines_streamText hevents, Sinks.readLines_retained rotateSize keep hevents,
    Sinks.loads_payload hevents, ?_⟩
  rw [Sinks.decodeBulk_loads hevents, List.map_map]
  refine congrArg some (List.map_congr_left fun call _ => ?_)
  show (Sinks.IndexAction.mk _ (Sinks.eventId? (event call)), Json.obj (event call)) = _
  rw [eventId?_emittedEvent]

end Event

end WazuhMcp
