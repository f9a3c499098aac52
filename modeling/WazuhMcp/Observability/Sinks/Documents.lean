import WazuhMcp.Base.Json
import WazuhMcp.Foundations.Upsert
import WazuhMcp.Observability.Sinks.Base

/-!
# The documents of the indexer sink

`WazuhIndexerSink` writes an event with an `index` action whose `_id` is the `event_id` and whose index is
the one of the day. An action with an `_id` replaces the document of that `_id` in the index that it
names, so that an event which is written again is not there twice. But `_build_bulk_body` asks for the day
whenever a batch is sent: an attempt whose response was lost before midnight and the one that follows
after it write to two indices.

So the indices `{prefix}-*` hold one document at most of each `event_id` exactly if the actions for it
that the indexer has executed come from bodies that were built on one day (`one_document_iff`), as they
do in a run in which no event is sent on two days (`always_one_document`).
-/

namespace WazuhMcp.Sinks

/-! ## The body of a bulk request -/

/-- The date of `datetime.now(UTC)` -/
structure UtcDate where
  year : ℕ
  month : ℕ
  day : ℕ
  month_le : month ≤ 12
  day_le : day ≤ 31
  deriving DecidableEq

/-- The two digits of a number below a hundred. -/
def twoDigits (n : ℕ) : List Char := [Nat.digitChar (n / 10), Nat.digitChar (n % 10)]

/-- `strftime('%Y.%m.%d')` -/
def UtcDate.strftime (d : UtcDate) : String :=
  String.ofList (d.year.repr.toList ++ '.' :: (twoDigits d.month ++ '.' :: twoDigits d.day))

/-- An event as a sink gets it: a record whose `event_id`, if it has one, is a text. -/
structure AuditRecord where
  fields : JsonObject
  typed : fields.get "event_id" = .null ∨ ∃ id, fields.get "event_id" = .str id

/-- `ev.get("event_id")` -/
def AuditRecord.eventId (ev : AuditRecord) : Option String :=
  match ev.fields.get "event_id" with
  | .str id => some id
  | _ => none

/-- The action that goes before an event: the index it names, and the `_id` if it has one. -/
structure BulkAction where
  index : String
  id : Option String

/-- `_today_index()` -/
def todayIndex (indexPrefix : String) (today : UtcDate) : String :=
  indexPrefix ++ "-" ++ today.strftime

/-- `_build_bulk_body(events)`: the lines of the body, in pairs. -/
def buildBulkBody (indexPrefix : String) (today : UtcDate) (events : List AuditRecord) :
    List (BulkAction × AuditRecord) :=
  let index := todayIndex indexPrefix today
  events.map fun ev => (⟨index, ev.eventId⟩, ev)

theorem digitChar_inj {m n : ℕ} (hm : m < 10) (hn : n < 10) (h : m.digitChar = n.digitChar) : m = n := by
  have hall : ∀ a b : Fin 10, a.val.digitChar = b.val.digitChar → a = b := by decide
  exact congrArg Fin.val (hall ⟨m, hm⟩ ⟨n, hn⟩ h)

theorem twoDigits_inj {m n : ℕ} (hm : m < 100) (hn : n < 100) (h : twoDigits m = twoDigits n) : m = n := by
  obtain ⟨hhigh, hlow⟩ := List.cons.inj h
  obtain ⟨hlow, -⟩ := List.cons.inj hlow
  have hten := digitChar_inj (by omega) (by omega) hhigh
  have hone := digitChar_inj (by omega) (by omega) hlow
  omega

/-- The dates of two days are written differently. -/
theorem strftime_inj {d d' : UtcDate} (h : d.strftime = d'.strftime) : d = d' := by
  have hchars := String.ofList_injective h
  obtain ⟨hyear, hrest⟩ := List.append_inj' hchars rfl
  obtain ⟨-, hrest⟩ := List.cons.inj hrest
  obtain ⟨hmonth, hday⟩ := List.append_inj hrest rfl
  obtain ⟨-, hday⟩ := List.cons.inj hday
  have hy : d.year = d'.year := by
    rw [Nat.toList_repr, Nat.toList_repr] at hyear
    rw [← Nat.ofDigitChars_ten_toDigits (n := d.year), hyear, Nat.ofDigitChars_ten_toDigits]
  have hm : d.month = d'.month := by
    have hle := d.month_le
    have hle' := d'.month_le
    exact twoDigits_inj (by omega) (by omega) hmonth
  have hd : d.day = d'.day := by
    have hle := d.day_le
    have hle' := d'.day_le
    exact twoDigits_inj (by omega) (by omega) hday
  obtain ⟨year, month, day, hmonth_le, hday_le⟩ := d
  subst hy hm hd
  rfl

/-- The events of two days go to two indices. -/
theorem todayIndex_inj {indexPrefix : String} {d d' : UtcDate} :
    todayIndex indexPrefix d = todayIndex indexPrefix d' ↔ d = d' := by
  constructor
  · intro h
    have hchars := congrArg String.toList h
    simp only [todayIndex, String.toList_append, List.append_cancel_left_eq] at hchars
    exact strftime_inj (String.toList_injective hchars)
  · rintro rfl
    rfl

/-! ## The indexer -/

/-- A pair of lines of a bulk request, with the day on which its body was built. -/
structure Posted where
  today : UtcDate
  action : BulkAction
  event : AuditRecord

/-- A document: its index, its `_id`, unless the indexer has made one up, and its source. -/
structure Document where
  index : String
  id : Option String
  source : AuditRecord

/-- What tells a document from others. -/
def Document.key (d : Document) : Option (String × String) := d.id.map fun id => (d.index, id)

/-- The document that an `index` action writes. -/
def Posted.document (p : Posted) : Document := ⟨p.action.index, p.action.id, p.event⟩

/-- The index is one of `{prefix}-*`. -/
def inAuditIndices (indexPrefix : String) (d : Document) : Bool :=
  Text.startsWith d.index (indexPrefix ++ "-")

/-! ## Runs -/

/-- The sink, and the indexer: the actions that it has received and not executed, and those that it has
executed, in this order. -/
structure IndexerRun where
  sink : SinkState
  pending : List Posted
  executed : List Posted

/-- A new sink, and an indexer that has no audit index. -/
def IndexerRun.init : IndexerRun := ⟨.init, [], []⟩

/-- The documents that the executed actions have written. -/
def IndexerRun.documents (st : IndexerRun) : List Document :=
  Upsert.writeAll Document.key [] (st.executed.map Posted.document)

/-- A body has been posted in the attempt: the template is there, and the client. -/
def IndexerAns.posted : IndexerAns → Bool
  | .unavailable => false
  | _ => true

/-- The batch that is being sent, and what becomes of the attempt, if the step puts an end to it. -/
def SinkState.ending (st : SinkState) : SinkAction IndexerAns → Option (List Entry × IndexerAns)
  | .attempt ans =>
    match st.drain with
    | .sending events _ => some (events, ans)
    | _ => none
  | .abort ans =>
    match st.drain, ans.succeeded with
    | .sending events _, false => some (events, ans)
    | _, _ => none
  | .cancel ans =>
    match st.stopPhase, st.drain, ans.succeeded with
    | .cancelling, .sending events _, false => some (events, ans)
    | _, _, _ => none
  | _ => none

/-- A step of the sink, in which a body that is sent is built on a given day, or the execution of an
action that the indexer had left. -/
inductive IndexerAction where
  | sink (a : SinkAction IndexerAns) (today : UtcDate)
  | late (k : ℕ)

section Runs

variable (args : SinkArgs) (indexPrefix : String) (content : Entry → AuditRecord)

/-- The actions of a batch. -/
def postedLines (today : UtcDate) (events : List Entry) : List (Entry × Posted) :=
  events.zip ((buildBulkBody indexPrefix today (events.map content)).map fun line =>
    ⟨today, line.1, line.2⟩)

/-- The indexer receives a body: it executes what the attempt has come to, and leaves the rest. -/
def IndexerRun.receive (st : IndexerRun) (today : UtcDate) (events : List Entry) (ans : IndexerAns) :
    IndexerRun :=
  let lines := postedLines indexPrefix content today events
  { st with
    executed := st.executed ++ (lines.filter fun l => ans.accepted l.1).map Prod.snd
    pending := st.pending ++ (lines.filter fun l => !ans.accepted l.1).map Prod.snd }

/-- One step; a step that is not enabled changes nothing. -/
def IndexerRun.step (st : IndexerRun) : IndexerAction → IndexerRun
  | .sink a today =>
    let st' := { st with sink := Sinks.step (wazuhIndexerSink args) st.sink a }
    match st.sink.ending a with
    | some (events, ans) => if ans.posted then st'.receive indexPrefix content today events ans else st'
    | none => st'
  | .late k =>
    match st.pending[k]? with
    | some p => { st with pending := st.pending.eraseIdx k, executed := st.executed ++ [p] }
    | none => st

/-- The audit indices hold one document at most of each `event_id`. -/
def OneDocumentEach (docs : List Document) : Prop :=
  ∀ id, docs.countP (fun d => inAuditIndices indexPrefix d && d.source.eventId = some id) ≤ 1

/-- The actions that the indexer has executed for one `event_id` come from bodies of one day. -/
def OneDayEach (executed : List Posted) : Prop :=
  ∀ p ∈ executed, ∀ q ∈ executed, p.event.eventId ≠ none → p.event.eventId = q.event.eventId →
    p.today = q.today

variable {args indexPrefix content} {st : IndexerRun} {p : Posted}

/-- The action is the one that `_build_bulk_body` makes on that day. -/
def Posted.Built (indexPrefix : String) (p : Posted) : Prop :=
  p.action = ⟨todayIndex indexPrefix p.today, p.event.eventId⟩

theorem built_of_mem_postedLines {today : UtcDate} {events : List Entry} {l : Entry × Posted}
    (h : l ∈ postedLines indexPrefix content today events) : l.2.Built indexPrefix ∧ l.2.today = today := by
  obtain ⟨line, hline, heq⟩ := List.mem_map.mp (List.of_mem_zip h).2
  obtain ⟨ev, -, rfl⟩ := List.mem_map.mp hline
  rw [← heq]
  exact ⟨rfl, rfl⟩

variable (args indexPrefix content) in
/-- **What a step does to the actions**: the indexer receives those of a body, or executes one that it has
received. -/
theorem step_cases (st : IndexerRun) (a : IndexerAction) :
    let st' := st.step args indexPrefix content a
    (st'.executed = st.executed ∧ st'.pending = st.pending) ∨
    (∃ sa today events ans, a = .sink sa today ∧ st.sink.ending sa = some (events, ans) ∧
      ∀ p, p ∈ st'.executed ++ st'.pending ↔
        p ∈ st.executed ++ st.pending ∨
          ∃ l ∈ postedLines indexPrefix content today events, l.2 = p) ∨
    ∃ k p, a = .late k ∧ st.pending[k]? = some p ∧ st'.executed = st.executed ++ [p] ∧
      st'.pending = st.pending.eraseIdx k := by
  intro st'
  cases a with
  | sink sa today =>
    cases hending : st.sink.ending sa with
    | none => exact .inl (by simp [st', IndexerRun.step, hending])
    | some e =>
      obtain ⟨events, ans⟩ := e
      cases hposted : ans.posted with
      | false => exact .inl (by simp [st', IndexerRun.step, hending, hposted])
      | true =>
        refine .inr (.inl ⟨sa, today, events, ans, rfl, hending, fun p => ?_⟩)
        simp only [st', IndexerRun.step, hending, hposted, IndexerRun.receive, if_true,
          List.mem_append, List.mem_map, List.mem_filter]
        constructor
        · rintro ((hp | ⟨l, ⟨hl, -⟩, rfl⟩) | hp | ⟨l, ⟨hl, -⟩, rfl⟩)
          · exact .inl (.inl hp)
          · exact .inr ⟨l, hl, rfl⟩
          · exact .inl (.inr hp)
          · exact .inr ⟨l, hl, rfl⟩
        · rintro ((hp | hp) | ⟨l, hl, rfl⟩)
          · exact .inl (.inl hp)
          · exact .inr (.inl hp)
          · cases haccepted : ans.accepted l.1 with
            | true => exact .inl (.inr ⟨l, ⟨hl, haccepted⟩, rfl⟩)
            | false => exact .inr (.inr ⟨l, ⟨hl, by simp [haccepted]⟩, rfl⟩)
  | late k =>
    cases hpending : st.pending[k]? with
    | none => exact .inl (by simp [st', IndexerRun.step, hpending])
    | some p => exact .inr (.inr ⟨k, p, rfl, hpending, by simp [st', IndexerRun.step, hpending]⟩)

/-- All actions of a run are such as `_build_bulk_body` makes. -/
theorem built_exec (acts : List IndexerAction) :
    let st := Runs.exec (IndexerRun.step args indexPrefix content) .init acts
    ∀ p ∈ st.executed ++ st.pending, p.Built indexPrefix := by
  suffices hstep : ∀ (st : IndexerRun) a, (∀ p ∈ st.executed ++ st.pending, p.Built indexPrefix) →
      ∀ p ∈ (st.step args indexPrefix content a).executed ++
        (st.step args indexPrefix content a).pending, p.Built indexPrefix by
    refine Runs.exec_invariant ?_ hstep acts
    rintro p ⟨⟩
  intro st a hst p hp
  rcases step_cases args indexPrefix content st a with
    ⟨hexecuted, hpending⟩ | ⟨_, today, events, _, -, -, hmem⟩ | ⟨k, q, -, hq, hexecuted, hpending⟩
  · rw [hexecuted, hpending] at hp
    exact hst p hp
  · rcases (hmem p).mp hp with hp | ⟨l, hl, rfl⟩
    · exact hst p hp
    · exact (built_of_mem_postedLines hl).1
  · rw [hexecuted, hpending] at hp
    simp only [List.mem_append, List.mem_singleton] at hp
    rcases hp with (hp | rfl) | hp
    · exact hst p (List.mem_append_left _ hp)
    · exact hst p (List.mem_append_right _ (List.mem_of_getElem? hq))
    · exact hst p (List.mem_append_right _ (List.mem_of_mem_eraseIdx hp))

/-! ## One document each -/

/-- A document that an action of the sink writes. -/
theorem key_document (h : p.Built indexPrefix) :
    p.document.key = p.event.eventId.map fun id => (todayIndex indexPrefix p.today, id) := by
  unfold Document.key Posted.document
  rw [h]

theorem inAuditIndices_document (h : p.Built indexPrefix) :
    inAuditIndices indexPrefix p.document = true := by
  unfold inAuditIndices Posted.document Text.startsWith
  rw [h]
  simp [todayIndex, List.isPrefixOf_iff_prefix]

/-- **One document each**: the audit indices hold one document at most of each `event_id` exactly if the
actions that the indexer has executed for it come from bodies of one day. -/
theorem oneDocumentEach_iff (hbuilt : ∀ p ∈ st.executed, p.Built indexPrefix) :
    OneDocumentEach indexPrefix st.documents ↔ OneDayEach st.executed := by
  have hkeyed : Upsert.WellKeyed Document.key st.documents := Upsert.wellKeyed_nil.writeAll _
  -- every document is one that an executed action has written
  have hdocs : ∀ d ∈ st.documents, ∃ p ∈ st.executed, p.document = d :=
    Upsert.forall_writeAll (fun d hd => by cases hd) fun d hd => List.mem_map.mp hd
  have hone (id : String) := hkeyed.countP_le_one_iff
    (p := fun d => inAuditIndices indexPrefix d && d.source.eventId = some id) fun d hd hp => by
      obtain ⟨p, hp', rfl⟩ := hdocs d hd
      simp only [Bool.and_eq_true, decide_eq_true_eq] at hp
      rw [key_document (hbuilt p hp')]
      rw [show p.event.eventId = some id from hp.2]
      exact Option.some_ne_none _
  -- and every executed action has left a document of its key
  have hwritten : ∀ p ∈ st.executed, ∀ k, p.document.key = some k → ∃ d ∈ st.documents, d.key = some k :=
    fun p hp k hk => Upsert.exists_key_writeAll.mpr (.inr ⟨_, List.mem_map_of_mem hp, hk⟩)
  constructor
  · intro h p hp q hq hid hsame
    obtain ⟨id, hid⟩ := Option.ne_none_iff_exists'.mp hid
    have hagree := (hone id).mp (h id)
    have hkey (r : Posted) (hr : r ∈ st.executed) (hrid : r.event.eventId = some id) :
        ∃ d ∈ st.documents, d.key = some (todayIndex indexPrefix r.today, id) ∧
          (inAuditIndices indexPrefix d && d.source.eventId = some id) = true := by
      obtain ⟨d, hd, hdkey⟩ := hwritten r hr _ (by rw [key_document (hbuilt r hr), hrid]; rfl)
      refine ⟨d, hd, hdkey, ?_⟩
      obtain ⟨r', hr', rfl⟩ := hdocs d hd
      rw [key_document (hbuilt r' hr'), Option.map_eq_some_iff] at hdkey
      obtain ⟨id', hid', hpair⟩ := hdkey
      obtain rfl : id' = id := congrArg Prod.snd hpair
      rw [inAuditIndices_document (hbuilt r' hr'), Bool.true_and, decide_eq_true_eq]
      exact hid'
    obtain ⟨d, hd, hdkey, hdp⟩ := hkey p hp hid
    obtain ⟨d', hd', hdkey', hdp'⟩ := hkey q hq (hsame ▸ hid)
    have heq := hagree d hd d' hd' hdp hdp'
    rw [hdkey, hdkey'] at heq
    exact todayIndex_inj.mp (congrArg Prod.fst (Option.some.inj heq))
  · intro h id
    rw [hone id]
    intro d hd d' hd' hp hp'
    obtain ⟨p, hpmem, rfl⟩ := hdocs d hd
    obtain ⟨q, hqmem, rfl⟩ := hdocs d' hd'
    simp only [Bool.and_eq_true, decide_eq_true_eq] at hp hp'
    have hpid : p.event.eventId = some id := hp.2
    have hqid : q.event.eventId = some id := hp'.2
    have hday := h p hpmem q hqmem (by rw [hpid]; exact Option.some_ne_none _) (hpid.trans hqid.symm)
    rw [key_document (hbuilt p hpmem), key_document (hbuilt q hqmem), hpid, hqid, hday]

/-- **Exactly-once audit documents.** After any run, with any responses, at any times, the audit indices
hold one document at most of each `event_id` exactly if the actions executed for it come from bodies that
were built on one day. -/
theorem one_document_iff (args : SinkArgs) (indexPrefix : String) (content : Entry → AuditRecord)
    (acts : List IndexerAction) :
    let st := Runs.exec (IndexerRun.step args indexPrefix content) .init acts
    OneDocumentEach indexPrefix st.documents ↔ OneDayEach st.executed :=
  oneDocumentEach_iff fun p hp => built_exec acts p (List.mem_append_left _ hp)

/-- A batch that is sent holds no event of an `event_id` that has been sent on another day. -/
def SentOnOneDay (content : Entry → AuditRecord) (st : IndexerRun) (a : IndexerAction) : Prop :=
  ∀ sa today events ans, a = .sink sa today → st.sink.ending sa = some (events, ans) →
    ∀ e ∈ events, (content e).eventId ≠ none → ∀ p ∈ st.executed ++ st.pending,
      p.event.eventId = (content e).eventId → p.today = today

theorem event_of_mem_postedLines {today : UtcDate} {events : List Entry} {l : Entry × Posted}
    (h : l ∈ postedLines indexPrefix content today events) : ∃ e ∈ events, l.2.event = content e := by
  obtain ⟨line, hline, heq⟩ := List.mem_map.mp (List.of_mem_zip h).2
  obtain ⟨ev, hev, rfl⟩ := List.mem_map.mp hline
  obtain ⟨e, he, rfl⟩ := List.mem_map.mp hev
  exact ⟨e, he, by rw [← heq]⟩

theorem oneDayEach_step {a : IndexerAction} (h : OneDayEach (st.executed ++ st.pending))
    (ha : SentOnOneDay content st a) :
    let st' := st.step args indexPrefix content a
    OneDayEach (st'.executed ++ st'.pending) := by
  intro st'
  rcases step_cases args indexPrefix content st a with
    ⟨hexecuted, hpending⟩ | ⟨sa, today, events, ans, hsink, hending, hmem⟩ |
      ⟨k, p, -, hp, hexecuted, hpending⟩
  · rw [hexecuted, hpending]
    exact h
  · have hearlier (p : Posted) (hp : p ∈ st.executed ++ st.pending) (l : Entry × Posted)
        (hl : l ∈ postedLines indexPrefix content today events) (hid : p.event.eventId ≠ none)
        (hsame : p.event.eventId = l.2.event.eventId) : p.today = today := by
      obtain ⟨e, he, hevent⟩ := event_of_mem_postedLines hl
      rw [hevent] at hsame
      exact ha sa today events ans hsink hending e he (hsame ▸ hid) p hp hsame
    intro p hp q hq hid hsame
    rcases (hmem p).mp hp with hp | ⟨l, hl, rfl⟩
    · rcases (hmem q).mp hq with hq | ⟨l, hl, rfl⟩
      · exact h p hp q hq hid hsame
      · rw [hearlier p hp l hl hid hsame, (built_of_mem_postedLines hl).2]
    · rcases (hmem q).mp hq with hq | ⟨l', hl', rfl⟩
      · rw [hearlier q hq l hl (hsame ▸ hid) hsame.symm, (built_of_mem_postedLines hl).2]
      · rw [(built_of_mem_postedLines hl).2, (built_of_mem_postedLines hl').2]
  · have hsub : ∀ q ∈ st'.executed ++ st'.pending, q ∈ st.executed ++ st.pending := by
      intro q hq
      rw [hexecuted, hpending] at hq
      simp only [List.mem_append, List.mem_singleton] at hq ⊢
      rcases hq with (hq | rfl) | hq
      · exact .inl hq
      · exact .inr (List.mem_of_getElem? hp)
      · exact .inr (List.mem_of_mem_eraseIdx hq)
    exact fun p hp q hq => h p (hsub p hp) q (hsub q hq)

/-- **Batches that are sent again on the same day only** leave one document at most of each `event_id`,
throughout the run. -/
theorem always_one_document {acts : List IndexerAction}
    (h : Runs.EachStep (IndexerRun.step args indexPrefix content) (SentOnOneDay content) .init acts) :
    Runs.Always (IndexerRun.step args indexPrefix content)
      (fun st => OneDocumentEach indexPrefix st.documents) .init acts := by
  rintro pre post rfl
  have hpre : Runs.EachStep (IndexerRun.step args indexPrefix content) (SentOnOneDay content) .init pre :=
    fun before a after heq => h before a (after ++ post) (by simp [heq])
  have hstep : ∀ (st : IndexerRun) a, OneDayEach (st.executed ++ st.pending) →
      SentOnOneDay content st a → OneDayEach ((st.step args indexPrefix content a).executed ++
        (st.step args indexPrefix content a).pending) := fun st a hst ha => oneDayEach_step hst ha
  have hdays := Runs.exec_induction (by rintro p ⟨⟩) hstep hpre
  rw [oneDocumentEach_iff fun p hp => built_exec pre p (List.mem_append_left _ hp)]
  exact fun p hp q hq => hdays p (List.mem_append_left _ hp) q (List.mem_append_left _ hq)

end Runs

/-! ## Midnight -/

/-- The record of one tool call. -/
def midnightRecord : AuditRecord where
  fields := [("event_id", .str "id-A")]
  typed := .inr ⟨"id-A", rfl⟩

/-- A batch of one event is sent, and written, before midnight; the response is lost, and the batch is
sent again after midnight. -/
def midnightRun : List IndexerAction :=
  let before : UtcDate := ⟨2026, 5, 4, by decide, by decide⟩
  let later : UtcDate := ⟨2026, 5, 5, by decide, by decide⟩
  [.sink .start before, .sink .submit before, .sink .get before, .sink .flush before,
    .sink (.attempt (.raised fun _ => true)) before, .sink .backoffElapsed later,
    .sink (.attempt (.bulk false fun _ => true)) later]

/-- After it, there are two documents of one `event_id`. -/
theorem two_documents :
    ¬ ∀ (args : SinkArgs) (indexPrefix : String) (content : Entry → AuditRecord)
      (acts : List IndexerAction), OneDocumentEach indexPrefix
        (Runs.exec (IndexerRun.step args indexPrefix content) .init acts).documents := by
  intro h
  have hcount := h {} "wazuh-mcp-audit" (fun _ => midnightRecord) midnightRun "id-A"
  revert hcount
  decide +kernel

end WazuhMcp.Sinks
