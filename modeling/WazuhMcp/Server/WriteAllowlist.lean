import WazuhMcp.Foundations.Fallible
import WazuhMcp.Server.ActiveResponse

/-!
# The write allowlist

Three lists of names go into a `write_allowlist`: the names that its validator knows, the names under
which the write tools are registered, and the names that their closures pass to
`_check_write_allowed`. The last two are the same, and the check stands before the pool is asked for a
client. The validator does not know `write.restart_manager`.

* `isWriteTool_iff`: the registered write tools are the ones that the validator knows, and that one.
* `all_writeChecked`: what each write tool's closure does with the allowlist, in every run.
* `writeAllowlist_agreement`: the lists agree on a value exactly if it is not a list of write tools with
  `write.restart_manager` among them.
-/

namespace WazuhMcp

open Interact Fallible

/-! ## The validator -/

/-- `_WRITE_TOOL_NAMES` -/
def writeToolNames : List String :=
  ["write.isolate_agent", "write.restart_agent", "write.add_agent_to_group",
    "write.remove_agent_from_group", "write.create_rule", "write.update_rule",
    "write.run_active_response", "write.run_active_response_on_group"]

/-- `_validate_write_allowlist_entry(name)` -/
def validateWriteAllowlistEntry (name : String) : Except Exn String :=
  if ¬ Text.startsWith name "write." then .error Exn.valueError
  else if name ∉ writeToolNames then .error Exn.valueError
  else .ok name

/-- `TenantConfig._validate_writes` -/
def validateWrites : Option (List String) → Except Exn (Option (List String))
  | none => .ok none
  | some names => some <$> names.mapM validateWriteAllowlistEntry

/-- The name of a write tool that is registered. -/
def IsWriteTool (name : String) : Prop := ∃ t : Tool, Text.startsWith t.name "write." ∧ t.name = name

theorem validateWriteAllowlistEntry_eq_ok {name name' : String} :
    validateWriteAllowlistEntry name = .ok name' ↔ name ∈ writeToolNames ∧ name' = name := by
  have hstart : ∀ n ∈ writeToolNames, Text.startsWith n "write." = true :=
    List.all_eq_true.mp (by decide)
  unfold validateWriteAllowlistEntry
  by_cases hmem : name ∈ writeToolNames
  · simp [hstart name hmem, hmem, eq_comm]
  · simp only [hmem, not_false_eq_true, if_true, false_and, iff_false]
    split <;> simp

theorem succeeds_validateWriteAllowlistEntry {name : String} :
    Succeeds (validateWriteAllowlistEntry name) ↔ name ∈ writeToolNames := by
  unfold Succeeds
  simp [validateWriteAllowlistEntry_eq_ok]

/-- The validator changes nothing that it accepts. -/
theorem validateWrites_eq {v accepted : Option (List String)} (h : validateWrites v = .ok accepted) :
    accepted = v := by
  cases v with
  | none => exact (Except.ok.inj h).symm
  | some names =>
    rw [validateWrites, map_eq_pure_bind, bind_eq_ok] at h
    obtain ⟨names', hnames, h⟩ := h
    obtain rfl := Except.ok.inj h
    congr 1
    clear h
    induction names generalizing names' with
    | nil => exact (Except.ok.inj hnames).symm
    | cons name names ih =>
      rw [List.mapM_cons, bind_eq_ok] at hnames
      obtain ⟨name', hname, hnames⟩ := hnames
      rw [bind_eq_ok] at hnames
      obtain ⟨names'', hrest, hnames⟩ := hnames
      obtain rfl := Except.ok.inj hnames
      rw [(validateWriteAllowlistEntry_eq_ok.mp hname).2, ih names'' hrest]

theorem succeeds_validateWrites {v : Option (List String)} :
    Succeeds (validateWrites v) ↔ ∀ names, v = some names → ∀ name ∈ names, name ∈ writeToolNames := by
  cases v with
  | none => simp [validateWrites, succeeds_ok]
  | some names =>
    rw [validateWrites, succeeds_map, succeeds_mapM]
    simp [succeeds_validateWriteAllowlistEntry]

/-! ## The registered names -/

/-- **The validator knows all write tools but one.** -/
theorem isWriteTool_iff {name : String} :
    IsWriteTool name ↔ name ∈ writeToolNames ∨ name = "write.restart_manager" := by
  constructor
  · rintro ⟨t, hwrite, rfl⟩
    revert hwrite
    cases t <;> decide
  · have hknown : ∀ n ∈ "write.restart_manager" :: writeToolNames,
        ∃ t ∈ Tool.all, Text.startsWith t.name "write." ∧ t.name = n := by decide
    intro h
    have hmem : name ∈ "write.restart_manager" :: writeToolNames := by
      rcases h with h | rfl
      · exact List.mem_cons_of_mem _ h
      · exact List.mem_cons_self
    obtain ⟨t, -, ht⟩ := hknown name hmem
    exact ⟨t, ht⟩

theorem restartManager_not_known : "write.restart_manager" ∉ writeToolNames := by decide

/-! ## The closures -/

/-- A call that passes the check of the write allowlist asks the pool for a client first thing; a call
that does not is refused before it does anything. -/
structure WriteChecked (session : Session) (toolName : String) (allowed : Prop) (tr : List AppEvent)
    (out : Except Exn ToolResult) : Prop where
  passed : allowed → ∃ (ans : _) (rest : List AppEvent),
    tr = ⟨.up (.acquire .serverApi session.tenantId), ans⟩ :: rest
  refused : ¬ allowed → tr = [] ∧ out = .error (.wazuh (writeForbidden toolName))

section

variable {registry : TenantRegistry} {session : Session} {tenant : TenantConfig}
  (hfind : registry.find? session.tenantId = some tenant)
include hfind

theorem resolveEvents_of_find? : resolveEvents registry session = [] := by
  rw [resolveEvents, hfind]
  rfl

theorem writeAllowed_iff_of_find? {toolName : String} :
    writeAllowed registry session toolName = true ↔
      tenant.writeAllowlist = none ∨ ∃ names, tenant.writeAllowlist = some names ∧ toolName ∈ names := by
  rw [writeAllowed, resolved, hfind, Option.elim_some]
  cases tenant.writeAllowlist <;> simp

/-- A closure whose guard starts with the check. -/
theorem all_inner_writeChecked {Args Guard α : Type} {args : Option Args} (hargs : args.isSome)
    {toolName : String} {guard : Session → AppProg Guard} {allowed : Guard}
    {run : Session → Args → Guard → UpProg α} {wrap : α → ToolResult}
    (hguard : ∀ Q : List AppEvent → Except Exn Guard → Prop, (guard session).All Q ↔
      Q [] (if writeAllowed registry session toolName then .ok allowed
        else .error (.wazuh (writeForbidden toolName)))) :
    (inner (some session) args guard .serverApi run wrap).All
      (WriteChecked session toolName (tenant.writeAllowlist = none ∨
        ∃ names, tenant.writeAllowlist = some names ∧ toolName ∈ names)) := by
  obtain ⟨args, rfl⟩ := Option.isSome_iff_exists.mp hargs
  rw [all_inner, hguard, ← writeAllowed_iff_of_find? hfind]
  cases hallowed : writeAllowed registry session toolName with
  | false =>
    show WriteChecked session toolName (false = true) [] (.error (.wazuh (writeForbidden toolName)))
    exact ⟨fun h => Bool.noConfusion h, fun _ => ⟨rfl, rfl⟩⟩
  | true =>
    intro ans
    cases ans with
    | error x => exact ⟨fun _ => ⟨_, _, rfl⟩, fun h => absurd rfl h⟩
    | ok _ => exact Prog.all_of_forall _ fun _ _ => ⟨fun _ => ⟨_, _, rfl⟩, fun h => absurd rfl h⟩

theorem all_checkWriteAllowed_of_find? {toolName : String}
    (Q : List AppEvent → Except Exn Unit → Prop) :
    (checkWriteAllowed (.ofRegistry registry) session toolName).All Q ↔
      Q [] (if writeAllowed registry session toolName then .ok ()
        else .error (.wazuh (writeForbidden toolName))) := by
  rw [all_checkWriteAllowed, resolveEvents_of_find? hfind]

theorem all_guard_of_find? {toolName message scope : String} {read : TenantConfig → List String}
    (Q : List AppEvent → Except Exn (List String) → Prop) :
    Prog.All (do
        checkWriteAllowed (.ofRegistry registry) session toolName
        requiredAllowlist (some (resolve registry [] read)) message scope session) Q ↔
      Q [] (if writeAllowed registry session toolName then .ok (resolved registry [] read session)
        else .error (.wazuh (writeForbidden toolName))) := by
  rw [all_guard, resolveEvents_of_find? hfind, List.append_nil]
  cases writeAllowed registry session toolName <;> exact Iff.rfl

/-- **Every write tool checks its own name**, before it acquires a client. -/
theorem all_writeChecked (lib : Libraries) {t : Tool} (hwrite : Text.startsWith t.name "write." = true)
    {kwargs : JsonObject} (hargs : (lib.parse t kwargs).isSome) :
    (t.handler (.ofRegistry registry) (some session) lib kwargs).All
      (WriteChecked session t.name (tenant.writeAllowlist = none ∨
        ∃ names, tenant.writeAllowlist = some names ∧ t.name ∈ names)) := by
  cases t with
  | runActiveResponse | runActiveResponseOnGroup =>
    exact all_inner_writeChecked hfind hargs (all_guard_of_find? hfind)
  | isolateAgent | restartAgent | addAgentToGroup | removeAgentFromGroup | createRule | updateRule
  | restartManager =>
    exact all_inner_writeChecked hfind hargs (all_checkWriteAllowed_of_find? hfind)
  | _ => exact absurd hwrite (by decide)

end

/-! ## The agreement -/

/-- The lists agree on a value: the validator accepts it exactly if it is absent or lists names of write
tools, and once it is accepted, each write tool of each tenant that has it, called with arguments that
its model accepts, passes the check exactly if the value is absent or lists the tool's name, before a
client is acquired. -/
structure WriteAllowlistAgrees (v : Option (List String)) : Prop where
  accepted_iff : Succeeds (validateWrites v) ↔
    v = none ∨ ∃ names, v = some names ∧ ∀ name ∈ names, IsWriteTool name
  checked : ∀ accepted, validateWrites v = .ok accepted →
    ∀ (registry : TenantRegistry) (session : Session) (tenant : TenantConfig),
      registry.find? session.tenantId = some tenant → tenant.writeAllowlist = accepted →
      ∀ (lib : Libraries) (t : Tool) (kwargs : JsonObject),
        Text.startsWith t.name "write." = true → (lib.parse t kwargs).isSome →
        (t.handler (.ofRegistry registry) (some session) lib kwargs).All
          (WriteChecked session t.name (v = none ∨ ∃ names, v = some names ∧ t.name ∈ names))

/-- The value lists write tools, and the restart of the manager is among them. -/
def ListsRestartManager (v : Option (List String)) : Prop :=
  ∃ names, v = some names ∧ (∀ name ∈ names, IsWriteTool name) ∧ "write.restart_manager" ∈ names

/-- **The lists agree on a value exactly if it is no list of write tools with the restart of the manager
among them.** -/
theorem writeAllowlist_agreement (v : Option (List String)) :
    WriteAllowlistAgrees v ↔ ¬ ListsRestartManager v := by
  constructor
  · rintro ⟨haccepted, -⟩ ⟨names, rfl, hwrite, hmem⟩
    have hknown := succeeds_validateWrites.mp (haccepted.mpr (.inr ⟨names, rfl, hwrite⟩))
    exact restartManager_not_known (hknown names rfl _ hmem)
  · intro hnot
    refine ⟨?_, ?_⟩
    · rw [succeeds_validateWrites]
      constructor
      · intro h
        cases v with
        | none => exact .inl rfl
        | some names =>
          exact .inr ⟨names, rfl, fun name hname => isWriteTool_iff.mpr (.inl (h names rfl name hname))⟩
      · rintro (rfl | ⟨names, rfl, hwrite⟩)
        · rintro names ⟨⟩
        · rintro _ ⟨⟩ name hname
          rcases isWriteTool_iff.mp (hwrite name hname) with hknown | rfl
          · exact hknown
          · exact absurd ⟨names, rfl, hwrite, hname⟩ hnot
    · intro accepted haccepted registry session tenant hfind hvalue lib t kwargs hwrite hargs
      have h := all_writeChecked hfind lib hwrite hargs
      rw [hvalue, validateWrites_eq haccepted] at h
      exact h

/-- The documented list is refused. -/
theorem writeAllowlist_refused : ¬ WriteAllowlistAgrees (some ["write.restart_manager"]) := by
  rintro ⟨haccepted, -⟩
  have hwrite : IsWriteTool "write.restart_manager" := ⟨.restartManager, by decide, rfl⟩
  have hknown := succeeds_validateWrites.mp
    (haccepted.mpr (.inr ⟨_, rfl, fun name hname => List.mem_singleton.mp hname ▸ hwrite⟩))
  exact restartManager_not_known (hknown _ rfl _ List.mem_cons_self)

end WazuhMcp
