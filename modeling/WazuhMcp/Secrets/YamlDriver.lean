import WazuhMcp.Base.Errors
import WazuhMcp.Base.Json
import WazuhMcp.Foundations.Fallible

/-!
# The secret store of a file

`YamlSecretStore` holds what the secrets file says of each tenant. What it answers for a tenant comes from
the tenant's own entries of the file (`get_ofEntries_congr`).
-/

namespace WazuhMcp

/-- `YamlSecretStore` -/
structure YamlSecretStore where
  data : Dict String (Dict String String)

namespace YamlSecretStore

/-- One secret of the loop of `YamlSecretStore.__init__`. Values that are no strings are refused. -/
def addSecret (secrets : Dict String String) (kv : String × Json) : Except Exn (Dict String String) :=
  match kv.2 with
  | .str v => .ok (secrets.set kv.1 v)
  | _ => .error Exn.valueError

/-- One tenant of the loop of `YamlSecretStore.__init__`. -/
def addTenant (store : YamlSecretStore) (entry : String × Json) : Except Exn YamlSecretStore :=
  match entry.2 with
  | .obj kv => do
    let secrets ← kv.foldlM addSecret []
    return ⟨store.data.set entry.1 secrets⟩
  | _ => .error Exn.valueError

/-- `YamlSecretStore(path)`, on the entries of the file. -/
def ofEntries (entries : JsonObject) : Except Exn YamlSecretStore := entries.foldlM addTenant ⟨[]⟩

/-- `get(tenant_id, key)` -/
def get (store : YamlSecretStore) (tenantId key : String) : Except Exn String :=
  match store.data.get tenantId with
  | none => .error Exn.keyError
  | some secrets => (secrets.get key).elim (.error Exn.keyError) .ok

theorem addTenant_eq_ok {store store' : YamlSecretStore} {entry : String × Json}
    (h : store.addTenant entry = .ok store') :
    ∃ secrets, store'.data = store.data.set entry.1 secrets ∧
      ∀ other : YamlSecretStore, other.addTenant entry = .ok ⟨other.data.set entry.1 secrets⟩ := by
  unfold addTenant at h
  split at h
  · rename_i kv hkv
    obtain ⟨secrets, hsecrets, h⟩ := Fallible.bind_eq_ok.mp h
    obtain rfl := Except.ok.inj h
    refine ⟨secrets, rfl, fun other => ?_⟩
    unfold addTenant
    rw [hkv]
    exact Fallible.bind_eq_ok.mpr ⟨secrets, hsecrets, rfl⟩
  · cases h

/-- What the store answers for a tenant depends on the entries of that tenant only. -/
theorem get_ofEntries_congr {entries entries' : JsonObject} {store store' : YamlSecretStore}
    {tenantId : String}
    (hentries : (entries.filter fun kv => kv.1 = tenantId) = entries'.filter fun kv => kv.1 = tenantId)
    (h : ofEntries entries = .ok store) (h' : ofEntries entries' = .ok store') (key : String) :
    store.get tenantId key = store'.get tenantId key := by
  have hdata : store.data.get tenantId = store'.data.get tenantId := by
    refine Fallible.read_foldlM_congr (fun kv : String × Json => kv.1 = tenantId)
      (fun store : YamlSecretStore => store.data.get tenantId) ?_ ?_ hentries h h'
    · intro store entry store' hentry hadd
      obtain ⟨secrets, hdata, -⟩ := addTenant_eq_ok hadd
      rw [hdata, Dict.get_set_of_ne _ (Ne.symm (of_decide_eq_false hentry))]
    · intro store other entry store' hentry _ hadd
      obtain rfl := of_decide_eq_true hentry
      obtain ⟨secrets, hdata, hother⟩ := addTenant_eq_ok hadd
      exact ⟨_, hother other, by rw [hdata, Dict.get_set_self, Dict.get_set_self]⟩
  unfold get
  rw [hdata]

end YamlSecretStore

end WazuhMcp
