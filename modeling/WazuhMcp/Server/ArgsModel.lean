import WazuhMcp.Server.Signature

/-!
# Argument models and the signatures made from them

`_signature_from_args_model` turns the fields of a pydantic model into keyword-only parameters. FastMCP
checks a request against the parameters and the handler builds the model from what is left of it, so the
two should ask for the same keys. A parameter keeps the `default` of its field, which is all there is to
know of a field with a plain default or with none, and is undefined for a field whose default a factory
makes: that field the wire requires and the model does not (`param_default_eq_iff`).
-/

namespace WazuhMcp

/-- How a field of a pydantic model comes by its default. -/
inductive FieldDefault where
  | required
  | plain (value : Json)
  /-- `Field(default_factory=make)` -/
  | factory (make : Unit → Json)

/-- A field of a pydantic model: its name, its annotation and its `FieldInfo`. -/
structure ModelField where
  name : String
  annotation : Annotation
  info : FieldDefault

/-- `field.default`, where it is not `PydanticUndefined`. -/
def FieldDefault.default : FieldDefault → Option Json
  | .plain value => some value
  | .required | .factory _ => none

/-- `field.get_default(call_default_factory=True)`, where it is not `PydanticUndefined`. -/
def FieldDefault.getDefault : FieldDefault → Option Json
  | .required => none
  | .plain value => some value
  | .factory make => some (make ())

/-- `field.is_required()` -/
def FieldDefault.isRequired (d : FieldDefault) : Bool := d.getDefault.isNone

/-- Whether a factory makes the default. -/
def FieldDefault.isFactory : FieldDefault → Bool
  | .factory _ => true
  | _ => false

/-- A pydantic model with `extra="forbid"`. -/
structure ArgsModel where
  fields : List ModelField
  nodup : (fields.map ModelField.name).Nodup

/-- The parameter that a field becomes. -/
def ModelField.param (f : ModelField) : Param := ⟨f.name, f.annotation, f.info.default⟩

/-- `_signature_from_args_model(args_model)` -/
def signatureFromArgsModel (m : ArgsModel) : List Param := m.fields.map ModelField.param

/-- Whether the keywords bind to the signature: each parameter without a default is given, and nothing
but parameters is. -/
def Binds (signature : List Param) (kw : JsonObject) : Prop :=
  (∀ p ∈ signature, p.default.isNone → p.name ∈ kw.keys) ∧
    ∀ key ∈ kw.keys, key ∈ signature.map Param.name

/-- Whether the model finds its required fields among the keywords, and no extra one. -/
def ArgsModel.Finds (m : ArgsModel) (kw : JsonObject) : Prop :=
  (∀ f ∈ m.fields, f.info.isRequired → f.name ∈ kw.keys) ∧
    ∀ key ∈ kw.keys, key ∈ m.fields.map ModelField.name

/-- **The signature agrees with the model** on some keywords: they bind to it exactly when the model finds
what it requires in them, and each field left out has the default there that the model gives it. -/
structure WireAgrees (m : ArgsModel) (kw : JsonObject) : Prop where
  binds_iff : Binds (signatureFromArgsModel m) kw ↔ m.Finds kw
  defaults : ∀ f ∈ m.fields, f.name ∉ kw.keys → f.param.default = f.info.getDefault

theorem param_default_eq_iff {f : ModelField} :
    f.param.default = f.info.getDefault ↔ f.info.isFactory = false := by
  unfold ModelField.param
  cases f.info <;> simp [FieldDefault.default, FieldDefault.getDefault, FieldDefault.isFactory]

/-- The wire requires a parameter exactly when the model requires the field, but for a factory. -/
theorem param_required_iff {f : ModelField} :
    (f.param.default.isNone ↔ f.info.isRequired) ↔ f.info.isFactory = false := by
  unfold ModelField.param
  cases f.info <;>
    simp [FieldDefault.default, FieldDefault.isRequired, FieldDefault.getDefault, FieldDefault.isFactory]

theorem signature_names (m : ArgsModel) :
    (signatureFromArgsModel m).map Param.name = m.fields.map ModelField.name := by
  rw [signatureFromArgsModel, List.map_map]
  rfl

/-- The keywords bind to the signature exactly when each field with no plain default is given, and
nothing but fields is. -/
theorem binds_signature_iff {m : ArgsModel} {kw : JsonObject} :
    Binds (signatureFromArgsModel m) kw ↔
      (∀ f ∈ m.fields, f.param.default.isNone → f.name ∈ kw.keys) ∧
        ∀ key ∈ kw.keys, key ∈ m.fields.map ModelField.name := by
  rw [Binds, signature_names, signatureFromArgsModel, List.forall_mem_map]
  rfl

theorem wireAgrees_iff {m : ArgsModel} {kw : JsonObject} :
    WireAgrees m kw ↔ ∀ f ∈ m.fields, f.info.isFactory = true → f.name ∈ kw.keys := by
  constructor
  · intro h f hf hfactory
    by_contra homitted
    have hplain := param_default_eq_iff.mp (h.defaults f hf homitted)
    exact Bool.false_ne_true (hplain.symm.trans hfactory)
  · intro hgiven
    have homitted (f : ModelField) (hf : f ∈ m.fields) (h : f.name ∉ kw.keys) :
        f.info.isFactory = false := by
      apply eq_false_of_ne_true
      exact fun hfactory => h (hgiven f hf hfactory)
    refine ⟨?_, fun f hf h => param_default_eq_iff.mpr (homitted f hf h)⟩
    rw [binds_signature_iff, ArgsModel.Finds]
    refine and_congr_left fun _ => forall₂_congr fun f hf => ?_
    by_cases h : f.name ∈ kw.keys
    · simp only [h, implies_true]
    · rw [param_required_iff.mpr (homitted f hf h)]

/-- A request that leaves out a field whose default a factory makes is rejected. -/
theorem bindArguments_of_factory_omitted (validate : Validator) {m : ArgsModel} {f : ModelField}
    {arguments : JsonObject} (hf : f ∈ m.fields) (hfactory : f.info.isFactory = true)
    (homitted : arguments.lookup f.name = none) :
    bindArguments validate (signatureFromArgsModel m) arguments = none := by
  apply bindArguments_eq_none_iff.mpr
  refine ⟨f.param, List.mem_map_of_mem hf, ?_⟩
  have hdefault : f.param.default = none := by
    unfold ModelField.param
    cases hinfo : f.info <;> simp_all [FieldDefault.default, FieldDefault.isFactory]
  unfold Param.value
  rw [show f.param.name = f.name from rfl, homitted]
  exact hdefault

/-- **Where the wire agrees with the model.** The signature made from a model agrees with it on some
keywords exactly when these give every field whose default a factory makes, and requires the fields
that the model requires exactly when the model has no such field. -/
theorem signature_agrees_iff (m : ArgsModel) :
    (∀ kw, WireAgrees m kw ↔ ∀ f ∈ m.fields, f.info.isFactory = true → f.name ∈ kw.keys) ∧
    ((∀ f ∈ m.fields, f.param.default.isNone ↔ f.info.isRequired) ↔
      ∀ f ∈ m.fields, f.info.isFactory = false) := by
  refine ⟨fun kw => wireAgrees_iff, ?_⟩
  exact forall₂_congr fun f _ => param_required_iff

/-! ## The model of `hunt.hunt_query` -/

/-- `HuntQueryArgs.model_fields` -/
def huntQueryModel : ArgsModel where
  fields :=
    [⟨"time_range", .str none none, .required⟩,
      ⟨"must", .list (.model "HuntClause") none, .required⟩,
      ⟨"must_not", .list (.model "HuntClause") none, .factory fun _ => .arr []⟩,
      ⟨"size", .int (some (1, 100)), .plain (.int 25)⟩,
      ⟨"cursor", .optional (.list .any none), .plain .null⟩]
  nodup := by decide

/-- The signature of the tool is the one made from its model. -/
theorem signature_huntQuery : signatureFromArgsModel huntQueryModel = Tool.signature .huntQuery := rfl

/-- A hunt with no `must_not` is a call for the model and none on the wire. -/
theorem not_wireAgrees_huntQuery :
    ¬ ∀ (m : ArgsModel) (kw : JsonObject), WireAgrees m kw := by
  intro h
  have hagrees := wireAgrees_iff.mp (h huntQueryModel [("time_range", .str "1h"), ("must", .arr [.obj
    [("field", .str "agent.id"), ("op", .str "eq"), ("value", .str "001")]])])
  exact absurd (hagrees ⟨"must_not", .list (.model "HuntClause") none, .factory fun _ => .arr []⟩
    (by simp [huntQueryModel]) rfl) (by decide)

end WazuhMcp
