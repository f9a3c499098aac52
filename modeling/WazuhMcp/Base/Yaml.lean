import WazuhMcp.Base.DictKey

/-!
# Decoded YAML

The values that `yaml.safe_load` produces, with the operations that a program applies to them without
knowing their type. They differ from decoded JSON in that the keys of a mapping need not be strings, and in
that a date or a time is a value of its own. Sets and binary data are left out.
-/

namespace WazuhMcp

/-- A decoded YAML value. -/
inductive Yaml where
  | null
  | bool (b : Bool)
  | int (i : ℤ)
  | float (f : PyFloat)
  | str (s : String)
  /-- a date or a time; equal ones have one number -/
  | time (n : ℕ)
  | arr (xs : List Yaml)
  | obj (kvs : List (Yaml × Yaml))

/-- A decoded mapping, in order. -/
abbrev YamlObject := List (Yaml × Yaml)

/-- A YAML value as the key of a dictionary. All `NaN` that `yaml.safe_load` gives are one object, which is
not that of `json.loads`. -/
inductive YamlKey where
  | plain (k : DictKey)
  | nan
  | time (n : ℕ)
  deriving DecidableEq

namespace Yaml

/-- The value as the key of a dictionary; a list or a dictionary is unhashable. -/
def hashed : Yaml → Option YamlKey
  | .null => some (.plain .null)
  | .bool b => some (.plain (.num (.fin (if b then 1 else 0))))
  | .int i => some (.plain (.num (.fin i)))
  | .float f => some (if f.val = .nan then .nan else .plain (.num f.val))
  | .str s => some (.plain (.str s))
  | .time n => some (.time n)
  | .arr _ => none
  | .obj _ => none

/-- The key that a dictionary files the value under. -/
def key (x : Yaml) : Except Exn YamlKey := x.hashed.elim (.error Exn.typeError) .ok

/-- `bool(x)` -/
def truthy : Yaml → Bool
  | .null => false
  | .bool b => b
  | .int i => i != 0
  | .float f => Json.floatTruthy f
  | .str s => s != ""
  | .time _ => true
  | .arr xs => !xs.isEmpty
  | .obj kvs => !kvs.isEmpty

/-- The number `x` is, when `isinstance(x, int | float)`: a `bool` is an `int`. -/
def number : Yaml → Option FloatVal
  | .int i => some (.fin i)
  | .bool b => some (.fin (if b then 1 else 0))
  | .float f => some f.val
  | _ => none

/-- The value of a key in a mapping. -/
def find (d : YamlObject) (k : YamlKey) : Option Yaml :=
  (d.find? fun kv => kv.1.hashed = some k).map Prod.snd

/-- `d.get(k, default)` on a mapping, for a string `k`. -/
def field (d : YamlObject) (k : String) (default : Yaml) : Yaml :=
  (find d (.plain (.str k))).getD default

/-- `d[k]` on a mapping, for a string `k`. -/
def fieldItem (d : YamlObject) (k : String) : Except Exn Yaml :=
  (find d (.plain (.str k))).elim (.error Exn.keyError) .ok

/-- `x.get(k, default)` for a string `k`; only a mapping has the method. -/
def getD (x : Yaml) (k : String) (default : Yaml) : Except Exn Yaml :=
  match x with
  | .obj d => .ok (field d k default)
  | _ => .error Exn.attributeError

/-- `x[k]` for a string `k`. -/
def item (x : Yaml) (k : String) : Except Exn Yaml :=
  match x with
  | .obj d => fieldItem d k
  | _ => .error Exn.typeError

/-- `x[k]` for a string `k`, if `x` is a mapping that has it. -/
def item? (x : Yaml) (k : String) : Option Yaml :=
  match x with
  | .obj d => find d (.plain (.str k))
  | _ => none

/-- `x.items()` -/
def items : Yaml → Except Exn YamlObject
  | .obj d => .ok d
  | _ => .error Exn.attributeError

/-- The values that `for y in x` runs through. -/
def iter (x : Yaml) : Except Exn (List Yaml) :=
  match x with
  | .arr xs => .ok xs
  | .obj d => .ok (d.map Prod.fst)
  | .str s => .ok (s.toList.map fun c => .str (String.ofList [c]))
  | _ => .error Exn.typeError

/-- What an element of `x` contributes to `dict(x)`: it has to have two elements. -/
def pair (x : Yaml) : Except Exn (YamlKey × Yaml) := do
  match ← x.iter with
  | [k, v] => return (← k.key, v)
  | _ => throw Exn.valueError

/-- What `dict(x)` and `d.update(x)` take from `x`: the members of a mapping, or the pairs of a list. -/
def pairs (x : Yaml) : Except Exn (List (YamlKey × Yaml)) :=
  match x with
  | .obj d => d.mapM fun kv => return (← kv.1.key, kv.2)
  | x => do (← x.iter).mapM pair

/-- `d.update(x)`, from the pairs that are taken from `x`. -/
def update (d : Dict YamlKey Yaml) (pairs : List (YamlKey × Yaml)) : Dict YamlKey Yaml :=
  pairs.foldl (fun d kv => d.set kv.1 kv.2) d

end Yaml

/-- `v == w` on numbers. -/
def FloatVal.same (v w : FloatVal) : Bool := v = w && v != .nan

mutual

/-- `x == y`, for a value of `json.loads` and one of `yaml.safe_load`. -/
def Json.eqYaml : Json → Yaml → Bool
  | .null, .null => true
  | .str s, .str s' => s == s'
  | .arr xs, .arr ys => Json.eqItems xs ys
  | .obj kvs, .obj kvs' => kvs.length == kvs'.length && Json.eqMembers kvs kvs'
  | x, y =>
    match x.number, y.number with
    | some v, some w => v.same w
    | _, _ => false

/-- Lists of equal values. -/
def Json.eqItems : List Json → List Yaml → Bool
  | [], [] => true
  | x :: xs, y :: ys => x.eqYaml y && Json.eqItems xs ys
  | _, _ => false

/-- Every member of an object is equal to the one of a mapping that has its key. -/
def Json.eqMembers : List (String × Json) → YamlObject → Bool
  | [], _ => true
  | (k, x) :: kvs, d =>
    match Yaml.find d (.plain (.str k)) with
    | some y => x.eqYaml y && Json.eqMembers kvs d
    | none => false

end

end WazuhMcp
