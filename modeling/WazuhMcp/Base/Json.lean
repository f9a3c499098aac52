import Mathlib.Data.Rat.Defs
import WazuhMcp.Base.Errors
import WazuhMcp.Foundations.Dict
import WazuhMcp.Foundations.Text

/-!
# Decoded JSON

The values that `json.loads` and `resp.json()` produce, with the operations the server applies to
them without knowing their type: `x.get(k, d)`, `x[k]`, `x or y`, `str(x)`, iteration. On a value of
the wrong type these raise, as they do in the source.
-/

namespace WazuhMcp

/-- The number a float denotes. -/
inductive FloatVal where
  | fin (q : ℚ)
  | inf
  | negInf
  | nan
  deriving DecidableEq

/-- A float: the number it denotes, and how `str` prints it. -/
structure PyFloat where
  val : FloatVal
  repr : String
  deriving DecidableEq

/-- A decoded JSON value. -/
inductive Json where
  | null
  | bool (b : Bool)
  | int (i : ℤ)
  | float (f : PyFloat)
  | str (s : String)
  | arr (xs : List Json)
  | obj (kvs : List (String × Json))

/-- A decoded JSON object. -/
abbrev JsonObject := Dict String Json

/-- `d.get(k, default)` on an object. -/
def JsonObject.getD (d : JsonObject) (k : String) (default : Json) : Json :=
  (d.lookup k).getD default

/-- `d.get(k)` on an object: absent and `null` read the same. -/
def JsonObject.get (d : JsonObject) (k : String) : Json := d.getD k .null

namespace Json

/-- The truth value of a float: everything but zero. -/
def floatTruthy (f : PyFloat) : Bool := f.val != .fin 0

/-- `bool(x)` -/
def truthy : Json → Bool
  | .null => false
  | .bool b => b
  | .int i => i != 0
  | .float f => floatTruthy f
  | .str s => s != ""
  | .arr xs => !xs.isEmpty
  | .obj kvs => !kvs.isEmpty

/-- `x or y` -/
def or (x y : Json) : Json := if x.truthy then x else y

/-- `isinstance(x, str)` -/
def isStr : Json → Bool
  | .str _ => true
  | _ => false

/-- `str.isprintable` of a character. The Unicode tables are not modelled: beyond Latin-1 every
character counts as printable. -/
def isPrintable (c : Char) : Bool :=
  (0x20 ≤ c.toNat && c.toNat ≤ 0x7e) || (0xa1 ≤ c.toNat && c.toNat != 0xad)

/-- The two hexadecimal digits of a character below 256. -/
def hexDigits (n : ℕ) : List Char := [Nat.digitChar (n / 16), Nat.digitChar (n % 16)]

/-- A character as `repr` writes it between the quotes. -/
def reprChar (quote c : Char) : List Char :=
  if c = '\\' || c = quote then ['\\', c]
  else if c = '\n' then ['\\', 'n']
  else if c = '\r' then ['\\', 'r']
  else if c = '\t' then ['\\', 't']
  else if isPrintable c then [c]
  else '\\' :: 'x' :: hexDigits c.toNat

/-- `repr(s)`: single quotes, unless only double quotes spare an escape. -/
def reprStr (s : String) : String :=
  let quote := if s.toList.contains '\'' && !s.toList.contains '"' then '"' else '\''
  String.ofList (quote :: s.toList.flatMap (reprChar quote) ++ [quote])

mutual

/-- `repr(x)` -/
def pyRepr : Json → String
  | .null => "None"
  | .bool true => "True"
  | .bool false => "False"
  | .int i => toString i
  | .float f => f.repr
  | .str s => reprStr s
  | .arr xs => "[" ++ reprItems xs ++ "]"
  | .obj kvs => "\x7b" ++ reprMembers kvs ++ "\x7d"

/-- The items of a list, as `repr` writes them. -/
def reprItems : List Json → String
  | [] => ""
  | [x] => x.pyRepr
  | x :: xs => x.pyRepr ++ ", " ++ reprItems xs

/-- The members of an object, as `repr` writes them. -/
def reprMembers : List (String × Json) → String
  | [] => ""
  | [(k, x)] => reprStr k ++ ": " ++ x.pyRepr
  | (k, x) :: kvs => reprStr k ++ ": " ++ x.pyRepr ++ ", " ++ reprMembers kvs

end

/-- `str(x)` -/
def pyStr : Json → String
  | .str s => s
  | x => x.pyRepr

@[simp] theorem pyStr_str (s : String) : (Json.str s).pyStr = s := rfl

/-- The four hexadecimal digits of a UTF-16 code unit, as an escape. -/
def unitEscape (n : ℕ) : List Char :=
  '\\' :: 'u' :: [n / 4096 % 16, n / 256 % 16, n / 16 % 16, n % 16].map Nat.digitChar

/-- A character as `json.dumps` writes it between the quotes. -/
def dumpChar (c : Char) : List Char :=
  if c = '"' || c = '\\' then ['\\', c]
  else if c = '\n' then ['\\', 'n']
  else if c = '\r' then ['\\', 'r']
  else if c = '\t' then ['\\', 't']
  else if c.toNat = 0x08 then ['\\', 'b']
  else if c.toNat = 0x0c then ['\\', 'f']
  else if 0x20 ≤ c.toNat && c.toNat ≤ 0x7e then [c]
  else if c.toNat < 0x10000 then unitEscape c.toNat
  else
    unitEscape (0xd800 + (c.toNat - 0x10000) / 0x400) ++
      unitEscape (0xdc00 + (c.toNat - 0x10000) % 0x400)

/-- `json.dumps(s)` of a text. -/
def dumpStr (s : String) : String :=
  String.ofList ('"' :: s.toList.flatMap dumpChar ++ ['"'])

/-- `json.dumps(f)` of a float. -/
def dumpFloat (f : PyFloat) : String :=
  match f.val with
  | .fin _ => f.repr
  | .inf => "Infinity"
  | .negInf => "-Infinity"
  | .nan => "NaN"

/-- A new line at a depth of indentation. -/
def newline (depth : ℕ) : String := String.ofList ('\n' :: List.replicate (2 * depth) ' ')

mutual

/-- `json.dumps(x, indent=2)`, at a depth of indentation. -/
def dumpsAt (depth : ℕ) : Json → String
  | .null => "null"
  | .bool true => "true"
  | .bool false => "false"
  | .int i => toString i
  | .float f => dumpFloat f
  | .str s => dumpStr s
  | .arr [] => "[]"
  | .arr (x :: xs) =>
    "[" ++ newline (depth + 1) ++ dumpsAt (depth + 1) x ++ dumpItems (depth + 1) xs ++
      newline depth ++ "]"
  | .obj [] => "\x7b\x7d"
  | .obj ((k, x) :: kvs) =>
    "\x7b" ++ newline (depth + 1) ++ dumpStr k ++ ": " ++ dumpsAt (depth + 1) x ++
      dumpMembers (depth + 1) kvs ++ newline depth ++ "\x7d"

/-- The items of a list after the first. -/
def dumpItems (depth : ℕ) : List Json → String
  | [] => ""
  | x :: xs => "," ++ newline depth ++ dumpsAt depth x ++ dumpItems depth xs

/-- The members of an object after the first. -/
def dumpMembers (depth : ℕ) : List (String × Json) → String
  | [] => ""
  | (k, x) :: kvs =>
    "," ++ newline depth ++ dumpStr k ++ ": " ++ dumpsAt depth x ++ dumpMembers depth kvs

end

/-- `json.dumps(x, indent=2)` -/
def dumps (x : Json) : String := x.dumpsAt 0

/-- `x.get(k, default)`; only an object has the method. -/
def getD (x : Json) (k : String) (default : Json) : Except Exn Json :=
  match x with
  | .obj d => .ok (JsonObject.getD d k default)
  | _ => .error Exn.attributeError

theorem getD_eq_ok {x default y : Json} {k : String} :
    x.getD k default = .ok y ↔ ∃ d, x = .obj d ∧ JsonObject.getD d k default = y := by
  cases x <;> simp [getD]

/-- `x[k]` for a string `k`. -/
def item (x : Json) (k : String) : Except Exn Json :=
  match x with
  | .obj d => (d.lookup k).elim (.error Exn.keyError) .ok
  | _ => .error Exn.typeError

/-- `x[i]` for an index `i`. -/
def index (x : Json) (i : ℕ) : Except Exn Json :=
  match x with
  | .arr xs => xs[i]?.elim (.error (.exception "IndexError")) .ok
  | .str s => s.toList[i]?.elim (.error (.exception "IndexError")) fun c =>
    .ok (.str (String.ofList [c]))
  | .obj _ => .error Exn.keyError
  | _ => .error Exn.typeError

/-- `k in x` for a string `k`. -/
def contains (x : Json) (k : String) : Except Exn Bool :=
  match x with
  | .obj d => .ok (Dict.has d k)
  | .arr xs => .ok (xs.any fun y => match y with | .str s => s == k | _ => false)
  | .str s => .ok (Text.contains s k)
  | _ => .error Exn.typeError

/-- `int(x)` -/
def toInt : Json → Except Exn ℤ
  | .int i => .ok i
  | .bool b => .ok (if b then 1 else 0)
  | .float f =>
    match f.val with
    | .fin q => .ok (q.num.tdiv q.den)
    | .nan => .error Exn.valueError
    | _ => .error (.exception "OverflowError")
  | .str s => (Text.parseInt s).elim (.error Exn.valueError) .ok
  | _ => .error Exn.typeError

/-- A value given to a pydantic field of type `str`. -/
def strField : Json → Except Exn String
  | .str s => .ok s
  | _ => .error .validation

/-- A value given to a pydantic field of type `str | None`. -/
def optStrField : Json → Except Exn (Option String)
  | .null => .ok none
  | x => some <$> x.strField

/-- The values that `for y in x` runs through. -/
def iter (x : Json) : Except Exn (List Json) :=
  match x with
  | .arr xs => .ok xs
  | .obj d => .ok (d.map fun kv => .str kv.1)
  | .str s => .ok (s.toList.map fun c => .str (String.ofList [c]))
  | _ => .error Exn.typeError

/-- The number `x` is, when `isinstance(x, int | float)`: a `bool` is an `int`. -/
def number : Json → Option FloatVal
  | .int i => some (.fin i)
  | .bool b => some (.fin (if b then 1 else 0))
  | .float f => some f.val
  | _ => none

end Json

/-- `x < y` for an integer `y`. -/
def FloatVal.ltInt : FloatVal → ℤ → Bool
  | .fin q, y => q < y
  | .inf, _ => false
  | .negInf, _ => true
  | .nan, _ => false

/-- `x > y` for an integer `y`. -/
def FloatVal.gtInt : FloatVal → ℤ → Bool
  | .fin q, y => y < q
  | .inf, _ => true
  | .negInf, _ => false
  | .nan, _ => false

end WazuhMcp
