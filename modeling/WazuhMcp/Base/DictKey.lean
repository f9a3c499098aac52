import WazuhMcp.Base.Json

/-!
# Keys of dictionaries

What a dictionary takes for one key. `json.loads` gives values of several types, and a dictionary finds an
entry again under every value that is equal to its key.
-/

namespace WazuhMcp

/-- A value as the key of a dictionary: numbers compare by value across their types. All `NaN` that
`json.loads` gives are one object, which a dictionary finds again. -/
inductive DictKey where
  | null
  | num (v : FloatVal)
  | str (s : String)
  deriving DecidableEq

/-- The value as the key of a dictionary; a list or a dictionary is unhashable. -/
def Json.hashed : Json → Option DictKey
  | .null => some .null
  | .bool b => some (.num (.fin (if b then 1 else 0)))
  | .int i => some (.num (.fin i))
  | .float f => some (.num f.val)
  | .str s => some (.str s)
  | .arr _ => none
  | .obj _ => none

end WazuhMcp
