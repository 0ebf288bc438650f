import Mathlib.Data.List.Basic

/-!
# What `json.loads` returns

A number, a list and a dict carry the text that `str` makes of them. A dict has no key twice.
-/

namespace EarnProxy

inductive Json where
  | null
  | bool (b : Bool)
  | number (zero : Bool) (str : String)
  | text (s : String)
  | list (items : List Json) (str : String)
  | dict (fields : List (String × Json)) (str : String)
  deriving Repr

namespace Json

/-- `bool(value)`. -/
def truthy : Json → Bool
  | null => false
  | bool b => b
  | number zero _ => !zero
  | text s => s ≠ ""
  | list items _ => !items.isEmpty
  | dict fields _ => !fields.isEmpty

/-- `str(value)`. -/
def str : Json → String
  | null => "None"
  | bool b => if b then "True" else "False"
  | text s => s
  | number _ s | list _ s | dict _ s => s

/-- `str(value or "")`. -/
def strOrEmpty (value : Json) : String := if value.truthy then value.str else ""

/-- `type(value).__name__`. -/
def typeName : Json → String
  | null => "NoneType"
  | bool _ => "bool"
  | number _ s => if s.toList.all fun c => c.isDigit || c == '-' then "int" else "float"
  | text _ => "str"
  | list _ _ => "list"
  | dict _ _ => "dict"

/-- `fields.get(key)`. -/
def get (fields : List (String × Json)) (key : String) : Json := (fields.lookup key).getD null

end Json

end EarnProxy
