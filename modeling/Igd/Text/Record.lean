/-
The one-line text of a value: a name alone, a name applied to the values it
holds, or a name with its fields.
-/

namespace Igd.Text

/-- `Name(first, second)`. -/
def applied (name : String) (args : List String) : String :=
  name ++ "(" ++ ", ".intercalate args ++ ")"

/-- `Name { field: value, field: value }`. -/
def record (name : String) (fields : List (String × String)) : String :=
  name ++ " \x7b " ++ ", ".intercalate (fields.map fun (field, value) => field ++ ": " ++ value)
    ++ " \x7d"

/-- The text of a truth value. -/
def truth (b : Bool) : String :=
  if b then "true" else "false"

end Igd.Text
