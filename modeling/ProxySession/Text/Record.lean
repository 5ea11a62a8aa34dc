/-!
# Records as a log shows them

The written form of values with named fields and of values that may be absent.
-/

namespace ProxySession

/-- A record with its name and its fields in order. -/
def debugRecord (name : String) (fields : List (String × String)) : String :=
  let body := ", ".intercalate (fields.map fun (field, text) => field ++ ": " ++ text)
  name ++ " \x7b " ++ body ++ " \x7d"

/-- An optional value with its case. -/
def debugOption (value : Option String) : String :=
  match value with
  | none => "None"
  | some text => "Some(" ++ text ++ ")"

end ProxySession
