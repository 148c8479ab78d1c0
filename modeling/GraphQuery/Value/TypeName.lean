import GraphQuery.Value.Basic

/-!
# Names of types
-/
namespace GraphQuery.Value

/-- The name of the type of a value. -/
def typeName : Value → String
  | .null => "NoneType"
  | .bool _ => "bool"
  | .int _ => "int"
  | .float _ => "float"
  | .text _ => "str"
  | .list _ => "list"
  | .tuple _ => "tuple"
  | .map _ => "dict"
  | .range _ => "range"
  | .regex _ => "Pattern"
  | .bytes _ => "bytes"
  | .foreign _ => "Opaque"

/-- The name in messages about an operation that the type does not have. -/
def fullTypeName : Value → String
  | .regex _ => "re.Pattern"
  | v => v.typeName

end GraphQuery.Value
