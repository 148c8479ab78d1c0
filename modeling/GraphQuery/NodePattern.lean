import GraphQuery.Literal
import GraphQuery.Value.Capacity

/-!
# Node patterns

A node pattern such as `(n:Person:Admin {name: "Ann"})`; every part may be absent.
-/
namespace GraphQuery

structure NodePattern where
  name : String
  labels : List String
  properties : List (Value × Value)

namespace NodePattern

def labelText : List String → String
  | [] => ""
  | label :: labels => ":" ++ label ++ labelText labels

def text (p : NodePattern) : String :=
  "(" ++ p.name ++ labelText p.labels ++
    (if p.properties.isEmpty then "" else " " ++ propertyMap p.properties) ++ ")"

/-- The text, if the properties can be written. -/
def build (p : NodePattern) : Except Fault String := (Value.map p.properties).written p.text

/-- Labels are the members of any value that has some; a value that does not count as true gives
no labels and no properties. -/
def ofValues (name labels properties : Value) : Except Fault NodePattern := do
  let labels ← if labels.isTrue then labels.listed else .ok []
  let labels ← labels.mapM Value.shown
  let properties ← if properties.isTrue then
      match properties with
      | .map entries => .ok entries
      | _ => .error .missingPart
    else .ok []
  return ⟨← name.shown, labels, properties⟩

end NodePattern

/-- Only a mapping has properties. -/
def Value.propertyMap? : Value → Except Fault String
  | .map entries => (Value.map entries).written (propertyMap entries)
  | _ => .error .missingPart

end GraphQuery
