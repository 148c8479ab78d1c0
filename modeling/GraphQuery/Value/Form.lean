import GraphQuery.Decimal.Layout
import GraphQuery.Text.Join
import GraphQuery.Text.Quoted
import GraphQuery.Value.Basic
import GraphQuery.Value.Pattern

/-!
# Written forms of values

`inspect` writes a value so that a message can point at it, texts in quotes. `display` writes it
as it enters a query text: a text stands for itself, all else is as inspected.
-/
namespace GraphQuery

def Progression.inspect (p : Progression) : String :=
  let bounds := "range(" ++ Decimal.intText p.start ++ ", " ++ Decimal.intText p.stop
  if p.step = 1 then bounds ++ ")" else bounds ++ ", " ++ Decimal.intText p.step ++ ")"

/-- A single member is followed by a comma. -/
def inspectTuple : List String → String
  | [item] => "(" ++ item ++ ",)"
  | items => "(" ++ Text.join ", " items ++ ")"

mutual

def Value.inspect : Value → String
  | .null => "None"
  | .bool b => if b then "True" else "False"
  | .int n => Decimal.intText n
  | .float x => Decimal.floatText x
  | .text s => Text.quoted s
  | .list items => "[" ++ Text.join ", " (inspectItems items) ++ "]"
  | .tuple items => inspectTuple (inspectItems items)
  | .map entries => "\x7b" ++ Text.join ", " (inspectEntries entries) ++ "\x7d"
  | .range p => p.inspect
  | .regex pattern => Pattern.inspect pattern
  | .bytes data => Text.quotedBytes data
  | .foreign label => label
termination_by structural v => v

def inspectItems : List Value → List String
  | [] => []
  | item :: items => item.inspect :: inspectItems items
termination_by structural items => items

def inspectEntries : List (Value × Value) → List String
  | [] => []
  | (key, value) :: entries => (key.inspect ++ ": " ++ value.inspect) :: inspectEntries entries
termination_by structural entries => entries

end

def Value.display : Value → String
  | .text s => s
  | v => v.inspect

end GraphQuery
