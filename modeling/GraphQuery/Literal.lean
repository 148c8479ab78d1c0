import GraphQuery.Value.Form

/-!
# Literals

The text by which a value stands in a query. Texts are enclosed in double quotes, with
backslashes and double quotes escaped; a pattern is the literal of its text. A value that has no
literal form is displayed.
-/
namespace GraphQuery

def literalChar : Char → List Char
  | '\\' => ['\\', '\\']
  | '"' => ['\\', '"']
  | c => [c]

def textLiteral (s : String) : String :=
  String.ofList ('"' :: s.toList.flatMap literalChar ++ ['"'])

mutual

def Value.literal : Value → String
  | .null => "null"
  | .bool b => if b then "true" else "false"
  | .text s => textLiteral s
  | .regex pattern => textLiteral pattern
  | .list items => "[" ++ Text.join ", " (literals items) ++ "]"
  | .tuple items => "[" ++ Text.join ", " (literals items) ++ "]"
  | .map entries => "\x7b" ++ Text.join ", " (propertyTexts entries) ++ "\x7d"
  | .int n => Decimal.intText n
  | .float x => Decimal.floatText x
  | .range p => p.inspect
  | .bytes data => Text.quotedBytes data
  | .foreign label => label
termination_by structural v => v

def literals : List Value → List String
  | [] => []
  | item :: items => item.literal :: literals items
termination_by structural items => items

def propertyTexts : List (Value × Value) → List String
  | [] => []
  | (key, value) :: entries => (key.display ++ ": " ++ value.literal) :: propertyTexts entries
termination_by structural entries => entries

end

/-- A property map such as `{name: "Bob", age: 3}`. -/
def propertyMap (entries : List (Value × Value)) : String :=
  "\x7b" ++ Text.join ", " (propertyTexts entries) ++ "\x7d"

end GraphQuery
