import GraphQuery.Clause.Entry

/-!
# Clauses

A clause is made from one argument, whose texts are fixed at once: raw text, an integer, or a
mapping of variables. Argument lists may be nested; arguments without content are passed over.
-/
namespace GraphQuery

structure Clause where
  kind : Clause.Kind
  values : List String
deriving DecidableEq, Inhabited

namespace Clause

def argumentTexts (kind : Kind) (replace : Bool) : Value → Except Fault (List String)
  | .text s => .ok [s]
  | .int n =>
    if kind.lastOnly then (Value.int n).written [Decimal.intText n]
    else .error (rejection kind (.int n))
  | .map entries => entriesTexts kind replace entries
  | v => .error (rejection kind v)

def ofArgument (kind : Kind) (replace : Bool) (v : Value) : Except Fault Clause :=
  (argumentTexts kind replace v).map (Clause.mk kind)

mutual

/-- The argument itself, or the arguments of a nested list in order. -/
def flatten : Value → List Value
  | .list items => flattenAll items
  | .tuple items => flattenAll items
  | .null => [.null]
  | .bool b => [.bool b]
  | .int n => [.int n]
  | .float x => [.float x]
  | .text s => [.text s]
  | .map entries => [.map entries]
  | .range p => [.range p]
  | .regex pattern => [.regex pattern]
  | .bytes data => [.bytes data]
  | .foreign label => [.foreign label]
termination_by structural v => v

def flattenAll : List Value → List Value
  | [] => []
  | v :: vs => flatten v ++ flattenAll vs
termination_by structural vs => vs

end

def hasContent : Value → Bool
  | .text s => s != ""
  | .map entries => !entries.isEmpty
  | _ => true

/-- The clauses of the first arguments up to a rejected one, which decides the outcome. -/
def ofEach (kind : Kind) (replace : Bool) : List Value → Except Fault (List Clause)
  | [] => .ok []
  | v :: vs =>
    match ofArgument kind replace v with
    | .error e => .error e
    | .ok clause =>
      match ofEach kind replace vs with
      | .error e => .error e
      | .ok clauses => .ok (clause :: clauses)

def ofArguments (kind : Kind) (replace : Bool) (args : List Value) :
    Except Fault (List Clause) :=
  ofEach kind replace ((flattenAll args).filter hasContent)

/-- The form in which messages show a clause. -/
def inspect (c : Clause) : String :=
  c.kind.title ++ "(" ++ Text.quoted (Text.join c.kind.separator c.values) ++ ")"

end Clause
end GraphQuery
