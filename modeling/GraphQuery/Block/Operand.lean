import GraphQuery.Clause.Kind
import GraphQuery.Value.Basic

/-!
# Operands

What the calls of a block take and give: values, variables and properties, and the fragments of
the query. Variables have slots, which hold their current names, so that renaming a variable
reaches everything that mentions it. Paths are known by their chain and the index of a segment.
-/
namespace GraphQuery.Block

inductive Operator where
  | less
  | lessEqual
  | equal
  | notEqual
  | greaterEqual
  | greater
  | matching
  | conjunction
  | disjunction
deriving DecidableEq, Inhabited

namespace Operator

def text : Operator → String
  | .less => "<"
  | .lessEqual => "<="
  | .equal => "="
  | .notEqual => "<>"
  | .greaterEqual => ">="
  | .greater => ">"
  | .matching => "=~"
  | .conjunction => "and"
  | .disjunction => "or"

/-- The comparison that says the same with its sides exchanged. -/
def exchanged : Operator → Operator
  | .less => .greater
  | .lessEqual => .greaterEqual
  | .greaterEqual => .lessEqual
  | .greater => .less
  | op => op

end Operator

mutual

inductive Operand where
  | value (v : Value)
  | list (items : List Operand)
  | tuple (items : List Operand)
  | map (entries : List (Operand × Operand))
  /-- The block itself. -/
  | block
  /-- A node that no entity of START binds. -/
  | node (slot : Nat)
  /-- A relationship, with the text between its brackets unless that is empty. -/
  | relationship (slot : Nat) (expr : String)
  | property (slot : Nat) (key : Operand)
  | fragment (serial : Nat) (content : Content)

inductive Content where
  | start (slot : Nat) (source : Source)
  | segment (chain index : Nat)
  | filter (left right : Operand) (operator : Operator) (negated : Bool)
  | condition (text : String)
  | item (operand : Operand)
  | custom (kind : Clause.Kind) (text separator : String)

/-- Where the entities of START come from. An index search whose index is not known has no
text. -/
inductive Source where
  | nodes (ids : List Operand)
  | relationships (ids : List Operand)
  | search (index : Option String) (query : Operand)
  | lookup (index : Option String) (query : String)

end

instance : Inhabited Operand := ⟨.value .null⟩

def Content.kind : Content → Clause.Kind
  | .start _ _ => .start
  | .segment _ _ => .pattern
  | .filter _ _ _ _ => .condition
  | .condition _ => .condition
  | .item _ => .result
  | .custom kind _ _ => kind

/-- What stands between a fragment and a neighbour of its kind before it. -/
def Content.separator : Content → String
  | .filter _ _ _ _ => " "
  | .custom _ _ separator => separator
  | _ => ","

namespace Operand

/-- The slot of the variable that an operand binds. -/
def slot? : Operand → Option Nat
  | .node slot => some slot
  | .relationship slot _ => some slot
  | .fragment _ (.start slot _) => some slot
  | _ => none

def serial? : Operand → Option Nat
  | .fragment serial _ => some serial
  | _ => none

/-- The members of a list or tuple. -/
def elements? : Operand → Option (List Operand)
  | .list items | .tuple items => some items
  | .value (.list items) | .value (.tuple items) => some (items.map .value)
  | _ => none

end Operand
end GraphQuery.Block
