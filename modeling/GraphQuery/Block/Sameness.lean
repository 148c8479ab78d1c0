import GraphQuery.Block.Basic
import GraphQuery.Value.Mapping

/-!
# Sameness of operands

Two operands are the same when they are one object or equal values, and tuples when their members
are. By this the keys of a mapping are told apart, which lists, mappings and properties cannot be.
-/
namespace GraphQuery.Block

mutual

def Operand.same : Operand → Operand → Bool
  | .value v, .value w => v.same w
  | .tuple xs, .tuple ys => sameOperands xs ys
  | .block, .block => true
  | .node i, .node j => i == j
  | .relationship i _, .relationship j _ => i == j
  | .fragment m _, .fragment n _ => m == n
  | _, _ => false
termination_by structural operand => operand

def sameOperands : List Operand → List Operand → Bool
  | [], [] => true
  | x :: xs, y :: ys => x.same y && sameOperands xs ys
  | _, _ => false
termination_by structural operands => operands

end

def putOperand (key operand : Operand) : List (Operand × Operand) → List (Operand × Operand)
  | [] => [(key, operand)]
  | entry :: entries =>
    if entry.1.same key then (entry.1, operand) :: entries
    else entry :: putOperand key operand entries

mutual

def Operand.isKey : Operand → Bool
  | .value v => v.unhashable?.isNone
  | .tuple items => areKeys items
  | .list _ => false
  | .map _ => false
  | .property _ _ => false
  | .block => true
  | .node _ => true
  | .relationship _ _ => true
  | .fragment _ _ => true
termination_by structural operand => operand

def areKeys : List Operand → Bool
  | [] => true
  | x :: xs => x.isKey && areKeys xs
termination_by structural operands => operands

end

mutual

/-- All keys of all mappings within an operand can be keys. -/
def Operand.wellKeyed : Operand → Bool
  | .value v => v.wellKeyed
  | .list items => allWellKeyed items
  | .tuple items => allWellKeyed items
  | .map entries => entriesWellKeyed entries
  | .block => true
  | .node _ => true
  | .relationship _ _ => true
  | .property _ _ => true
  | .fragment _ _ => true
termination_by structural operand => operand

def allWellKeyed : List Operand → Bool
  | [] => true
  | x :: xs => x.wellKeyed && allWellKeyed xs
termination_by structural operands => operands

def entriesWellKeyed : List (Operand × Operand) → Bool
  | [] => true
  | (key, operand) :: entries =>
    key.isKey && key.wellKeyed && operand.wellKeyed && entriesWellKeyed entries
termination_by structural entries => entries

end

end GraphQuery.Block
