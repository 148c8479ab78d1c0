import GraphQuery.Block.Sameness
import GraphQuery.Value.Bits
import GraphQuery.Value.Order

/-!
# Filters

A comparison of a property is a filter, and so are two filters combined and a filter negated. A
filter absorbs its operands: they leave the registry when it enters. Its negation takes its
place, if it has one.
-/
namespace GraphQuery.Block

/-- A comparison with a pattern is a match whatever operator was asked for. -/
def effectiveOperator (operator : Operator) : Operand → Operator
  | .value (.regex _) => .matching
  | _ => operator

def filterOf (left right : Operand) (operator : Operator) (negated : Bool) : Content :=
  .filter left right (effectiveOperator operator right) negated

/-- Registers a filter and drops its operands. -/
def absorb (filter : Content) (left right : Operand) (b : Block) : Block :=
  ((b.register filter).unregister left).unregister right

def composed (left right : Operand) (operator : Operator) (b : Block) : Outcome :=
  let filter := filterOf left right operator false
  (b.absorb filter left right).give (b.upcoming filter)

/-- Whether an operand counts as true. A filter leaves that open. -/
def Operand.truth : Operand → Except Fault Bool
  | .value v => .ok v.isTrue
  | .list items => .ok !items.isEmpty
  | .tuple items => .ok !items.isEmpty
  | .map entries => .ok !entries.isEmpty
  | .fragment _ (.filter _ _ _ _) => .error .noTruthValue
  | _ => .ok true

/-- Whether an operator holds of two numbers in the given order, if they are in any. -/
def Operator.holds (operator : Operator) (order : Option Ordering) : Bool :=
  match operator with
  | .less => order == some .lt
  | .lessEqual => order == some .lt || order == some .eq
  | .greaterEqual => order == some .gt || order == some .eq
  | .greater => order == some .gt
  | _ => false

/-- Values without a property: only numbers are in an order. -/
def ordered (operator : Operator) (left right : Operand) (b : Block) : Outcome :=
  match left, right with
  | .value v, .value w =>
    match v.number?, w.number? with
    | some m, some n => b.give (.value (.bool (operator.holds (m.compare? n))))
    | _, _ => b.fail .wrongType
  | _, _ => b.fail .wrongType

/-- The property may stand on either side. Anything can be asked for sameness. -/
def compare (operator : Operator) (left right : Operand) (b : Block) : Outcome :=
  match left, right with
  | .property _ _, _ => b.composed left right operator
  | _, .property _ _ => b.composed right left operator.exchanged
  | _, _ =>
    match operator with
    | .equal => b.give (.value (.bool (left.same right)))
    | .notEqual => b.give (.value (.bool (!left.same right)))
    | operator => b.ordered operator left right

def matching (left right : Operand) (b : Block) : Outcome :=
  match left with
  | .property _ _ => b.composed left right .matching
  | _ => b.fail .missingPart

/-- Two values combined: truth values, or the bits of integers. -/
def combined? (operator : Operator) (v w : Value) : Option Value :=
  if operator = .conjunction then v.both? w else v.either? w

def combine (operator : Operator) (left right : Operand) (b : Block) : Outcome :=
  match left, right with
  | .fragment _ (.filter _ _ _ _), right => b.composed left right operator
  | .value v, .value w =>
    match combined? operator v w with
    | some u => b.give (.value u)
    | none => b.fail .wrongType
  | _, _ => b.fail .wrongType

/-- The ways to ask for a negation: by two operators, which integers have as well, or by name. -/
inductive Negation where
  | complement
  | opposite
  | named
deriving DecidableEq, Inhabited

def Negation.ofInteger? : Negation → Int → Option Int
  | .complement, n => some (bitNot n)
  | .opposite, n => some (-n)
  | .named, _ => none

/-- What a call gives that the receiver does not have. -/
def Negation.fault : Negation → Fault
  | .named => .missingPart
  | _ => .wrongType

/-- A filter that another one has absorbed has no place to give to its negation. -/
def settle (old : Nat) (negation : Fragment Content) (r : Registry Content) : Registry Content :=
  if r.has old then r.replace old negation else r.remove negation.serial

/-- The same comparison or combination, negated. A negation negated again stays one. -/
def negate (negation : Negation) (operand : Operand) (b : Block) : Outcome :=
  match operand with
  | .fragment serial (.filter left right operator _) =>
    let filter := filterOf left right operator true
    let absorbed := b.absorb filter left right
    ({ absorbed with
      registry := settle serial (filter.fragment b.serials) absorbed.registry }).give
      (b.upcoming filter)
  | .value v =>
    match v.integer?.bind negation.ofInteger? with
    | some n => b.give (.value (.int n))
    | none => b.fail negation.fault
  | _ => b.fail negation.fault

end GraphQuery.Block
