import GraphQuery.Block.Binding
import GraphQuery.Block.Filter
import GraphQuery.Block.Path

/-!
# Scripts

A script is a list of calls on one block. Its terms are values and the results of earlier calls;
a call that fails leaves null as its result and the script goes on. What the script ends with
becomes the last items of RETURN, unless it is one already.
-/
namespace GraphQuery.Block

inductive Term where
  | value (v : Value)
  | list (items : List Term)
  | tuple (items : List Term)
  | map (entries : List (Term × Term))
  | result (step : Nat)
  | block
deriving Inhabited

mutual

def Term.resolve (results : List Operand) : Term → Operand
  | .value v => .value v
  | .list items => .list (resolveItems results items)
  | .tuple items => .tuple (resolveItems results items)
  | .map entries => .map (resolveEntries results [] entries)
  | .result step => (results[step]?).getD (.value .null)
  | .block => .block
termination_by structural term => term

def resolveItems (results : List Operand) : List Term → List Operand
  | [] => []
  | item :: items => Term.resolve results item :: resolveItems results items
termination_by structural items => items

/-- The entries behind `entered`; one under a present key replaces its operand. -/
def resolveEntries (results : List Operand) (entered : List (Operand × Operand)) :
    List (Term × Term) → List (Operand × Operand)
  | [] => entered
  | (key, term) :: entries =>
    resolveEntries results
      (putOperand (Term.resolve results key) (Term.resolve results term) entered) entries
termination_by structural entries => entries

end

/-! ## Calls -/

inductive Verb where
  | node
  | relationship
  | search (r : Resolver)
  | lookup (r : Resolver)
  /-- Does nothing and gives the block back. -/
  | remark
  | condition
  | ret
  | link (l : Link)
  | property
  | rename
  | compare (operator : Operator)
  | matching
  | combine (operator : Operator)
  | negate (negation : Negation)
  | shortestPath
  | custom (kind : Option Clause.Kind) (text separator : String)
  /-- Gives the receiver itself. -/
  | look
deriving Inhabited

/-- Only a text is a condition. -/
def condition (arg : Operand) (b : Block) : Outcome :=
  match arg with
  | .value (.text text) => (b.register (.condition text)).give .block
  | _ => b.give .block

def registerItems (items : List Operand) (b : Block) : Block :=
  items.foldl (fun b item => b.register (.item item)) b

/-- Registers the items and gives the last fragment of the query, if it has any. -/
def ret (items : List Operand) (b : Block) : Outcome :=
  let b := b.registerItems items
  b.give (((b.registry.getLast?).map ofFragment).getD (.value .null))

def custom (kind : Option Clause.Kind) (text separator : String) (b : Block) : Outcome :=
  match kind with
  | some kind =>
    let content := Content.custom kind text separator
    (b.register content).give (b.upcoming content)
  | none => b.fail .unknownName

def perform (verb : Verb) (receiver : Operand) (args : List Operand) (b : Block) : Outcome :=
  match verb, args with
  | .node, args => b.node args
  | .relationship, args => b.relationship args
  | .search r, [query] => b.search r query (.value (.text "exact"))
  | .search r, [query, type] => b.search r query type
  | .lookup r, [key, value] => b.lookup r key value
  | .remark, _ => b.give .block
  | .condition, [] => b.give .block
  | .condition, [arg] => b.condition arg
  | .ret, args => b.ret args
  | .link l, [other] => b.link l receiver other
  | .property, [key] => b.property receiver key
  | .rename, [name] => b.renamed receiver name
  | .compare operator, [other] => b.compare operator receiver other
  | .matching, [other] => b.matching receiver other
  | .combine operator, [other] => b.combine operator receiver other
  | .negate negation, _ => b.negate negation receiver
  | .shortestPath, _ => b.shortestPath receiver
  | .custom kind text separator, _ => b.custom kind text separator
  | .look, _ => b.give receiver
  | _, _ => b.fail .wrongType

/-- One call of a script, its receiver being the result of an earlier one. -/
structure Step where
  verb : Verb
  receiver : Option Nat
  args : List Term
deriving Inhabited

structure Run where
  block : Block
  results : List Operand
deriving Inhabited

namespace Run

def start : Run := ⟨Block.empty, []⟩

def outcome (r : Run) (s : Step) : Outcome :=
  let args := resolveItems r.results s.args
  if allWellKeyed args then
    r.block.perform s.verb
      ((s.receiver.map fun step => Term.resolve r.results (.result step)).getD (.value .null)) args
  else r.block.fail .wrongType

def record (r : Run) (outcome : Outcome) : Run :=
  ⟨outcome.2, r.results ++ [(outcome.1.toOption).getD (.value .null)]⟩

def step (r : Run) (s : Step) : Run := r.record (r.outcome s)

end Run

def run (script : List Step) : Run := script.foldl Run.step Run.start

/-- The block with what the script ends with as its last items. -/
def conclude (result : Operand) (b : Block) : Block :=
  match result with
  | .value .null => b
  | .block => b
  | .fragment _ (.item _) => b
  | result => b.registerItems (result.elements?.getD [result])

end GraphQuery.Block
