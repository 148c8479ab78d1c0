import GraphQuery.Query.Basic
import GraphQuery.Value.Capacity
import GraphQuery.Value.Number

/-!
# Shortcuts

Recurring combinations of clauses: matching by label, traversing relationships, paging and
counting. Each is expressed by adding clauses.
-/
namespace GraphQuery.Query

/-- Matches `(name:label {properties})`. -/
def matchNode (q : Query) (label name : Value) (properties : List (Value × Value)) :
    Except Fault Query := do
  let text ← NodePattern.build ⟨← name.shown, [← label.shown], properties⟩
  q.add .pattern [.text text]

/-- The texts of a list that holds nothing else, its first member being the one at `position`. -/
def textsFrom (position : Nat) : List Value → Except Fault (List String)
  | [] => .ok []
  | .text s :: rest => (textsFrom (position + 1) rest).map (s :: ·)
  | v :: _ => .error (.notText position v.fullTypeName)

/-- Relationship types joined by bars, or nothing for any type. -/
def typeFilter (types : Value) : Except Fault String :=
  if types.isTrue then
    match types.listed with
    | .ok members => (textsFrom 0 members).map fun names => ":" ++ Text.join "|" names
    | .error (.notIterable _) => .error .unjoinable
    | .error fault => .error fault
  else .ok ""

/-- A single hop, or from one up to `depth` hops. -/
def hops (depth : Value) : Except Fault String :=
  match depth.number? with
  | some n => if n.exceedsOne then depth.shown.map ("*1.." ++ ·) else .ok ""
  | none => .error (.incomparable depth.fullTypeName "int")

/-- Traverses undirected relationships between two nodes. -/
def expand (q : Query) (source target types depth : Value) (optional : Bool) :
    Except Fault Query := do
  let types ← typeFilter types
  let hops ← hops depth
  let source ← source.shown
  let target ← target.shown
  q.add (if optional then .optionalPattern else .pattern)
    [.text ("(" ++ source ++ ")-[" ++ types ++ hops ++ "]-(" ++ target ++ ")")]

/-- A value that is repeated cannot be compared with a number even if there is room for it. -/
def repetition (count : Int) (v : Value) : Fault :=
  (v.repeatFault? count).getD (.incomparable v.fullTypeName "int")

/-- Only integers repeat a value. -/
def fraction (v : Value) : Fault :=
  if v.extent?.isSome then .repeatedBy "float" else .unsupported "*" "float" v.fullTypeName

/-- The number of rows before a page, where pages count from one. -/
def offset (page size : Value) : Except Fault Number :=
  match page.number?.map Number.pred, size.number? with
  | some before, some size =>
    match before.mul? size with
    | some n => .ok n
    | none => .error .beyondFloats
  | some (.whole before), none => .error (repetition before size)
  | some (.real _), none => .error (fraction size)
  | none, _ => .error (.unsupported "-" page.fullTypeName "int")

/-- Skips the rows before the page, if there are any, and limits the rest to its size. -/
def paginate (q : Query) (page size : Value) : Except Fault Query := do
  let before ← offset page size
  let q ← if before.isPositive then q.add .skip [before.value] else .ok q
  q.add .limit [size]

/-- Returns the number of rows under the name `count`. -/
def count (q : Query) (name : Value) (distinct : Bool) : Except Fault Query := do
  let name ← name.shown
  let counted := if distinct then "DISTINCT " ++ name else name
  q.add .result [.text ("COUNT(" ++ counted ++ ") AS count")]

end GraphQuery.Query
