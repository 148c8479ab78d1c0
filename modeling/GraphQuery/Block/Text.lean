import GraphQuery.Block.Basic
import GraphQuery.Log.Event
import GraphQuery.Text.Blank
import GraphQuery.Text.Upper
import GraphQuery.Value.Capacity

/-!
# Texts of blocks

How operands and fragments are written. What an operand mentions is looked up when it is written:
the current names of variables, and the texts of paths and of the whole block. A path or block
whose text contains itself has no text, which is found out by bounding the depth of the look-ups.
Neither has one in which an integer of too many digits would stand.
-/
namespace GraphQuery.Block

open Clause (Kind)

inductive Manner where
  /-- On its own. -/
  | plain
  /-- As messages show it. -/
  | shown
  /-- By its name, if it has one. -/
  | named
  /-- As an operand of a filter. -/
  | literal
deriving DecidableEq, Inhabited

inductive Place where
  | path (chain index : Nat)
  | whole
deriving DecidableEq, Inhabited

/-- What a block offers to the texts of its operands. -/
structure Scope where
  names : List Value
  chains : List Chain
  text : Place → Except Fault String

namespace Scope

def name (s : Scope) (slot : Nat) : Value := nameAt s.names slot

def segmentName (s : Scope) (chain index : Nat) : Value :=
  match segment? s.chains chain index with
  | some segment => .text segment.name
  | none => .null

end Scope

/-- Where only a text will do. -/
def requireText : Value → Except Fault Value
  | .text s => .ok (.text s)
  | _ => .error .wrongType

def writeValue : Manner → Value → String
  | .plain, v => v.display
  | .shown, v => v.inspect
  | .named, v => v.display
  | .literal, .text s => "\"" ++ s ++ "\""
  | .literal, .bool b => if b then "true" else "false"
  | .literal, .null => "null"
  | .literal, v => v.display

/-- A variable on its own is its name, which has to be a text then. -/
def writeVariable (title : String) (name : Value) : Manner → Except Fault Value
  | .plain => requireText name
  | .shown => name.written (.text (title ++ "(" ++ name.inspect ++ ")"))
  | .named => .ok name
  | .literal => .ok name

/-- A text that stands for itself in every manner but the one of messages. -/
def writeText (title text : String) : Manner → Value
  | .shown => .text (title ++ "(" ++ Text.quoted text ++ ")")
  | _ => .text text

def rightManner (operator : Operator) : Manner :=
  if operator = .matching then .plain else .literal

/-- Regular expressions stand between slashes. -/
def rightSide (operator : Operator) (right : Operand) (written : String) : String :=
  match right with
  | .value (.regex pattern) => "/" ++ pattern ++ "/"
  | _ => if operator = .matching then "/" ++ written ++ "/" else written

def phrase (negated : Bool) (left : String) (operator : Operator) (right : String) : String :=
  (if negated then "not " else "") ++ "(" ++ left ++ " " ++ operator.text ++ " " ++ right ++ ")"

mutual

def Operand.write (s : Scope) (m : Manner) : Operand → Except Fault Value
  | .value v => v.written (.text (writeValue m v))
  | .list items => do return .text ("[" ++ Text.join ", " (← writeItems s .shown items) ++ "]")
  | .tuple items => do return .text (inspectTuple (← writeItems s .shown items))
  | .map entries => do
    return .text ("\x7b" ++ Text.join ", " (← writeEntries s entries) ++ "\x7d")
  | .block => do return writeText "Cypher" (← s.text .whole) m
  | .node slot => writeVariable "NodeVar" (s.name slot) m
  | .relationship slot _ => writeVariable "RelVar" (s.name slot) m
  | .property slot key => do
    let name ← (s.name slot).shown
    let key ← Operand.write s .plain key
    return writeText "Property" (name ++ "." ++ key.display) m
  | .fragment _ content => Content.write s m content
termination_by structural operand => operand

def Content.write (s : Scope) (m : Manner) : Content → Except Fault Value
  | .start slot source =>
    if m = .named ∨ m = .literal then .ok (s.name slot)
    else do
      let name ← (s.name slot).shown
      return .text (name ++ "=" ++ (← Source.write s source))
  | .segment chain index =>
    if m = .named ∨ m = .literal then .ok (s.segmentName chain index)
    else do return .text (← s.text (.path chain index))
  | .filter left right operator negated => do
    let written ← Operand.write s (rightManner operator) right
    let left ← Operand.write s .literal left
    let left ← left.shown
    let side := rightSide operator right (← written.shown)
    return writeText "BooleanExpression" (phrase negated left operator side) m
  | .condition text => .ok (.text text)
  | .item operand => do requireText (← Operand.write s .named operand)
  | .custom _ text _ => .ok (.text text)
termination_by structural content => content

def Source.write (s : Scope) : Source → Except Fault String
  | .nodes ids => do return "node(" ++ Text.join "," (← writeItems s .plain ids) ++ ")"
  | .relationships ids => do
    return "relationship(" ++ Text.join "," (← writeItems s .plain ids) ++ ")"
  | .search none _ => .error .missingPart
  | .search (some index) query => do
    return "node:" ++ index ++ "(" ++ (← Operand.write s .plain query).display ++ ")"
  | .lookup none _ => .error .missingPart
  | .lookup (some index) query => .ok ("node:" ++ index ++ "(" ++ query ++ ")")
termination_by structural source => source

def writeItems (s : Scope) (m : Manner) : List Operand → Except Fault (List String)
  | [] => .ok []
  | item :: items => do
    let text ← Operand.write s m item
    return text.display :: (← writeItems s m items)
termination_by structural items => items

def writeEntries (s : Scope) : List (Operand × Operand) → Except Fault (List String)
  | [] => .ok []
  | (key, operand) :: entries => do
    let key ← Operand.write s .shown key
    let text ← Operand.write s .shown operand
    return (key.display ++ ": " ++ text.display) :: (← writeEntries s entries)
termination_by structural entries => entries

end

/-- The text of an operand on its own. -/
def Operand.display (s : Scope) (operand : Operand) : Except Fault String :=
  (operand.write s .plain).map Value.display

/-- A fragment in its place in the query. An item of RETURN is the name of its operand, whatever
that is. -/
def Content.render (s : Scope) : Content → Except Fault Value
  | .item operand => operand.write s .named
  | content => content.write s .plain

/-! ## Paths -/

/-- What a segment has at its right: a relationship is written by the text between its brackets,
or else by its name. -/
def rightText (s : Scope) (right : Operand) : Except Fault Value :=
  match right with
  | .relationship slot expr => .ok (if expr = "" then s.name slot else .text expr)
  | right => right.write s .named

/-- A segment without the node at its left. -/
def localText (s : Scope) (segment : Segment) : Except Fault String :=
  match segment.style with
  | .hop => do
    let right ← rightText s segment.right
    return segment.connector ++ "(" ++ (← right.shown) ++ ")"
  | .entry => do
    let right ← rightText s segment.right
    return segment.connector ++ "[" ++ (← right.shown) ++ "]"
  | .exit => do
    let right ← segment.right.write s .named
    return segment.connector ++ "(" ++ (← right.shown) ++ ")"

/-- What a segment has at its left: the segment that it extends, or the node where the chain
starts. -/
def leftName (s : Scope) (chain : Chain) (segment : Segment) : Value :=
  match segment.prev with
  | none => s.name chain.anchor
  | some i => ((chain.segments[i]?).map fun left => Value.text left.name).getD .null

/-- A segment that starts a path is preceded by the node where it starts. -/
def segmentText (s : Scope) (chain : Chain) (segment : Segment) : Except Fault String := do
  let text ← localText s segment
  if segment.prev.isNone then
    return "(" ++ (← (leftName s chain segment).shown) ++ ")" ++ text
  else return text

def walkText (s : Scope) (chain : Chain) : List Nat → Except Fault String
  | [] => .ok ""
  | i :: walk =>
    match chain.segments[i]? with
    | none => walkText s chain walk
    | some segment => do
      let text ← segmentText s chain segment
      return text ++ (← walkText s chain walk)

def algorithm : String := "shortestPath"

def pathText (s : Scope) (chain index : Nat) : Except Fault String :=
  match s.chains[chain]? with
  | none => .error .missingPart
  | some c => do
    let text ← walkText s c (c.walk index)
    if c.shortest then
      return (s.segmentName chain index).display ++ " = " ++ algorithm ++ "(" ++ text ++ ")"
    else return text

/-! ## The whole -/

def heading (kind : Kind) : String := Text.upper kind.tag

/-- A fragment behind one of its own kind follows the separator, any other the heading of its
kind. -/
def placed (previous : Option Kind) (f : Fragment Content) (text : String) : String :=
  if previous = some f.kind then f.content.separator ++ text
  else " " ++ heading f.kind ++ " " ++ text

def registryText (s : Scope) (previous : Option Kind) : Registry Content → Except Fault String
  | [] => .ok ""
  | f :: registry => do
    let text ← f.content.render s
    let text ← text.shown
    return placed previous f text ++ (← registryText s (some f.kind) registry)

def placeText (s : Scope) (registry : Registry Content) : Place → Except Fault String
  | .path chain index => pathText s chain index
  | .whole => (registryText s none registry).map Text.strip

/-- The scope in which look-ups may be nested `depth` deep. -/
def scopeAt (b : Block) : Nat → Scope
  | 0 => ⟨b.names, b.chains, fun _ => .error .endless⟩
  | depth + 1 => ⟨b.names, b.chains, placeText (scopeAt b depth) b.registry⟩

/-- On a way of look-ups that ends, no chain and no whole occurs twice. -/
def scope (b : Block) : Scope := b.scopeAt (b.chains.length + 2)

def display (b : Block) (operand : Operand) : Except Fault String := operand.display b.scope

def text (b : Block) : Except Fault String := b.scope.text .whole

/-- The event of writing the text of a block. -/
def rendering (text : String) : Log.Event :=
  ⟨.debug, "Rendered DSL query", [("query", .value (.text text))]⟩

def inspect (text : String) : String := "Cypher(" ++ Text.quoted text ++ ")"

end GraphQuery.Block
