import GraphQuery.Block.Basic
import GraphQuery.Decimal.Integer

/-!
# Paths

Nodes and entities of START are anchors: a path starts there. A segment can be extended from its
end; only the end of a path is registered, in the place of the segment it extends. A hop may be
followed by a hop or by a relationship, which is entered first and left next.
-/
namespace GraphQuery.Block

/-- Whether a call names the node that a hop leads to, or goes into or out of a relationship. -/
structure Link where
  direct : Bool
  direction : Direction
deriving DecidableEq, Inhabited

/-- The style of a segment that starts a path. -/
def Link.first (l : Link) : Style := if l.direct then .hop else .entry

/-- The style of a segment behind one of the given style. -/
def Link.after? (l : Link) : Style → Option Style
  | .hop => some l.first
  | .entry => if l.direct then none else some .exit
  | .exit => if l.direct then none else some .entry

/-- A segment is named after the size of the registry that includes it. -/
def pathName (b : Block) : String := "m" ++ Decimal.intText b.registry.length

def startPath (anchor : Nat) (style : Style) (direction : Direction) (right : Operand)
    (b : Block) : Outcome :=
  let content := Content.segment b.chains.length 0
  let registered := b.register content
  let segment : Segment := ⟨registered.pathName, style, direction, right, none, none⟩
  ({ registered with chains := b.chains ++ [Chain.mk anchor [segment] false] }).give
    (b.upcoming content)

def extendPath (path : Operand) (chain index size : Nat) (style : Style) (direction : Direction)
    (right : Operand) (b : Block) : Outcome :=
  let content := Content.segment chain size
  let registered := (b.unregister path).register content
  let segment : Segment := ⟨registered.pathName, style, direction, right, some index, none⟩
  ({ registered with chains := b.chains.modify chain (·.extend index segment) }).give
    (b.upcoming content)

def link (l : Link) (receiver other : Operand) (b : Block) : Outcome :=
  match receiver with
  | .node slot | .fragment _ (.start slot _) => b.startPath slot l.first l.direction other
  | .fragment _ (.segment chain index) =>
    match b.chains[chain]? with
    | none => b.fail .missingPart
    | some c =>
      match (c.segments[index]?).bind (l.after? ·.style) with
      | some style =>
        b.extendPath receiver chain index c.segments.length style l.direction other
      | none => b.fail .missingPart
  | _ => b.fail .missingPart

/-- Asks for the shortest path along a chain. -/
def shortestPath (path : Operand) (b : Block) : Outcome :=
  match path with
  | .fragment _ (.segment chain _) =>
    ({ b with chains := b.chains.modify chain fun c => { c with shortest := true } }).give path
  | _ => b.fail .missingPart

end GraphQuery.Block
