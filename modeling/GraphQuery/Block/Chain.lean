import GraphQuery.Block.Operand

/-!
# Chains

A chain holds the segments of one traversal, linked by index in both directions. A segment that
is extended more than once is linked to its latest successor; every segment is linked to the one
it extends.
-/
namespace GraphQuery.Block

inductive Direction where
  | outgoing
  | incoming
  | both
deriving DecidableEq, Inhabited

def Direction.name : Direction → String
  | .outgoing => "outgoing"
  | .incoming => "incoming"
  | .both => "both"

/-- A hop leads from node to node; a named relationship is entered and left by a segment each. -/
inductive Style where
  | hop
  | entry
  | exit
deriving DecidableEq, Inhabited

def Style.connector : Style → Direction → String
  | .hop, .outgoing => "-->"
  | .hop, .incoming => "<--"
  | .hop, .both => "--"
  | .entry, .incoming => "<-"
  | .entry, _ => "-"
  | .exit, .outgoing => "->"
  | .exit, _ => "-"

structure Segment where
  /-- The name of the path when the segment ends it. -/
  name : String
  style : Style
  direction : Direction
  right : Operand
  prev : Option Nat
  next : Option Nat
deriving Inhabited

def Segment.connector (s : Segment) : String := s.style.connector s.direction

structure Chain where
  /-- The slot of the variable where the chain starts. -/
  anchor : Nat
  segments : List Segment
  /-- The path is to be the shortest one. -/
  shortest : Bool
deriving Inhabited

/-- The indices met by following links from an index, at most `fuel` of them. -/
def trail (link : Nat → Option Nat) : Nat → Nat → List Nat
  | 0, i => [i]
  | fuel + 1, i =>
    match link i with
    | some j => i :: trail link fuel j
    | none => [i]

@[simp] theorem head?_trail (link : Nat → Option Nat) (fuel i : Nat) :
    (trail link fuel i).head? = some i := by
  cases fuel with
  | zero => rfl
  | succ fuel => rw [trail]; split <;> rfl

namespace Chain

def prev (c : Chain) (i : Nat) : Option Nat := (c.segments[i]?).bind (·.prev)

def next (c : Chain) (i : Nat) : Option Nat := (c.segments[i]?).bind (·.next)

/-- The segment at which a path starts. -/
def headOf (c : Chain) (i : Nat) : Nat := (trail c.prev c.segments.length i).getLastD i

/-- The segments from the head of a path onward, following the links to successors. -/
def walk (c : Chain) (i : Nat) : List Nat := trail c.next c.segments.length (c.headOf i)

/-- Adds a segment behind the one at index `i`. -/
def extend (c : Chain) (i : Nat) (s : Segment) : Chain :=
  { c with
    segments := (c.segments.modify i fun t => { t with next := some c.segments.length }) ++ [s] }

end Chain
end GraphQuery.Block
