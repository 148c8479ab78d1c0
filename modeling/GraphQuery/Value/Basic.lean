/-!
# Values

What a caller hands to a query: data that has a literal form in a query text, and objects that
have none but can still be shown in a message.
-/
namespace GraphQuery

/-- The integers `start`, `start + step`, `start + 2 * step` and so on before `stop`. -/
structure Progression where
  start : Int
  stop : Int
  step : Int
deriving DecidableEq, Inhabited

namespace Progression

def size (p : Progression) : Nat :=
  if 0 < p.step then ((p.stop - p.start + p.step - 1) / p.step).toNat
  else if p.step < 0 then ((p.start - p.stop - p.step - 1) / -p.step).toNat
  else 0

def isEmpty (p : Progression) : Bool := p.size == 0

def members (p : Progression) : List Int :=
  (List.range p.size).map fun (i : Nat) => p.start + i * p.step

/-- The last member of a progression that is not empty. -/
def last (p : Progression) : Int := p.start + (p.size - 1 : Int) * p.step

end Progression

/-- A mapping lists its entries in the order in which their keys arrived. A foreign object is
known by the text that shows it, which is the same within a query and within a message; objects with
two different texts are not among the values. -/
inductive Value where
  | null
  | bool (b : Bool)
  | int (n : Int)
  | float (x : Float)
  | text (s : String)
  | list (items : List Value)
  | tuple (items : List Value)
  | map (entries : List (Value × Value))
  | range (p : Progression)
  | regex (pattern : String)
  | bytes (data : List UInt8)
  | foreign (label : String)
deriving Inhabited

/-- Empty containers and texts, zero, false and null do not count as true. -/
def Value.isTrue : Value → Bool
  | .null => false
  | .bool b => b
  | .int n => n != 0
  | .float x => !(x == 0.0)
  | .text s => s != ""
  | .list items => !items.isEmpty
  | .tuple items => !items.isEmpty
  | .map entries => !entries.isEmpty
  | .range p => !p.isEmpty
  | .regex _ => true
  | .bytes data => !data.isEmpty
  | .foreign _ => true

/-- What a value yields member by member: a text its characters, a mapping its keys, and bytes
their numbers. -/
def Value.members? : Value → Option (List Value)
  | .text s => some (s.toList.map fun c => .text (String.ofList [c]))
  | .list items => some items
  | .tuple items => some items
  | .map entries => some (entries.map Prod.fst)
  | .range p => some (p.members.map .int)
  | .bytes data => some (data.map fun b => .int b.toNat)
  | _ => none

end GraphQuery
