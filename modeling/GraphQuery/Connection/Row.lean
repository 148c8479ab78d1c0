import GraphQuery.Value.Capacity
import GraphQuery.Value.Mapping

/-!
# Rows

A row is a mapping, or else a list of pairs of a key and a value. A later pair under a present key
replaces its value.
-/
namespace GraphQuery.Connection

/-- The pair at a position of a row. -/
def readPair (position : Nat) (v : Value) : Except Fault (Value × Value) :=
  match v.listed with
  | .ok [key, value] =>
    match key.unhashable? with
    | some type => .error (.unhashable type)
    | none => .ok (key, value)
  | .ok members => .error (.pairLength position members.length)
  | .error (.notIterable _) => .error (.notPair position)
  | .error fault => .error fault

/-- The pairs from a position on, entered one by one. -/
def readPairs (position : Nat) (entries : List (Value × Value)) :
    List Value → Except Fault (List (Value × Value))
  | [] => .ok entries
  | v :: vs =>
    match readPair position v with
    | .ok (key, value) => readPairs (position + 1) (putEntry key value entries) vs
    | .error fault => .error fault

/-- The members of a progression are no pairs. -/
def readRow (v : Value) : Except Fault Value :=
  match v with
  | .map entries => .ok (.map entries)
  | .range p => if p.isEmpty then .ok (.map []) else .error (.notPair 0)
  | v =>
    match v.listed with
    | .ok members => (readPairs 0 [] members).map .map
    | .error fault => .error fault

end GraphQuery.Connection
