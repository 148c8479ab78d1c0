import GraphQuery.Decimal.Layout
import GraphQuery.Value.Basic

/-!
# Numbers

Truth values count as the integers one and zero. An integer meets a floating-point number as the
nearest one, and fails when it is beyond the largest.
-/
namespace GraphQuery

inductive Number where
  | whole (n : Int)
  | real (x : Float)

def Value.number? : Value → Option Number
  | .bool b => some (.whole b.toInt)
  | .int n => some (.whole n)
  | .float x => some (.real x)
  | _ => none

def nearestFloat? (n : Int) : Option Float :=
  let x := Float.ofScientific n.natAbs false 0
  match Decimal.Class.ofFloat x with
  | .infinite _ => none
  | _ => some (if n < 0 then -x else x)

namespace Number

def value : Number → Value
  | .whole n => .int n
  | .real x => .float x

def pred : Number → Number
  | .whole n => .whole (n - 1)
  | .real x => .real (x - 1.0)

def mul? : Number → Number → Option Number
  | .whole m, .whole n => some (.whole (m * n))
  | .whole m, .real y => (nearestFloat? m).map fun x => .real (x * y)
  | .real x, .whole n => (nearestFloat? n).map fun y => .real (x * y)
  | .real x, .real y => some (.real (x * y))

def isPositive : Number → Bool
  | .whole n => decide (0 < n)
  | .real x => decide (0.0 < x)

def exceedsOne : Number → Bool
  | .whole n => decide (1 < n)
  | .real x => decide (1.0 < x)

end Number
end GraphQuery
