import GraphQuery.Value.Number

/-!
# Order of numbers

Numbers are compared across their types and exactly. What is no number, as a floating-point number
may be, is neither less nor greater than anything.
-/
namespace GraphQuery

/-- The value of a finite floating-point number, times a power of two, beside an integer times the
same power. -/
def scaledPair (n : Int) (negative : Bool) (x : Decimal.Binary) : Int × Int :=
  let magnitude : Int := x.mantissa * Int.pow 2 x.exponent.toNat
  (n * Int.pow 2 (-x.exponent).toNat, if negative then -magnitude else magnitude)

def compareToFloat? (n : Int) (x : Float) : Option Ordering :=
  match Decimal.Class.ofFloat x with
  | .nan => none
  | .infinite negative => some (if negative then .gt else .lt)
  | .zero _ => some (compare n 0)
  | .finite negative x =>
    let (a, b) := scaledPair n negative x
    some (compare a b)

namespace Number

def compare? : Number → Number → Option Ordering
  | .whole m, .whole n => some (compare m n)
  | .whole m, .real y => compareToFloat? m y
  | .real x, .whole n => (compareToFloat? n x).map Ordering.swap
  | .real x, .real y =>
    if x < y then some .lt else if x == y then some .eq else if y < x then some .gt else none

end Number
end GraphQuery
