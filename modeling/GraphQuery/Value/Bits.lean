import GraphQuery.Value.Basic

/-!
# Bits of integers

Integers have infinitely many bits in two's complement, from some place on all zeros or all ones.
Truth values among themselves are combined as such and otherwise count as one and zero.
-/
namespace GraphQuery

def bitAnd : Int → Int → Int
  | .ofNat m, .ofNat n => .ofNat (m &&& n)
  | .ofNat m, .negSucc n => .ofNat (m - (m &&& n))
  | .negSucc m, .ofNat n => .ofNat (n - (n &&& m))
  | .negSucc m, .negSucc n => .negSucc (m ||| n)

def bitNot (n : Int) : Int := -n - 1

def bitOr (m n : Int) : Int := bitNot (bitAnd (bitNot m) (bitNot n))

namespace Value

def integer? : Value → Option Int
  | .bool b => some b.toInt
  | .int n => some n
  | _ => none

def both? : Value → Value → Option Value
  | .bool a, .bool b => some (.bool (a && b))
  | v, w =>
    match v.integer?, w.integer? with
    | some m, some n => some (.int (bitAnd m n))
    | _, _ => none

def either? : Value → Value → Option Value
  | .bool a, .bool b => some (.bool (a || b))
  | v, w =>
    match v.integer?, w.integer? with
    | some m, some n => some (.int (bitOr m n))
    | _, _ => none

end Value
end GraphQuery
