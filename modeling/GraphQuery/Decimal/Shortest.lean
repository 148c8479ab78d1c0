/-!
# Shortest decimals

The decimal with the fewest digits that reads back to a given binary fraction, and of several
the nearest. All comparisons are exact, in natural numbers: the numbers that round to a value
reach halfway to its neighbours, the ends included when its mantissa is even.
-/
namespace GraphQuery.Decimal

/-- A positive value `mantissa * 2 ^ exponent`. Below a power of two the gap to the neighbour is
half the gap above it. -/
structure Binary where
  mantissa : Nat
  exponent : Int
  narrowBelow : Bool

/-- The decimal `digits * 10 ^ exponent`. -/
structure Scaled where
  digits : Nat
  exponent : Int
deriving DecidableEq

/-- Compares `a * 10 ^ i` with `n * 2 ^ j`. -/
def compareScaled (a : Nat) (i : Int) (n : Nat) (j : Int) : Ordering :=
  compare (a * Nat.pow 10 i.toNat * Nat.pow 2 (-j).toNat)
    (n * Nat.pow 2 j.toNat * Nat.pow 10 (-i).toNat)

def Binary.compareTo (x : Binary) (d : Scaled) : Ordering :=
  (compareScaled d.digits d.exponent x.mantissa x.exponent).swap

/-- The decimal lies among the numbers that round to `x`, ties to even. -/
def Binary.readsBack (x : Binary) (d : Scaled) : Bool :=
  let below := if x.narrowBelow then 4 * x.mantissa - 1 else 4 * x.mantissa - 2
  let above := 4 * x.mantissa + 2
  let closed := x.mantissa % 2 == 0
  let low := compareScaled d.digits d.exponent below (x.exponent - 2)
  let high := compareScaled d.digits d.exponent above (x.exponent - 2)
  (low == .gt || (closed && low == .eq)) && (high == .lt || (closed && high == .eq))

/-- The whole part of `x / 10 ^ e`. -/
def Binary.quotient (x : Binary) (e : Int) : Nat :=
  (x.mantissa * Nat.pow 2 x.exponent.toNat * Nat.pow 10 (-e).toNat) /
    (Nat.pow 2 (-x.exponent).toNat * Nat.pow 10 e.toNat)

/-- The least `k` near the estimate from the binary logarithm with `x < 10 ^ k`. -/
def Binary.scale (x : Binary) : Int :=
  let estimate := Int.fdiv ((x.mantissa.log2 + x.exponent) * 30103) 100000
  let fits (k : Int) : Bool := x.compareTo ⟨1, k⟩ == .lt
  (((List.range 4).map fun (i : Nat) => estimate - 1 + i).find? fits).getD (estimate + 3)

/-- The neighbour of `x` on the grid `10 ^ e` that reads back, if one does; of two the nearer,
and halfway between them the even one. -/
def Binary.onGrid? (x : Binary) (e : Int) : Option Scaled :=
  let a := x.quotient e
  match x.readsBack ⟨a, e⟩, x.readsBack ⟨a + 1, e⟩ with
  | false, false => none
  | true, false => some ⟨a, e⟩
  | false, true => some ⟨a + 1, e⟩
  | true, true =>
    match compareScaled (2 * a + 1) e (2 * x.mantissa) x.exponent with
    | .gt => some ⟨a, e⟩
    | .lt => some ⟨a + 1, e⟩
    | .eq => some (if a % 2 == 0 then ⟨a, e⟩ else ⟨a + 1, e⟩)

/-- Moves trailing zeros of the digits into the exponent. -/
def Scaled.trim (d : Scaled) : Nat → Scaled
  | 0 => d
  | fuel + 1 =>
    if d.digits ≠ 0 ∧ d.digits % 10 = 0 then Scaled.trim ⟨d.digits / 10, d.exponent + 1⟩ fuel else d

/-- The exact value as a decimal. -/
def Binary.exact (x : Binary) : Scaled :=
  if x.exponent ≥ 0 then ⟨x.mantissa * Nat.pow 2 x.exponent.toNat, 0⟩
  else ⟨x.mantissa * Nat.pow 5 (-x.exponent).toNat, x.exponent⟩

/-- The grids from one digit to seventeen, the coarsest first. -/
def Binary.shortest (x : Binary) : Scaled :=
  let k := x.scale
  let found := (List.range 17).findSome? fun (n : Nat) => x.onGrid? (k - 1 - n)
  (found.getD x.exact).trim 400

end GraphQuery.Decimal
