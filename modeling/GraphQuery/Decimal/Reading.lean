import GraphQuery.Text.Blank
import GraphQuery.Text.Digit

/-!
# Reading floating-point numbers

The accepted texts: an optional sign, then `inf`, `infinity` or `nan` in any case, or digits with
an optional point and an optional exponent. The digits may be of any script. Single underscores may
stand between digits and blank characters around the whole.
-/
namespace GraphQuery.Decimal

/-- Reads digits, with single underscores between them, onto `value`; gives the number read,
how many digits it took, and the rest. -/
def readDigits (value count : Nat) : List Char → Nat × Nat × List Char
  | '_' :: c :: rest =>
    if c.isDigit && count > 0 then readDigits (value * 10 + (c.toNat - 48)) (count + 1) rest
    else (value, count, '_' :: c :: rest)
  | c :: rest =>
    if c.isDigit then readDigits (value * 10 + (c.toNat - 48)) (count + 1) rest
    else (value, count, c :: rest)
  | [] => (value, count, [])

def readSign : List Char → Bool × List Char
  | '-' :: rest => (true, rest)
  | '+' :: rest => (false, rest)
  | rest => (false, rest)

def readExponent : List Char → Option Int
  | [] => some 0
  | c :: rest =>
    if c = 'e' ∨ c = 'E' then
      let (negative, rest) := readSign rest
      match readDigits 0 0 rest with
      | (n, count, []) => if count = 0 then none else some (if negative then -(n : Int) else n)
      | _ => none
    else none

def readFraction (whole count : Nat) (rest : List Char) : Nat × Nat × Nat × List Char :=
  match rest with
  | '.' :: rest =>
    let (n, places, rest) := readDigits 0 0 rest
    (whole * Nat.pow 10 places + n, places, count + places, rest)
  | rest => (whole, 0, count, rest)

def readMagnitude (cs : List Char) : Option Float :=
  let word := String.ofList (cs.map Char.toLower)
  if word = "inf" ∨ word = "infinity" then some (1.0 / 0.0)
  else if word = "nan" then some (0.0 / 0.0)
  else
    let (whole, count, rest) := readDigits 0 0 cs
    let (mantissa, places, count, rest) := readFraction whole count rest
    if count = 0 then none
    else (readExponent rest).map fun e =>
      let scale : Int := e - (places : Int)
      Float.ofScientific mantissa (scale < 0) scale.natAbs

/-- The information separators are blank, but may not stand around a number. -/
def isMargin (c : Char) : Bool := Text.isBlank c && !Text.inRanges [(0x1C, 0x1F)] c.toNat

def withoutMargins (cs : List Char) : List Char :=
  ((cs.dropWhile isMargin).reverse.dropWhile isMargin).reverse

def readFloat? (s : String) : Option Float :=
  let (negative, rest) := readSign ((withoutMargins s.toList).map Text.plainDigit)
  (readMagnitude rest).map fun x => if negative then -x else x

end GraphQuery.Decimal
