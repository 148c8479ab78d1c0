import GraphQuery.Decimal.Integer
import GraphQuery.Decimal.Shortest

/-!
# Layout of floating-point numbers

A number is written with the fewest digits that read back to it: positionally, with a point and
at least one digit after it, while the exponent of its leading digit is from -4 to 15, and
otherwise with a signed exponent of at least two digits.
-/
namespace GraphQuery.Decimal

inductive Class where
  | nan
  | infinite (negative : Bool)
  | zero (negative : Bool)
  | finite (negative : Bool) (magnitude : Binary)

def Class.ofFloat (x : Float) : Class :=
  let bits := x.toBits.toNat
  let negative := bits ≥ Nat.pow 2 63
  let biased : Nat := bits / Nat.pow 2 52 % Nat.pow 2 11
  let fraction := bits % Nat.pow 2 52
  if biased = 2047 then if fraction = 0 then .infinite negative else .nan
  else if biased = 0 then
    if fraction = 0 then .zero negative else .finite negative ⟨fraction, -1074, false⟩
  else .finite negative ⟨Nat.pow 2 52 + fraction, (biased : Int) - 1075, fraction = 0 && biased > 1⟩

def exponentText (e : Int) : List Char :=
  let digits := natDigits e.natAbs
  'e' :: (if e < 0 then '-' else '+') :: (if digits.length < 2 then '0' :: digits else digits)

def layout (d : Scaled) : List Char :=
  let digits := natDigits d.digits
  let lead := d.exponent + digits.length - 1
  if lead < -4 ∨ lead ≥ 16 then
    let tail := digits.drop 1
    digits.take 1 ++ (if tail.isEmpty then [] else '.' :: tail) ++ exponentText lead
  else if d.exponent ≥ 0 then digits ++ List.replicate d.exponent.toNat '0' ++ ['.', '0']
  else if lead ≥ 0 then digits.take (lead.toNat + 1) ++ '.' :: digits.drop (lead.toNat + 1)
  else '0' :: '.' :: List.replicate (-lead - 1).toNat '0' ++ digits

def floatChars (x : Float) : List Char :=
  match Class.ofFloat x with
  | .nan => ['n', 'a', 'n']
  | .infinite negative => signText negative ++ ['i', 'n', 'f']
  | .zero negative => signText negative ++ ['0', '.', '0']
  | .finite negative x => signText negative ++ layout x.shortest

def floatText (x : Float) : String := String.ofList (floatChars x)

end GraphQuery.Decimal
