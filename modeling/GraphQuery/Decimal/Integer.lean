/-!
# Integers in decimal
-/
namespace GraphQuery.Decimal

def natDigits (n : Nat) : List Char := Nat.toDigits 10 n

def signText (negative : Bool) : List Char := if negative then ['-'] else []

def intText (n : Int) : String := String.ofList (signText (n < 0) ++ natDigits n.natAbs)

end GraphQuery.Decimal
