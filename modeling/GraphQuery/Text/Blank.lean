import GraphQuery.Text.Ranges

/-!
# Blank characters

The Unicode white space characters together with the four information separators U+001C to
U+001F. Query texts are stripped of these at both ends.
-/
namespace GraphQuery.Text

def blankRanges : List (Nat × Nat) :=
  [(0x09, 0x0D), (0x1C, 0x20), (0x85, 0x85), (0xA0, 0xA0), (0x1680, 0x1680), (0x2000, 0x200A),
   (0x2028, 0x2029), (0x202F, 0x202F), (0x205F, 0x205F), (0x3000, 0x3000)]

def isBlank (c : Char) : Bool := inRanges blankRanges c.toNat

def stripChars (cs : List Char) : List Char :=
  ((cs.dropWhile isBlank).reverse.dropWhile isBlank).reverse

/-- The text without the blank characters at its ends. -/
def strip (s : String) : String := String.ofList (stripChars s.toList)

end GraphQuery.Text
