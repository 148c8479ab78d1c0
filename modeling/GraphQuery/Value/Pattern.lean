import GraphQuery.Text.Join
import GraphQuery.Text.Quoted

/-!
# Patterns

A regular expression may open with groups such as `(?i)`, which set its options. Comments may
stand between them, and once the pattern is verbose, blanks and comments to the end of the line. A
message shows the text of a pattern, cut when it is long, and its options by name.
-/
namespace GraphQuery.Pattern

/-- The options by letter and by name, in the order in which messages list them. -/
def optionNames : List (Char × String) :=
  [('t', "re.TEMPLATE"), ('i', "re.IGNORECASE"), ('m', "re.MULTILINE"), ('s', "re.DOTALL"),
   ('x', "re.VERBOSE"), ('a', "re.ASCII")]

def isOption (c : Char) : Bool := c == 'u' || optionNames.any (·.1 == c)

/-- What is left behind the first `stop` that no backslash precedes. -/
def dropPast (stop : Char) : List Char → List Char
  | [] => []
  | '\\' :: _ :: cs => dropPast stop cs
  | c :: cs => if c = stop then cs else dropPast stop cs

def isFiller (c : Char) : Bool := [' ', '\t', '\n', '\r', '\x0b', '\x0c'].contains c

/-- The letters of the groups at the start of a pattern. Every step takes a character, so the
length of the pattern bounds their number. -/
def optionLetters (verbose : Bool) : Nat → List Char → List Char
  | fuel + 1, '(' :: '?' :: '#' :: cs => optionLetters verbose fuel (dropPast ')' cs)
  | fuel + 1, '(' :: '?' :: cs =>
    let letters := cs.takeWhile isOption
    match cs.dropWhile isOption with
    | ')' :: rest => letters ++ optionLetters (verbose || letters.contains 'x') fuel rest
    | _ => []
  | fuel + 1, c :: cs =>
    if verbose && isFiller c then optionLetters verbose fuel cs
    else if verbose && c == '#' then optionLetters verbose fuel (dropPast '\n' cs)
    else []
  | _, _ => []

def optionText (pattern : List Char) : String :=
  let letters := optionLetters false pattern.length pattern
  Text.join "|" ((optionNames.filter fun option => letters.contains option.1).map Prod.snd)

/-- Long patterns are cut within their quotes. -/
def inspect (pattern : String) : String :=
  let options := optionText pattern.toList
  "re.compile(" ++ String.ofList ((Text.quotedChars pattern.toList).take 200) ++
    (if options = "" then "" else ", " ++ options) ++ ")"

end GraphQuery.Pattern
