import GraphQuery.Text.Blank

/-!
# Files of variables

A line of such a file assigns a text to a name: `NAME=text`, with `export` before it or not.
Texts in quotes may hold escapes and line breaks, other texts end before a comment, which is a
number sign behind a blank. A name without an assignment has no text. A line that cannot be read is
passed over. References such as `${NAME}` and `${NAME:-default}` are replaced by what the name
stands for so far.
-/
namespace GraphQuery.Settings

/-- Readers give the rest of the text, also when they fail. -/
abbrev Read (α : Type) := Except (List Char) (α × List Char)

def isLineEnd (c : Char) : Bool := c == '\n' || c == '\r'

def isInlineBlank (c : Char) : Bool := Text.isBlank c && !isLineEnd c

/-- Line ends of any kind become line feeds. -/
def unifyLineEnds : List Char → List Char
  | '\r' :: '\n' :: cs => '\n' :: unifyLineEnds cs
  | '\r' :: cs => '\n' :: unifyLineEnds cs
  | c :: cs => c :: unifyLineEnds cs
  | [] => []

/-! ## Names -/

def exportWord : List Char := ['e', 'x', 'p', 'o', 'r', 't']

def dropExport (cs : List Char) : List Char :=
  if exportWord.isPrefixOf cs && ((cs.drop 6).head?.any isInlineBlank) then
    (cs.drop 6).dropWhile isInlineBlank
  else cs

def isNameChar (c : Char) : Bool := c != '=' && c != '#' && !Text.isBlank c

/-- A comment has no name. -/
def readName (cs : List Char) : Read (Option String) :=
  match cs with
  | '#' :: _ => .ok (none, cs)
  | '\'' :: inner =>
    let name := inner.takeWhile (· != '\'')
    match inner.dropWhile (· != '\'') with
    | _ :: rest => if name.isEmpty then .error cs else .ok (some (String.ofList name), rest)
    | [] => .error cs
  | cs =>
    let name := cs.takeWhile isNameChar
    if name.isEmpty then .error cs
    else .ok (some (String.ofList name), cs.dropWhile isNameChar)

/-! ## Texts -/

/-- Splits at the closing quote. A backslash takes the character behind it along. -/
def splitQuoted (quote : Char) : List Char → Option (List Char × List Char)
  | [] => none
  | '\\' :: c :: cs =>
    match splitQuoted quote cs with
    | some (inner, rest) => some ('\\' :: c :: inner, rest)
    | none => none
  | c :: cs =>
    if c = quote then some ([], cs)
    else
      match splitQuoted quote cs with
      | some (inner, rest) => some (c :: inner, rest)
      | none => none

def singleEscape? : Char → Option Char
  | '\\' => some '\\'
  | '\'' => some '\''
  | _ => none

def doubleEscape? : Char → Option Char
  | '\\' => some '\\'
  | '\'' => some '\''
  | '"' => some '"'
  | 'a' => some '\x07'
  | 'b' => some '\x08'
  | 'f' => some '\x0c'
  | 'n' => some '\n'
  | 'r' => some '\r'
  | 't' => some '\t'
  | 'v' => some '\x0b'
  | _ => none

def unescape (escape? : Char → Option Char) : List Char → List Char
  | '\\' :: c :: cs =>
    match escape? c with
    | some d => d :: unescape escape? cs
    | none => '\\' :: unescape escape? (c :: cs)
  | c :: cs => c :: unescape escape? cs
  | [] => []

def readQuoted (quote : Char) (escape? : Char → Option Char) (cs : List Char) :
    Read (List Char) :=
  match splitQuoted quote (cs.drop 1) with
  | some (inner, rest) => .ok (unescape escape? inner, rest)
  | none => .error cs

def dropTrailing (cs : List Char) : List Char := (cs.reverse.dropWhile Text.isBlank).reverse

/-- The characters before a comment; `blank` tells whether a blank stands before them. -/
def beforeComment (blank : Bool) : List Char → List Char
  | [] => []
  | c :: cs => if blank && c == '#' then [] else c :: beforeComment (Text.isBlank c) cs

def isPlain (c : Char) : Bool := !isLineEnd c

/-- Reads a text behind its equals sign. -/
def readText (cs : List Char) : Read (List Char) :=
  match cs.dropWhile isInlineBlank with
  | '\'' :: inner => readQuoted '\'' singleEscape? ('\'' :: inner)
  | '"' :: inner => readQuoted '"' doubleEscape? ('"' :: inner)
  | rest =>
    .ok (dropTrailing (beforeComment (cs.head?.any isInlineBlank) (rest.takeWhile isPlain)),
      rest.dropWhile isPlain)

/-! ## Lines -/

structure Line where
  name : Option String
  text : Option (List Char)

def readAssignment (cs : List Char) : Read (Option (List Char)) :=
  match cs with
  | '=' :: cs =>
    match readText cs with
    | .ok (text, rest) => .ok (some text, rest)
    | .error rest => .error rest
  | cs => .ok (none, cs)

def dropComment (cs : List Char) : List Char :=
  match cs.dropWhile isInlineBlank with
  | '#' :: rest => rest.dropWhile isPlain
  | _ => cs

def readLineEnd (cs : List Char) : Read Unit :=
  match cs.dropWhile isInlineBlank with
  | [] => .ok ((), [])
  | c :: rest => if isLineEnd c then .ok ((), rest) else .error cs

def readLine (cs : List Char) : Read Line :=
  match readName (dropExport cs) with
  | .error rest => .error rest
  | .ok (name, cs) =>
    match readAssignment (cs.dropWhile isInlineBlank) with
    | .error rest => .error rest
    | .ok (text, cs) =>
      match readLineEnd (dropComment cs) with
      | .error rest => .error rest
      | .ok (_, rest) => .ok (⟨name, text⟩, rest)

def dropLine (cs : List Char) : List Char := (cs.dropWhile isPlain).drop 1

/-- The lines that can be read. Every line takes at least one character. -/
def readLines : Nat → List Char → List Line
  | 0, _ => []
  | fuel + 1, cs =>
    match cs.dropWhile Text.isBlank with
    | [] => []
    | cs =>
      match readLine cs with
      | .ok (line, rest) => line :: readLines fuel rest
      | .error rest => readLines fuel (dropLine rest)

/-! ## References -/

abbrev Assignments := List (String × Option String)

/-- A name that is assigned again keeps its place. -/
def assign {α : Type} (name : String) (text : α) : List (String × α) → List (String × α)
  | [] => [(name, text)]
  | entry :: entries =>
    if entry.1 = name then (name, text) :: entries else entry :: assign name text entries

/-- A reference behind its opening brace: the name, the default, and the rest of the text. -/
def readReference (cs : List Char) : Option (String × List Char × List Char) :=
  let name := String.ofList (cs.takeWhile fun c => c != '\x7d' && c != ':')
  match cs.dropWhile fun c => c != '\x7d' && c != ':' with
  | '\x7d' :: rest => some (name, [], rest)
  | ':' :: '-' :: rest =>
    match rest.dropWhile (· != '\x7d') with
    | _ :: after => some (name, rest.takeWhile (· != '\x7d'), after)
    | [] => none
  | _ => none

/-- What a name stands for: earlier lines come before the environment. -/
def meaning (environment : List (String × String)) (earlier : Assignments) (name : String)
    (default : List Char) : List Char :=
  match earlier.lookup name with
  | some text => (text.getD "").toList
  | none => ((environment.lookup name).map String.toList).getD default

/-- Every reference is longer than its mark, so the length of the text bounds their number. -/
def expand (mean : String → List Char → List Char) : Nat → List Char → List Char
  | 0, cs => cs
  | _ + 1, [] => []
  | fuel + 1, '$' :: '\x7b' :: cs =>
    match readReference cs with
    | some (name, default, rest) => mean name default ++ expand mean fuel rest
    | none => '$' :: expand mean fuel ('\x7b' :: cs)
  | fuel + 1, c :: cs => c :: expand mean fuel cs

def enter (environment : List (String × String)) (earlier : Assignments) (line : Line) :
    Assignments :=
  match line.name with
  | none => earlier
  | some name =>
    assign name
      (line.text.map fun text =>
        String.ofList (expand (meaning environment earlier) text.length text)) earlier

/-- The assignments of a file, in the order of the names. -/
def readFile (environment : List (String × String)) (text : String) : Assignments :=
  let cs := unifyLineEnds text.toList
  (readLines (cs.length + 1) cs).foldl (enter environment) []

end GraphQuery.Settings
