import GraphQuery.Connection.Basic
import GraphQuery.Settings.VariableFile

/-!
# Settings

The settings of the library, each with a default. A setting is taken from the first of these
sources that has it: the given values, the environment, a file of variables. The names of
variables are matched without regard to case, the names of given values exactly.
-/
namespace GraphQuery

structure Settings where
  uri : String := "bolt://localhost:7687"
  user : String := "neo4j"
  password : String := "password"
  database : Option String := none
  parser : Option String := none
  logLevel : String := "INFO"
  logJson : Bool := false
deriving DecidableEq, Inhabited

namespace Settings

structure Sources where
  given : List (String × Value) := []
  /-- Variables with their texts, in the order in which they were set. -/
  environment : List (String × String) := []
  file : Option String := none
deriving Inhabited

/-- Why a value is not taken for a setting. -/
inductive Rejection where
  | notText
  | notUnicode
  | unreadableTruth
  | notTruth
deriving DecidableEq, Inhabited

def Rejection.code : Rejection → String
  | .notText => "string_type"
  | .notUnicode => "string_unicode"
  | .unreadableTruth => "bool_parsing"
  | .notTruth => "bool_type"

/-! ## Values of settings -/

def decodeBytes (data : List UInt8) : Option String := String.fromUTF8? (ByteArray.mk data.toArray)

def asText : Value → Except Rejection String
  | .text s => .ok s
  | .bytes data =>
    match decodeBytes data with
    | some s => .ok s
    | none => .error .notUnicode
  | _ => .error .notText

def asTextOrNull : Value → Except Rejection (Option String)
  | .null => .ok none
  | v => (asText v).map some

def lowered (s : String) : String := String.ofList (s.toList.map Char.toLower)

def truthOfText (s : String) : Except Rejection Bool :=
  if lowered s ∈ ["0", "off", "f", "false", "n", "no"] then .ok false
  else if lowered s ∈ ["1", "on", "t", "true", "y", "yes"] then .ok true
  else .error .unreadableTruth

/-- Zero and one are truth values; an integer beyond 64 bits is not even taken for a number. -/
def truthOfInt (n : Int) : Except Rejection Bool :=
  if n = 0 then .ok false
  else if n = 1 then .ok true
  else if -Int.pow 2 63 ≤ n ∧ n < Int.pow 2 63 then .error .unreadableTruth
  else .error .notTruth

/-- A whole number stands for the integer it equals, other numbers for nothing. -/
def truthOfFloat (x : Float) : Except Rejection Bool :=
  if x == 0.0 then .ok false
  else if x == 1.0 then .ok true
  else if x.floor == x && x.abs < 9223372036854775808.0 then .error .unreadableTruth
  else .error .notTruth

def asTruth : Value → Except Rejection Bool
  | .bool b => .ok b
  | .text s => truthOfText s
  | .bytes data =>
    match decodeBytes data with
    | some s => truthOfText s
    | none => .error .unreadableTruth
  | .int n => truthOfInt n
  | .float x => truthOfFloat x
  | _ => .error .notTruth

/-! ## Sources -/

/-- The environment: a variable that is set again keeps its place. -/
def Sources.environmentTexts (s : Sources) : List (String × String) :=
  s.environment.foldl (fun known entry => assign entry.1 entry.2 known) []

/-- Of variables whose names differ in case alone the last one counts. -/
def fromEnvironment (known : List (String × String)) (name : String) : Option Value :=
  (known.reverse.find? fun entry => lowered entry.1 == name).map fun entry => .text entry.2

def fromFile (assignments : Assignments) (name : String) : Option Value :=
  (assignments.reverse.find? fun entry => lowered entry.1 == name).bind fun entry =>
    entry.2.map Value.text

def Sources.assignments (s : Sources) : Assignments :=
  match s.file with
  | some text => readFile s.environmentTexts text
  | none => []

def Sources.value? (s : Sources) (name : String) : Option Value :=
  ((s.given.lookup name).or (fromEnvironment s.environmentTexts name)).or
    (fromFile s.assignments name)

/-! ## Reading -/

/-- The value of a setting, with the settings that are rejected so far. -/
def take {α : Type} (s : Sources) (name : String) (read : Value → Except Rejection α)
    (default : α) (rejected : List (String × Rejection)) : α × List (String × Rejection) :=
  match s.value? name with
  | none => (default, rejected)
  | some v =>
    match read v with
    | .ok a => (a, rejected)
    | .error e => (default, rejected ++ [(name, e)])

/-- The settings, or those that are rejected, in order. -/
def read (s : Sources) : Except (List (String × Rejection)) Settings :=
  let (uri, rejected) := take s "neo4j_uri" asText ({} : Settings).uri []
  let (user, rejected) := take s "neo4j_user" asText ({} : Settings).user rejected
  let (password, rejected) := take s "neo4j_password" asText ({} : Settings).password rejected
  let (database, rejected) := take s "neo4j_database" asTextOrNull none rejected
  let (parser, rejected) := take s "cypher_parser" asTextOrNull none rejected
  let (logLevel, rejected) := take s "log_level" asText ({} : Settings).logLevel rejected
  let (logJson, rejected) := take s "log_json" asTruth false rejected
  if rejected.isEmpty then .ok ⟨uri, user, password, database, parser, logLevel, logJson⟩
  else .error rejected

/-- Where the settings direct a connection. -/
def target (s : Settings) : Connection.Target := ⟨s.uri, s.user, s.password, s.database⟩

end Settings
end GraphQuery
