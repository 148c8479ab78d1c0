import GraphQuery.Failure.Level
import GraphQuery.Value.Form

/-!
# Failures

A failure names what was being attempted and with what. Its fields enter log events flattened,
those of the details under names of their own, absent ones left out.
-/
namespace GraphQuery

/-- Codes from 1001 on concern the construction of a query, those from 2002 on its execution. -/
inductive Code where
  | invalidInput
  | unknownArgument
  | missingIndex
  | databaseQuery
  | serviceUnavailable
deriving DecidableEq, Inhabited

namespace Code

def text : Code → String
  | .invalidInput => "1001"
  | .unknownArgument => "1002"
  | .missingIndex => "1003"
  | .databaseQuery => "2002"
  | .serviceUnavailable => "2003"

def all : List Code :=
  [.invalidInput, .unknownArgument, .missingIndex, .databaseQuery, .serviceUnavailable]

def ofText? (s : String) : Option Code := all.find? (·.text == s)

end Code

structure ArgumentDetails where
  clause : Option String := none
  argument : Option String := none
  expected : Option String := none
  key : Option String := none
deriving DecidableEq, Inhabited

structure ExecutionDetails where
  endpoint : Option String := none
  query : Option String := none
  driverError : Option String := none
deriving DecidableEq, Inhabited

inductive Specifics where
  | plain
  | argument (details : ArgumentDetails)
  | execution (details : ExecutionDetails)
deriving DecidableEq, Inhabited

/-- Where a failure arose, in which operation, and what else is known. -/
structure Details where
  source : String
  operation : String
  specifics : Specifics := .plain
deriving DecidableEq, Inhabited

def Specifics.fields : Specifics → List (String × Option String)
  | .plain => []
  | .argument d =>
    [("clause", d.clause), ("argument", d.argument), ("expected", d.expected), ("key", d.key)]
  | .execution d =>
    [("endpoint", d.endpoint), ("query", d.query), ("driver_error", d.driverError)]

def Details.fields (d : Details) : List (String × Option String) :=
  ("source", some d.source) :: ("operation", some d.operation) :: d.specifics.fields

inductive Failure.Kind where
  | general
  | construction
  | unknownArgument (value : Value)
  | missingIndex (owner key : String)
  | service

structure Failure where
  kind : Failure.Kind
  message : String
  code : Code
  level : Level
  details : Details

namespace Failure

def general (message : String) (code : Code) (level : Level) (details : Option Details) : Failure :=
  ⟨.general, message, code, level, details.getD ⟨"cypherkit", "unknown", .plain⟩⟩

/-- Bad input to a query under construction. -/
def construction (message : String) (code : Code) (details : Option Details) : Failure :=
  ⟨.construction, message, code, .error,
    details.getD ⟨"query_builder", "construct", .argument ⟨none, none, none, none⟩⟩⟩

/-- An argument of a shape that its receiver does not take. The argument is one that can be shown;
there is no such failure of any other. -/
def unknownArgument (message : String) (value : Value) (expected : Option String)
    (source : String) (clause : Option String) : Failure :=
  ⟨.unknownArgument value, message, .unknownArgument, .error,
    ⟨source, "parse_argument", .argument ⟨clause, some value.inspect, expected, none⟩⟩⟩

/-- A lookup by a key without an index. -/
def missingIndex (message owner key : String) : Failure :=
  ⟨.missingIndex owner key, message, .missingIndex, .error,
    ⟨"dsl", "lookup", .argument ⟨none, none, some ("a key indexed on " ++ owner), some key⟩⟩⟩

/-- The database refused a query or was out of reach. -/
def service (message : String) (code : Code) (details : Option Details) : Failure :=
  ⟨.service, message, code, .error,
    details.getD ⟨"neo4j_driver", "run", .execution ⟨none, none, none⟩⟩⟩

/-- The names of a failure, from its own to the one that all failures share. -/
def names (f : Failure) : List String :=
  match f.kind with
  | .general => ["CypherkitError"]
  | .construction => ["QueryConstructionError", "CypherkitError"]
  | .unknownArgument _ => ["UnknownArgumentError", "QueryConstructionError", "CypherkitError"]
  | .missingIndex _ _ => ["MissingIndexError", "QueryConstructionError", "CypherkitError"]
  | .service => ["ServiceError", "CypherkitError"]

def logFields (f : Failure) : List (String × String) :=
  ("error_code", f.code.text) :: ("error_level", f.level.name) ::
    f.details.fields.filterMap fun field => field.2.map fun text => ("details." ++ field.1, text)

end Failure

end GraphQuery
