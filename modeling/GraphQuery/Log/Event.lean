import GraphQuery.Failure.Incident
import GraphQuery.Value.TypeName

/-!
# Log events

An event has a level, a message and named fields. Before it is recorded it is annotated: an event
with an error names the type of it, and one with a query text tells its length.
-/
namespace GraphQuery.Log

inductive Field where
  | value (v : Value)
  | error (e : Incident)

abbrev Fields := List (String × Field)

structure Event where
  level : Level
  message : String
  fields : Fields

def Field.typeName : Field → String
  | .value v => v.typeName
  | .error e => e.name

/-- A field under a present name takes the place of the old one. -/
def Fields.put (name : String) (field : Field) : Fields → Fields
  | [] => [(name, field)]
  | entry :: fields =>
    if entry.1 = name then (name, field) :: fields else entry :: Fields.put name field fields

/-- The fields of an event take the place of those that every event carries. -/
def Fields.merge (carried own : Fields) : Fields :=
  own.foldl (fun fields entry => fields.put entry.1 entry.2) carried

def annotateError (fields : Fields) : Fields :=
  match fields.lookup "error" with
  | some field => fields.put "error_type" (.value (.text field.typeName))
  | none => fields

def annotateQuery (fields : Fields) : Fields :=
  match fields.lookup "query" with
  | some (.value (.text query)) => fields.put "query_length" (.value (.int query.length))
  | _ => fields

def annotate (fields : Fields) : Fields := annotateQuery (annotateError fields)

/-- The event as it is recorded. -/
def Event.recorded (e : Event) : Event := { e with fields := annotate e.fields }

end GraphQuery.Log
