import GraphQuery.Failure.Incident
import GraphQuery.Signature

/-!
# Contexts of errors

What was being called, and with which query text, when an error arose. Every context has a trace
number of its own, by which the events about one error can be found.
-/
namespace GraphQuery.Guard

/-- An operation that may be called, and whether its callers wait for it. -/
structure Function where
  name : String
  signature : Signature
  asynchronous : Bool := false
deriving Inhabited

/-- The error of a call whose arguments do not fit, if they do not. -/
def Function.misfit? (f : Function) (arguments : Arguments) : Option Incident :=
  match f.signature.bindAll arguments with
  | some _ => none
  | none => some (Fault.misfit f.name (f.signature.misfit arguments)).incident

structure Context where
  function : String
  errorType : String
  errorMessage : String
  trace : Nat
  query : Option String
  errorFields : List (String × String)
deriving DecidableEq, Inhabited

/-- The text that reaches the parameter named `query`, if the arguments fit and it is one. -/
def queryArgument (f : Function) (arguments : Arguments) : Option String :=
  match (f.signature.bindSome arguments).bind (·.lookup "query") with
  | some (.text query) => some query
  | _ => none

namespace Context

def capture (e : Incident) (f : Function) (arguments : Arguments) (trace : Nat) : Context :=
  ⟨f.name, e.name, e.text, trace, queryArgument f arguments, e.logFields⟩

/-- All that is known but the trace. -/
def fields (c : Context) : List (String × String) :=
  [("function", c.function), ("error_type", c.errorType), ("error_message", c.errorMessage)] ++
    (c.query.map fun query => ("query", query)).toList ++ c.errorFields

end Context
end GraphQuery.Guard
