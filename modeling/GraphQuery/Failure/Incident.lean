import GraphQuery.Failure.Fault

/-!
# Incidents

What a running operation can raise: a failure of this library, or an error from outside, known by
its name and text. A halting error is not meant to be handled by anyone on its way.
-/
namespace GraphQuery

/-- What kind of error from outside it is: the database refused, or was out of reach. -/
inductive Family where
  | ordinary
  | database
  | unavailable
  | halting
deriving DecidableEq, Inhabited

structure OutsideError where
  name : String
  text : String
  family : Family
deriving DecidableEq, Inhabited

inductive Incident where
  | failure (f : Failure) (cause : Option OutsideError)
  | outside (e : OutsideError)

namespace Incident

def name : Incident → String
  | .failure f _ => f.names.headD ""
  | .outside e => e.name

def text : Incident → String
  | .failure f _ => f.message
  | .outside e => e.text

def isHalting : Incident → Bool
  | .failure _ _ => false
  | .outside e => e.family == .halting

/-- A failure has a level of its own; errors from outside take the level given for them. -/
def level (given : Level) : Incident → Level
  | .failure f _ => f.level
  | .outside _ => given

def logFields : Incident → List (String × String)
  | .failure f _ => f.logFields
  | .outside _ => []

end Incident

/-- A fault that leaves a running operation. -/
def Fault.incident : Fault → Incident
  | .failure f => .failure f none
  | fault => .outside ⟨fault.name, fault.message, .ordinary⟩

end GraphQuery
