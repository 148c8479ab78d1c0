import GraphQuery.Value.Basic

/-!
# Signatures

The parameters of an operation, and how the arguments of a call reach them: positional arguments
fill the parameters in order, named arguments go to the parameter of their name, and a parameter
for the rest gathers what is left over.
-/
namespace GraphQuery

inductive Passing where
  | byPosition
  | byName
  | either
  | restOfPositional
  | restOfNamed
deriving DecidableEq, Inhabited

structure Parameter where
  name : String
  passing : Passing := .either
  /-- The operation has a value of its own for it. -/
  optional : Bool := false
deriving DecidableEq, Inhabited

abbrev Signature := List Parameter

structure Arguments where
  positional : List Value := []
  named : List (String × Value) := []
deriving Inhabited

/-- The values of the parameters that a call reaches. -/
abbrev Bindings := List (String × Value)

namespace Parameter

def takesName (p : Parameter) (name : String) : Bool :=
  p.name == name && (p.passing == .byName || p.passing == .either)

def required (p : Parameter) : Bool :=
  !p.optional && p.passing != .restOfPositional && p.passing != .restOfNamed

end Parameter

namespace Signature

/-- Hands out the positional arguments; also gives the parameters they did not reach. -/
def fill : Signature → List Value → Option (Bindings × Signature)
  | parameters, [] => some ([], parameters)
  | [], _ :: _ => none
  | p :: parameters, v :: values =>
    match p.passing with
    | .byPosition | .either =>
      match fill parameters values with
      | some (bound, unfilled) => some ((p.name, v) :: bound, unfilled)
      | none => none
    | .restOfPositional => some ([(p.name, .tuple (v :: values))], parameters)
    | .byName | .restOfNamed => none

/-- Where a named argument goes when the parameters `unfilled` are not filled yet. -/
inductive Destination where
  | parameter
  | rest
  | nowhere

def destination (s unfilled : Signature) (name : String) : Destination :=
  if unfilled.any (·.takesName name) then .parameter
  else if s.any (·.takesName name) then .nowhere
  else if s.any (·.passing == .restOfNamed) then .rest
  else .nowhere

/-- Hands out the named arguments; also gives those left over. -/
def distribute (s unfilled : Signature) : List (String × Value) → Option (Bindings × Bindings)
  | [] => some ([], [])
  | argument :: arguments =>
    match destination s unfilled argument.1, distribute s unfilled arguments with
    | .parameter, some (bound, rest) => some (argument :: bound, rest)
    | .rest, some (bound, rest) => some (bound, argument :: rest)
    | _, _ => none

def gathered (s : Signature) (rest : Bindings) : Bindings :=
  if rest.isEmpty then []
  else
    match s.find? (·.passing == .restOfNamed) with
    | some p => [(p.name, .map (rest.map fun entry => (.text entry.1, entry.2)))]
    | none => []

/-- Parameters without an argument are left out; arguments that reach no parameter, or one that
is filled already, do not fit. -/
def bindSome (s : Signature) (arguments : Arguments) : Option Bindings :=
  match fill s arguments.positional with
  | none => none
  | some (filled, unfilled) =>
    match distribute s unfilled arguments.named with
    | none => none
    | some (bound, rest) => some (filled ++ bound ++ gathered s rest)

def Complete (s : Signature) (bound : Bindings) : Prop :=
  ∀ p ∈ s, p.required = true → (bound.lookup p.name).isSome = true

instance (s : Signature) (bound : Bindings) : Decidable (Complete s bound) :=
  inferInstanceAs (Decidable (∀ p ∈ s, _))

/-- As `bindSome`, but every required parameter needs an argument. -/
def bindAll (s : Signature) (arguments : Arguments) : Option Bindings :=
  match bindSome s arguments with
  | none => none
  | some bound => if Complete s bound then some bound else none

end Signature
end GraphQuery
