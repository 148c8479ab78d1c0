import GraphQuery.Decimal.Integer
import GraphQuery.Signature
import GraphQuery.Text.Join
import GraphQuery.Text.Quoted

/-!
# Misfits

Why the arguments of a call do not fit its signature. Of several reasons the first named argument
that goes nowhere counts first, then too many positional arguments, then missing ones.
-/
namespace GraphQuery

inductive Misfit where
  | unexpected (name : String)
  /-- A named argument for a parameter that a positional one has filled. -/
  | repeated (name : String)
  /-- Named arguments for parameters that are only filled by position. -/
  | byPositionOnly (names : List String)
  /-- More positional arguments than parameters; some parameters are for names only. -/
  | tooMany (least most given named : Nat)
  | missing (named : Bool) (names : List String)
deriving DecidableEq, Inhabited

namespace Misfit

def plural (n : Nat) : String := if n = 1 then "" else "s"

def number (n : Nat) : String := Decimal.intText n

/-- Names in quotes, the last one behind `and`. -/
def enumeration : List String → String
  | [] => ""
  | [a] => Text.quoted a
  | [a, b] => Text.quoted a ++ " and " ++ Text.quoted b
  | names =>
    Text.join ", " (names.dropLast.map Text.quoted) ++ ", and " ++
      Text.quoted (names.getLastD "")

def expectation (least most : Nat) : String :=
  if least = most then number most ++ " positional argument" ++ plural most
  else "from " ++ number least ++ " to " ++ number most ++ " positional arguments"

def amount (given named : Nat) : String :=
  if named = 0 then number given ++ (if given = 1 then " was" else " were")
  else number given ++ " positional argument" ++ plural given ++ " (and " ++ number named ++
    " keyword-only argument" ++ plural named ++ ") were"

def message (call : String) : Misfit → String
  | .unexpected name => call ++ "() got an unexpected keyword argument '" ++ name ++ "'"
  | .repeated name => call ++ "() got multiple values for argument '" ++ name ++ "'"
  | .byPositionOnly names =>
    call ++ "() got some positional-only arguments passed as keyword arguments: '" ++
      Text.join ", " names ++ "'"
  | .tooMany least most given named =>
    call ++ "() takes " ++ expectation least most ++ " but " ++ amount given named ++ " given"
  | .missing named names =>
    call ++ "() missing " ++ number names.length ++ " required " ++
      (if named then "keyword-only" else "positional") ++ " argument" ++ plural names.length ++
      ": " ++ enumeration names

end Misfit

namespace Parameter

def takesPosition (p : Parameter) : Bool := p.passing == .byPosition || p.passing == .either

end Parameter

namespace Signature

/-- The first named argument that does not fit when the parameters `filled` are filled. -/
def namedMisfit? (s filled : Signature) (names : List String) : List String → Option Misfit
  | [] => none
  | name :: rest =>
    if filled.any (·.takesName name) then some (.repeated name)
    else if s.any (·.takesName name) || s.any (·.passing == .restOfNamed) then
      namedMisfit? s filled names rest
    else
      match s.filter fun p => p.passing == .byPosition && names.contains p.name with
      | [] => some (.unexpected name)
      | only => some (.byPositionOnly (only.map (·.name)))

/-- Why arguments that do not fit do not. -/
def misfit (s : Signature) (arguments : Arguments) : Misfit :=
  let places := s.filter Parameter.takesPosition
  let given := arguments.positional.length
  let names := arguments.named.map Prod.fst
  let missing := fun p : Parameter => p.required && !names.contains p.name
  match namedMisfit? s (places.take given) names names with
  | some m => m
  | none =>
    if places.length < given && !s.any (·.passing == .restOfPositional) then
      .tooMany (places.filter (!·.optional)).length places.length given
        (s.filter fun p => p.passing == .byName && names.contains p.name).length
    else
      match (places.drop given).filter missing with
      | [] =>
        .missing true ((s.filter fun p => p.passing == .byName && missing p).map (·.name))
      | unfilled => .missing false (unfilled.map (·.name))

end Signature
end GraphQuery
