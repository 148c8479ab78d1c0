import GraphQuery.Query.Shortcut
import GraphQuery.Signature

/-!
# Methods of queries

The calls by which a query is extended, each with its signature. The query itself is the first
argument of every call. A clause method takes any arguments, the named ones as one mapping.
-/
namespace GraphQuery.Query

inductive Method where
  | clause (kind : Clause.Kind) (replace : Bool)
  | split
  | matchNode
  | expand
  | paginate
  | count
deriving DecidableEq, Inhabited

namespace Method

def parameters : Method → Signature
  | .clause _ _ => [⟨"arguments", .restOfPositional, false⟩, ⟨"mapping", .restOfNamed, false⟩]
  | .split => []
  | .matchNode =>
    [⟨"label", .either, false⟩, ⟨"alias", .either, true⟩, ⟨"properties", .restOfNamed, false⟩]
  | .expand =>
    [⟨"from_alias", .either, false⟩, ⟨"to_alias", .either, false⟩,
     ⟨"relationship_types", .either, true⟩, ⟨"depth", .either, true⟩,
     ⟨"optional", .either, true⟩]
  | .paginate => [⟨"page", .either, true⟩, ⟨"page_size", .either, true⟩]
  | .count => [⟨"alias", .either, true⟩, ⟨"distinct", .either, true⟩]

def signature (m : Method) : Signature := ⟨"self", .either, false⟩ :: m.parameters

def clauseName (replace : Bool) : Clause.Kind → String
  | .start => "Query.start"
  | .pattern => "Query.match"
  | .optionalPattern => "Query.optional_match"
  | .hint => "Query.using"
  | .condition => "Query.where"
  | .carry => "Query.with_"
  | .creation => "Query.create"
  | .uniqueCreation => "Query.create_unique"
  | .merge => "Query.merge"
  | .assignment => if replace then "Query.set_props" else "Query.set"
  | .removal => "Query.remove"
  | .unwind => "Query.unwind"
  | .deletion => "Query.delete"
  | .result => "Query.return_"
  | .order => "Query.order"
  | .limit => "Query.limit"
  | .skip => "Query.skip"

/-- The name of a method in messages. -/
def name : Method → String
  | .clause kind replace => clauseName replace kind
  | .split => "Query.break_"
  | .matchNode => "QueryHelpers.match_node"
  | .expand => "QueryHelpers.expand"
  | .paginate => "QueryHelpers.paginate"
  | .count => "QueryHelpers.count"

end Method

/-- The value bound to a parameter, or its default. -/
def argument (bound : Bindings) (name : String) (default : Value) : Value :=
  (bound.lookup name).getD default

def entriesOf : Value → List (Value × Value)
  | .map entries => entries
  | _ => []

def call (q : Query) (m : Method) (arguments : Arguments) : Except Fault Query :=
  let received : Arguments := ⟨.null :: arguments.positional, arguments.named⟩
  match m.signature.bindAll received with
  | none => .error (.misfit m.name (m.signature.misfit received))
  | some bound =>
    match m with
    | .clause kind replace =>
      q.add kind (collect arguments.positional arguments.named) replace
    | .split => .ok q.split
    | .matchNode =>
      q.matchNode (argument bound "label" .null) (argument bound "alias" (.text "n"))
        (entriesOf (argument bound "properties" .null))
    | .expand =>
      q.expand (argument bound "from_alias" .null) (argument bound "to_alias" .null)
        (argument bound "relationship_types" .null) (argument bound "depth" (.int 1))
        (argument bound "optional" (.bool false)).isTrue
    | .paginate =>
      q.paginate (argument bound "page" (.int 1)) (argument bound "page_size" (.int 20))
    | .count =>
      q.count (argument bound "alias" (.text "n")) (argument bound "distinct" (.bool true)).isTrue

end GraphQuery.Query
