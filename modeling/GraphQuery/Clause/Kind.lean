/-!
# Kinds of clauses

The clauses of a query part, with the keyword each is written under, what separates its values,
and the order in which the kinds appear in the text of a part.
-/
namespace GraphQuery.Clause

inductive Kind where
  | start
  | pattern
  | optionalPattern
  | hint
  | condition
  | carry
  | creation
  | uniqueCreation
  | merge
  | assignment
  | removal
  | unwind
  | deletion
  | result
  | order
  | limit
  | skip
deriving DecidableEq, Inhabited

namespace Kind

def keyword : Kind → String
  | .start => "START"
  | .pattern => "MATCH"
  | .optionalPattern => "OPTIONAL MATCH"
  | .hint => "USING"
  | .condition => "WHERE"
  | .carry => "WITH"
  | .creation => "CREATE"
  | .uniqueCreation => "CREATE UNIQUE"
  | .merge => "MERGE"
  | .assignment => "SET"
  | .removal => "REMOVE"
  | .unwind => "UNWIND"
  | .deletion => "DELETE"
  | .result => "RETURN"
  | .order => "ORDER BY"
  | .limit => "LIMIT"
  | .skip => "SKIP"

/-- The name by which messages call a clause of this kind. -/
def title : Kind → String
  | .start => "StartClause"
  | .pattern => "MatchClause"
  | .optionalPattern => "OptionalMatchClause"
  | .hint => "UsingClause"
  | .condition => "WhereClause"
  | .carry => "WithClause"
  | .creation => "CreateClause"
  | .uniqueCreation => "CreateUniqueClause"
  | .merge => "MergeClause"
  | .assignment => "SetClause"
  | .removal => "RemoveClause"
  | .unwind => "UnwindClause"
  | .deletion => "DeleteClause"
  | .result => "ReturnClause"
  | .order => "OrderClause"
  | .limit => "LimitClause"
  | .skip => "SkipClause"

/-- The name of a kind outside of query texts. -/
def tag : Kind → String
  | .start => "start"
  | .pattern => "match"
  | .optionalPattern => "optional_match"
  | .hint => "using"
  | .condition => "where"
  | .carry => "with"
  | .creation => "create"
  | .uniqueCreation => "create_unique"
  | .merge => "merge"
  | .assignment => "set"
  | .removal => "remove"
  | .unwind => "unwind"
  | .deletion => "delete"
  | .result => "return"
  | .order => "order"
  | .limit => "limit"
  | .skip => "skip"

/-- What stands between two values of one kind. -/
def separator : Kind → String
  | .hint => " USING "
  | .condition => " AND "
  | .merge => " MERGE "
  | .unwind => " UNWIND "
  | _ => ", "

/-- Of several limits, and of several skips, the last one counts. -/
def lastOnly : Kind → Bool
  | .limit | .skip => true
  | _ => false

/-- The kinds in the order of their appearance within a part. -/
def precedence : List Kind :=
  [.carry, .creation, .uniqueCreation, .merge, .start, .pattern, .optionalPattern, .hint,
   .condition, .assignment, .removal, .unwind, .deletion, .result, .order, .limit, .skip]

def ofKeyword? (s : String) : Option Kind := precedence.find? (·.keyword == s)

def ofTag? (s : String) : Option Kind := precedence.find? (·.tag == s)

end Kind
end GraphQuery.Clause
