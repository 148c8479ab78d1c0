import GraphQuery.Clause.Basic

/-!
# Queries

A query is the log of its clauses, in the order in which they were added, with break markers
between parts. Adding to a query gives another one and leaves the first as it was. A part that
begins with WITH is preceded by a break.
-/
namespace GraphQuery

structure Query where
  /-- The directive that opens the text. -/
  parser : Option String
  log : List (Option Clause)
deriving DecidableEq, Inhabited

namespace Query

/-- Without a directive of its own a query takes the configured one. -/
def empty (parser configured : Option String) : Query := ⟨parser.or configured, []⟩

def append (q : Query) (entries : List (Option Clause)) : Query := ⟨q.parser, q.log ++ entries⟩

/-- Freezes what was built so far; later clauses form a new part. -/
def split (q : Query) : Query := q.append [none]

/-- The markers that a kind puts before its clauses. -/
def opening (kind : Clause.Kind) : List (Option Clause) :=
  if kind = .carry then [none] else []

def add (q : Query) (kind : Clause.Kind) (args : List Value) (replace : Bool := false) :
    Except Fault Query :=
  (Clause.ofArguments kind replace args).map fun clauses =>
    q.append (opening kind ++ clauses.map some)

/-- Named arguments form one more mapping behind the others. -/
def collect (args : List Value) (named : List (String × Value)) : List Value :=
  if named.isEmpty then args
  else args ++ [.map (named.map fun entry => (.text entry.1, entry.2))]

end Query
end GraphQuery
