import GraphQuery.Log.Event
import GraphQuery.Query.Basic
import GraphQuery.Text.Blank

/-!
# Query texts

Each part of a query is written in the fixed order of the kinds, all clauses of one kind under a
single keyword. Parts without clauses leave no trace.
-/
namespace GraphQuery

namespace Clause

/-- The values of clauses of one kind: all of them in order, or the very last one. -/
def valueText (kind : Kind) (clauses : List Clause) : String :=
  if kind.lastOnly then ((clauses.getLast?.bind (·.values.getLast?)).getD "")
  else Text.join kind.separator (clauses.flatMap (·.values))

def groupText? (clauses : List Clause) (kind : Kind) : Option String :=
  let own := clauses.filter (·.kind = kind)
  if own.isEmpty then none else some (kind.keyword ++ " " ++ valueText kind own)

def partText (clauses : List Clause) : String :=
  Text.strip (Text.join " " (Kind.precedence.filterMap (groupText? clauses)))

end Clause

namespace Query

/-- The clauses between neighbouring breaks. -/
def runs : List (Option Clause) → List (List Clause)
  | [] => [[]]
  | none :: log => [] :: runs log
  | some clause :: log =>
    match runs log with
    | [] => [[clause]]
    | run :: rest => (clause :: run) :: rest

theorem runs_ne_nil (log : List (Option Clause)) : runs log ≠ [] := by
  induction log with
  | nil => simp [runs]
  | cons entry log ih =>
    cases entry with
    | none => simp [runs]
    | some clause => rw [runs]; split <;> simp

/-- The runs hold all clauses in order. -/
theorem flatten_runs (log : List (Option Clause)) : (runs log).flatten = log.filterMap id := by
  induction log with
  | nil => rfl
  | cons entry log ih =>
    cases entry with
    | none => simpa [runs] using ih
    | some clause =>
      rw [runs]
      split
      · next h => exact absurd h (runs_ne_nil log)
      · next h => simp_all

def parts (q : Query) : List (List Clause) := (runs q.log).filter (!·.isEmpty)

def body (q : Query) : String := Text.join " " (q.parts.map Clause.partText)

def directed (parser : Option String) (body : String) : String :=
  match parser with
  | some p => if p = "" then body else "CYPHER " ++ p ++ " " ++ body
  | none => body

def text (q : Query) : String := Text.strip (directed q.parser q.body)

/-- The event of writing the text. -/
def rendering (q : Query) : Log.Event :=
  ⟨.debug, "Rendered query", [("query", .value (.text q.text))]⟩

/-- The union of two queries, with `all` keeping duplicate rows. -/
def unionText (q other : Query) (all : Bool) : String :=
  q.text ++ " UNION" ++ (if all then " ALL" else "") ++ " " ++ other.text

/-- The form in which messages show a query. -/
def inspect (q : Query) : String := "Query(" ++ Text.quoted q.text ++ ")"

end Query
end GraphQuery
