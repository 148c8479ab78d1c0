import GraphQuery.Proofs.Query.Exchange
import GraphQuery.Proofs.Query.Segments

/-!
# Unions

A union writes two queries as they are, each with its own directive. So the directive of the second
one stands in the middle, behind UNION, and a union has the one of the first query alone only if
the second is written without any.
-/
namespace GraphQuery.Query

/-- The same steps build the same query without a directive. -/
theorem build_bare {parser configured : Option String} {steps : List Step} {q : Query}
    (h : (Query.empty parser configured).build steps = .ok q) :
    q.parser = parser.or configured ∧ (Query.empty none none).build steps = .ok q.bare := by
  rw [build_eq_calls] at h
  have hq := log_of_calls h
  refine ⟨by rw [hq]; rfl, ?_⟩
  rw [build_eq_calls, calls_of_entries (Call.entries_of_calls h), hq]
  rfl

/-- What stands between the two queries of a union. -/
def unionWords (all : Bool) : String := if all then " UNION ALL " else " UNION "

theorem unionText_eq {q r : Query} (hq : q.parts ≠ []) (hr : r.parts ≠ []) (all : Bool) :
    q.unionText r all = directive q.parser ++ q.bare.text ++ unionWords all ++
      directive r.parser ++ r.bare.text := by
  have hwords : unionWords all = " UNION" ++ (if all then " ALL" else "") ++ " " := by
    cases all <;> rfl
  rw [unionText, text_eq_append hq, text_eq_append hr, text_bare, text_bare, hwords]
  simp only [String.append_assoc]

/-- Two queries that have clauses, the first one with a directive. Their union is the directive, the
first query without it, UNION, the directive of the second query, if it has one, and the second
query without that. So the directive of the first one opens the union and no other stands in it
exactly if the second query is written without a directive. -/
theorem union_directed_once_iff {first second configured : Option String}
    {steps more : List Step} {q r : Query} {p : String}
    (hdirective : first.or configured = some p) (hne : p ≠ "")
    (hq : (Query.empty first configured).build steps = .ok q)
    (hr : (Query.empty second configured).build more = .ok r)
    (hqparts : q.parts ≠ []) (hrparts : r.parts ≠ []) (all : Bool) :
    ∃ left right, (Query.empty none none).build steps = .ok left ∧
      (Query.empty none none).build more = .ok right ∧
      q.unionText r all = "CYPHER " ++ p ++ " " ++ left.text ++ unionWords all ++
        directive (second.or configured) ++ right.text ∧
      (q.unionText r all = "CYPHER " ++ p ++ " " ++ left.text ++ unionWords all ++ right.text ↔
        (second.or configured).getD "" = "") := by
  obtain ⟨hqparser, hleft⟩ := build_bare hq
  obtain ⟨hrparser, hright⟩ := build_bare hr
  have htext := unionText_eq hqparts hrparts all
  rw [hqparser, hrparser, hdirective, directive_some hne] at htext
  refine ⟨q.bare, r.bare, hleft, hright, htext, ?_⟩
  -- both texts end with the second query, so only the directive in front of it is left to compare
  rw [htext, String.append_left_inj, String.append_eq_left_iff]
  exact directive_eq_empty_iff

/-- A single match. -/
def matching (pattern : String) : List Step :=
  [.call ⟨.clause .pattern false, ⟨[.text pattern], []⟩⟩]

def matched (parser : Option String) (pattern : String) : Query :=
  ⟨parser, [some ⟨.pattern, [pattern]⟩]⟩

/-- The second query has an empty directive of its own instead of the configured one. -/
theorem undirected_second_union :
    (Query.empty none (some "2.3")).build (matching "(n)") = .ok (matched (some "2.3") "(n)") ∧
    (Query.empty (some "") (some "2.3")).build (matching "(m)") = .ok (matched (some "") "(m)") ∧
    (matched (some "2.3") "(n)").unionText (matched (some "") "(m)") true =
      "CYPHER 2.3 MATCH (n) UNION ALL MATCH (m)" := by
  have hq : (Query.empty none (some "2.3")).build (matching "(n)") =
      .ok (matched (some "2.3") "(n)") := rfl
  have hr : (Query.empty (some "") (some "2.3")).build (matching "(m)") =
      .ok (matched (some "") "(m)") := rfl
  obtain ⟨left, right, hleft, hright, -, honce⟩ := union_directed_once_iff rfl (by decide) hq hr
    (List.cons_ne_nil _ _) (List.cons_ne_nil _ _) true
  cases hleft
  cases hright
  exact ⟨hq, hr, (honce.2 rfl).trans rfl⟩

theorem directed_second_union :
    (Query.empty (some "2.3") none).build (matching "(n)") = .ok (matched (some "2.3") "(n)") ∧
    (Query.empty (some "2.3") none).build (matching "(m)") = .ok (matched (some "2.3") "(m)") ∧
    (matched (some "2.3") "(n)").unionText (matched (some "2.3") "(m)") false =
      "CYPHER 2.3 MATCH (n) UNION CYPHER 2.3 MATCH (m)" ∧
    (matched (some "2.3") "(n)").unionText (matched (some "2.3") "(m)") false ≠
      "CYPHER 2.3 MATCH (n) UNION MATCH (m)" := by
  refine ⟨rfl, rfl, rfl, ?_⟩
  decide

end GraphQuery.Query
