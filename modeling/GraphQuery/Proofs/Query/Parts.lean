import GraphQuery.Proofs.Text.Solid
import GraphQuery.Query.Text
import Mathlib.Data.List.ReduceOption

/-!
# Parts of a query

The parts of a query are what its breaks leave between them, without the empty ones. The text of
every part is solid, so the texts of the parts have single spaces between them and nothing of them
is stripped again.
-/
namespace GraphQuery

namespace Clause

theorem Kind.solid_keyword (kind : Kind) : Text.Solid kind.keyword := by
  cases kind <;> exact ⟨⟨_, rfl, by decide⟩, ⟨_, rfl, by decide⟩⟩

theorem Kind.mem_precedence (kind : Kind) : kind ∈ Kind.precedence := by
  cases kind <;> decide

theorem groupText?_eq_none_iff {part : List Clause} {kind : Kind} :
    groupText? part kind = none ↔ part.filter (·.kind = kind) = [] := by
  simp only [groupText?]
  split
  · next h => simpa using h
  · next h => simpa using h

/-- The text of a group begins with the keyword of its kind. -/
theorem head?_groupText {part : List Clause} {kind : Kind} {t : String}
    (h : groupText? part kind = some t) :
    ∃ c, t.toList.head? = some c ∧ Text.isBlank c = false := by
  obtain ⟨c, hc, hb⟩ := kind.solid_keyword.first
  simp only [groupText?] at h
  split at h
  · cases h
  · cases h
    exact ⟨c, by simp [String.toList_append, List.head?_append, hc], hb⟩

/-- A part that has a clause has the group of its kind. -/
theorem groupTexts_ne_nil {part : List Clause} (h : part ≠ []) :
    Kind.precedence.filterMap (groupText? part) ≠ [] := by
  obtain ⟨c, hc⟩ := List.exists_mem_of_ne_nil part h
  cases hg : groupText? part c.kind with
  | none =>
    have := groupText?_eq_none_iff.1 hg
    have hmem : c ∈ part.filter (·.kind = c.kind) := List.mem_filter.2 ⟨hc, by simp⟩
    rw [this] at hmem
    cases hmem
  | some t =>
    exact List.ne_nil_of_mem (List.mem_filterMap.2 ⟨c.kind, c.kind.mem_precedence, hg⟩)

theorem solid_partText {part : List Clause} (h : part ≠ []) : Text.Solid (partText part) := by
  obtain ⟨t, ts, hts⟩ := List.exists_cons_of_ne_nil (groupTexts_ne_nil h)
  have ht : t ∈ Kind.precedence.filterMap (groupText? part) := by simp [hts]
  obtain ⟨kind, -, hkind⟩ := List.mem_filterMap.1 ht
  obtain ⟨c, hc, hb⟩ := head?_groupText hkind
  rw [partText, hts]
  exact Text.solid_strip_of_first (Text.head?_join hc) hb

end Clause

namespace Query

/-! ## Splitting at breaks -/

theorem runs_eq_splitOn (log : List (Option Clause)) :
    runs log = (log.splitOn none).map List.reduceOption := by
  induction log with
  | nil => rfl
  | cons entry log ih =>
    rw [List.splitOn_cons_eq_if_modifyHead]
    cases entry with
    | none => simp [runs, ih]
    | some clause =>
      cases hsplit : log.splitOn none with
      | nil => exact absurd hsplit (List.splitOn_ne_nil _ _)
      | cons run others =>
        rw [hsplit] at ih
        simp [runs, ih]

/-- A break ends a run, and what stands behind it has runs of its own. -/
theorem runs_append_break (log rest : List (Option Clause)) :
    runs (log ++ none :: rest) = runs log ++ runs rest := by
  rw [runs_eq_splitOn, List.splitOn_append_cons_self, List.map_append, ← runs_eq_splitOn,
    ← runs_eq_splitOn]

/-- Clauses behind a log continue its last run. -/
theorem runs_append_clauses (log : List (Option Clause)) :
    ∃ front last, ∀ clauses : List Clause,
      runs (log ++ clauses.map some) = front ++ [last ++ clauses] := by
  induction log with
  | nil =>
    refine ⟨[], [], fun clauses => ?_⟩
    induction clauses with
    | nil => rfl
    | cons clause clauses ih => simp_all [runs]
  | cons entry log ih =>
    obtain ⟨front, last, hmore⟩ := ih
    cases entry with
    | none => exact ⟨[] :: front, last, fun clauses => by simp [runs, hmore]⟩
    | some clause =>
      cases front with
      | nil => exact ⟨[], clause :: last, fun clauses => by simp_all [runs]⟩
      | cons run front =>
        exact ⟨(clause :: run) :: front, last, fun clauses => by simp_all [runs]⟩

theorem flatten_parts (q : Query) : q.parts.flatten = q.log.reduceOption := by
  rw [parts, List.reduceOption, ← flatten_runs]
  exact List.flatten_filter_not_isEmpty

theorem ne_nil_of_mem_parts {q : Query} {part : List Clause} (h : part ∈ q.parts) : part ≠ [] := by
  simpa using (List.mem_filter.1 h).2

theorem parts_append_break (parser : Option String) (log rest : List (Option Clause)) :
    (Query.mk parser (log ++ none :: rest)).parts =
      (Query.mk parser log).parts ++ (Query.mk parser rest).parts := by
  rw [parts, runs_append_break, List.filter_append]
  rfl

/-! ## The body -/

theorem solid_body {q : Query} (h : q.parts ≠ []) : Text.Solid q.body := by
  refine Text.solid_join (by simpa using h) fun t ht => ?_
  obtain ⟨part, hpart, rfl⟩ := List.mem_map.1 ht
  exact Clause.solid_partText (ne_nil_of_mem_parts hpart)

theorem body_eq_empty {q : Query} (h : q.parts = []) : q.body = "" := by
  rw [body, h]
  rfl

theorem body_congr {q r : Query} (h : q.log = r.log) : q.body = r.body := by
  rw [body, body, parts, parts, h]

/-- Two texts with a space between them, unless one of them is empty. -/
def spaced (s t : String) : String := Text.join " " ([s, t].filter (· ≠ ""))

@[simp] theorem spaced_empty_left (t : String) : spaced "" t = t := by
  by_cases h : t = "" <;> simp [spaced, h, Text.join]

@[simp] theorem spaced_empty_right (s : String) : spaced s "" = s := by
  by_cases h : s = "" <;> simp [spaced, h, Text.join]

theorem spaced_eq_append {s t : String} (hs : s ≠ "") (ht : t ≠ "") :
    spaced s t = s ++ " " ++ t := by
  simp [spaced, hs, ht, Text.join]

theorem body_append_break (parser : Option String) (log rest : List (Option Clause)) :
    (Query.mk parser (log ++ none :: rest)).body =
      spaced (Query.mk parser log).body (Query.mk parser rest).body := by
  by_cases hlog : (Query.mk parser log).parts = []
  · rw [body_eq_empty hlog, spaced_empty_left, body, parts_append_break, hlog, List.nil_append, body]
  · by_cases hrest : (Query.mk parser rest).parts = []
    · rw [body_eq_empty hrest, spaced_empty_right, body, parts_append_break, hrest,
        List.append_nil, body]
    · rw [spaced_eq_append (solid_body hlog).ne_empty (solid_body hrest).ne_empty, body,
        parts_append_break, List.map_append,
        Text.join_append (by simpa using hlog) (by simpa using hrest), body, body]

/-! ## The directive -/

/-- What a directive puts in front of a body. -/
def directive (parser : Option String) : String := directed parser ""

theorem directive_some {p : String} (h : p ≠ "") : directive (some p) = "CYPHER " ++ p ++ " " := by
  rw [directive, directed, if_neg h, String.append_empty]

theorem directive_eq_empty_iff {parser : Option String} :
    directive parser = "" ↔ parser.getD "" = "" := by
  cases parser with
  | none => exact iff_of_true rfl rfl
  | some p =>
    by_cases hp : p = ""
    · subst hp
      exact iff_of_true rfl rfl
    · rw [directive_some hp]
      simpa using hp

theorem directed_eq_append (parser : Option String) (body : String) :
    directed parser body = directive parser ++ body := by
  cases parser with
  | none => exact String.empty_append.symm
  | some p =>
    by_cases hp : p = ""
    · subst hp
      exact String.empty_append.symm
    · rw [directive_some hp]
      exact if_neg hp

/-- No directive is written. -/
def Undirected (q : Query) : Prop := q.parser.getD "" = ""

instance (q : Query) : Decidable q.Undirected := inferInstanceAs (Decidable (_ = _))

/-- The query without its directive. -/
def bare (q : Query) : Query := ⟨none, q.log⟩

theorem Undirected.text_eq {q : Query} (h : q.Undirected) : q.text = q.body := by
  rw [text, directed_eq_append, directive_eq_empty_iff.2 h, String.empty_append]
  by_cases hparts : q.parts = []
  · rw [body_eq_empty hparts]
    decide
  · exact (solid_body hparts).strip_eq

@[simp] theorem text_bare (q : Query) : q.bare.text = q.body :=
  (Undirected.text_eq (q := q.bare) rfl).trans (body_congr rfl)

theorem solid_cypher : Text.Solid "CYPHER" := ⟨⟨_, rfl, by decide⟩, ⟨_, rfl, by decide⟩⟩

/-- In front of a body nothing of a directive is stripped. -/
theorem text_eq_append {q : Query} (h : q.parts ≠ []) : q.text = directive q.parser ++ q.body := by
  by_cases hq : q.Undirected
  · rw [hq.text_eq, directive_eq_empty_iff.2 hq, String.empty_append]
  · obtain ⟨p, hp⟩ : ∃ p, q.parser = some p :=
      Option.ne_none_iff_exists'.1 fun hnone => hq (by rw [Undirected, hnone]; rfl)
    have hne : p ≠ "" := fun hempty => hq (by rw [Undirected, hp, hempty]; rfl)
    have hsolid := solid_cypher.append (solid_body h) (" " ++ p ++ " ")
    have hfront : "CYPHER" ++ (" " ++ p ++ " ") = directive q.parser := by
      rw [hp, directive_some hne, ← String.append_assoc, ← String.append_assoc]
      rfl
    rw [hfront] at hsolid
    rw [text, directed_eq_append, hsolid.strip_eq]

/-- A solid directive stands in front with its keyword, and with a space behind it if anything
follows. -/
theorem text_directed {q : Query} {p : String} (hp : q.parser = some p) (hs : Text.Solid p) :
    q.text = if q.body = "" then "CYPHER " ++ p else "CYPHER " ++ p ++ " " ++ q.body := by
  split
  · next hbody =>
    have hfront : Text.Solid ("CYPHER " ++ p) := solid_cypher.append hs " "
    rw [text, hp, hbody, ← directive, directive_some hs.ne_empty]
    refine hfront.strip_append fun c hc => ?_
    rw [List.mem_singleton.1 (show c ∈ [' '] from hc)]
    decide
  · next hbody =>
    have hparts : q.parts ≠ [] := fun h => hbody (body_eq_empty h)
    rw [text_eq_append hparts, hp, directive_some hs.ne_empty]

/-- What a query reads as is up to its directive and its body. -/
theorem text_congr {q r : Query} (hp : q.parser = r.parser) (hb : q.body = r.body) :
    q.text = r.text := by
  rw [text, text, hp, hb]

end Query
end GraphQuery
