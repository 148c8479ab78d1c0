import GraphQuery.Proofs.Query.Calls

/-!
# Exchanging calls

The text of a part depends on the clauses of each kind in their order, and not on how the kinds are
mixed. Calls that begin no new part may therefore change places as long as those that add clauses of
one kind stay in their order.
-/
namespace GraphQuery

namespace Clause

/-- The clauses of every kind are the same and in the same order. -/
def SameByKind (part other : List Clause) : Prop :=
  ∀ kind : Kind, part.filter (·.kind = kind) = other.filter (·.kind = kind)

theorem SameByKind.append_left {part other : List Clause} (h : SameByKind part other)
    (front : List Clause) : SameByKind (front ++ part) (front ++ other) := by
  intro kind
  rw [List.filter_append, List.filter_append, h kind]

theorem SameByKind.nil_iff {part other : List Clause} (h : SameByKind part other) :
    part = [] ↔ other = [] := by
  have hnil {l m : List Clause} (hlm : SameByKind l m) (hl : l = []) : m = [] := by
    refine List.eq_nil_iff_forall_not_mem.2 fun c hc => ?_
    have hmem : c ∈ m.filter (·.kind = c.kind) := List.mem_filter.2 ⟨hc, by simp⟩
    rw [← hlm c.kind, hl] at hmem
    cases hmem
  exact ⟨hnil h, hnil fun kind => (h kind).symm⟩

theorem SameByKind.partText_eq {part other : List Clause} (h : SameByKind part other) :
    partText part = partText other := by
  have hgroup : groupText? part = groupText? other := by
    funext kind
    simp only [groupText?, h kind]
  rw [partText, partText, hgroup]

end Clause

namespace Query
open Clause (SameByKind)

/-- The clauses that a call adds. -/
def Call.clauses (c : Call) : List Clause := c.log.reduceOption

/-- Whether a call adds a clause of the kind. -/
def Call.contributes (kind : Clause.Kind) (c : Call) : Bool := c.clauses.any (·.kind = kind)

theorem Call.log_eq {c : Call} (h : c.method.splits = false) : c.log = c.clauses.map some := by
  have hnone := c.none_not_mem_log h
  rw [Call.clauses]
  generalize c.log = log at hnone
  induction log with
  | nil => rfl
  | cons entry log ih =>
    rw [List.mem_cons, not_or] at hnone
    cases entry with
    | none => exact absurd rfl hnone.1
    | some clause => rw [List.reduceOption_cons_of_some, List.map_cons, ← ih hnone.2]

/-- The clauses of a kind come from the calls that add some of it. -/
theorem filter_flatMap_clauses (cs : List Call) (kind : Clause.Kind) :
    (cs.flatMap Call.clauses).filter (·.kind = kind) =
      (cs.filter (Call.contributes kind)).flatMap fun c => c.clauses.filter (·.kind = kind) := by
  induction cs with
  | nil => rfl
  | cons c cs ih =>
    rw [List.flatMap_cons, List.filter_append, ih]
    by_cases hc : c.contributes kind = true
    · rw [List.filter_cons_of_pos hc, List.flatMap_cons]
    · have hempty : c.clauses.filter (·.kind = kind) = [] := by
        simpa [Call.contributes] using hc
      rw [List.filter_cons_of_neg hc, hempty, List.nil_append]

theorem log_flatMap {cs : List Call} (h : ∀ c ∈ cs, c.method.splits = false) :
    cs.flatMap Call.log = (cs.flatMap Call.clauses).map some := by
  rw [List.map_flatMap]
  exact List.flatMap_congr fun c hc => c.log_eq (h c hc)

/-- What continues every part to the same text continues the text of the query alike. -/
theorem text_append_congr_of_partText (q : Query) {part other : List Clause}
    (hnil : part = [] ↔ other = [])
    (h : ∀ front, Clause.partText (front ++ part) = Clause.partText (front ++ other)) :
    (q.append (part.map some)).text = (q.append (other.map some)).text := by
  obtain ⟨front, last, hruns⟩ := runs_append_clauses q.log
  have hparts (clauses : List Clause) : (q.append (clauses.map some)).parts =
      front.filter (!·.isEmpty) ++ [last ++ clauses].filter (!·.isEmpty) := by
    rw [parts, append, hruns, List.filter_append]
  refine text_congr rfl ?_
  rw [body, body, hparts, hparts]
  congr 1
  rw [List.map_append, List.map_append]
  congr 1
  by_cases hempty : last ++ part = []
  · obtain ⟨hlast, hpart⟩ := List.append_eq_nil_iff.1 hempty
    rw [List.filter_cons_of_neg (by simp [hempty]),
      List.filter_cons_of_neg (by simp [hlast, hnil.1 hpart])]
  · have hother : last ++ other ≠ [] := fun hnone => hempty (by
      obtain ⟨hlast, hother⟩ := List.append_eq_nil_iff.1 hnone
      rw [hlast, hnil.2 hother, List.append_nil])
    rw [List.filter_cons_of_pos (by simpa using hempty),
      List.filter_cons_of_pos (by simpa using hother), List.map_cons, List.map_cons, h]

/-- What continues the last part by the same clauses of every kind continues the text alike. -/
theorem text_append_congr (q : Query) {part other : List Clause} (h : SameByKind part other) :
    (q.append (part.map some)).text = (q.append (other.map some)).text :=
  text_append_congr_of_partText q h.nil_iff fun front => (h.append_left front).partText_eq

/-- Two sequences of calls that begin no new part, and in which the calls that add clauses of one
kind are the same and in the same order for every kind, continue a query to the same text. -/
theorem text_eq_of_same_order {q r s : Query} {cs ds : List Call}
    (hcs : ∀ c ∈ cs, c.method.splits = false) (hds : ∀ d ∈ ds, d.method.splits = false)
    (horder : ∀ kind, cs.filter (Call.contributes kind) = ds.filter (Call.contributes kind))
    (hr : q.calls cs = .ok r) (hs : q.calls ds = .ok s) : r.text = s.text := by
  have hsame : SameByKind (cs.flatMap Call.clauses) (ds.flatMap Call.clauses) := by
    intro kind
    rw [filter_flatMap_clauses, filter_flatMap_clauses, horder kind]
  rw [log_of_calls hr, log_of_calls hs, log_flatMap hcs, log_flatMap hds]
  exact text_append_congr q hsame

/-- A part that begins with WITH, behind another one. -/
def carried : Query := ⟨none, [some ⟨.pattern, ["(a)"]⟩, none, some ⟨.carry, ["a"]⟩]⟩

def pagedLast : List Call :=
  [⟨.clause .pattern false, ⟨[.text "(b)"], []⟩⟩,
   ⟨.clause .assignment true, ⟨[.text "a = b"], []⟩⟩,
   ⟨.expand, ⟨[.text "b", .text "c"], []⟩⟩,
   ⟨.clause .assignment false, ⟨[.text "b.x = 1"], []⟩⟩,
   ⟨.count, ⟨[], []⟩⟩,
   ⟨.clause .skip false, ⟨[.int 5], []⟩⟩,
   ⟨.clause .limit false, ⟨[.int 3], []⟩⟩,
   ⟨.paginate, ⟨[.int 1, .int 10], []⟩⟩]

def pagedFirst : List Call :=
  [⟨.clause .limit false, ⟨[.int 3], []⟩⟩,
   ⟨.paginate, ⟨[.int 1, .int 10], []⟩⟩,
   ⟨.count, ⟨[], []⟩⟩,
   ⟨.clause .assignment true, ⟨[.text "a = b"], []⟩⟩,
   ⟨.clause .pattern false, ⟨[.text "(b)"], []⟩⟩,
   ⟨.clause .skip false, ⟨[.int 5], []⟩⟩,
   ⟨.clause .assignment false, ⟨[.text "b.x = 1"], []⟩⟩,
   ⟨.expand, ⟨[.text "b", .text "c"], []⟩⟩]

def pagedLog : List (Option Clause) :=
  [some ⟨.limit, ["3"]⟩, some ⟨.limit, ["10"]⟩, some ⟨.result, ["COUNT(DISTINCT n) AS count"]⟩,
   some ⟨.assignment, ["a = b"]⟩, some ⟨.pattern, ["(b)"]⟩, some ⟨.skip, ["5"]⟩,
   some ⟨.assignment, ["b.x = 1"]⟩, some ⟨.pattern, ["(b)-[]-(c)"]⟩]

theorem paged_text : ∃ r, carried.calls pagedLast = .ok r ∧
    carried.calls pagedFirst = .ok (carried.append pagedLog) ∧
    r.text = (carried.append pagedLog).text := by
  have hfirst : carried.calls pagedFirst = .ok (carried.append pagedLog) := rfl
  cases hlast : carried.calls pagedLast with
  | error fault => cases hlast
  | ok r =>
    refine ⟨r, rfl, hfirst, text_eq_of_same_order (by decide) (by decide) (fun kind => ?_)
      hlast hfirst⟩
    cases kind <;> rfl

end Query
end GraphQuery
