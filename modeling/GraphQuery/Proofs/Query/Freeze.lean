import GraphQuery.Proofs.Query.Calls

/-!
# Frozen queries

A break freezes the text of a query: what is added behind it reads as it would on its own, with a
space in between where both have something to say. So breaks that freeze nothing leave no trace,
and a directive is no more than a few words in front.
-/
namespace GraphQuery.Query

/-- What is read off two queries after the same calls is the same if it is so whatever is put
behind their logs. -/
theorem map_calls_congr {q r : Query} {f g : Query → String}
    (h : ∀ log, f (q.append log) = g (r.append log)) (cs : List Call) :
    (q.calls cs).map f = (r.calls cs).map g := by
  rw [calls_eq_append q, calls_eq_append r]
  cases (Query.mk none []).calls cs with
  | error fault => rfl
  | ok added => exact congrArg Except.ok (h added.log)

theorem body_split_append (q : Query) (log : List (Option Clause)) :
    (q.split.append log).body = spaced q.body (Query.mk none log).body := by
  have hlog : (q.split.append log).log = q.log ++ none :: log := by
    simp [split, append]
  have h := body_append_break none q.log log
  rw [← hlog] at h
  exact h

theorem body_split (q : Query) : q.split.body = q.body := by
  have h := body_split_append q []
  rw [body_eq_empty (q := Query.mk none []) rfl, spaced_empty_right] at h
  simpa [append] using h

theorem text_split (q : Query) : q.split.text = q.text :=
  text_congr rfl (body_split q)

/-- A break behind a break leaves no trace, whatever comes next. -/
theorem text_split_split_append (q : Query) (log : List (Option Clause)) :
    (q.split.split.append log).text = (q.split.append log).text := by
  refine text_congr rfl ?_
  rw [body_split_append, body_split_append, body_split]

/-- A break in front of everything leaves no trace. -/
theorem text_split_append_of_empty {q : Query} (hq : q.log = []) (log : List (Option Clause)) :
    (q.split.append log).text = (q.append log).text := by
  refine text_congr rfl ?_
  have hempty : q.body = "" := body_eq_empty (by rw [parts, hq]; rfl)
  rw [body_split_append, hempty, spaced_empty_left]
  exact body_congr (by simp [append, hq])

/-- A text behind a directive. -/
def prefixed (directive text : String) : String :=
  if text = "" then "CYPHER " ++ directive else "CYPHER " ++ directive ++ " " ++ text

theorem text_eq_prefixed {q : Query} {p : String} (hp : q.parser = some p) (hne : p ≠ "")
    (hs : Text.strip p = p) : q.text = prefixed p q.bare.text := by
  rw [text_bare, prefixed]
  exact text_directed hp (Text.solid_iff.2 ⟨hne, hs⟩)

/-- Behind a break all calls read as on the empty query. A break at the front, behind another one
or at the end changes nothing, and a directive without blanks around it only stands in front. -/
theorem split_freezes (q : Query) (cs : List Call) :
    (q.Undirected → (q.split.calls cs).map text =
      ((Query.mk none []).calls cs).map fun r => spaced q.text r.text) ∧
    (q.log = [] → (q.split.calls cs).map text = (q.calls cs).map text) ∧
    (q.split.split.calls cs).map text = (q.split.calls cs).map text ∧
    q.split.text = q.text ∧
    ∀ p, q.parser = some p → p ≠ "" → Text.strip p = p →
      q.text = prefixed p q.bare.text ∧
      (q.split.calls cs).map text = (q.bare.split.calls cs).map fun r => prefixed p r.text := by
  refine ⟨fun hq => ?_, fun hq => ?_, ?_, text_split q, fun p hp hne hs => ⟨?_, ?_⟩⟩
  · refine map_calls_congr (r := Query.mk none []) (g := fun r => spaced q.text r.text)
      (fun log => ?_) cs
    have hwhole : (q.split.append log).Undirected := hq
    have hadded : ((Query.mk none []).append log).Undirected := rfl
    rw [hwhole.text_eq, hq.text_eq, hadded.text_eq, body_split_append]
    rfl
  · exact map_calls_congr (text_split_append_of_empty hq) cs
  · exact map_calls_congr (text_split_split_append q) cs
  · exact text_eq_prefixed hp hne hs
  · refine map_calls_congr (r := q.bare.split) (g := fun r => prefixed p r.text) (fun log => ?_) cs
    have hbare : (q.split.append log).bare = q.bare.split.append log := rfl
    have hwhole : (q.split.append log).parser = some p := hp
    rw [text_eq_prefixed hwhole hne hs, hbare]

/-- A directive and a condition that ends in a blank. -/
def frozen : Query := ⟨some "1.9", [some ⟨.pattern, ["(n)"]⟩, some ⟨.condition, ["n.x "]⟩]⟩

/-- What is put behind the break. -/
def returned : List Call := [⟨.clause .result false, ⟨[.text "n"], []⟩⟩]

theorem frozen_text :
    (frozen.split.calls returned).map text = .ok "CYPHER 1.9 MATCH (n) WHERE n.x RETURN n" := by
  have hbare := (split_freezes frozen.bare returned).1 rfl
  have hdirected := ((split_freezes frozen returned).2.2.2.2 "1.9" rfl (by decide) (by decide)).2
  have hcomp (result : Except Fault Query) : result.map (fun r => prefixed "1.9" r.text) =
      (result.map text).map (prefixed "1.9") := by
    cases result <;> rfl
  rw [hdirected, hcomp, hbare]
  refine congrArg Except.ok (show prefixed "1.9" (spaced frozen.bare.text _) = _ from ?_)
  decide

end GraphQuery.Query
