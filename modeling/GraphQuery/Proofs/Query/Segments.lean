import GraphQuery.Proofs.Query.Exchange
import GraphQuery.Proofs.Query.Shortcuts
import Mathlib.Data.List.SplitBy

/-!
# Segments

A query is built step by step, by its methods or by the derivation that these come down to. The
steps fall into segments, where a step that begins a new part begins a segment. What the steps of
one segment add is one part, and clauses of WITH are only added by the first of them.
-/
namespace GraphQuery

namespace Clause

/-! ## Parts that carry over -/

/-- The text of a part that lists some clauses under WITH and holds others. -/
def carriedText (carried others : List Clause) : String :=
  Text.strip (Text.join " " (("WITH " ++ Text.join ", " (carried.flatMap (·.values))) ::
    Kind.precedence.tail.filterMap (groupText? others)))

theorem exists_carriedText_eq_append (carried others : List Clause) :
    ∃ rest, carriedText carried others = "WITH" ++ rest := by
  have hfirst : ∃ rest, Text.join " " (("WITH " ++ Text.join ", " (carried.flatMap (·.values))) ::
      Kind.precedence.tail.filterMap (groupText? others)) = "WITH" ++ rest := by
    cases Kind.precedence.tail.filterMap (groupText? others) with
    | nil =>
      refine ⟨" " ++ Text.join ", " (carried.flatMap (·.values)), ?_⟩
      rw [← String.append_assoc]
      rfl
    | cons text texts =>
      refine ⟨" " ++ Text.join ", " (carried.flatMap (·.values)) ++ " " ++
        Text.join " " (text :: texts), ?_⟩
      simp only [Text.join, ← String.append_assoc]
      rfl
  obtain ⟨rest, hrest⟩ := hfirst
  rw [carriedText, hrest]
  exact (Kind.solid_keyword .carry).exists_strip_append rest

theorem partText_eq_carriedText {carried others : List Clause} (hne : carried ≠ [])
    (hcarried : ∀ c ∈ carried, c.kind = .carry) (hothers : ∀ c ∈ others, c.kind ≠ .carry) :
    partText (carried ++ others) = carriedText carried others := by
  have hown : (carried ++ others).filter (·.kind = .carry) = carried := by
    rw [List.filter_append, filter_of_kind hcarried, if_pos rfl,
      List.filter_eq_nil_iff.2 (by simpa using hothers), List.append_nil]
  have hcarry : groupText? (carried ++ others) .carry =
      some ("WITH " ++ Text.join ", " (carried.flatMap (·.values))) := by
    rw [groupText?, hown, if_neg (by simpa using hne)]
    rfl
  have hgroup : ∀ kind ∈ Kind.precedence.tail,
      groupText? (carried ++ others) kind = groupText? others kind := by
    intro kind hkind
    have hcut : carried.filter (·.kind = kind) = [] := by
      rw [filter_of_kind hcarried, if_neg]
      rintro rfl
      exact absurd hkind (by decide)
    rw [groupText?, groupText?, List.filter_append, hcut, List.nil_append]
  have htexts : Kind.precedence.filterMap (groupText? (carried ++ others)) =
      ("WITH " ++ Text.join ", " (carried.flatMap (·.values))) ::
        Kind.precedence.tail.filterMap (groupText? others) :=
    (List.filterMap_cons_some hcarry).trans (congrArg _ (List.filterMap_congr hgroup))
  rw [partText, htexts, carriedText]

end Clause

namespace Query

/-! ## Calls that carry over -/

/-- The method that adds clauses of WITH. -/
def Method.carries : Method → Bool
  | .clause .carry _ => true
  | _ => false

theorem Call.kind_eq_carry_iff {call : Call} {c : Clause} (h : c ∈ call.clauses) :
    c.kind = .carry ↔ call.method.carries := by
  obtain ⟨m, arguments⟩ := call
  obtain ⟨r, hcall, hmem⟩ := Call.exists_of_mem_log (List.reduceOption_mem_iff.1 h)
  by_cases hm : ∃ kind replace, m = .clause kind replace
  · obtain ⟨kind, replace, rfl⟩ := hm
    obtain ⟨clauses, hclauses, rfl⟩ := exists_clauses_of_call hcall
    have hkind := (Clause.ofArguments_spec hclauses c
      ((mem_log_append_opening.1 hmem).resolve_left (by simp))).1
    rw [hkind]
    cases kind <;> simp [Method.carries]
  · have hcarry := ((enriches_of_call hm hcall c hmem).resolve_left (by simp)).2
    refine iff_of_false hcarry ?_
    cases m with
    | clause kind replace => exact absurd ⟨kind, replace, rfl⟩ hm
    | _ => simp [Method.carries]

/-- A call that begins a new part puts one break in front of its clauses. -/
theorem Call.log_of_splits {c : Call} (hentries : c.entries = .ok c.log)
    (h : c.method.splits) : c.log = none :: c.clauses.map some := by
  obtain ⟨m, arguments⟩ := c
  rw [Call.clauses]
  generalize Call.log ⟨m, arguments⟩ = log at hentries
  rw [Call.entries] at hentries
  obtain ⟨r, hcall, rfl⟩ := map_eq_ok.1 hentries
  cases m with
  | clause kind replace =>
    obtain ⟨clauses, -, rfl⟩ := exists_clauses_of_call hcall
    simp [append, opening, of_decide_eq_true h, List.reduceOption]
  | split =>
    simp only [call] at hcall
    split at hcall
    · cases hcall
    · cases hcall
      rfl
  | _ => cases h

/-! ## Steps -/

/-- A step by which a query is built: a call of a method, or the derivation itself, which adds
clauses of the kind or only a break. -/
inductive Step where
  | call (c : Call)
  | derive (kind : Option Clause.Kind) (args : List Value) (replace : Bool)

namespace Step

def apply (q : Query) : Step → Except Fault Query
  | .call c => q.call c.method c.arguments
  | .derive none _ _ => .ok q.split
  | .derive (some kind) args replace => q.add kind args replace

/-- The call that does the same. -/
def asCall : Step → Call
  | .call c => c
  | .derive none _ _ => ⟨.split, ⟨[], []⟩⟩
  | .derive (some kind) args replace => ⟨.clause kind replace, ⟨args, []⟩⟩

theorem apply_eq_call (q : Query) (s : Step) :
    s.apply q = q.call s.asCall.method s.asCall.arguments := by
  cases s with
  | call c => rfl
  | derive kind args replace =>
    cases kind with
    | none => rfl
    | some kind => exact (call_clause q kind replace args).symm

/-- Whether the step begins a new part. -/
def splits (s : Step) : Bool := s.asCall.method.splits

/-- Whether the step is one of WITH. -/
def carries (s : Step) : Bool := s.asCall.method.carries

theorem not_carries_of_splits {s : Step} (h : s.splits = false) : ¬ s.carries := by
  rw [splits] at h
  rw [carries]
  cases hm : s.asCall.method with
  | clause kind replace => cases kind <;> simp_all [Method.carries, Method.splits]
  | _ => simp [Method.carries]

/-- The clauses that the step adds. -/
def clauses (s : Step) : List Clause := s.asCall.clauses

end Step

/-- The query after a sequence of steps, of which none may fail. -/
def build (q : Query) : List Step → Except Fault Query
  | [] => .ok q
  | s :: steps => (s.apply q).bind fun r => r.build steps

theorem build_eq_calls (q : Query) (steps : List Step) :
    q.build steps = q.calls (steps.map Step.asCall) := by
  induction steps generalizing q with
  | nil => rfl
  | cons s steps ih => simp only [build, List.map_cons, calls, Step.apply_eq_call, ih]

/-! ## Segments -/

/-- The steps, cut in front of those that begin a new part. -/
def segments (steps : List Step) : List (List Step) := steps.splitBy fun _ next => !next.splits

theorem continues_of_mem_segments {steps segment : List Step} (h : segment ∈ segments steps) :
    ∃ first rest, segment = first :: rest ∧ ∀ s ∈ rest, s.splits = false := by
  obtain ⟨first, rest, rfl⟩ := List.exists_cons_of_ne_nil (List.ne_nil_of_mem_splitBy h)
  refine ⟨first, rest, rfl, ?_⟩
  have hchain := List.isChain_of_mem_splitBy h
  clear h
  induction rest generalizing first with
  | nil => simp
  | cons next rest ih =>
    rw [List.isChain_cons_cons] at hchain
    exact List.forall_mem_cons.2 ⟨by simpa using hchain.1, ih next hchain.2⟩

/-- Every segment but the first begins with a step that begins a new part. -/
theorem splits_of_mem_tail_segments {steps segment : List Step}
    (h : segment ∈ (segments steps).tail) : ∃ first ∈ segment.head?, first.splits := by
  have hchain := List.isChain_getLast_head_splitBy (fun _ next : Step => !next.splits) steps
  change (segments steps).IsChain _ at hchain
  generalize segments steps = all at h hchain
  induction all with
  | nil => cases h
  | cons one others ih =>
    cases others with
    | nil => cases h
    | cons next others =>
      rw [List.isChain_cons_cons] at hchain
      rcases List.mem_cons.1 h with rfl | h
      · obtain ⟨⟨-, hb, hnext⟩, -⟩ := hchain
        exact ⟨_, List.head?_eq_some_head hb, by simpa using hnext⟩
      · exact ih h hchain.2

/-! ## The parts of a sequence of steps -/

/-- What begins with a break begins a part of its own. -/
theorem parts_append_of_break {parser : Option String} (log : List (Option Clause))
    {rest : List (Option Clause)} (h : ∀ entry ∈ rest.head?, entry = none) :
    (Query.mk parser (log ++ rest)).parts =
      (Query.mk parser log).parts ++ (Query.mk parser rest).parts := by
  cases rest with
  | nil =>
    rw [List.append_nil]
    exact (List.append_nil _).symm
  | cons entry rest =>
    obtain rfl : entry = none := h entry rfl
    have hrest : (Query.mk parser (none :: rest)).parts = (Query.mk parser rest).parts :=
      parts_append_break parser [] rest
    rw [parts_append_break, hrest]

theorem runs_map_some (clauses : List Clause) : runs (clauses.map some) = [clauses] := by
  induction clauses with
  | nil => rfl
  | cons c clauses ih => rw [List.map_cons, runs, ih]

/-- The clauses of steps that have begun a part form this part, unless there are none. -/
theorem parts_of_segment {parser : Option String} {first : Step} {rest : List Step}
    (hentries : first.asCall.entries = .ok first.asCall.log)
    (hrest : ∀ s ∈ rest, s.splits = false) :
    (Query.mk parser ((first :: rest).flatMap fun s => s.asCall.log)).parts =
      [(first :: rest).flatMap Step.clauses].filter (!·.isEmpty) := by
  have hlog : (rest.flatMap fun s => s.asCall.log) = (rest.flatMap Step.clauses).map some := by
    rw [List.map_flatMap]
    exact List.flatMap_congr fun s hs => s.asCall.log_eq (hrest s hs)
  have hparts : (Query.mk parser (((first :: rest).flatMap Step.clauses).map some)).parts =
      [(first :: rest).flatMap Step.clauses].filter (!·.isEmpty) := by
    rw [parts, runs_map_some]
  rw [← hparts, List.flatMap_cons, List.flatMap_cons, hlog, List.map_append]
  cases hsplits : first.splits with
  | false => rw [first.asCall.log_eq hsplits, Step.clauses]
  | true =>
    rw [Call.log_of_splits hentries hsplits]
    exact parts_append_break parser [] _

theorem parts_of_segments {parser : Option String} {all : List (List Step)}
    (hentries : ∀ segment ∈ all, ∀ s ∈ segment, s.asCall.entries = .ok s.asCall.log)
    (hrest : ∀ segment ∈ all, ∃ first rest, segment = first :: rest ∧
      ∀ s ∈ rest, s.splits = false)
    (hfirst : ∀ segment ∈ all.tail, ∃ first ∈ segment.head?, first.splits) :
    (Query.mk parser (all.flatten.flatMap fun s => s.asCall.log)).parts =
      (all.map fun segment => segment.flatMap Step.clauses).filter (!·.isEmpty) := by
  induction all with
  | nil => rfl
  | cons segment all ih =>
    rw [List.forall_mem_cons] at hentries hrest
    obtain ⟨⟨first, rest, rfl, hcontinued⟩, hrest⟩ := hrest
    -- the rest is empty or begins with the break of its first step
    have hbreak : ∀ entry ∈ (all.flatten.flatMap fun s => s.asCall.log).head?, entry = none := by
      cases all with
      | nil => simp
      | cons next all =>
        obtain ⟨opener, hopener, hsplits⟩ := hfirst next (by simp)
        obtain ⟨others, rfl⟩ := List.head?_eq_some_iff.1 hopener
        rw [List.flatten_cons, List.cons_append, List.flatMap_cons,
          Call.log_of_splits (hentries.2 _ List.mem_cons_self opener List.mem_cons_self) hsplits]
        simp
    rw [List.flatten_cons, List.flatMap_append, parts_append_of_break _ hbreak,
      parts_of_segment (hentries.1 first (by simp)) hcontinued,
      ih hentries.2 hrest fun s hs => hfirst s (List.mem_of_mem_tail hs), ← List.filter_append]
    rfl

theorem log_eq_flatten_segments {parser configured : Option String} {steps : List Step} {q : Query}
    (h : (Query.empty parser configured).build steps = .ok q) :
    q.log = (segments steps).flatten.flatMap fun s => s.asCall.log := by
  rw [build_eq_calls] at h
  rw [log_of_calls h, segments, List.flatten_splitBy, List.flatMap_map]
  rfl

theorem flatten_segments (steps : List Step) : (segments steps).flatten = steps :=
  List.flatten_splitBy _ _

theorem mem_of_mem_segments {steps segment : List Step} (h : segment ∈ segments steps) {s : Step}
    (hs : s ∈ segment) : s ∈ steps := by
  rw [← flatten_segments steps]
  exact List.mem_flatten.2 ⟨segment, h, hs⟩

/-- What a step adds is what it adds to the empty query. -/
theorem Step.entries_of_build {q r : Query} {steps : List Step} (h : q.build steps = .ok r)
    {s : Step} (hs : s ∈ steps) : s.asCall.entries = .ok s.asCall.log := by
  rw [build_eq_calls] at h
  exact Call.entries_of_calls h _ (List.mem_map_of_mem hs)

theorem parts_of_build {parser configured : Option String} {steps : List Step} {q : Query}
    (h : (Query.empty parser configured).build steps = .ok q) :
    q.parts = ((segments steps).map fun segment =>
      segment.flatMap Step.clauses).filter (!·.isEmpty) := by
  rw [← parts_of_segments
    (fun _ hsegment _ hs => Step.entries_of_build h (mem_of_mem_segments hsegment hs))
    (fun _ => continues_of_mem_segments) (fun _ => splits_of_mem_tail_segments),
    ← log_eq_flatten_segments h]

/-- The parts of a query are what its segments add, in their order and without those that add
nothing. Only the first step of a segment begins a part, and where it is one of WITH the part begins
with its values, which are all that is listed there; other steps add nothing under WITH. -/
theorem parts_eq_segments {parser configured : Option String} {steps : List Step} {q : Query}
    (h : (Query.empty parser configured).build steps = .ok q) :
    (segments steps).flatten = steps ∧
    (∀ segment ∈ (segments steps).tail, ∃ first ∈ segment.head?, first.splits) ∧
    q.parts = ((segments steps).map fun segment =>
      segment.flatMap Step.clauses).filter (!·.isEmpty) ∧
    ∀ segment ∈ segments steps, ∃ first rest, segment = first :: rest ∧
      (∀ s ∈ rest, s.splits = false) ∧
      (∀ c ∈ first.clauses, c.kind = .carry ↔ first.carries) ∧
      (∀ c ∈ rest.flatMap Step.clauses, c.kind ≠ .carry) ∧
      (first.carries → first.clauses ≠ [] →
        Clause.partText (segment.flatMap Step.clauses) =
          Clause.carriedText first.clauses (rest.flatMap Step.clauses) ∧
        ∃ text, Clause.partText (segment.flatMap Step.clauses) = "WITH" ++ text) := by
  refine ⟨flatten_segments steps, fun _ => splits_of_mem_tail_segments, parts_of_build h,
    fun segment hs => ?_⟩
  obtain ⟨first, rest, rfl, hrest⟩ := continues_of_mem_segments hs
  have hfirst : ∀ c ∈ first.clauses, c.kind = .carry ↔ first.carries :=
    fun c hc => Call.kind_eq_carry_iff hc
  have hothers : ∀ c ∈ rest.flatMap Step.clauses, c.kind ≠ .carry := by
    intro c hc
    obtain ⟨s, hs, hc⟩ := List.mem_flatMap.1 hc
    rw [Ne, Call.kind_eq_carry_iff hc]
    exact Step.not_carries_of_splits (hrest s hs)
  refine ⟨first, rest, rfl, hrest, hfirst, hothers, fun hcarries hne => ?_⟩
  have htext := Clause.partText_eq_carriedText hne
    (fun c hc => (hfirst c hc).2 hcarries) hothers
  obtain ⟨text, hwith⟩ := Clause.exists_carriedText_eq_append first.clauses
    (rest.flatMap Step.clauses)
  exact ⟨htext, text, htext.trans hwith⟩

/-- A part is carried over into one with a condition and a limit, and a step of WITH that lists
nothing begins another part all the same. -/
def relayed : List Step :=
  [.call ⟨.clause .pattern false, ⟨[.text "(n)"], []⟩⟩,
   .call ⟨.clause .carry false, ⟨[.text "n"], [("m", .text "n.age")]⟩⟩,
   .call ⟨.paginate, ⟨[.int 1, .int 3], []⟩⟩,
   .derive (some .condition) [.text "m > 1"] false,
   .call ⟨.clause .carry false, ⟨[.text ""], []⟩⟩,
   .call ⟨.clause .result false, ⟨[.text "n"], []⟩⟩,
   .derive none [] false]

def relayedQuery : Query :=
  ⟨none, [some ⟨.pattern, ["(n)"]⟩, none, some ⟨.carry, ["n"]⟩, some ⟨.carry, ["n.age AS m"]⟩,
    some ⟨.limit, ["3"]⟩, some ⟨.condition, ["m > 1"]⟩, none, some ⟨.result, ["n"]⟩, none]⟩

theorem relayed_parts : (Query.empty none none).build relayed = .ok relayedQuery ∧
    relayedQuery.parts = [[⟨.pattern, ["(n)"]⟩],
      [⟨.carry, ["n"]⟩, ⟨.carry, ["n.age AS m"]⟩, ⟨.limit, ["3"]⟩, ⟨.condition, ["m > 1"]⟩],
      [⟨.result, ["n"]⟩]] ∧
    relayedQuery.text = "MATCH (n) WITH n, n.age AS m WHERE m > 1 LIMIT 3 RETURN n" := by
  have hbuild : (Query.empty none none).build relayed = .ok relayedQuery := rfl
  exact ⟨hbuild, (parts_eq_segments hbuild).2.2.1, rfl⟩

end Query
end GraphQuery
