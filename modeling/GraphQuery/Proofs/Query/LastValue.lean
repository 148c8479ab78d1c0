import GraphQuery.Proofs.Query.Regrouping
import GraphQuery.Proofs.Query.Sorting

/-!
# Last values

Every argument of LIMIT and SKIP that counts becomes a clause of one value, so the writer, which
takes the last value of the last clause, always finds one. What it finds in a part is the text of
the last such argument among the steps of the part, those of paging included.
-/
namespace GraphQuery

namespace Clause

/-! ## Clauses of one value -/

variable {kind : Kind} {replace : Bool}

theorem argumentTexts_of_lastOnly (hkind : kind.lastOnly) {v : Value} (hcontent : hasContent v)
    {texts : List String} (h : argumentTexts kind replace v = .ok texts) : texts = [v.display] := by
  cases v with
  | text s =>
    cases h
    rfl
  | int n =>
    rw [argumentTexts, if_pos hkind] at h
    obtain ⟨-, rfl⟩ := Value.written_eq_ok.1 h
    rfl
  | map entries =>
    -- a mapping with an entry is rejected, and one without has no content
    cases entries with
    | nil => cases hcontent
    | cons entry entries =>
      rw [not_lastOnly_of_entriesTexts (List.cons_ne_nil entry entries) h] at hkind
      cases hkind
  | _ => cases h

/-- The clause of a kind that is written as the value. -/
def ofValue (kind : Kind) (v : Value) : Clause := ⟨kind, [v.display]⟩

theorem ofArgument_of_lastOnly (hkind : kind.lastOnly) {v : Value} (hcontent : hasContent v)
    {c : Clause} (h : ofArgument kind replace v = .ok c) : c = ofValue kind v := by
  rw [ofArgument] at h
  cases htexts : argumentTexts kind replace v with
  | error f => rw [htexts] at h; cases h
  | ok texts =>
    rw [htexts, argumentTexts_of_lastOnly hkind hcontent htexts] at h
    exact (Except.ok.inj h).symm

/-- Every argument of LIMIT or SKIP that counts is a clause with its text. -/
theorem ofArguments_of_lastOnly (hkind : kind.lastOnly) {args : List Value} {clauses : List Clause}
    (h : ofArguments kind replace args = .ok clauses) :
    clauses = (given args).map (ofValue kind) := by
  have hcontent : ∀ v ∈ given args, hasContent v := fun _ hv => (List.mem_filter.1 hv).2
  have hmade : List.Forall₂ (fun v c => ofArgument kind replace v = .ok c) (given args) clauses :=
    ofEach_eq_ok_iff.1 h
  clear h
  generalize given args = own at hcontent hmade
  induction hmade with
  | nil => rfl
  | cons hc _ ih =>
    obtain ⟨hv, hargs⟩ := List.forall_mem_cons.1 hcontent
    rw [List.map_cons, ofArgument_of_lastOnly hkind hv hc, ih hargs]

end Clause

namespace Query

open Clause (given ofValue)

/-! ## Arguments of one kind -/

/-- The size of a page is an argument of LIMIT, and the rows before it, if there are any, are one of
SKIP. -/
def pagingArguments (kind : Clause.Kind) (page size : Value) : List Value :=
  match kind with
  | .limit => [size]
  | .skip =>
    match offset page size with
    | .ok before => if before.isPositive then [before.value] else []
    | .error _ => []
  | _ => []

/-- The arguments for clauses of LIMIT or SKIP that a call makes. -/
def Call.argumentsFor (kind : Clause.Kind) (c : Call) : List Value :=
  match c.method with
  | .clause own _ => if own = kind then collect c.arguments.positional c.arguments.named else []
  | .paginate =>
    let received : Arguments := ⟨.null :: c.arguments.positional, c.arguments.named⟩
    match Method.paginate.signature.bindAll received with
    | some bound =>
      pagingArguments kind (argument bound "page" (.int 1)) (argument bound "page_size" (.int 20))
    | none => []
  | _ => []

/-- The clauses of a kind in the log. -/
def ofKind (q : Query) (kind : Clause.Kind) : List Clause :=
  q.log.reduceOption.filter (·.kind = kind)

/-- A query that has grown, and of the given kind by the clauses with the texts of the arguments. -/
def Counts (kind : Clause.Kind) (args : List Value) (q r : Query) : Prop :=
  r.ofKind kind = q.ofKind kind ++ (given args).map (ofValue kind)

namespace Counts

variable {kind own : Clause.Kind} {args more : List Value} {q r s : Query}

theorem trans (h : Counts kind args q r) (h' : Counts kind more r s) :
    Counts kind (args ++ more) q s := by
  rw [Counts, h', h, Clause.given_append, List.map_append, List.append_assoc]

theorem of_add (hkind : kind.lastOnly) {replace : Bool}
    (h : q.add own args replace = .ok r) :
    Counts kind (if own = kind then args else []) q r := by
  obtain ⟨clauses, hclauses, rfl⟩ := exists_clauses_of_add h
  have hopening : (opening own).reduceOption = [] := by
    rw [opening]
    split <;> rfl
  have hmade : (clauses.map some).reduceOption = clauses := by simp [List.reduceOption]
  have hown : (q.append (opening own ++ clauses.map some)).ofKind kind =
      q.ofKind kind ++ clauses.filter (·.kind = kind) := by
    rw [ofKind, append, List.reduceOption_append, List.reduceOption_append, hopening, hmade,
      List.nil_append, List.filter_append, ofKind]
  rw [Counts, hown, Clause.filter_of_kind fun c hc => (Clause.ofArguments_spec hclauses c hc).1]
  split
  · next hk =>
    subst hk
    rw [Clause.ofArguments_of_lastOnly hkind hclauses]
  · rfl

/-- Clauses of the other kinds do not count. -/
theorem of_add_other (hkind : kind.lastOnly) (hown : own.lastOnly = false)
    (h : q.add own args = .ok r) : Counts kind [] q r := by
  have hcounts := of_add hkind h
  rwa [if_neg fun hsame => by rw [hsame, hkind] at hown; cases hown] at hcounts

theorem matchNode (hkind : kind.lastOnly) {label name : Value}
    {properties : List (Value × Value)} (h : q.matchNode label name properties = .ok r) :
    Counts kind [] q r := by
  obtain ⟨text, hadd⟩ := add_of_matchNode h
  exact of_add_other hkind rfl hadd

theorem expand (hkind : kind.lastOnly) {source target types depth : Value} {optional : Bool}
    (h : q.expand source target types depth optional = .ok r) : Counts kind [] q r := by
  obtain ⟨text, hadd⟩ := add_of_expand h
  cases optional
  · exact of_add_other hkind rfl hadd
  · exact of_add_other hkind rfl hadd

theorem count (hkind : kind.lastOnly) {name : Value} {distinct : Bool}
    (h : q.count name distinct = .ok r) : Counts kind [] q r := by
  obtain ⟨text, hadd⟩ := add_of_count h
  exact of_add_other hkind rfl hadd

theorem paginate (hkind : kind.lastOnly) {page size : Value} (h : q.paginate page size = .ok r) :
    Counts kind (pagingArguments kind page size) q r := by
  obtain ⟨before, s, hoffset, hskip, hlimit⟩ := add_of_paginate h
  have hlimited : Counts kind (if .limit = kind then [size] else []) s r := of_add hkind hlimit
  split at hskip
  · next hp =>
    have hboth := (of_add hkind hskip).trans hlimited
    cases kind <;> cases hkind
    · exact hboth
    · simpa [pagingArguments, hoffset, hp] using hboth
  · next hp =>
    subst hskip
    cases kind <;> cases hkind
    · exact hlimited
    · simpa [pagingArguments, hoffset, hp] using hlimited

end Counts

/-- A call adds a clause of LIMIT or SKIP for each argument that it makes for it. -/
theorem counts_of_call {kind : Clause.Kind} (hkind : kind.lastOnly) {q r : Query} {c : Call}
    (h : q.call c.method c.arguments = .ok r) : Counts kind (c.argumentsFor kind) q r := by
  obtain ⟨method, arguments⟩ := c
  simp only [call] at h
  split at h
  · cases h
  · next bound hbound =>
    cases method with
    | clause own replace => exact Counts.of_add hkind h
    | split =>
      cases h
      simp [Counts, Call.argumentsFor, Query.split, append, ofKind, List.reduceOption_append, given,
        Clause.flattenAll]
    | matchNode => exact Counts.matchNode hkind h
    | expand => exact Counts.expand hkind h
    | paginate =>
      simp only [Call.argumentsFor, hbound]
      exact Counts.paginate hkind h
    | count => exact Counts.count hkind h

/-- The clauses of LIMIT or SKIP of a call that succeeds. -/
theorem Call.filter_clauses {kind : Clause.Kind} (hkind : kind.lastOnly) {c : Call}
    (h : c.entries = .ok c.log) :
    c.clauses.filter (·.kind = kind) = (given (c.argumentsFor kind)).map (ofValue kind) := by
  rw [Call.entries] at h
  obtain ⟨r, hcall, hlog⟩ := map_eq_ok.1 h
  have hcounts := counts_of_call hkind hcall
  rwa [Counts, ofKind, hlog] at hcounts

/-- The arguments for clauses of LIMIT or SKIP that a step makes. -/
def Step.argumentsFor (kind : Clause.Kind) (s : Step) : List Value := s.asCall.argumentsFor kind

/-- The clauses of LIMIT or SKIP of steps that succeed. -/
theorem filter_flatMap_steps {kind : Clause.Kind} (hkind : kind.lastOnly) {steps : List Step}
    (h : ∀ s ∈ steps, s.asCall.entries = .ok s.asCall.log) :
    (steps.flatMap Step.clauses).filter (·.kind = kind) =
      (given (steps.flatMap (Step.argumentsFor kind))).map (ofValue kind) := by
  induction steps with
  | nil => rfl
  | cons s steps ih =>
    obtain ⟨hs, hsteps⟩ := List.forall_mem_cons.1 h
    rw [List.flatMap_cons, List.filter_append, ih hsteps, List.flatMap_cons, Clause.given_append,
      List.map_append, Step.clauses, Call.filter_clauses hkind hs, Step.argumentsFor]

end Query

/-! ## Writing without asking for a value -/

namespace Clause

/-- As `valueText`, but where LIMIT and SKIP have no last value there is no text. -/
def valueText? (kind : Kind) (clauses : List Clause) : Option String :=
  if kind.lastOnly then clauses.getLast?.bind (·.values.getLast?)
  else some (Text.join kind.separator (clauses.flatMap (·.values)))

def partText? (clauses : List Clause) : Option String :=
  ((Kind.precedence.filter fun kind => clauses.any (·.kind = kind)).mapM fun kind =>
    (valueText? kind (clauses.filter (·.kind = kind))).map (kind.keyword ++ " " ++ ·)).map
      fun texts => Text.strip (Text.join " " texts)

theorem valueText?_of_valued {kind : Kind} {own : List Clause} (hne : own ≠ [])
    (hown : ∀ c ∈ own, c.kind = kind ∧ c.Valued) :
    valueText? kind own = some (valueText kind own) := by
  rw [valueText?, valueText]
  split
  · next hkind =>
    obtain ⟨front, c, rfl⟩ := (List.eq_nil_or_concat' own).resolve_left hne
    obtain ⟨hc, hvalued⟩ := hown c (by simp)
    have hvalues : c.values ≠ [] := hvalued (hc ▸ hkind)
    rw [List.getLast?_concat, Option.bind_some, List.getLast?_eq_some_getLast hvalues,
      Option.getD_some]
  · rfl

theorem partText?_of_valued {part : List Clause} (h : ∀ c ∈ part, c.Valued) :
    partText? part = some (partText part) := by
  have htexts (kinds : List Kind) : ((kinds.filter fun kind => part.any (·.kind = kind)).mapM
      fun kind => (valueText? kind (part.filter (·.kind = kind))).map (kind.keyword ++ " " ++ ·)) =
        some (kinds.filterMap (groupText? part)) := by
    induction kinds with
    | nil => rfl
    | cons kind kinds ih =>
      by_cases hown : part.filter (·.kind = kind) = []
      · rw [List.filterMap_cons_none (groupText?_eq_none_iff.2 hown), ← ih,
          List.filter_cons_of_neg (by simpa using hown)]
      · have hgroup : groupText? part kind =
            some (kind.keyword ++ " " ++ valueText kind (part.filter (·.kind = kind))) :=
          if_neg (by simpa using hown)
        have hvalued : ∀ c ∈ part.filter (·.kind = kind), c.kind = kind ∧ c.Valued := fun c hc =>
          ⟨by simpa using (List.mem_filter.1 hc).2, h c (List.mem_filter.1 hc).1⟩
        rw [List.filterMap_cons_some hgroup, List.filter_cons_of_pos (by simpa using hown),
          List.mapM_cons, ih, valueText?_of_valued hown hvalued]
        rfl
  rw [partText?, htexts, partText]
  rfl

/-- LIMIT and SKIP come last. -/
theorem Kind.filterMap_precedence {α : Type} (f : Kind → Option α) :
    precedence.filterMap f = (precedence.filter (!·.lastOnly)).filterMap f ++
      (f .limit).toList ++ (f .skip).toList := by
  have hlast : precedence = precedence.filter (!·.lastOnly) ++ [.limit, .skip] := rfl
  conv_lhs => rw [hlast, List.filterMap_append]
  rw [List.append_assoc]
  congr 1
  cases hlimit : f .limit <;> cases hskip : f .skip <;> simp [hlimit, hskip]

/-- Clauses of one value are written as the last of these values. -/
theorem groupText?_of_values {kind : Kind} (hkind : kind.lastOnly) {part : List Clause}
    {args : List Value} (h : part.filter (·.kind = kind) = args.map (ofValue kind)) :
    groupText? part kind = args.getLast?.map fun v => kind.keyword ++ " " ++ v.display := by
  rw [groupText?, h, valueText, if_pos hkind]
  rcases List.eq_nil_or_concat' args with rfl | ⟨front, v, rfl⟩
  · rfl
  · simp [ofValue]

end Clause

namespace Query

/-- The text of a query, if it can be written without asking for any value. -/
def text? (q : Query) : Option String :=
  (q.parts.mapM Clause.partText?).map fun texts =>
    Text.strip (directed q.parser (Text.join " " texts))

theorem text?_of_valued {q : Query} (h : ∀ c, some c ∈ q.log → c.Valued) :
    q.text? = some q.text := by
  have hparts : ∀ part ∈ q.parts, Clause.partText? part = some (Clause.partText part) :=
    fun part hpart => Clause.partText?_of_valued fun c hc => h c (mem_log_of_mem_parts hpart hc)
  have htexts : q.parts.mapM Clause.partText? = some (q.parts.map Clause.partText) := by
    generalize q.parts = parts at hparts
    induction parts with
    | nil => rfl
    | cons part parts ih =>
      obtain ⟨hpart, hparts⟩ := List.forall_mem_cons.1 hparts
      rw [List.mapM_cons, hpart, ih hparts]
      rfl
  rw [text?, htexts, text, body]
  rfl

/-! ## The last argument of a part -/

/-- What some steps write under LIMIT or SKIP: the last of their arguments for it that count. -/
def lastText? (kind : Clause.Kind) (steps : List Step) : Option String :=
  (Clause.given (steps.flatMap (Step.argumentsFor kind))).getLast?.map fun v =>
    kind.keyword ++ " " ++ v.display

theorem groupText?_flatMap_steps {kind : Clause.Kind} (hkind : kind.lastOnly) {steps : List Step}
    (h : ∀ s ∈ steps, s.asCall.entries = .ok s.asCall.log) :
    Clause.groupText? (steps.flatMap Step.clauses) kind = lastText? kind steps :=
  Clause.groupText?_of_values hkind (filter_flatMap_steps hkind h)

theorem reduceOption_log {parser configured : Option String} {steps : List Step} {q : Query}
    (h : (Query.empty parser configured).build steps = .ok q) :
    q.log.reduceOption = steps.flatMap Step.clauses := by
  rw [log_eq_flatten_segments h, flatten_segments]
  exact List.filterMap_flatMap

/-- The text of a query can be written: each of its clauses of LIMIT and SKIP has one value. A part
ends with LIMIT and SKIP, each written as the last argument for it that counts among those that the
steps of the part make, and not at all without such an argument. -/
theorem last_arguments_written {parser configured : Option String} {steps : List Step} {q : Query}
    (h : (Query.empty parser configured).build steps = .ok q) :
    (∀ c, some c ∈ q.log → c.kind.lastOnly → ∃ s, c.values = [s]) ∧
    q.text? = some q.text ∧
    q.parts = ((segments steps).map fun segment =>
      segment.flatMap Step.clauses).filter (!·.isEmpty) ∧
    ∀ segment ∈ segments steps,
      Clause.partText (segment.flatMap Step.clauses) = Text.strip (Text.join " "
        ((Clause.Kind.precedence.filter (!·.lastOnly)).filterMap
            (Clause.groupText? (segment.flatMap Step.clauses)) ++
          (lastText? .limit segment).toList ++ (lastText? .skip segment).toList)) := by
  have hcalls := h
  rw [build_eq_calls] at hcalls
  refine ⟨fun c hc hkind => ?_, text?_of_valued fun c hc => valued_of_calls hcalls hc,
    parts_of_build h, fun segment hsegment => ?_⟩
  · have hmem : c ∈ q.log.reduceOption.filter (·.kind = c.kind) :=
      List.mem_filter.2 ⟨List.reduceOption_mem_iff.2 hc, by simp⟩
    rw [reduceOption_log h,
      filter_flatMap_steps hkind fun s hs => Step.entries_of_build h hs] at hmem
    obtain ⟨v, -, hv⟩ := List.mem_map.1 hmem
    exact ⟨v.display, by rw [← hv]; rfl⟩
  · have hsteps : ∀ s ∈ segment, s.asCall.entries = .ok s.asCall.log := fun s hs =>
      Step.entries_of_build h (mem_of_mem_segments hsegment hs)
    rw [Clause.partText, Clause.Kind.filterMap_precedence, groupText?_flatMap_steps rfl hsteps,
      groupText?_flatMap_steps rfl hsteps]

/-- Limits and skips of every sort in a part, some of which do not count, and a limit in another. -/
def repaged : List Step :=
  [.call ⟨.clause .skip false, ⟨[.text "9"], []⟩⟩,
   .call ⟨.clause .limit false, ⟨[.int 5], []⟩⟩,
   .call ⟨.paginate, ⟨[.int 1], [("page_size", .int 20)]⟩⟩,
   .call ⟨.clause .result false, ⟨[.text "n"], []⟩⟩,
   .derive (some .skip) [.map [], .tuple []] false,
   .call ⟨.clause .limit false, ⟨[.list [.int 3, .tuple [.text " 7 ", .text ""]]], []⟩⟩,
   .derive none [] false,
   .call ⟨.clause .limit false, ⟨[.int 2], []⟩⟩]

def repagedQuery : Query :=
  ⟨none, [some ⟨.skip, ["9"]⟩, some ⟨.limit, ["5"]⟩, some ⟨.limit, ["20"]⟩, some ⟨.result, ["n"]⟩,
    some ⟨.limit, ["3"]⟩, some ⟨.limit, [" 7 "]⟩, none, some ⟨.limit, ["2"]⟩]⟩

theorem repaged_text : (Query.empty none none).build repaged = .ok repagedQuery ∧
    repagedQuery.text? = some "RETURN n LIMIT  7  SKIP 9 LIMIT 2" ∧
    Clause.partText ((repaged.take 6).flatMap Step.clauses) = "RETURN n LIMIT  7  SKIP 9" := by
  have hbuild : (Query.empty none none).build repaged = .ok repagedQuery := rfl
  obtain ⟨-, htext, -, hlast⟩ := last_arguments_written hbuild
  have hsegments : segments repaged = [repaged.take 6, repaged.drop 6] := rfl
  refine ⟨hbuild, htext.trans rfl, (hlast _ ?_).trans rfl⟩
  rw [hsegments]
  exact List.mem_cons_self

end Query
end GraphQuery
