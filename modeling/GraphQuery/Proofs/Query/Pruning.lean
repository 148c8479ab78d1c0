import GraphQuery.Proofs.Query.Shortcuts
import GraphQuery.Proofs.Query.Sorting
import GraphQuery.Proofs.Text.Ink
import Mathlib.Algebra.Order.BigOperators.Group.List

/-!
# Calls without hollow arguments

Without its hollow arguments a sequence of calls builds the same query but for the clauses that have
no values. The text tells the two apart exactly where a keyword stands alone, which is where all
clauses of a kind in a part have no values.
-/
namespace GraphQuery

/-! ## Calls without hollow arguments -/

namespace Query

/-- The log without the clauses that have no values. -/
def withValues (log : List (Option Clause)) : List (Option Clause) :=
  log.filter fun entry => entry.all Clause.hasValues

theorem withValues_eq_self {log : List (Option Clause)}
    (h : ∀ c, some c ∈ log → c.hasValues) : withValues log = log := by
  refine List.filter_eq_self.2 fun entry hentry => ?_
  cases entry with
  | none => rfl
  | some c => exact h c hentry

theorem withValues_append (log more : List (Option Clause)) :
    withValues (log ++ more) = withValues log ++ withValues more := List.filter_append ..

theorem withValues_map_some (clauses : List Clause) :
    withValues (clauses.map some) = (clauses.filter Clause.hasValues).map some := by
  rw [withValues, List.filter_map]
  rfl

theorem withValues_opening (kind : Clause.Kind) : withValues (opening kind) = opening kind := by
  rw [opening]
  split <;> rfl

/-- The same call without the arguments that are hollow. -/
def Call.pruned (c : Call) : Call :=
  match c.method with
  | .clause kind replace =>
    ⟨.clause kind replace,
      ⟨Clause.contributing kind replace (collect c.arguments.positional c.arguments.named), []⟩⟩
  | _ => c

/-- A call without its hollow arguments adds what the call adds, but for the clauses that have no
values. -/
theorem Call.entries_pruned {c : Call} {log : List (Option Clause)} (h : c.entries = .ok log) :
    c.pruned.entries = .ok (withValues log) := by
  obtain ⟨m, arguments⟩ := c
  rw [Call.entries] at h
  obtain ⟨r, hcall, rfl⟩ := map_eq_ok.1 h
  by_cases hm : ∃ kind replace, m = .clause kind replace
  · obtain ⟨kind, replace, rfl⟩ := hm
    obtain ⟨clauses, hclauses, rfl⟩ := exists_clauses_of_call hcall
    rw [Call.entries, Call.pruned, call_clause, add, Clause.ofArguments_contributing hclauses]
    simp [Except.map, append, withValues_append, withValues_opening, withValues_map_some]
  · have hsame : Call.pruned ⟨m, arguments⟩ = ⟨m, arguments⟩ := by
      cases m with
      | clause kind replace => exact absurd ⟨kind, replace, rfl⟩ hm
      | _ => rfl
    rw [hsame, Call.entries, hcall, withValues_eq_self fun c hc => ?_]
    · rfl
    · exact ((enriches_of_call hm hcall c hc).resolve_left (by simp)).1.1

/-- No value that a call adds is empty. -/
theorem Call.not_mem_values {call : Call} {c : Clause} (hc : some c ∈ call.log) :
    "" ∉ c.values := by
  obtain ⟨m, arguments⟩ := call
  obtain ⟨r, hcall, hmem⟩ := Call.exists_of_mem_log hc
  by_cases hm : ∃ kind replace, m = .clause kind replace
  · obtain ⟨kind, replace, rfl⟩ := hm
    obtain ⟨clauses, hclauses, rfl⟩ := exists_clauses_of_call hcall
    obtain ⟨-, -, -, hempty⟩ := Clause.values_of_ofArguments hclauses
      ((mem_log_append_opening.1 hmem).resolve_left (by simp))
    exact hempty
  · exact ((enriches_of_call hm hcall c hmem).resolve_left (by simp)).1.2

/-- Calls without their hollow arguments add what the calls add, but for the clauses that have no
values. -/
theorem calls_pruned {q r : Query} {cs : List Call} (h : q.calls cs = .ok r) (base : Query) :
    base.calls (cs.map Call.pruned) = .ok (base.append (withValues (cs.flatMap Call.log))) := by
  have hentries : ∀ c ∈ cs, c.pruned.entries = .ok (withValues c.log) :=
    fun c hc => Call.entries_pruned (Call.entries_of_calls h c hc)
  have hlog : ∀ c ∈ cs, c.pruned.log = withValues c.log := by
    intro c hc
    rw [Call.log, hentries c hc]
    rfl
  have hcalls : ∀ d ∈ cs.map Call.pruned, d.entries = .ok d.log := by
    intro d hd
    obtain ⟨c, hc, rfl⟩ := List.mem_map.1 hd
    rw [hentries c hc, hlog c hc]
  rw [calls_of_entries hcalls base, List.flatMap_map, List.flatMap_congr hlog, withValues,
    List.filter_flatMap]
  rfl

/-- Without hollow arguments a query is the same but for the clauses that have no values. -/
theorem calls_pruned_empty {parser configured : Option String} {cs : List Call} {q : Query}
    (h : (Query.empty parser configured).calls cs = .ok q) :
    (Query.empty parser configured).calls (cs.map Call.pruned) =
      .ok ⟨q.parser, withValues q.log⟩ := by
  rw [calls_pruned h, log_of_calls h]
  rfl

/-- No value in a query is empty. -/
theorem not_mem_values_of_calls {parser configured : Option String} {cs : List Call} {q : Query}
    (h : (Query.empty parser configured).calls cs = .ok q) {c : Clause} (hc : some c ∈ q.log) :
    "" ∉ c.values := by
  rw [log_of_calls h] at hc
  obtain ⟨call, -, hc⟩ := List.mem_flatMap.1 (by simpa [append, empty] using hc)
  exact call.not_mem_values hc

end Query

/-! ## Keywords that stand alone -/

namespace Clause

/-- All clauses of a kind that is present have no values. -/
def Bare (part : List Clause) (kind : Kind) : Prop :=
  part.filter (·.kind = kind) ≠ [] ∧ ∀ c ∈ part, c.kind = kind → c.values = []

theorem exists_bare_iff {part : List Clause} :
    (∃ kind, Bare part kind) ↔ ∃ c ∈ part, ∀ d ∈ part, d.kind = c.kind → d.values = [] := by
  constructor
  · rintro ⟨kind, hown, hnone⟩
    obtain ⟨c, hc⟩ := List.exists_mem_of_ne_nil _ hown
    obtain ⟨hmem, hkind⟩ := List.mem_filter.1 hc
    rw [← of_decide_eq_true hkind] at hnone
    exact ⟨c, hmem, hnone⟩
  · rintro ⟨c, hc, hnone⟩
    have hown : c ∈ part.filter (·.kind = c.kind) := List.mem_filter.2 ⟨hc, by simp⟩
    exact ⟨c.kind, List.ne_nil_of_mem hown, hnone⟩

theorem filter_hasValues_comm (part : List Clause) (kind : Kind) :
    (part.filter hasValues).filter (·.kind = kind) =
      (part.filter (·.kind = kind)).filter hasValues := by
  rw [List.filter_filter, List.filter_filter]
  exact List.filter_congr fun c _ => Bool.and_comm _ _

theorem filter_hasValues_eq_nil_iff {part : List Clause} {kind : Kind} :
    (part.filter hasValues).filter (·.kind = kind) = [] ↔
      ∀ c ∈ part, c.kind = kind → c.values = [] := by
  simp only [filter_hasValues_comm, List.filter_eq_nil_iff, List.mem_filter, decide_eq_true_eq,
    hasValues, Bool.not_eq_true, Bool.not_eq_false', List.isEmpty_iff, and_imp]

theorem flatMap_values_filter (group : List Clause) :
    (group.filter hasValues).flatMap (·.values) = group.flatMap (·.values) := by
  induction group with
  | nil => rfl
  | cons c group ih =>
    by_cases hc : c.values = [] <;> simp [List.filter_cons, hasValues, hc, ih]

/-- Clauses without values say nothing behind the keyword. -/
theorem valueText_filter {kind : Kind} {group : List Clause}
    (hvalued : kind.lastOnly → ∀ c ∈ group, c.values ≠ []) :
    valueText kind (group.filter hasValues) = valueText kind group := by
  rw [valueText, valueText, flatMap_values_filter]
  split
  · next hlast =>
    have hall : group.filter hasValues = group :=
      List.filter_eq_self.2 fun c hc => by simpa [hasValues] using hvalued hlast c hc
    rw [hall]
  · rfl

theorem groupText?_filter {part : List Clause} (hvalued : ∀ c ∈ part, c.Valued) {kind : Kind}
    (h : ¬ Bare part kind) :
    groupText? (part.filter hasValues) kind = groupText? part kind := by
  by_cases hown : part.filter (·.kind = kind) = []
  · rw [groupText?_eq_none_iff.2 hown, groupText?_eq_none_iff, filter_hasValues_comm, hown]
    rfl
  · have hkept : (part.filter hasValues).filter (·.kind = kind) ≠ [] := by
      rw [Ne, filter_hasValues_eq_nil_iff]
      exact fun hall => h ⟨hown, hall⟩
    have htext := @valueText_filter kind (part.filter (·.kind = kind)) fun hlast c hc => ?_
    · rw [groupText?, groupText?, if_neg (by simpa using hkept), if_neg (by simpa using hown),
        filter_hasValues_comm, htext]
    · obtain ⟨hc, hk⟩ := List.mem_filter.1 hc
      exact hvalued c hc (by rwa [of_decide_eq_true hk])

theorem Bare.groupText?_filter {part : List Clause} {kind : Kind} (h : Bare part kind) :
    groupText? (part.filter hasValues) kind = none :=
  groupText?_eq_none_iff.2 (filter_hasValues_eq_nil_iff.2 h.2)

theorem Bare.exists_groupText? {part : List Clause} {kind : Kind} (h : Bare part kind) :
    ∃ text, groupText? part kind = some text ∧ 0 < Text.ink text := by
  refine ⟨_, if_neg (by simpa using h.1), ?_⟩
  rw [Text.ink_append, Text.ink_append]
  exact Nat.add_pos_left (Nat.add_pos_left kind.solid_keyword.ink_pos _) _

theorem join_eq_empty_iff {separator : String} {parts : List String} (h : "" ∉ parts) :
    Text.join separator parts = "" ↔ parts = [] := by
  cases parts with
  | nil => simp [Text.join]
  | cons part rest =>
    have hpart : part ≠ "" := fun he => h (by simp [he])
    cases rest with
    | nil => simpa [Text.join] using hpart
    | cons next rest => simp [Text.join_cons, String.append_eq_empty_iff, hpart]

theorem valueText_eq_empty_iff {kind : Kind} {group : List Clause} (hgroup : group ≠ [])
    (hvalued : kind.lastOnly → ∀ c ∈ group, c.values ≠ []) (hempty : ∀ c ∈ group, "" ∉ c.values) :
    valueText kind group = "" ↔ ∀ c ∈ group, c.values = [] := by
  rw [valueText]
  split
  · next hlast =>
    obtain ⟨front, c, rfl⟩ := (List.eq_nil_or_concat' group).resolve_left hgroup
    have hc : c.values ≠ [] := hvalued hlast c (by simp)
    have hmem := List.getLast_mem hc
    have hne : c.values.getLast hc ≠ "" := fun he => hempty c (by simp) (he ▸ hmem)
    rw [List.getLast?_concat, Option.bind_some, List.getLast?_eq_some_getLast hc, Option.getD_some]
    exact iff_of_false hne fun hall => hc (hall c (by simp))
  · rw [join_eq_empty_iff, List.flatMap_eq_nil_iff]
    simpa using hempty

/-- The keyword of a kind stands alone exactly if no clause of the kind has a value. -/
theorem groupText?_eq_keyword_iff {part : List Clause} (hvalued : ∀ c ∈ part, c.Valued)
    (hempty : ∀ c ∈ part, "" ∉ c.values) {kind : Kind} :
    groupText? part kind = some (kind.keyword ++ " ") ↔ Bare part kind := by
  by_cases hown : part.filter (·.kind = kind) = []
  · rw [groupText?_eq_none_iff.2 hown]
    simp [Bare, hown]
  · have hvalues : valueText kind (part.filter (·.kind = kind)) = "" ↔
        ∀ c ∈ part.filter (·.kind = kind), c.values = [] := by
      refine valueText_eq_empty_iff hown (fun hlast c hc => ?_) fun c hc => ?_
      · obtain ⟨hc, hk⟩ := List.mem_filter.1 hc
        exact hvalued c hc (by rwa [of_decide_eq_true hk])
      · exact hempty c (List.mem_filter.1 hc).1
    have hkeyword (t : String) : kind.keyword ++ " " ++ t = kind.keyword ++ " " ↔ t = "" := by
      rw [← String.toList_inj, ← String.toList_inj, String.toList_append]
      simp
    rw [groupText?, if_neg (by simpa using hown), Option.some_inj, hkeyword, hvalues, Bare]
    simp [hown]

theorem ink_partText (part : List Clause) : Text.ink (partText part) =
    (Kind.precedence.map fun kind => Text.ink ((groupText? part kind).getD "")).sum := by
  rw [partText, Text.ink_strip, Text.ink_join (by decide)]
  generalize Kind.precedence = kinds
  induction kinds with
  | nil => rfl
  | cons kind kinds ih =>
    cases h : groupText? part kind with
    | none => simp [h, ih]
    | some text => simp [h, ih]

theorem ink_groupText?_filter_le {part : List Clause} (hvalued : ∀ c ∈ part, c.Valued)
    (kind : Kind) : Text.ink ((groupText? (part.filter hasValues) kind).getD "") ≤
      Text.ink ((groupText? part kind).getD "") := by
  by_cases h : Bare part kind
  · simp [h.groupText?_filter]
  · rw [Clause.groupText?_filter hvalued h]

theorem ink_partText_filter_le {part : List Clause} (hvalued : ∀ c ∈ part, c.Valued) :
    Text.ink (partText (part.filter hasValues)) ≤ Text.ink (partText part) := by
  rw [ink_partText, ink_partText]
  exact List.sum_le_sum fun kind _ => ink_groupText?_filter_le hvalued kind

/-- A keyword that stands alone is ink that is missing without the clauses it stands for. -/
theorem Bare.ink_partText_filter_lt {part : List Clause} (hvalued : ∀ c ∈ part, c.Valued)
    {kind : Kind} (h : Bare part kind) :
    Text.ink (partText (part.filter hasValues)) < Text.ink (partText part) := by
  rw [ink_partText, ink_partText]
  refine List.sum_lt_sum _ _ (fun kind _ => ink_groupText?_filter_le hvalued kind)
    ⟨kind, kind.mem_precedence, ?_⟩
  obtain ⟨text, htext, hink⟩ := h.exists_groupText?
  simpa [h.groupText?_filter, htext] using hink

theorem sum_ink_filter_lt {runs : List (List Clause)} (hvalued : ∀ run ∈ runs, ∀ c ∈ run, c.Valued)
    {part : List Clause} (hpart : part ∈ runs) {kind : Kind} (h : Bare part kind) :
    (runs.map fun run => Text.ink (partText (run.filter hasValues))).sum <
      (runs.map fun run => Text.ink (partText run)).sum :=
  List.sum_lt_sum _ _ (fun run hrun => ink_partText_filter_le (hvalued run hrun))
    ⟨part, hpart, h.ink_partText_filter_lt (hvalued part hpart)⟩

theorem partText_filter {part : List Clause} (hvalued : ∀ c ∈ part, c.Valued)
    (h : ∀ kind, ¬ Bare part kind) : partText (part.filter hasValues) = partText part := by
  have hgroup : groupText? (part.filter hasValues) = groupText? part :=
    funext fun kind => Clause.groupText?_filter hvalued (h kind)
  rw [partText, partText, hgroup]

theorem filter_hasValues_ne_nil {part : List Clause} (hpart : part ≠ [])
    (h : ∀ kind, ¬ Bare part kind) : part.filter hasValues ≠ [] := by
  intro hnil
  obtain ⟨c, hc⟩ := List.exists_mem_of_ne_nil part hpart
  obtain ⟨kind, hkind⟩ := exists_bare_iff.2 ⟨c, hc, fun d hd _ => by
    simpa [hasValues] using List.filter_eq_nil_iff.1 hnil d hd⟩
  exact h kind hkind

end Clause

namespace Query

theorem runs_withValues (log : List (Option Clause)) :
    runs (withValues log) = (runs log).map (·.filter Clause.hasValues) := by
  induction log with
  | nil => rfl
  | cons entry log ih =>
    cases entry with
    | none => simpa [withValues, runs] using ih
    | some c =>
      obtain ⟨run, rest, hruns⟩ := List.exists_cons_of_ne_nil (runs_ne_nil log)
      by_cases hc : c.hasValues <;> simp_all [withValues, runs]

theorem ink_body (q : Query) :
    Text.ink q.body = ((runs q.log).map fun run => Text.ink (Clause.partText run)).sum := by
  rw [body, Text.ink_join (by decide), parts]
  generalize runs q.log = runs
  induction runs with
  | nil => rfl
  | cons run runs ih =>
    cases run with
    | nil => simpa [show Clause.partText [] = "" from rfl] using ih
    | cons c run => simpa using ih

theorem ink_text (q : Query) :
    Text.ink q.text = Text.ink (directed q.parser "") + Text.ink q.body := by
  rw [text, Text.ink_strip]
  cases q.parser with
  | none => simp [directed]
  | some p => by_cases hp : p = "" <;> simp [directed, hp]

/-- In some part some keyword has nothing behind it. -/
def HasBareKeyword (q : Query) : Prop :=
  ∃ part ∈ q.parts, ∃ kind : Clause.Kind,
    Clause.groupText? part kind = some (kind.keyword ++ " ")

/-- The query without the clauses that have no values. -/
def spoken (q : Query) : Query := ⟨q.parser, withValues q.log⟩

theorem runs_spoken (q : Query) :
    runs q.spoken.log = (runs q.log).map (·.filter Clause.hasValues) := runs_withValues q.log

section Spoken

variable {q : Query} (hvalued : ∀ c, some c ∈ q.log → c.Valued)

include hvalued

/-- Dropping clauses without values changes nothing where no keyword stands alone. -/
theorem text_spoken (h : ∀ part ∈ q.parts, ∀ kind, ¬ Clause.Bare part kind) :
    q.spoken.text = q.text := by
  have hparts : q.spoken.parts = q.parts.map (·.filter Clause.hasValues) := by
    rw [parts, runs_spoken, List.filter_map, parts]
    refine congrArg _ (List.filter_congr fun run hrun => ?_)
    cases run with
    | nil => rfl
    | cons c run =>
      have hmem : c :: run ∈ q.parts := List.mem_filter.2 ⟨hrun, rfl⟩
      simpa [List.isEmpty_iff] using
        Clause.filter_hasValues_ne_nil (List.cons_ne_nil c run) (h _ hmem)
  refine text_congr rfl ?_
  rw [body, body, hparts, List.map_map]
  refine congrArg _ (List.map_congr_left fun part hpart => ?_)
  exact Clause.partText_filter (fun c hc => hvalued c (mem_log_of_mem_parts hpart hc)) (h part hpart)

theorem ink_body_spoken_lt {part : List Clause} (hpart : part ∈ q.parts) {kind : Clause.Kind}
    (h : Clause.Bare part kind) : Text.ink q.spoken.body < Text.ink q.body := by
  have hruns : ∀ run ∈ runs q.log, ∀ c ∈ run, c.Valued := by
    intro run hrun c hc
    have hmem : run ∈ q.parts := List.mem_filter.2 ⟨hrun, by simp [List.ne_nil_of_mem hc]⟩
    exact hvalued c (mem_log_of_mem_parts hmem hc)
  have hmem : part ∈ runs q.log := (List.mem_filter.1 hpart).1
  have hsum := Clause.sum_ink_filter_lt hruns hmem h
  rw [ink_body, ink_body, runs_spoken, List.map_map, Function.comp_def]
  exact hsum

theorem text_spoken_ne {part : List Clause} (hpart : part ∈ q.parts) {kind : Clause.Kind}
    (h : Clause.Bare part kind) : q.spoken.text ≠ q.text := by
  intro heq
  have hbody := ink_body_spoken_lt hvalued hpart h
  have hink := congrArg Text.ink heq
  have hparser : q.spoken.parser = q.parser := rfl
  rw [ink_text, ink_text, hparser] at hink
  omega

end Spoken

theorem hasBareKeyword_iff {parser configured : Option String} {cs : List Call} {q : Query}
    (h : (Query.empty parser configured).calls cs = .ok q) :
    q.HasBareKeyword ↔ ∃ part ∈ q.parts, ∃ kind, Clause.Bare part kind := by
  simp only [HasBareKeyword]
  refine exists_congr fun part => and_congr_right fun hpart => exists_congr fun kind => ?_
  exact Clause.groupText?_eq_keyword_iff
    (fun c hc => valued_of_calls h (mem_log_of_mem_parts hpart hc))
    fun c hc => not_mem_values_of_calls h (mem_log_of_mem_parts hpart hc)

/-- Without the arguments that give no text the same calls build a query in which every keyword
has a value behind it. It reads like the one with them exactly if no keyword stands alone there,
which it does where all clauses of a kind in a part are made of mappings that give nothing. -/
theorem text_eq_pruned_iff {parser configured : Option String} {cs : List Call} {q : Query}
    (h : (Query.empty parser configured).calls cs = .ok q) :
    ∃ r, (Query.empty parser configured).calls (cs.map Call.pruned) = .ok r ∧
      r.log = withValues q.log ∧ ¬ r.HasBareKeyword ∧
      (q.text = r.text ↔ ¬ q.HasBareKeyword) ∧
      (q.HasBareKeyword ↔ ∃ part ∈ q.parts, ∃ c ∈ part,
        ∀ d ∈ part, d.kind = c.kind → d.values = []) := by
  have hpruned : (Query.empty parser configured).calls (cs.map Call.pruned) = .ok q.spoken :=
    calls_pruned_empty h
  have hvalued : ∀ c, some c ∈ q.log → c.Valued := fun c hc => valued_of_calls h hc
  have hbare := hasBareKeyword_iff h
  refine ⟨q.spoken, hpruned, rfl, ?_, ⟨fun htext hq => ?_, fun hq => ?_⟩, ?_⟩
  · rw [hasBareKeyword_iff hpruned]
    rintro ⟨part, hpart, hkind⟩
    obtain ⟨c, hc, hnone⟩ := Clause.exists_bare_iff.1 hkind
    have hvalues := hnone c hc rfl
    have hlog := List.mem_filter.1 (mem_log_of_mem_parts hpart hc)
    simp [Clause.hasValues, hvalues] at hlog
  · obtain ⟨part, hpart, kind, hkind⟩ := hbare.1 hq
    exact text_spoken_ne hvalued hpart hkind htext.symm
  · refine (text_spoken hvalued fun part hpart kind hkind => hq ?_).symm
    exact hbare.2 ⟨part, hpart, kind, hkind⟩
  · rw [hbare]
    exact exists_congr fun part => and_congr_right fun _ => Clause.exists_bare_iff

/-- A mapping that gives no condition, and an empty list of properties beside an item. -/
def hollowCondition : List Call :=
  [⟨.clause .pattern false, ⟨[.text "(n)"], []⟩⟩,
   ⟨.clause .condition false, ⟨[], [("n", .map [(.text "age", .map [])])]⟩⟩,
   ⟨.split, ⟨[], []⟩⟩,
   ⟨.clause .result false, ⟨[.text "", .text "n"], [("m", .list [])]⟩⟩]

def hollowConditionQuery : Query :=
  ⟨none, [some ⟨.pattern, ["(n)"]⟩, some ⟨.condition, []⟩, none, some ⟨.result, ["n"]⟩,
    some ⟨.result, []⟩]⟩

theorem hollowCondition_pruned :
    (Query.empty none none).calls hollowCondition = .ok hollowConditionQuery ∧
    hollowConditionQuery.text = "MATCH (n) WHERE RETURN n" ∧
    ∃ r, (Query.empty none none).calls (hollowCondition.map Call.pruned) = .ok r ∧
      hollowConditionQuery.text ≠ r.text ∧ ¬ r.HasBareKeyword := by
  have hcalls : (Query.empty none none).calls hollowCondition = .ok hollowConditionQuery := rfl
  obtain ⟨r, hr, -, hfull, htext, hbare⟩ := text_eq_pruned_iff hcalls
  refine ⟨hcalls, rfl, r, hr, fun heq => htext.1 heq (hbare.2 ?_), hfull⟩
  exact ⟨[⟨.pattern, ["(n)"]⟩, ⟨.condition, []⟩], by decide, ⟨.condition, []⟩, by decide, by decide⟩

theorem hollowCondition_hasBareKeyword :
    ∃ q, (Query.empty none none).calls hollowCondition = .ok q ∧ q.HasBareKeyword :=
  ⟨hollowConditionQuery, rfl, [⟨.pattern, ["(n)"]⟩, ⟨.condition, []⟩], by decide, .condition, rfl⟩

end Query
end GraphQuery
