import GraphQuery.Proofs.Query.Calls
import Mathlib.Data.List.SplitBy

/-!
# Sorted parts

The text of a query, said without the scan over the kinds: split the log at its breaks, sort every
part stably by the ranks of the kinds, cut it where the kind changes and write each group under
the keyword of its kind. Nothing is lost or written twice on the way.
-/
namespace GraphQuery

namespace Clause

/-! ## The sorted form of a part -/

/-- The place of a kind among all kinds. -/
def Kind.rank (kind : Kind) : Nat := Kind.precedence.idxOf kind

def ranksBefore (c d : Clause) : Bool := decide (c.kind.rank ≤ d.kind.rank)

/-- The clauses by the ranks of their kinds, those of one kind in the order in which they came. -/
def sorted (part : List Clause) : List Clause := part.mergeSort ranksBefore

/-- The sorted clauses, cut where the kind changes. -/
def groups (part : List Clause) : List (List Clause) :=
  (sorted part).splitBy fun c d => decide (c.kind = d.kind)

/-- The keyword of a group and all its values, or only the last one of a limit or skip. -/
def groupText : List Clause → String
  | [] => ""
  | c :: group =>
    let values := (c :: group).flatMap (·.values)
    c.kind.keyword ++ " " ++
      (if c.kind.lastOnly then values.getLast?.getD "" else Text.join c.kind.separator values)

def sortedText (part : List Clause) : String :=
  Text.strip (Text.join " " ((groups part).map groupText))

/-! ## Sorting by kind -/

theorem Kind.precedence_pairwise : Kind.precedence.Pairwise fun k l => k.rank < l.rank := by
  decide

/-- When those with a property come first, they are cut off by it. -/
theorem eq_filter_append {p : Clause → Bool} {l : List Clause}
    (h : l.Pairwise fun c d => p d → p c) :
    l = l.filter p ++ l.filter fun c => !p c := by
  induction l with
  | nil => rfl
  | cons c l ih =>
    rw [List.pairwise_cons] at h
    by_cases hc : p c = true
    · rw [List.filter_cons_of_pos hc, List.filter_cons_of_neg (by simp [hc]), List.cons_append,
        ← ih h.2]
    · have hrest : ∀ d ∈ l, p d = false := by
        intro d hd
        by_contra hp
        exact hc (h.1 d hd (by simpa using hp))
      rw [List.filter_cons_of_neg hc, List.filter_cons_of_pos (by simpa using hc),
        List.filter_eq_nil_iff.2 (by simpa using hrest),
        List.filter_eq_self.2 (by simpa using hrest), List.nil_append]

/-- Clauses in the order of their ranks are the groups of their kinds, one behind the other. -/
theorem eq_flatMap_filter {kinds : List Kind} (hkinds : kinds.Pairwise fun k l => k.rank < l.rank)
    {l : List Clause} (hmem : ∀ c ∈ l, c.kind ∈ kinds)
    (hl : l.Pairwise fun c d => c.kind.rank ≤ d.kind.rank) :
    l = kinds.flatMap fun kind => l.filter (·.kind = kind) := by
  induction kinds generalizing l with
  | nil =>
    exact List.eq_nil_iff_forall_not_mem.2 fun c hc => List.not_mem_nil (hmem c hc)
  | cons kind kinds ih =>
    rw [List.pairwise_cons] at hkinds
    have hsplit : l = l.filter (·.kind = kind) ++ l.filter fun c => !decide (c.kind = kind) := by
      refine eq_filter_append (hl.imp_of_mem fun {c d} hc hd hle hdk => ?_)
      simp only [decide_eq_true_eq] at hdk ⊢
      -- no kind ranks below the first of the list
      rcases List.mem_cons.1 (hmem c hc) with hck | hck
      · exact hck
      · have hlt := hkinds.1 _ hck
        rw [hdk] at hle
        omega
    have hrest := ih hkinds.2 (l := l.filter fun c => !decide (c.kind = kind))
      (fun c hc => ?_) (hl.filter _)
    · conv_lhs => rw [hsplit, hrest]
      rw [List.flatMap_cons]
      congr 1
      refine List.flatMap_congr fun k hk => ?_
      rw [List.filter_filter]
      refine List.filter_congr fun c _ => ?_
      have hne : k ≠ kind := by
        rintro rfl
        exact absurd (hkinds.1 k hk) (by omega)
      by_cases hck : c.kind = k <;> simp [hck, hne]
    · obtain ⟨hc, hne⟩ := List.mem_filter.1 hc
      rcases List.mem_cons.1 (hmem c hc) with hck | hck
      · simp [hck] at hne
      · exact hck

theorem ranksBefore_trans (c d e : Clause) (hcd : ranksBefore c d) (hde : ranksBefore d e) :
    ranksBefore c e := by
  simp only [ranksBefore, decide_eq_true_eq] at *
  omega

theorem ranksBefore_total (c d : Clause) : (ranksBefore c d || ranksBefore d c) = true := by
  simp only [ranksBefore, Bool.or_eq_true, decide_eq_true_eq]
  omega

theorem pairwise_sorted (part : List Clause) :
    (sorted part).Pairwise fun c d => c.kind.rank ≤ d.kind.rank :=
  (List.pairwise_mergeSort ranksBefore_trans ranksBefore_total part).imp of_decide_eq_true

/-- Sorting is stable. -/
theorem filter_sorted (part : List Clause) (kind : Kind) :
    (sorted part).filter (·.kind = kind) = part.filter (·.kind = kind) := by
  have hequal : (part.filter (·.kind = kind)).Pairwise fun c d => ranksBefore c d = true := by
    rw [List.pairwise_filter]
    refine List.pairwise_of_forall fun c d hc hd => ?_
    simp only [decide_eq_true_eq] at hc hd
    simp [ranksBefore, hc, hd]
  have hsub : (part.filter (·.kind = kind)).Sublist (sorted part) :=
    List.sublist_mergeSort ranksBefore_trans ranksBefore_total hequal List.filter_sublist
  have hkept := hsub.filter fun c => decide (c.kind = kind)
  simp only [List.filter_filter, Bool.and_self] at hkept
  have hlength := ((List.mergeSort_perm part ranksBefore).filter
    fun c => decide (c.kind = kind)).length_eq
  exact (hkept.eq_of_length hlength.symm).symm

theorem sorted_eq (part : List Clause) :
    sorted part = Kind.precedence.flatMap fun kind => part.filter (·.kind = kind) := by
  have h := eq_flatMap_filter Kind.precedence_pairwise (fun c _ => c.kind.mem_precedence)
    (pairwise_sorted part)
  simpa only [filter_sorted] using h

/-- The groups are those of the kinds that are present. -/
theorem groups_eq (part : List Clause) : groups part =
    (Kind.precedence.map fun kind => part.filter (·.kind = kind)).filter (!·.isEmpty) := by
  set own := fun kind : Kind => part.filter (·.kind = kind)
  have hkind {c : Clause} {kind : Kind} (hc : c ∈ own kind) : c.kind = kind := by
    simpa using (List.mem_filter.1 hc).2
  refine List.splitBy_eq_iff.2 ⟨?_, by simp, ?_, ?_⟩
  · rw [sorted_eq, List.flatten_filter_not_isEmpty, List.flatMap_def]
  · intro group hgroup
    obtain ⟨kind, -, rfl⟩ := List.mem_map.1 (List.mem_filter.1 hgroup).1
    refine List.Pairwise.isChain (List.Pairwise.imp_of_mem (fun hc hd _ => ?_)
      (List.pairwise_of_forall (R := fun _ _ => True) fun _ _ => trivial))
    simp [hkind hc, hkind hd]
  · -- groups of different kinds, of which none is empty, do not run together
    refine List.Pairwise.isChain ?_
    rw [List.pairwise_filter, List.pairwise_map]
    refine Kind.precedence_pairwise.imp fun {k l} hkl hk hl => ?_
    have hk' : own k ≠ [] := by simpa using hk
    have hl' : own l ≠ [] := by simpa using hl
    refine ⟨hk', hl', ?_⟩
    rw [decide_eq_false_iff_not, hkind (List.getLast_mem hk'), hkind (List.head_mem hl')]
    rintro rfl
    exact absurd hkl (by omega)

/-! ## The text of a part -/

/-- The last value of a group is the last one of its last clause. -/
theorem getLast?_flatMap_values {group : List Clause} (h : ∀ c ∈ group, c.values ≠ []) :
    (group.flatMap (·.values)).getLast? = group.getLast?.bind (·.values.getLast?) := by
  rcases List.eq_nil_or_concat' group with rfl | ⟨front, c, rfl⟩
  · rfl
  · have hc := h c (by simp)
    rw [List.flatMap_append, List.getLast?_append, List.flatMap_singleton, List.getLast?_concat,
      Option.bind_some, List.getLast?_eq_some_getLast hc, Option.some_or]

theorem groupText_filter {part : List Clause} (hvalued : ∀ c ∈ part, c.Valued) (kind : Kind)
    (h : part.filter (·.kind = kind) ≠ []) :
    groupText? part kind = some (groupText (part.filter (·.kind = kind))) := by
  have hmem {c : Clause} (hc : c ∈ part.filter (·.kind = kind)) : c.kind = kind ∧ c.Valued := by
    obtain ⟨hc, hk⟩ := List.mem_filter.1 hc
    exact ⟨by simpa using hk, hvalued c hc⟩
  rw [groupText?, if_neg (by simpa using h)]
  obtain ⟨c, group, hgroup⟩ := List.exists_cons_of_ne_nil h
  rw [hgroup] at hmem ⊢
  rw [groupText, (hmem (List.mem_cons_self)).1, valueText]
  split
  · next hlast =>
    rw [getLast?_flatMap_values fun d hd => (hmem hd).2 (by rw [(hmem hd).1, hlast])]
  · rfl

/-- A part is written in its sorted form. -/
theorem partText_eq_sortedText {part : List Clause} (h : ∀ c ∈ part, c.Valued) :
    partText part = sortedText part := by
  have htexts (kinds : List Kind) : kinds.filterMap (groupText? part) =
      ((kinds.map fun kind => part.filter (·.kind = kind)).filter (!·.isEmpty)).map groupText := by
    induction kinds with
    | nil => rfl
    | cons kind kinds ih =>
      by_cases hkind : part.filter (·.kind = kind) = []
      · rw [List.filterMap_cons_none (groupText?_eq_none_iff.2 hkind), ih, List.map_cons,
          List.filter_cons_of_neg (by simp [hkind])]
      · rw [List.filterMap_cons_some (groupText_filter h kind hkind), ih, List.map_cons,
          List.filter_cons_of_pos (by simpa using hkind), List.map_cons]
  rw [partText, sortedText, groups_eq, htexts]

end Clause

namespace Query

/-! ## The text of a query -/

theorem valued_of_calls {parser : Option String} {cs : List Call} {q : Query}
    (h : (Query.mk parser []).calls cs = .ok q) {c : Clause} (hc : some c ∈ q.log) : c.Valued := by
  rw [log_of_calls h] at hc
  obtain ⟨call, -, hc⟩ := List.mem_flatMap.1 (by simpa [append] using hc)
  exact call.valued_of_mem_log hc

theorem mem_log_of_mem_parts {q : Query} {part : List Clause} (hpart : part ∈ q.parts) {c : Clause}
    (hc : c ∈ part) : some c ∈ q.log := by
  have hmem : c ∈ q.parts.flatten := List.mem_flatten.2 ⟨part, hpart, hc⟩
  rw [flatten_parts] at hmem
  simpa [List.reduceOption] using hmem

/-- The parts of a query are what stands between its breaks, and hold every clause once and in
order. Its text is that of its parts in their sorted forms, with single spaces between them, and
with the directive in front if there is one. -/
theorem text_eq_sorted {parser configured : Option String} {cs : List Call} {q : Query}
    (h : (Query.empty parser configured).calls cs = .ok q) :
    q.parts = ((q.log.splitOn none).map List.reduceOption).filter (!·.isEmpty) ∧
    q.parts.flatten = q.log.reduceOption ∧
    (∀ c, some c ∈ q.log → c.kind.lastOnly → c.values ≠ []) ∧
    q.bare.text = Text.join " " (q.parts.map Clause.sortedText) ∧
    q.text = Text.strip (directed q.parser (Text.join " " (q.parts.map Clause.sortedText))) := by
  have hbody : q.body = Text.join " " (q.parts.map Clause.sortedText) := by
    rw [body]
    congr 1
    refine List.map_congr_left fun part hpart => Clause.partText_eq_sortedText fun c hc => ?_
    exact valued_of_calls h (mem_log_of_mem_parts hpart hc)
  refine ⟨?_, flatten_parts q, fun c hc => valued_of_calls h hc, ?_, ?_⟩
  · rw [parts, runs_eq_splitOn]
  · rw [text_bare, hbody]
  · rw [text, hbody]

/-- Clauses of several kinds out of order, two limits among them, and another part. -/
def scattered : List Call :=
  [⟨.clause .limit false, ⟨[.int 3], []⟩⟩,
   ⟨.clause .result false, ⟨[.text "n"], []⟩⟩,
   ⟨.clause .pattern false, ⟨[.text "(n)"], []⟩⟩,
   ⟨.clause .limit false, ⟨[.int 5], []⟩⟩,
   ⟨.clause .pattern false, ⟨[.list [.text "(m)"]], []⟩⟩,
   ⟨.split, ⟨[], []⟩⟩,
   ⟨.clause .deletion false, ⟨[.text "n"], []⟩⟩]

def scatteredQuery : Query :=
  ⟨none, [some ⟨.limit, ["3"]⟩, some ⟨.result, ["n"]⟩, some ⟨.pattern, ["(n)"]⟩,
    some ⟨.limit, ["5"]⟩, some ⟨.pattern, ["(m)"]⟩, none, some ⟨.deletion, ["n"]⟩]⟩

theorem scattered_sorted : (Query.empty none none).calls scattered = .ok scatteredQuery ∧
    Text.join " " (scatteredQuery.parts.map Clause.sortedText) =
      "MATCH (n), (m) RETURN n LIMIT 5 DELETE n" := by
  have hcalls : (Query.empty none none).calls scattered = .ok scatteredQuery := rfl
  refine ⟨hcalls, ?_⟩
  rw [← (text_eq_sorted hcalls).2.2.2.1]
  rfl

end Query
end GraphQuery
