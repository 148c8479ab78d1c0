import GraphQuery.Proofs.Clause.Leaves
import GraphQuery.Proofs.Decimal.Integer
import GraphQuery.Proofs.Value.Progression

/-!
# Listed numbers

A condition can ask of a key to be one of the numbers of a list: of none, or of those that a closed
range lists from its first number on, by its step, up to its last number, or down to it if the step
is negative. A progression that is asked of a key ends before its stop and becomes such a range,
which lists just the members of the progression.
-/
namespace GraphQuery

/-! ## Lists of numbers -/

namespace Clause

open Decimal (intText readInt? readInt?_intText)

inductive Listing where
  | nothing
  /-- The numbers from the first one on by the step, up or down to the last one. -/
  | closed (first last step : Int)

namespace Listing

def Lists : Listing → Int → Prop
  | .nothing, _ => False
  | .closed first last step, x =>
    ∃ i : Nat, x = first + i * step ∧ (0 < step ∧ x ≤ last ∨ step < 0 ∧ last ≤ x)

/-- What the arguments of a closed range say, up to the parenthesis behind them. Without a step it
is one. -/
def readBounds? (cs : List Char) : Option Listing := do
  let (first, cs) ← readInt? cs
  let (last, cs) ← readInt? (← cs.dropPrefix? [',', ' '])
  if cs = [')'] then some (.closed first last 1)
  else
    let (step, cs) ← readInt? (← cs.dropPrefix? [',', ' '])
    if cs = [')'] then some (.closed first last step) else none

/-- The list that a text says. -/
def read? (cs : List Char) : Option Listing :=
  if cs = ['[', ']'] then some .nothing
  else (cs.dropPrefix? "RANGE(".toList).bind readBounds?

theorem readBounds?_bounds (a b : Int) :
    readBounds? ((intText a).toList ++ ',' :: ' ' :: ((intText b).toList ++ [')'])) =
      some (.closed a b 1) := by
  simp [readBounds?, readInt?_intText a (c := ',') rfl, readInt?_intText b (c := ')') rfl,
    List.dropPrefix?]

theorem readBounds?_step (a b s : Int) :
    readBounds? ((intText a).toList ++ ',' :: ' ' :: ((intText b).toList ++
      ',' :: ' ' :: ((intText s).toList ++ [')']))) = some (.closed a b s) := by
  simp [readBounds?, readInt?_intText a (c := ',') rfl, readInt?_intText b (c := ',') rfl,
    readInt?_intText s (c := ')') rfl, List.dropPrefix?]

theorem read?_range (cs : List Char) : read? ("RANGE(".toList ++ cs) = readBounds? cs := by
  have hrange : "RANGE(".toList ++ cs ≠ ['[', ']'] := by simp
  rw [read?, if_neg hrange, List.dropPrefix?_append_of_beq cs (beq_self_eq_true _),
    Option.bind_some]

end Listing

/-- The list of which a condition asks the key to have a member for its value. -/
def listed? (key text : String) : Option Listing :=
  (text.toList.dropPrefix? (key ++ " IN ").toList).bind Listing.read?

/-- The list that the condition of a progression says. -/
def Listing.ofProgression (p : Progression) : Listing :=
  if p.isEmpty then .nothing else .closed p.start p.last p.step

theorem listed?_eq_read? {key text : String} {cs : List Char}
    (h : text.toList = (key ++ " IN ").toList ++ cs) : listed? key text = Listing.read? cs := by
  rw [listed?, h, List.dropPrefix?_append_of_beq cs (beq_self_eq_true _), Option.bind_some]

theorem listed?_rangeText (key : String) (p : Progression) :
    listed? key (rangeText key p) = some (.ofProgression p) := by
  rw [rangeText, Listing.ofProgression]
  split
  · have hchars : (key ++ " IN []").toList = (key ++ " IN ").toList ++ ['[', ']'] := by simp
    exact listed?_eq_read? hchars
  · split
    · next hstep =>
      have hbounds := Listing.readBounds?_bounds p.start p.last
      rw [← Listing.read?_range, ← hstep] at hbounds
      exact (listed?_eq_read? (by simp)).trans hbounds
    · have hbounds := Listing.readBounds?_step p.start p.last p.step
      rw [← Listing.read?_range] at hbounds
      exact (listed?_eq_read? (by simp)).trans hbounds

theorem Listing.lists_ofProgression {p : Progression} (hstep : p.step ≠ 0) (x : Int) :
    (Listing.ofProgression p).Lists x ↔ p.Contains x := by
  rw [Progression.contains_iff_lt_size]
  by_cases hempty : p.isEmpty = true
  · have hsize : p.size = 0 := by simpa [Progression.isEmpty] using hempty
    simp [ofProgression, hempty, Lists, hsize]
  · have hsize : p.size ≠ 0 := by simpa [Progression.isEmpty] using hempty
    rw [ofProgression, if_neg hempty, Lists]
    refine exists_congr fun i => and_congr_right fun hx => ?_
    -- `i` steps do not pass the last member exactly if there are no more of them than to it
    rw [hx, Progression.last]
    rcases Int.lt_or_gt_of_ne hstep with hneg | hpos
    · have hle := Int.mul_le_mul_right_of_neg (b := (p.size : Int) - 1) (c := i) hneg
      omega
    · have hle := Int.mul_le_mul_right (b := (i : Int)) (c := (p.size : Int) - 1) hpos
      omega

end Clause

/-- The text of every leaf that is a progression lists, for the key of the leaf, the members of the
progression and no other number. -/
def ListsMembers (entries : List (Value × Value)) (texts : List String) : Prop :=
  ∀ (i : Nat) (place : List Nat) (path : List Value) (p : Progression),
    (Value.map entries).leaves[i]? = some ⟨place, path, .range p⟩ → p.step ≠ 0 → ∃ text listing,
      texts[i]? = some text ∧ Clause.listed? (dotted path) text = some listing ∧
      ∀ x, (listing.Lists x ↔ x ∈ p.members) ∧ (x ∈ p.members ↔ p.Contains x)

theorem listsMembers (entries : List (Value × Value)) :
    ListsMembers entries ((Value.map entries).leaves.map Leaf.condition) := by
  intro i place path p hleaf hstep
  have htext : ((Value.map entries).leaves.map Leaf.condition)[i]? =
      some (Clause.rangeText (dotted path) p) := by
    rw [List.getElem?_map, hleaf, Clause.rangeText_eq_append]
    rfl
  refine ⟨_, _, htext, Clause.listed?_rangeText _ p,
    fun x => ⟨?_, Progression.mem_members_iff⟩⟩
  rw [Clause.Listing.lists_ofProgression hstep, Progression.mem_members_iff]

namespace Query

open Clause (given hasShape)

/-- A call of WHERE adds a clause for each mapping that it is given. Wherever such a mapping has a
progression for a leaf, the condition of that leaf lists the members of the progression. The call
fails if a number of such a list, or any other integer of a condition, has too many digits. -/
theorem where_lists_members (q : Query) {args : List Value} {named : List (String × Value)}
    (hself : "self" ∉ named.map Prod.fst)
    (hargs : ∀ v ∈ given (collect args named), hasShape .condition v) :
    ((∀ v ∈ given (collect args named), v.isAskable) →
      ∃ clauses, q.call (.clause .condition false) ⟨args, named⟩ =
          .ok (q.append (clauses.map some)) ∧
        List.Forall₂ (fun v c => ∀ entries, v = .map entries →
          c.kind = .condition ∧ ListsMembers entries c.values)
          (given (collect args named)) clauses) ∧
    ((∃ v ∈ given (collect args named), v.isAskable = false) →
      q.call (.clause .condition false) ⟨args, named⟩ = .error .tooManyDigits) := by
  refine ⟨fun haskable => ?_, call_condition_fails q hself hargs⟩
  obtain ⟨clauses, hcall, hmade⟩ := call_condition q hself hargs haskable
  refine ⟨clauses, hcall, hmade.imp fun v c hc entries hv => ?_⟩
  obtain ⟨-, rfl⟩ := hc entries hv
  exact ⟨rfl, listsMembers entries⟩

/-- A person whose age is asked by a progression that goes down and leaves its stop out, and whose
rank by one without members. -/
def counted : List (Value × Value) :=
  [(.text "name", .text "Ann"), (.text "age", .range ⟨10, 0, -3⟩), (.text "rank", .range ⟨4, 4, 1⟩)]

def countedClause : Clause :=
  ⟨.condition, ["n.name = \"Ann\"", "n.age IN RANGE(10, 1, -3)", "n.rank IN []"]⟩

theorem counted_listed : ∃ age rank,
    carried.call (.clause .condition false) ⟨[], [("n", .map counted)]⟩ =
      .ok (carried.append [some countedClause]) ∧
    Clause.listed? "n.age" "n.age IN RANGE(10, 1, -3)" = some age ∧ age.Lists 4 ∧ ¬ age.Lists 0 ∧
    Clause.listed? "n.rank" "n.rank IN []" = some rank ∧ ¬ rank.Lists 4 := by
  have hself : "self" ∉ [("n", Value.map counted)].map Prod.fst := by decide
  have hargs : ∀ v ∈ given (collect [] [("n", .map counted)]), hasShape .condition v :=
    List.all_eq_true.1 rfl
  have hmade : carried.call (.clause .condition false) ⟨[], [("n", .map counted)]⟩ =
    .ok (carried.append [some countedClause]) := rfl
  obtain ⟨clauses, hcall, hall⟩ :=
    (where_lists_members carried hself hargs).1 (List.all_eq_true.1 rfl)
  have hclauses : clauses = [countedClause] := by
    have hsame : carried.append (clauses.map some) = carried.append [some countedClause] :=
      Except.ok.inj (hcall.symm.trans hmade)
    have hentries : clauses.map some = [countedClause].map some := by simpa [append] using hsame
    exact (List.map_inj_right fun _ _ => Option.some.inj).1 hentries
  subst hclauses
  obtain ⟨-, hlists⟩ := (List.forall₂_cons.1 hall).1 _ rfl
  obtain ⟨text, age, htext, hage, hages⟩ :=
    hlists 1 [0, 1] [.text "n", .text "age"] ⟨10, 0, -3⟩ rfl (by decide)
  obtain rfl : _ = text := Option.some.inj htext
  obtain ⟨text, rank, htext, hrank, hranks⟩ :=
    hlists 2 [0, 2] [.text "n", .text "rank"] ⟨4, 4, 1⟩ rfl (by decide)
  obtain rfl : _ = text := Option.some.inj htext
  refine ⟨age, rank, hmade, hage, (hages 4).1.2 (by decide), fun h => ?_, hrank, fun h => ?_⟩
  · exact absurd ((hages 0).1.1 h) (by decide)
  · exact absurd ((hranks 4).1.1 h) (by decide)

end Query
end GraphQuery
