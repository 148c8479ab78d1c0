import GraphQuery.Proofs.Block.Arena

/-!
# Walks along chains

The head of a path and the walk from there are found by following links until there is none, with
nothing to bound the number of steps. In the chains of a script links lead to segments of the
chain and always in one direction, backward or forward, so that they come to an end; and they do
so from every segment at the same head and along the same walk.
-/
namespace GraphQuery.Block

/-- Following links from an index meets the given indices, finds a segment at each of them, and
comes to an end. -/
inductive Chain.Visits (c : Chain) (link : Segment → Option Nat) : Nat → List Nat → Prop where
  | stop {i : Nat} {s : Segment} (found : c.segments[i]? = some s) (last : link s = none) :
      Visits c link i [i]
  | step {i j : Nat} {s : Segment} {visited : List Nat} (found : c.segments[i]? = some s)
      (linked : link s = some j) (rest : Visits c link j visited) : Visits c link i (i :: visited)

namespace Chain

variable {c : Chain}

/-- Links within a chain along which a number becomes smaller end, and the trail is what they
visit if it has as much fuel. -/
theorem visits_trail {link : Segment → Option Nat} (left : Nat → Nat)
    (hlink : ∀ i s j, c.segments[i]? = some s → link s = some j →
      j < c.segments.length ∧ left j < left i) {fuel i : Nat} (hi : i < c.segments.length)
    (hfuel : left i ≤ fuel) :
    c.Visits link i (trail (fun i => (c.segments[i]?).bind link) fuel i) := by
  obtain ⟨s, hs⟩ : ∃ s, c.segments[i]? = some s := ⟨_, List.getElem?_eq_getElem hi⟩
  induction fuel generalizing i s with
  | zero =>
    cases hj : link s with
    | none => exact .stop hs hj
    | some j =>
      have := (hlink i s j hs hj).2
      omega
  | succ fuel ih =>
    rw [trail]
    simp only [hs, Option.bind_some]
    cases hj : link s with
    | none => exact .stop hs hj
    | some j =>
      obtain ⟨hlt, hless⟩ := hlink i s j hs hj
      exact .step hs hj (ih hlt (by omega) _ (List.getElem?_eq_getElem hlt))

theorem prev_of_getElem? {i : Nat} {s : Segment} (h : c.segments[i]? = some s) :
    c.prev i = s.prev := by
  rw [prev, h, Option.bind_some]

theorem next_of_getElem? {i : Nat} {s : Segment} (h : c.segments[i]? = some s) :
    c.next i = s.next := by
  rw [next, h, Option.bind_some]

namespace Linked

theorem prev_eq_none_iff (h : c.Linked) {i : Nat} (hi : i < c.segments.length) :
    c.prev i = none ↔ i = 0 := by
  constructor
  · exact h.first i hi
  · rintro rfl
    exact h.prev_zero

/-- Of the links between two segments the one leads back where the other came from. -/
theorem of_next (h : c.Linked) {i n : Nat} (hn : c.next i = some n) :
    i < n ∧ n < c.segments.length ∧ c.prev n = some i := by
  have hback := ((h.next_iff i n).1 hn).1
  exact ⟨h.prev_lt n i hback, lt_of_prev hback, hback⟩

theorem visits_prev (h : c.Linked) {i : Nat} (hi : i < c.segments.length) :
    c.Visits (·.prev) i (trail c.prev c.segments.length i) := by
  refine visits_trail (fun i => i) (fun i s j hs hj => ?_) hi hi.le
  have hprev : c.prev i = some j := (prev_of_getElem? hs).trans hj
  have hlt := h.prev_lt i j hprev
  exact ⟨hlt.trans (lt_of_prev hprev), hlt⟩

theorem visits_next (h : c.Linked) {i : Nat} (hi : i < c.segments.length) :
    c.Visits (·.next) i (trail c.next c.segments.length i) := by
  refine visits_trail (fun i => c.segments.length - i) (fun i s j hs hj => ?_) hi
    (Nat.sub_le _ _)
  obtain ⟨hlt, hin, -⟩ := h.of_next ((next_of_getElem? hs).trans hj)
  exact ⟨hin, by omega⟩

theorem visits_walk (h : c.Linked) {i : Nat} (hi : i < c.segments.length) :
    c.Visits (·.next) (c.headOf i) (c.walk i) := by
  rw [h.headOf_eq_zero hi, h.walk_eq hi]
  exact h.visits_next h.nonempty

/-- Walks go forward only. -/
theorem pairwise_walk (h : c.Linked) (i : Nat) : (c.walk i).Pairwise (· < ·) := by
  have hchain := isChain_trail c.next c.segments.length (c.headOf i)
  rw [← List.isChain_iff_pairwise]
  exact hchain.imp fun a b hab => (h.of_next hab).1

end Linked
end Chain

/-- The chains of a script are linked in both directions. From every segment the links lead back
to the first one, and forward from there along one and the same walk, and both ways end. -/
theorem chains_walkable (script : List Step) (result : Term) (c : Chain)
    (hc : c ∈ (finish script result).chains) :
    (∀ i s, c.segments[i]? = some s →
      (∀ p, s.prev = some p → p < i) ∧
      (∀ n, s.next = some n → i < n ∧ ∃ t, c.segments[n]? = some t ∧ t.prev = some i) ∧
      (s.prev = none ↔ i = 0)) ∧
    ∀ i, i < c.segments.length →
      (∃ back, c.Visits (·.prev) i back ∧ back.getLast? = some (c.headOf i)) ∧
      c.headOf i = 0 ∧
      c.Visits (·.next) (c.headOf i) (c.walk i) ∧
      (c.walk i).Pairwise (· < ·) ∧
      c.walk i = c.walk 0 := by
  obtain ⟨ledger, harena, -⟩ := exists_arena_finish script result
  have h := harena.linked c hc
  constructor
  · intro i s hs
    obtain ⟨hi, -⟩ := List.getElem?_eq_some_iff.1 hs
    rw [← Chain.prev_of_getElem? hs, ← Chain.next_of_getElem? hs]
    refine ⟨h.prev_lt i, fun n hn => ?_, h.prev_eq_none_iff hi⟩
    obtain ⟨hlt, hin, hback⟩ := h.of_next hn
    obtain ⟨t, ht⟩ : ∃ t, c.segments[n]? = some t := ⟨_, List.getElem?_eq_getElem hin⟩
    exact ⟨hlt, t, ht, (Chain.prev_of_getElem? ht).symm.trans hback⟩
  · intro i hi
    refine ⟨⟨_, h.visits_prev hi, ?_⟩, h.headOf_eq_zero hi, h.visits_walk hi, h.pairwise_walk i, ?_⟩
    · rw [h.getLast?_trail_prev hi, h.headOf_eq_zero hi]
    · rw [h.walk_eq hi, h.walk_eq h.nonempty]

/-- A path that is left at its second segment and continued behind the one that came later. -/
def detour : List Step :=
  [⟨.node, none, [.value (.int 1)]⟩,
   ⟨.link ⟨true, .outgoing⟩, some 0, [.value (.text "a")]⟩,
   ⟨.link ⟨true, .outgoing⟩, some 1, [.value (.text "b")]⟩,
   ⟨.link ⟨true, .outgoing⟩, some 1, [.value (.text "c")]⟩,
   ⟨.link ⟨true, .incoming⟩, some 3, [.value (.text "d")]⟩]

/-- From the branch that was left the walk is that of the branch that was taken. -/
theorem detour_walk : ∃ c ∈ (finish detour (.value .null)).chains,
    c.walk 0 = [0, 2, 3] ∧ c.walk 1 = [0, 2, 3] ∧
      c.Visits (·.next) (c.headOf 1) [0, 2, 3] := by
  obtain ⟨-, hwalks⟩ := chains_walkable detour (.value .null)
    ((finish detour (.value .null)).chains.get ⟨0, by decide⟩) (List.get_mem _ _)
  obtain ⟨-, -, hvisits, -, hsame⟩ := hwalks 1 (by decide)
  have hfirst : ((finish detour (.value .null)).chains.get ⟨0, by decide⟩).walk 0 = [0, 2, 3] := by
    decide
  rw [hfirst] at hsame
  rw [hsame] at hvisits
  exact ⟨_, List.get_mem _ _, hfirst, hsame, hvisits⟩

end GraphQuery.Block
