import GraphQuery.Block.Chain
import Mathlib.Data.List.Chain
import Mathlib.Data.Nat.Find

/-!
# Linked chains

The segments of a chain form a tree: each is linked back to the segment that it extends, and
forward to the latest of those that extend it. Going back from any segment ends at the first one.
Going forward from there ends at one segment only, whichever the walk is asked for, so the walk is
the path to a segment exactly if no segment on that path was extended again off the path.
-/
namespace GraphQuery.Block

/-! ## Trails -/

section Trails

variable {link : Nat → Option Nat}

theorem isChain_trail (link : Nat → Option Nat) (fuel i : Nat) :
    (trail link fuel i).IsChain fun a b => link a = some b := by
  induction fuel generalizing i with
  | zero => exact List.isChain_singleton i
  | succ fuel ih =>
    rw [trail]
    split
    · next j hj =>
      refine List.isChain_cons.2 ⟨fun b hb => ?_, ih j⟩
      rw [head?_trail] at hb
      cases hb
      exact hj
    · exact List.isChain_singleton i

theorem length_trail_le (link : Nat → Option Nat) (fuel i : Nat) :
    (trail link fuel i).length ≤ fuel + 1 := by
  induction fuel generalizing i with
  | zero => simp [trail]
  | succ fuel ih =>
    rw [trail]
    split
    · next j _ =>
      have := ih j
      simp only [List.length_cons]
      omega
    · simp

/-- A list that follows the links to where they end is the trail. -/
theorem trail_eq {l : List Nat} (h : l.IsChain fun a b => link a = some b) {i : Nat}
    (hfirst : l.head? = some i) (hlast : ∀ j, l.getLast? = some j → link j = none) {fuel : Nat}
    (hfuel : l.length ≤ fuel + 1) : trail link fuel i = l := by
  induction fuel generalizing i l with
  | zero =>
    match l, hfirst, hfuel with
    | [j], hfirst, _ =>
      obtain rfl : j = i := by simpa using hfirst
      rfl
  | succ fuel ih =>
    match l, hfirst with
    | [j], hfirst =>
      obtain rfl : j = i := by simpa using hfirst
      rw [trail, hlast j rfl]
    | j :: k :: l, hfirst =>
      obtain rfl : j = i := by simpa using hfirst
      obtain ⟨hlink, hrest⟩ := List.isChain_cons_cons.1 h
      rw [trail, hlink]
      simp only
      rw [ih hrest rfl (fun m hm => hlast m (by simpa using hm)) (by simpa using hfuel)]

theorem le_of_mem_trail (h : ∀ a b, link a = some b → b < a) {fuel i j : Nat}
    (hj : j ∈ trail link fuel i) : j ≤ i := by
  induction fuel generalizing i with
  | zero =>
    rw [trail, List.mem_singleton] at hj
    omega
  | succ fuel ih =>
    rw [trail] at hj
    split at hj
    · next k hk =>
      rcases List.mem_cons.1 hj with rfl | hj
      · exact le_rfl
      · have := ih hj
        have := h _ _ hk
        omega
    · rw [List.mem_singleton] at hj
      omega

/-- Links to smaller indices end before the fuel does. -/
theorem link_getLast?_trail (h : ∀ a b, link a = some b → b < a) {fuel i : Nat} (hi : i ≤ fuel)
    {j : Nat} (hj : (trail link fuel i).getLast? = some j) : link j = none := by
  induction fuel generalizing i with
  | zero =>
    obtain rfl : i = j := by simpa [trail] using hj
    cases hlink : link i with
    | none => rfl
    | some b =>
      have := h _ _ hlink
      omega
  | succ fuel ih =>
    rw [trail] at hj
    split at hj
    · next k hk =>
      have hlt := h _ _ hk
      refine ih (by omega : k ≤ fuel) ?_
      cases htrail : trail link fuel k with
      | nil =>
        have := head?_trail link fuel k
        rw [htrail] at this
        cases this
      | cons m l =>
        rw [htrail, List.getLast?_cons_cons] at hj
        exact hj
    · next hnone =>
      cases hj
      exact hnone

end Trails

namespace Chain

/-- The indices from the first segment to the one at an index, each the one that the next
extends. -/
def pathTo (c : Chain) (i : Nat) : List Nat := (trail c.prev c.segments.length i).reverse

/-- The segment at an index is the last of those that extend the same segment. -/
def Latest (c : Chain) (j : Nat) : Prop :=
  ∀ p k, c.prev j = some p → c.prev k = some p → k ≤ j

/-- How the links of a chain are set. -/
structure Linked (c : Chain) : Prop where
  nonempty : 0 < c.segments.length
  prev_lt : ∀ j i, c.prev j = some i → i < j
  first : ∀ j, j < c.segments.length → c.prev j = none → j = 0
  next_iff : ∀ i k, c.next i = some k ↔
    c.prev k = some i ∧ ∀ j, c.prev j = some i → j ≤ k

theorem lt_of_prev {c : Chain} {i j : Nat} (h : c.prev j = some i) : j < c.segments.length := by
  obtain ⟨s, hs, -⟩ := Option.bind_eq_some_iff.1 h
  exact (List.getElem?_eq_some_iff.1 hs).1

namespace Linked

variable {c : Chain}

/-- A segment that another one extends is linked to a successor. -/
theorem exists_next (h : c.Linked) {i j : Nat} (hj : c.prev j = some i) :
    ∃ k, c.next i = some k := by
  have hle {k : Nat} (hk : c.prev k = some i) : k ≤ c.segments.length := (lt_of_prev hk).le
  refine ⟨Nat.findGreatest (fun k => c.prev k = some i) c.segments.length,
    (h.next_iff i _).2 ⟨?_, fun k hk => ?_⟩⟩
  · exact Nat.findGreatest_spec (P := fun k => c.prev k = some i) (hle hj) hj
  · exact Nat.le_findGreatest (P := fun k => c.prev k = some i) (hle hk) hk

theorem prev_zero (h : c.Linked) : c.prev 0 = none := by
  cases hp : c.prev 0 with
  | none => rfl
  | some i => exact absurd (h.prev_lt 0 i hp) (by omega)

/-- The segments of a chain have one head, the first one. -/
theorem getLast?_trail_prev (h : c.Linked) {i : Nat} (hi : i < c.segments.length) :
    (trail c.prev c.segments.length i).getLast? = some 0 := by
  cases hlast : (trail c.prev c.segments.length i).getLast? with
  | none =>
    have := head?_trail c.prev c.segments.length i
    rw [List.getLast?_eq_none_iff.1 hlast] at this
    cases this
  | some j =>
    have hle := le_of_mem_trail h.prev_lt (List.mem_of_getLast? hlast)
    have hend := link_getLast?_trail h.prev_lt hi.le hlast
    rw [h.first j (by omega) hend]

theorem headOf_eq_zero (h : c.Linked) {i : Nat} (hi : i < c.segments.length) :
    c.headOf i = 0 := by
  rw [headOf, List.getLastD_eq_getLast?, h.getLast?_trail_prev hi]
  rfl

/-- The walk is one and the same for all segments of a chain. -/
theorem walk_eq (h : c.Linked) {i : Nat} (hi : i < c.segments.length) :
    c.walk i = trail c.next c.segments.length 0 := by
  rw [walk, h.headOf_eq_zero hi]

theorem head?_pathTo (h : c.Linked) {i : Nat} (hi : i < c.segments.length) :
    (c.pathTo i).head? = some 0 := by
  rw [pathTo, List.head?_reverse, h.getLast?_trail_prev hi]

end Linked

theorem getLast?_pathTo (c : Chain) (i : Nat) : (c.pathTo i).getLast? = some i := by
  rw [pathTo, List.getLast?_reverse, head?_trail]

theorem isChain_pathTo (c : Chain) (i : Nat) :
    (c.pathTo i).IsChain fun a b => c.prev b = some a :=
  List.isChain_reverse.2 (isChain_trail c.prev _ i)

/-- On a path every segment but the first stands behind the one that it extends. -/
theorem eq_append_of_mem_pathTo {c : Chain} (h : c.Linked) {i j p : Nat}
    (hi : i < c.segments.length) (hj : j ∈ c.pathTo i) (hp : c.prev j = some p) :
    ∃ before behind, c.pathTo i = before ++ p :: j :: behind := by
  obtain ⟨before, behind, hpath⟩ := List.append_of_mem hj
  have hchain := c.isChain_pathTo i
  rw [hpath] at hchain
  rcases List.eq_nil_or_concat before with rfl | ⟨front, q, rfl⟩
  · have hfirst := h.head?_pathTo hi
    rw [hpath] at hfirst
    cases hfirst
    rw [h.prev_zero] at hp
    cases hp
  · rw [List.concat_append] at hchain hpath
    have hq : c.prev j = some q := (List.isChain_append_cons_cons.1 hchain).2.1
    have hpq : q = p := by
      rw [hp] at hq
      exact (Option.some.inj hq).symm
    exact ⟨front, behind, by rw [hpath, hpq]⟩

/-- The walk from a segment that is not extended is the path to it exactly if every segment on
the path is the latest of those that extend the same one. -/
theorem walk_eq_pathTo_iff {c : Chain} (h : c.Linked) {i : Nat} (hi : i < c.segments.length)
    (hend : c.next i = none) : c.walk i = c.pathTo i ↔ ∀ j ∈ c.pathTo i, c.Latest j := by
  constructor
  · intro hwalk j hj p k hp hk
    obtain ⟨before, behind, hpath⟩ := eq_append_of_mem_pathTo h hi hj hp
    have hchain := isChain_trail c.next c.segments.length (c.headOf i)
    rw [← walk, hwalk, hpath] at hchain
    have hnext : c.next p = some j := (List.isChain_append_cons_cons.1 hchain).2.1
    exact ((h.next_iff p j).1 hnext).2 k hk
  · intro hlatest
    rw [h.walk_eq hi]
    refine trail_eq ?_ (h.head?_pathTo hi) (fun j hj => ?_) ?_
    · refine (c.isChain_pathTo i).imp_of_mem_imp fun a b _ hb hab => ?_
      exact (h.next_iff a b).2 ⟨hab, fun j hj => hlatest b hb a j hab hj⟩
    · rw [getLast?_pathTo] at hj
      cases hj
      exact hend
    · rw [pathTo, List.length_reverse]
      exact length_trail_le _ _ _

/-! ## Making chains longer -/

section Extension

variable {c : Chain} {i : Nat} {s : Segment}

theorem length_extend : (c.extend i s).segments.length = c.segments.length + 1 := by
  simp [extend]

theorem prev_extend (j : Nat) :
    (c.extend i s).prev j = if j = c.segments.length then s.prev else c.prev j := by
  rw [prev, extend, List.getElem?_append]
  simp only [List.length_modify]
  split
  · next hj =>
    rw [if_neg (by omega), prev, List.getElem?_modify]
    cases c.segments[j]? with
    | none => rfl
    | some t => by_cases h : i = j <;> simp [h]
  · next hj =>
    by_cases hj' : j = c.segments.length
    · simp [hj']
    · have hout : c.segments.length ≤ j := by omega
      rw [if_neg hj', prev, List.getElem?_eq_none hout, List.getElem?_eq_none (by simp; omega)]

theorem next_extend (hi : i < c.segments.length) (j : Nat) :
    (c.extend i s).next j = if j = c.segments.length then s.next
      else if j = i then some c.segments.length else c.next j := by
  rw [next, extend, List.getElem?_append]
  simp only [List.length_modify]
  split
  · next hj =>
    rw [if_neg (by omega), next, List.getElem?_modify]
    obtain ⟨t, ht⟩ : ∃ t, c.segments[j]? = some t := ⟨_, List.getElem?_eq_getElem hj⟩
    rw [ht]
    by_cases h : i = j
    · simp [h]
    · simp [h, Ne.symm h]
  · next hj =>
    by_cases hj' : j = c.segments.length
    · simp [hj']
    · have hout : c.segments.length ≤ j := by omega
      rw [if_neg hj', if_neg (by omega), next, List.getElem?_eq_none hout,
        List.getElem?_eq_none (by simp; omega)]

theorem Linked.extend (h : c.Linked) (hi : i < c.segments.length) (hp : s.prev = some i)
    (hn : s.next = none) : (c.extend i s).Linked where
  nonempty := by
    rw [length_extend]
    omega
  prev_lt := by
    intro j k hk
    rw [prev_extend] at hk
    split at hk
    · rw [hp] at hk
      cases hk
      omega
    · exact h.prev_lt j k hk
  first := by
    intro j hj hnone
    rw [prev_extend] at hnone
    rw [length_extend] at hj
    split at hnone
    · rw [hp] at hnone
      cases hnone
    · exact h.first j (by omega) hnone
  next_iff := by
    intro a k
    have hback (j : Nat) : (c.extend i s).prev j = some a ↔
        j = c.segments.length ∧ i = a ∨ c.prev j = some a := by
      rw [prev_extend, hp]
      by_cases hj : j = c.segments.length
      · have hnone : c.prev j ≠ some a := fun hja => by
          have := lt_of_prev hja
          omega
        subst hj
        simp [hnone]
      · simp [hj]
    rw [next_extend hi, hn]
    simp only [hback]
    split
    · next ha =>
      -- nothing extends the new segment yet
      constructor
      · intro hk
        cases hk
      · rintro ⟨⟨-, hia⟩ | hk, -⟩
        · omega
        · have := h.prev_lt k a hk
          have := lt_of_prev hk
          omega
    · split
      · next hne hai =>
        subst hai
        constructor
        · intro hk
          cases hk
          refine ⟨.inl ⟨rfl, rfl⟩, ?_⟩
          rintro j (⟨rfl, -⟩ | hj)
          · exact le_rfl
          · exact (lt_of_prev hj).le
        · rintro ⟨⟨rfl, -⟩ | hk, hall⟩
          · rfl
          · have := hall c.segments.length (.inl ⟨rfl, rfl⟩)
            have := lt_of_prev hk
            omega
      · next hne hai =>
        rw [h.next_iff]
        have hia : i ≠ a := fun hia => hai hia.symm
        simp [hia]

theorem Linked.single (anchor : Nat) (shortest : Bool) (hp : s.prev = none) (hn : s.next = none) :
    (Chain.mk anchor [s] shortest).Linked := by
  have hprev (j : Nat) : (Chain.mk anchor [s] shortest).prev j = none := by
    cases j <;> simp [prev, hp]
  have hnext (j : Nat) : (Chain.mk anchor [s] shortest).next j = none := by
    cases j <;> simp [next, hn]
  refine ⟨by simp, by simp [hprev], fun j hj _ => ?_, by simp [hprev, hnext]⟩
  simpa using hj

end Extension
end Chain
end GraphQuery.Block
