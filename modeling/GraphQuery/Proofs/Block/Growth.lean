import GraphQuery.Proofs.Block.Walk
import Mathlib.Data.List.Range

/-!
# Growth of chains

Every segment of a chain is made by a call on the path, and the segments stand in the order of
these calls, whichever segments they were made on. The style of a segment fits that of the segment
it extends. When every call was made on the segment of the call before it, the walk meets all
segments in the order of the calls.
-/
namespace GraphQuery.Block

/-! ## Calls on a path -/

/-- A call that made a segment: what it was made on, and what stands at the right of the segment. -/
structure PathCall where
  receiver : Operand
  link : Link
  right : Operand

/-- The index of a segment within its chain. -/
def Operand.index? : Operand → Option Nat
  | .fragment _ (.segment _ index) => some index
  | _ => none

/-- What binds a variable is no segment. -/
theorem Operand.index?_of_slot? {o : Operand} {slot : Nat} (h : o.slot? = some slot) :
    o.index? = none := by
  cases o with
  | fragment serial content =>
    cases content with
    | segment => cases h
    | _ => rfl
  | _ => rfl

/-- The call on a path of the given chain that a step is, if it makes a segment. -/
def Run.pathCall? (r : Run) (chain : Nat) (s : Step) : Option PathCall :=
  match s.verb, resolveItems r.results s.args, (r.outcome s).1 with
  | .link l, [right], .ok (.fragment _ (.segment made _)) =>
    if made = chain then some ⟨r.receiver s, l, right⟩ else none
  | _, _, _ => none

def pathCallsFrom (chain : Nat) : Run → List Step → List PathCall
  | _, [] => []
  | r, s :: script => (r.pathCall? chain s).toList ++ pathCallsFrom chain (r.step s) script

/-- The calls that made the segments of a chain, in order. -/
def pathCalls (chain : Nat) (script : List Step) : List PathCall :=
  pathCallsFrom chain Run.start script

/-- Every call was made on the segment that the call before it made. -/
def GrownAtEnd (calls : List PathCall) : Prop :=
  ∀ j call, calls[j + 1]? = some call → call.receiver.index? = some j

theorem pathCalls_snoc (chain : Nat) (script : List Step) (s : Step) :
    pathCalls chain (script ++ [s]) =
      pathCalls chain script ++ ((run script).pathCall? chain s).toList := by
  have hfrom (r : Run) : pathCallsFrom chain r (script ++ [s]) =
      pathCallsFrom chain r script ++ ((script.foldl Run.step r).pathCall? chain s).toList := by
    induction script generalizing r with
    | nil => simp [pathCallsFrom]
    | cons t script ih =>
      rw [List.cons_append, pathCallsFrom, ih, pathCallsFrom, List.append_assoc]
      rfl
  exact hfrom Run.start

/-! ## One call -/

/-- A segment of the one style can come behind a segment of the other. -/
def Style.Precedes (before behind : Style) : Prop := ∃ l : Link, l.after? before = some behind

/-- A segment says what the call that made it was asked for. -/
structure Segment.MadeBy (s : Segment) (call : PathCall) : Prop where
  direct : s.style = .hop ↔ call.link.direct = true
  direction : s.direction = call.link.direction
  right : s.right = call.right
  prev : s.prev = call.receiver.index?

/-- What a step does to the chains of a block. -/
inductive Growth (b : Block) (call? : Nat → Option PathCall) (b' : Block) : Prop where
  | keeps (none : ∀ chain, call? chain = none)
      (chains : ∀ (chain : Nat) (c : Chain), b'.chains[chain]? = some c →
        ∃ d, b.chains[chain]? = some d ∧ c.anchor = d.anchor ∧ c.segments = d.segments)
      (length : b'.chains.length = b.chains.length)
  | starts (call : PathCall) (slot : Nat) (s : Segment)
      (one : ∀ chain, call? chain = if b.chains.length = chain then some call else none)
      (receiver : call.receiver.slot? = some slot) (made : s.MadeBy call) (style : s.style ≠ .exit)
      (chains : b'.chains = b.chains ++ [Chain.mk slot [s] false])
  | continues (call : PathCall) (chain index : Nat) (c : Chain) (left s : Segment)
      (one : ∀ other, call? other = if chain = other then some call else none)
      (found : b.chains[chain]? = some c) (extended : c.segments[index]? = some left)
      (receiver : call.receiver.index? = some index) (made : s.MadeBy call)
      (follows : left.style.Precedes s.style)
      (chains : b'.chains = b.chains.modify chain (·.extend index s))

/-- A call on a path starts one, extends one, or fails. -/
theorem link_cases (l : Link) (receiver other : Operand) (b : Block) :
    (∃ slot, receiver.slot? = some slot ∧
      b.link l receiver other = b.startPath slot l.first l.direction other) ∨
    (∃ serial chain index c left style, receiver = .fragment serial (.segment chain index) ∧
      b.chains[chain]? = some c ∧ c.segments[index]? = some left ∧
      l.after? left.style = some style ∧ b.link l receiver other =
        b.extendPath receiver chain index c.segments.length style l.direction other) ∨
    ∃ fault, b.link l receiver other = b.fail fault := by
  rw [link.eq_def]
  split
  · exact .inl ⟨_, rfl, rfl⟩
  · exact .inl ⟨_, rfl, rfl⟩
  · split
    · exact .inr (.inr ⟨_, rfl⟩)
    · next c found =>
      split
      · next style hstyle =>
        obtain ⟨left, hleft, hafter⟩ := Option.bind_eq_some_iff.1 hstyle
        exact .inr (.inl ⟨_, _, _, c, left, style, rfl, found, hleft, hafter, rfl⟩)
      · exact .inr (.inr ⟨_, rfl⟩)
  · exact .inr (.inr ⟨_, rfl⟩)

theorem Link.first_hop_iff (l : Link) : l.first = .hop ↔ l.direct = true := by
  rw [first]
  split <;> simp_all

theorem Link.first_ne_exit (l : Link) : l.first ≠ .exit := by
  rw [first]
  split <;> simp

theorem Link.after?_hop_iff {l : Link} {before behind : Style} (h : l.after? before = some behind) :
    behind = .hop ↔ l.direct = true := by
  cases before with
  | hop =>
    cases h
    exact l.first_hop_iff
  | entry | exit =>
    rw [after?] at h
    split at h
    · cases h
    · cases h
      simp_all

namespace Run

variable {r : Run} {s : Step}

theorem pathCall?_of_error {fault : Fault} (h : (r.outcome s).1 = .error fault) (chain : Nat) :
    r.pathCall? chain s = none := by
  rw [pathCall?, h]
  split
  · next heq => cases heq
  · rfl

theorem pathCall?_of_link {l : Link} {other : Operand} (hv : s.verb = .link l)
    (hargs : resolveItems r.results s.args = [other]) {serial made index : Nat}
    (hok : (r.outcome s).1 = .ok (.fragment serial (.segment made index))) (chain : Nat) :
    r.pathCall? chain s = if made = chain then some ⟨r.receiver s, l, other⟩ else none := by
  simp only [pathCall?, hv, hargs, hok]

theorem pathCall?_of_ne (hv : ∀ l, s.verb ≠ .link l) (chain : Nat) :
    r.pathCall? chain s = none := by
  rw [pathCall?]
  split
  · next l _ _ _ _ hverb _ _ => exact absurd hverb (hv l)
  · rfl

/-- Calls that are no calls on paths make no segments. -/
theorem segments_of_ne (r : Run) (hv : ∀ l, s.verb ≠ .link l) :
    (∀ (chain : Nat) (c : Chain), (r.outcome s).2.chains[chain]? = some c → ∃ d,
      r.block.chains[chain]? = some d ∧ c.anchor = d.anchor ∧ c.segments = d.segments) ∧
    (r.outcome s).2.chains.length = r.block.chains.length := by
  have hsame {b' : Block} (h : b'.chains = r.block.chains) :
      (∀ (chain : Nat) (c : Chain), b'.chains[chain]? = some c → ∃ d,
        r.block.chains[chain]? = some d ∧ c.anchor = d.anchor ∧ c.segments = d.segments) ∧
      b'.chains.length = r.block.chains.length :=
    ⟨fun chain c hc => ⟨c, h ▸ hc, rfl, rfl⟩, congrArg List.length h⟩
  obtain ⟨contents, effect⟩ := r.outcome_effect s
  generalize r.outcome s = outcome at effect
  cases effect with
  | enter names unbound contents result plain known quiet => exact hsame (chains_registerAll _ _)
  | tag chain path asked given =>
    refine ⟨fun i c hc => ?_, by simp [Block.give]⟩
    obtain ⟨d, hd, rfl⟩ := getElem?_modify_chains hc
    exact ⟨d, hd, by split <;> rfl, by split <;> rfl⟩
  | start l slot style right asked => exact absurd asked (hv l)
  | extend l serial chain index c style right asked receiver found inside =>
    exact absurd asked (hv l)
  | compose left right operator asked givenLeft givenRight =>
    exact hsame (by simp [composed, Block.give, Block.absorb, register])
  | negate negation serial left right operator negated asked receiver =>
    exact hsame (by simp [Block.negate, Block.give, Block.absorb, register])

theorem step_growth (r : Run) (s : Step) :
    Growth r.block (fun chain => r.pathCall? chain s) (r.outcome s).2 := by
  by_cases hv : ∃ l, s.verb = .link l
  · obtain ⟨l, hv⟩ := hv
    have hfail (fault : Fault) (h : r.outcome s = r.block.fail fault) :
        Growth r.block (fun chain => r.pathCall? chain s) (r.outcome s).2 := by
      have herror : (r.outcome s).1 = .error fault := by
        rw [h]
        rfl
      refine .keeps (pathCall?_of_error herror) (fun chain c hc => ?_) ?_
      · rw [h] at hc
        exact ⟨c, hc, rfl, rfl⟩
      · rw [h]
        rfl
    rcases outcome_of_link hv with ⟨other, hargs, hcall⟩ | ⟨fault, h⟩
    · rcases link_cases l (r.receiver s) other r.block with
        ⟨slot, hslot, hlink⟩ | ⟨serial, chain, index, c, left, style, hr, hc, hleft, hafter, hlink⟩ |
          ⟨fault, hlink⟩
      · rw [hlink] at hcall
        rw [hcall]
        exact .starts ⟨r.receiver s, l, other⟩ slot _
          (pathCall?_of_link hv hargs (by rw [hcall]; rfl)) hslot
          ⟨l.first_hop_iff, rfl, rfl, (Operand.index?_of_slot? hslot).symm⟩ l.first_ne_exit rfl
      · rw [hlink] at hcall
        rw [hcall]
        exact .continues ⟨r.receiver s, l, other⟩ chain index c left _
          (pathCall?_of_link hv hargs (by rw [hcall]; rfl)) hc hleft (by rw [hr]; rfl)
          ⟨Link.after?_hop_iff hafter, rfl, rfl, by rw [hr]; rfl⟩ ⟨l, hafter⟩ rfl
      · exact hfail fault (hcall.trans hlink)
    · exact hfail fault h
  · have hne : ∀ l, s.verb ≠ .link l := fun l h => hv ⟨l, h⟩
    obtain ⟨hchains, hlength⟩ := segments_of_ne r hne
    exact .keeps (pathCall?_of_ne hne) hchains hlength

end Run

/-! ## All calls of a chain -/

theorem forall₂_modify_left {α β : Type} {R : α → β → Prop} {f : α → α}
    (hf : ∀ a b, R a b → R (f a) b) {l : List α} {m : List β} (h : List.Forall₂ R l m) (i : Nat) :
    List.Forall₂ R (l.modify i f) m := by
  induction h generalizing i with
  | nil => simp
  | @cons a b l m hab hlm ih =>
    cases i with
    | zero =>
      rw [List.modify_zero_cons]
      exact .cons (hf a b hab) hlm
    | succ i =>
      rw [List.modify_succ_cons]
      exact .cons hab (ih i)

namespace Chain

def style? (c : Chain) (i : Nat) : Option Style := (c.segments[i]?).map (·.style)

/-- A chain with the calls that made its segments. -/
structure Grown (c : Chain) (calls : List PathCall) : Prop where
  anchored : calls.head?.bind (·.receiver.slot?) = some c.anchor
  made : List.Forall₂ Segment.MadeBy c.segments calls
  first : c.style? 0 ≠ some .exit
  follows : ∀ i j, c.prev j = some i →
    ∃ before behind, c.style? i = some before ∧ c.style? j = some behind ∧ before.Precedes behind

variable {c d : Chain} {i : Nat} {s : Segment} {calls : List PathCall}

/-- An extension changes nothing of the segments before it but their links. -/
theorem map_segments_extend {α : Type} (g : Segment → α)
    (hg : ∀ (t : Segment) (n : Option Nat), g { t with next := n } = g t) (j : Nat) :
    ((c.extend i s).segments[j]?).map g =
      if j = c.segments.length then some (g s) else (c.segments[j]?).map g := by
  rw [extend, List.getElem?_append]
  simp only [List.length_modify]
  split
  · next hj =>
    rw [if_neg (by omega), List.getElem?_modify]
    cases c.segments[j]? with
    | none => rfl
    | some t => by_cases h : i = j <;> simp [h, hg]
  · next hj =>
    by_cases hj' : j = c.segments.length
    · simp [hj']
    · have hout : c.segments.length ≤ j := by omega
      rw [if_neg hj', List.getElem?_eq_none hout, List.getElem?_eq_none (by simp; omega)]

theorem style?_extend (j : Nat) : (c.extend i s).style? j =
    if j = c.segments.length then some s.style else c.style? j :=
  map_segments_extend _ (fun _ _ => rfl) j

theorem lt_of_style? {j : Nat} {style : Style} (h : c.style? j = some style) :
    j < c.segments.length := by
  obtain ⟨s, hs, -⟩ := Option.map_eq_some_iff.1 h
  exact (List.getElem?_eq_some_iff.1 hs).1

namespace Grown

theorem congr (h : d.Grown calls) (hanchor : c.anchor = d.anchor)
    (hsegments : c.segments = d.segments) : c.Grown calls := by
  obtain ⟨anchor, segments, shortest⟩ := c
  obtain ⟨anchor', segments', shortest'⟩ := d
  cases hanchor
  cases hsegments
  exact ⟨h.anchored, h.made, h.first, h.follows⟩

theorem single {call : PathCall} {slot : Nat} (hslot : call.receiver.slot? = some slot)
    (hmade : s.MadeBy call) (hstyle : s.style ≠ .exit) (hprev : s.prev = none) :
    (Chain.mk slot [s] false).Grown [call] where
  anchored := hslot
  made := .cons hmade .nil
  first := by simpa [style?] using hstyle
  follows := by
    intro i j hj
    cases j <;> simp [prev, hprev] at hj

theorem extend (h : c.Grown calls) {call : PathCall} {left : Segment}
    (hleft : c.segments[i]? = some left) (hmade : s.MadeBy call)
    (hreceiver : call.receiver.index? = some i) (hfollows : left.style.Precedes s.style) :
    (c.extend i s).Grown (calls ++ [call]) where
  anchored := by
    have hanchored := h.anchored
    cases calls with
    | nil => cases hanchored
    | cons first calls => exact hanchored
  made := by
    refine List.rel_append (forall₂_modify_left (fun t call ht => ?_) h.made i) (.cons hmade .nil)
    exact ⟨ht.direct, ht.direction, ht.right, ht.prev⟩
  first := by
    have hlt := (List.getElem?_eq_some_iff.1 hleft).1
    rw [style?_extend, if_neg (by omega)]
    exact h.first
  follows := by
    have hlt := (List.getElem?_eq_some_iff.1 hleft).1
    intro a j hj
    rw [prev_extend] at hj
    rw [style?_extend, style?_extend]
    split at hj
    · next hlast =>
      rw [hmade.prev, hreceiver] at hj
      cases hj
      refine ⟨left.style, s.style, ?_, if_pos hlast, hfollows⟩
      rw [if_neg (by omega), style?, hleft, Option.map_some]
    · next hne =>
      obtain ⟨before, behind, hbefore, hbehind, hprecedes⟩ := h.follows a j hj
      have := lt_of_style? hbefore
      exact ⟨before, behind, by rw [if_neg (by omega), hbefore], by rw [if_neg hne, hbehind],
        hprecedes⟩

/-- Grown at its end a chain has every segment linked to the one before it. -/
theorem prev_succ (h : c.Grown calls) (hend : GrownAtEnd calls) {j : Nat}
    (hj : j + 1 < c.segments.length) : c.prev (j + 1) = some j := by
  have hj' : j + 1 < calls.length := h.made.length_eq ▸ hj
  have hmade : (c.segments[j + 1]).MadeBy calls[j + 1] := h.made.get hj hj'
  rw [prev, List.getElem?_eq_getElem hj, Option.bind_some, hmade.prev]
  exact hend j _ (List.getElem?_eq_getElem hj')

end Grown

/-- The walk along a chain that was grown at its end meets all segments in order. -/
theorem walk_eq_range (h : c.Linked)
    (hprev : ∀ j, j + 1 < c.segments.length → c.prev (j + 1) = some j)
    (hi : i < c.segments.length) : c.walk i = List.range c.segments.length := by
  have hnext {j : Nat} (hj : j + 1 < c.segments.length) : c.next j = some (j + 1) := by
    refine (h.next_iff j (j + 1)).2 ⟨hprev j hj, fun k hk => ?_⟩
    cases k with
    | zero => exact Nat.zero_le _
    | succ k =>
      rw [hprev k (lt_of_prev hk)] at hk
      cases hk
      exact le_rfl
  rw [h.walk_eq hi]
  refine trail_eq ?_ ?_ (fun j hj => ?_) (by simp)
  · refine (List.isChain_range _ _).2 fun j hj => hnext (by omega)
  · simp [List.head?_range, h.nonempty.ne']
  · rw [List.getLast?_range] at hj
    cases hlast : c.next j with
    | none => rfl
    | some k =>
      obtain ⟨hlt, hin, -⟩ := h.of_next hlast
      simp only [h.nonempty.ne', if_false, Option.some.injEq] at hj
      omega

end Chain

/-! ## Runs -/

theorem run_grown (script : List Step) :
    (∀ (chain : Nat) (c : Chain), (run script).block.chains[chain]? = some c →
      c.Grown (pathCalls chain script)) ∧
    ∀ chain, (run script).block.chains.length ≤ chain → pathCalls chain script = [] := by
  induction script using List.reverseRecOn with
  | nil =>
    refine ⟨fun chain c hc => ?_, fun chain _ => rfl⟩
    simp [Run.start, Block.empty] at hc
  | append_singleton script s ih =>
    obtain ⟨hgrown, hnone⟩ := ih
    simp only [pathCalls_snoc, block_run_snoc]
    cases (run script).step_growth s with
    | keeps none chains length =>
      simp only [none, Option.toList_none, List.append_nil]
      refine ⟨fun chain c hc => ?_, fun chain hchain => hnone chain (length ▸ hchain)⟩
      obtain ⟨d, hd, hanchor, hsegments⟩ := chains chain c hc
      exact (hgrown chain d hd).congr hanchor hsegments
    | starts call slot t one receiver made style chains =>
      simp only [one, chains]
      refine ⟨fun chain c hc => ?_, fun chain hchain => ?_⟩
      · rw [List.getElem?_append] at hc
        split at hc
        · next hlt =>
          rw [if_neg (by omega), Option.toList_none, List.append_nil]
          exact hgrown chain c hc
        · next hge =>
          obtain rfl : (run script).block.chains.length = chain := by
            have := (List.getElem?_eq_some_iff.1 hc).1
            simp only [List.length_singleton] at this
            omega
          have hprev : t.prev = none := made.prev.trans (Operand.index?_of_slot? receiver)
          rw [List.mem_singleton.1 (List.mem_of_getElem? hc), if_pos rfl, hnone _ le_rfl]
          exact .single receiver made style hprev
      · simp only [List.length_append, List.length_singleton] at hchain
        rw [if_neg (by omega), Option.toList_none, List.append_nil]
        exact hnone chain (by omega)
    | continues call extended index d left t one found hleft receiver made follows chains =>
      simp only [one, chains]
      refine ⟨fun chain c hc => ?_, fun chain hchain => ?_⟩
      · obtain ⟨e, he, rfl⟩ := getElem?_modify_chains hc
        have hbefore := hgrown chain e he
        by_cases hchain : extended = chain
        · subst hchain
          rw [found] at he
          cases he
          rw [if_pos rfl, if_pos rfl]
          exact hbefore.extend hleft made receiver follows
        · rw [if_neg hchain, if_neg hchain, Option.toList_none, List.append_nil]
          exact hbefore
      · rw [List.length_modify] at hchain
        have := (List.getElem?_eq_some_iff.1 found).1
        rw [if_neg (by omega), Option.toList_none, List.append_nil]
        exact hnone chain hchain

end GraphQuery.Block
