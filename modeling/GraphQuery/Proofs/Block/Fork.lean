import GraphQuery.Proofs.Block.Arena

/-!
# Forks

Every registered segment ought to be written as the path that leads to it. A segment can be
extended again after another one has come behind it, and then the chain forks: the walk follows
the latest branch for the segments of all branches. The paths are right exactly as long as no
registered segment lies on a branch that was left.
-/
namespace GraphQuery.Block

/-- Every registered segment is written as the path to it, and is the only one of its chain. -/
def PathsLead (b : Block) : Prop :=
  ∀ f ∈ b.registry, ∀ chain index : Nat, f.content = .segment chain index →
    ∃ c : Chain, b.chains[chain]? = some c ∧ c.walk index = c.pathTo index ∧
      ∀ g ∈ b.registry, ∀ other : Nat, g.content = .segment chain other → g = f

/-- On the path to a registered segment every segment is the latest of those that extend the same
one. -/
def Unforked (b : Block) : Prop :=
  ∀ f ∈ b.registry, ∀ (chain index : Nat) (c : Chain), f.content = .segment chain index →
    b.chains[chain]? = some c → ∀ j ∈ c.pathTo index, c.Latest j

section Paths

variable {ledger : List Content} {b : Block}

theorem PathsLead.unforked (h : Arena ledger b) (ha : Accounts ledger b) (hp : PathsLead b) :
    Unforked b := by
  intro f hf chain index c hcontent hc
  obtain ⟨d, hd, hwalk, -⟩ := hp f hf chain index hcontent
  obtain rfl : c = d := by
    rw [hc] at hd
    exact Option.some.inj hd
  obtain ⟨e, he, hindex⟩ := h.inside f.serial chain index (hcontent ▸ ha.content f hf)
  rw [hc] at he
  cases he
  have hlinked := h.linked c (List.mem_of_getElem? hc)
  exact (Chain.walk_eq_pathTo_iff hlinked hindex (h.ends f hf chain index c hcontent hc)).1 hwalk

theorem Unforked.pathsLead (h : Arena ledger b) (ha : Accounts ledger b) (hu : Unforked b) :
    PathsLead b := by
  have hwalk {f : Fragment Content} (hf : f ∈ b.registry) {chain index : Nat} {c : Chain}
      (hcontent : f.content = .segment chain index) (hc : b.chains[chain]? = some c)
      (hindex : index < c.segments.length) : c.walk index = c.pathTo index := by
    have hlinked := h.linked c (List.mem_of_getElem? hc)
    exact (Chain.walk_eq_pathTo_iff hlinked hindex (h.ends f hf chain index c hcontent hc)).2
      (hu f hf chain index c hcontent hc)
  intro f hf chain index hcontent
  have hrec := hcontent ▸ ha.content f hf
  obtain ⟨c, hc, hindex⟩ := h.inside f.serial chain index hrec
  refine ⟨c, hc, hwalk hf hcontent hc hindex, fun g hg other hother => ?_⟩
  have hrec' := hother ▸ ha.content g hg
  obtain ⟨d, hd, hindex'⟩ := h.inside g.serial chain other hrec'
  rw [hc] at hd
  cases hd
  -- both paths are the one walk of the chain, so they end in the same segment
  have hlinked := h.linked c (List.mem_of_getElem? hc)
  have hpaths : c.pathTo index = c.pathTo other := by
    rw [← hwalk hf hcontent hc hindex, ← hwalk hg hother hc hindex', hlinked.walk_eq hindex,
      hlinked.walk_eq hindex']
  have hlast := c.getLast?_pathTo other
  rw [← hpaths, c.getLast?_pathTo] at hlast
  cases hlast
  exact Registry.eq_of_serial_eq ha.nodup hg hf (h.once _ _ _ _ hrec' hrec)

end Paths

/-- The paths of a script lead to their ends if and only if none of them was left at a fork. -/
theorem pathsLead_iff_unforked (script : List Step) (result : Term) :
    PathsLead (finish script result) ↔ Unforked (finish script result) := by
  obtain ⟨ledger, h, ha⟩ := exists_arena_finish script result
  exact ⟨fun hp => hp.unforked h ha, fun hu => hu.pathsLead h ha⟩

/-- From a node to `a`, and from there to `b` and to `c`. -/
def fork : List Step :=
  [⟨.node, none, [.value (.int 1)]⟩,
   ⟨.link ⟨true, .outgoing⟩, some 0, [.value (.text "a")]⟩,
   ⟨.link ⟨true, .outgoing⟩, some 1, [.value (.text "b")]⟩,
   ⟨.link ⟨true, .outgoing⟩, some 1, [.value (.text "c")]⟩]

/-- At a fork two segments of a chain are registered, and the path to the first of them is written
as the path to the second one. -/
theorem fork_not_pathsLead : ¬ PathsLead (finish fork (.value .null)) := by
  intro h
  have hmem : Fragment.mk 2 .pattern (Content.segment 0 1) ∈
      (finish fork (.value .null)).registry := .tail _ (.head _)
  obtain ⟨c, hc, hwalk, -⟩ := h _ hmem 0 1 rfl
  have hboth : ((finish fork (.value .null)).chains[0]?).map
      (fun c => (c.walk 1, c.pathTo 1)) = some ([0, 2], [0, 1]) := by decide
  rw [hc, Option.map_some, Option.some.injEq, Prod.mk.injEq] at hboth
  obtain ⟨hleft, hright⟩ := hboth
  rw [hwalk, hright] at hleft
  exact absurd hleft (by decide)

/-! ## Paths without forks -/

/-- No segment is extended twice. -/
def Chain.Straight (c : Chain) : Prop :=
  ∀ i j k, c.prev j = some i → c.prev k = some i → j = k

theorem Chain.Straight.extend {c : Chain} (h : c.Straight) (hl : c.Linked) {i : Nat} {s : Segment}
    (hp : s.prev = some i) (hend : c.next i = none) : (c.extend i s).Straight := by
  have hback {j a : Nat} (hj : (c.extend i s).prev j = some a) :
      j = c.segments.length ∧ a = i ∨ c.prev j = some a ∧ a ≠ i := by
    rw [prev_extend] at hj
    split at hj
    · next hlast =>
      rw [hp] at hj
      cases hj
      exact .inl ⟨hlast, rfl⟩
    · refine .inr ⟨hj, ?_⟩
      rintro rfl
      obtain ⟨k, hk⟩ := hl.exists_next hj
      rw [hend] at hk
      cases hk
  intro a j k hj hk
  rcases hback hj with ⟨hj, ha⟩ | ⟨hj, ha⟩
  · rcases hback hk with ⟨hk, -⟩ | ⟨-, ha'⟩
    · rw [hj, hk]
    · exact absurd ha ha'
  · rcases hback hk with ⟨-, ha'⟩ | ⟨hk, -⟩
    · exact absurd ha' ha
    · exact h a j k hj hk

/-- A step forks a path when it extends a segment that another one extends already. -/
def Run.Forks (r : Run) (s : Step) : Prop :=
  ∃ (l : Link) (serial chain index next : Nat) (c : Chain), s.verb = .link l ∧
    r.receiver s = .fragment serial (.segment chain index) ∧
    r.block.chains[chain]? = some c ∧ c.next index = some next

/-- Calls that do not fork keep all chains straight. -/
theorem Effect.straight {ledger contents : List Content} {r : Run} {s : Step} {outcome : Outcome}
    (e : Effect r.block s.verb (r.operands s) contents outcome) (h : Arena ledger r.block)
    (hs : ∀ c ∈ r.block.chains, c.Straight) (hfork : ¬ r.Forks s) :
    ∀ c ∈ outcome.2.chains, c.Straight := by
  intro c hc
  cases e with
  | enter names unbound contents result plain known quiet =>
    rw [chains_registerAll] at hc
    exact hs c hc
  | tag chain path asked given =>
    obtain ⟨i, hi⟩ := List.mem_iff_getElem?.1 hc
    obtain ⟨d, hd, rfl⟩ := getElem?_modify_chains hi
    have hstraight := hs d (List.mem_of_getElem? hd)
    split <;> exact hstraight
  | start l slot style right asked =>
    rcases List.mem_append.1 hc with hc | hc
    · exact hs c hc
    · rw [List.mem_singleton.1 hc]
      intro i j k hj
      cases j <;> simp [Chain.prev] at hj
  | extend l serial chain index d style right asked receiver found inside =>
    obtain ⟨i, hi⟩ := List.mem_iff_getElem?.1 hc
    obtain ⟨e, he, rfl⟩ := getElem?_modify_chains hi
    have hstraight := hs e (List.mem_of_getElem? he)
    split
    · next hchain =>
      subst hchain
      rw [found] at he
      cases he
      refine hstraight.extend (h.linked d (List.mem_of_getElem? found)) rfl ?_
      cases hnext : d.next index with
      | none => rfl
      | some next =>
        have hreceiver : r.receiver s = .fragment serial (.segment chain index) := by
          simpa [Run.operands] using receiver
        exact absurd ⟨l, serial, chain, index, next, d, asked, hreceiver, found, hnext⟩ hfork
    · exact hstraight
  | compose left right operator asked givenLeft givenRight =>
    refine hs c ?_
    simpa [composed, Block.give, Block.absorb, register] using hc
  | negate negation serial left right operator negated asked receiver =>
    refine hs c ?_
    simpa [Block.negate, Block.give, Block.absorb, register] using hc

theorem run_straight {script : List Step}
    (h : ∀ past s rest, script = past ++ s :: rest → ¬ (run past).Forks s) :
    ∀ c ∈ (run script).block.chains, c.Straight := by
  obtain ⟨ledger, hledger⟩ := exists_ledger script
  induction hledger with
  | start => simp [Run.start, Block.empty]
  | @step past ledger contents s hpast effect ih =>
    have hearlier : ∀ p t rest, past = p ++ t :: rest → ¬ (run p).Forks t := by
      rintro p t rest rfl
      exact h p t (rest ++ [s]) (by simp)
    rw [run_snoc]
    exact effect.straight hpast.arena (ih hearlier) (h past s [] (by simp))

/-- As long as every call on a segment is made on the end of a path, every path is written right. -/
theorem pathsLead_of_not_forks {script : List Step} (result : Term)
    (h : ∀ past s rest, script = past ++ s :: rest → ¬ (run past).Forks s) :
    PathsLead (finish script result) := by
  obtain ⟨ledger, harena, haccounts⟩ := exists_arena_finish script result
  refine Unforked.pathsLead harena haccounts fun f hf chain index c hcontent hc j hj => ?_
  rw [chains_finish] at hc
  have hstraight := run_straight h c (List.mem_of_getElem? hc)
  intro p k hp hk
  exact (hstraight p k j hk hp).le

end GraphQuery.Block
