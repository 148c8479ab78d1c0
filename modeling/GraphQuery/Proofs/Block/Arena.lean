import GraphQuery.Proofs.Block.Linked
import GraphQuery.Proofs.Block.Run

/-!
# The arena of a script

The chains of a block are an arena in which the calls of a script add segments, whichever segment
a call is made on. Every chain in it is linked, every segment that was ever registered has a place
of its own in it, and a registered segment is one that nothing extends.
-/
namespace GraphQuery.Block

/-- What the ledger and the registry of a script have to do with its chains. -/
structure Arena (ledger : List Content) (b : Block) : Prop where
  linked : ∀ c ∈ b.chains, c.Linked
  inside : ∀ serial chain index : Nat, ledger[serial]? = some (Content.segment chain index) →
    ∃ c : Chain, b.chains[chain]? = some c ∧ index < c.segments.length
  once : ∀ m n chain index : Nat, ledger[m]? = some (Content.segment chain index) →
    ledger[n]? = some (Content.segment chain index) → m = n
  ends : ∀ f ∈ b.registry, ∀ (chain index : Nat) (c : Chain),
    f.content = .segment chain index → b.chains[chain]? = some c → c.next index = none

/-- A chain of an arena in which one chain was changed. -/
theorem getElem?_modify_chains {chains : List Chain} {chain i : Nat} {change : Chain → Chain}
    {c : Chain} (h : (chains.modify chain change)[i]? = some c) :
    ∃ d, chains[i]? = some d ∧ c = if chain = i then change d else d := by
  rw [List.getElem?_modify] at h
  obtain ⟨d, hd, hc⟩ := Option.map_eq_some_iff.1 h
  exact ⟨d, hd, hc.symm⟩

theorem getElem?_modify_chains_of {chains : List Chain} {i : Nat} {d : Chain}
    (h : chains[i]? = some d) (chain : Nat) (change : Chain → Chain) :
    (chains.modify chain change)[i]? = some (if chain = i then change d else d) := by
  rw [List.getElem?_modify, h]
  rfl

namespace Arena

variable {ledger contents : List Content} {b b' : Block}

/-- Calls that add no segments leave the arena as it is. -/
theorem same_chains (h : Arena ledger b) (hchains : b'.chains = b.chains)
    (hcontents : ∀ chain index, Content.segment chain index ∉ contents)
    (hregistry : ∀ f ∈ b'.registry, f ∈ b.registry ∨ f.content ∈ contents) :
    Arena (ledger ++ contents) b' := by
  have hold {serial chain index : Nat}
      (hs : (ledger ++ contents)[serial]? = some (.segment chain index)) :
      ledger[serial]? = some (.segment chain index) := by
    rcases getElem?_ledger_append hs with hs | ⟨-, hs⟩
    · exact hs
    · exact absurd (List.mem_of_getElem? hs) (hcontents chain index)
  constructor
  · rw [hchains]
    exact h.linked
  · intro serial chain index hs
    rw [hchains]
    exact h.inside serial chain index (hold hs)
  · intro m n chain index hm hn
    exact h.once m n chain index (hold hm) (hold hn)
  · intro f hf chain index c hc
    rw [hchains]
    rcases hregistry f hf with hf | hf
    · exact h.ends f hf chain index c hc
    · rw [hc] at hf
      exact absurd hf (hcontents chain index)

theorem empty : Arena [] Block.empty := by
  constructor <;> simp [Block.empty]

theorem registerAll (h : Arena ledger b) (plain : ∀ c ∈ contents, c.isPlain) :
    Arena (ledger ++ contents) (b.registerAll contents) := by
  refine h.same_chains (chains_registerAll _ _) (fun chain index hmem => ?_) fun f hf => ?_
  · cases plain _ hmem
  · rcases mem_registerAll.1 hf with hf | ⟨i, c, hc, rfl⟩
    · exact .inl hf
    · exact .inr (List.mem_of_getElem? hc)

/-- A chain that is tagged has the links that it had. -/
theorem tag (h : Arena ledger b) (chain : Nat) :
    Arena ledger { b with
      chains := b.chains.modify chain fun c => { c with shortest := true } } := by
  constructor
  · intro c hc
    obtain ⟨i, hi⟩ := List.mem_iff_getElem?.1 hc
    obtain ⟨d, hd, rfl⟩ := getElem?_modify_chains hi
    have hlinked := h.linked d (List.mem_of_getElem? hd)
    split
    · exact ⟨hlinked.nonempty, hlinked.prev_lt, hlinked.first, hlinked.next_iff⟩
    · exact hlinked
  · intro serial i index hs
    obtain ⟨c, hc, hlt⟩ := h.inside serial i index hs
    refine ⟨_, getElem?_modify_chains_of hc _ _, ?_⟩
    split <;> exact hlt
  · exact h.once
  · intro f hf i index c hcontent hc
    obtain ⟨d, hd, rfl⟩ := getElem?_modify_chains hc
    have hend := h.ends f hf i index d hcontent hd
    split <;> exact hend

theorem start (h : Arena ledger b) (slot : Nat) (style : Style) (direction : Direction)
    (right : Operand) : Arena (ledger ++ [.segment b.chains.length 0])
      (b.startPath slot style direction right).2 := by
  have hlt {serial chain index : Nat} (hs : ledger[serial]? = some (.segment chain index)) :
      chain < b.chains.length := by
    obtain ⟨c, hc, -⟩ := h.inside serial chain index hs
    exact (List.getElem?_eq_some_iff.1 hc).1
  constructor
  · intro c hc
    rcases List.mem_append.1 hc with hc | hc
    · exact h.linked c hc
    · rw [List.mem_singleton.1 hc]
      exact Chain.Linked.single slot false rfl rfl
  · intro serial chain index hs
    rcases getElem?_ledger_concat hs with hs | ⟨-, hs⟩
    · obtain ⟨c, hc, hindex⟩ := h.inside serial chain index hs
      refine ⟨c, ?_, hindex⟩
      simp only [startPath, give]
      rw [List.getElem?_append_left (hlt hs), hc]
    · cases hs
      exact ⟨_, List.getElem?_concat_length, by simp⟩
  · intro m n chain index hm hn
    rcases getElem?_ledger_concat hm with hm | ⟨hlast, heq⟩
    · rcases getElem?_ledger_concat hn with hn | ⟨-, heq⟩
      · exact h.once m n chain index hm hn
      · cases heq
        exact absurd (hlt hm) (by omega)
    · cases heq
      rcases getElem?_ledger_concat hn with hn | ⟨hlast', -⟩
      · exact absurd (hlt hn) (by omega)
      · rw [hlast, hlast']
  · intro f hf chain index c hcontent hc
    simp only [startPath, give] at hf hc
    rw [List.getElem?_append] at hc
    split at hc
    · next hchain =>
      rcases mem_register.1 hf with rfl | hf
      · cases hcontent
        omega
      · exact h.ends f hf chain index c hcontent hc
    · next hchain =>
      obtain rfl := List.mem_singleton.1 (List.mem_of_getElem? hc)
      cases index <;> simp [Chain.next]

/-- An extension takes the extended segment out of the registry, so that what is registered still
ends its path. -/
theorem extend (h : Arena ledger b) (ha : Accounts ledger b) {serial chain index : Nat}
    {c : Chain} (style : Style) (direction : Direction) (right : Operand)
    (hrec : ledger[serial]? = some (.segment chain index)) (found : b.chains[chain]? = some c) :
    Arena (ledger ++ [.segment chain c.segments.length])
      (b.extendPath (.fragment serial (.segment chain index)) chain index c.segments.length
        style direction right).2 := by
  obtain ⟨d, hd, hindex⟩ := h.inside serial chain index hrec
  obtain rfl : c = d := by
    rw [found] at hd
    exact Option.some.inj hd
  have hinside {m j : Nat} (hm : ledger[m]? = some (.segment chain j)) :
      j < c.segments.length := by
    obtain ⟨e, he, hj⟩ := h.inside m chain j hm
    rw [found] at he
    exact Option.some.inj he ▸ hj
  simp only [extendPath, give]
  set path := Operand.fragment serial (.segment chain index)
  set s : Segment := ⟨_, style, direction, right, some index, none⟩
  constructor
  · intro e he
    obtain ⟨i, hi⟩ := List.mem_iff_getElem?.1 he
    obtain ⟨d, hd, rfl⟩ := getElem?_modify_chains hi
    have hlinked := h.linked d (List.mem_of_getElem? hd)
    split
    · next hchain =>
      subst hchain
      rw [found] at hd
      cases hd
      exact hlinked.extend hindex rfl rfl
    · exact hlinked
  · intro m i j hm
    rcases getElem?_ledger_concat hm with hm | ⟨-, hm⟩
    · obtain ⟨e, he, hj⟩ := h.inside m i j hm
      refine ⟨_, getElem?_modify_chains_of he _ _, ?_⟩
      split
      · rw [Chain.length_extend]
        omega
      · exact hj
    · cases hm
      refine ⟨_, getElem?_modify_chains_of found _ _, ?_⟩
      rw [if_pos rfl, Chain.length_extend]
      omega
  · intro m n i j hm hn
    rcases getElem?_ledger_concat hm with hm | ⟨hlast, heq⟩
    · rcases getElem?_ledger_concat hn with hn | ⟨-, heq⟩
      · exact h.once m n i j hm hn
      · cases heq
        exact absurd (hinside hm) (by omega)
    · cases heq
      rcases getElem?_ledger_concat hn with hn | ⟨hlast', -⟩
      · exact absurd (hinside hn) (by omega)
      · rw [hlast, hlast']
  · intro f hf i j e hcontent he
    obtain ⟨d, hd, rfl⟩ := getElem?_modify_chains he
    rcases mem_register.1 hf with rfl | hf
    · cases hcontent
      rw [found] at hd
      cases hd
      rw [if_pos rfl, Chain.next_extend hindex, if_pos rfl]
    · obtain ⟨hf, hpath⟩ := (mem_unregister ha.nodup).1 hf
      have hend := h.ends f hf i j d hcontent hd
      have hcontent := hcontent ▸ ha.content f hf
      split
      · next hchain =>
        subst hchain
        rw [found] at hd
        cases hd
        have hj := hinside hcontent
        -- the extended segment is registered under one serial number, which is gone
        have hne : j ≠ index := by
          rintro rfl
          exact hpath (congrArg some (h.once _ _ _ _ hrec hcontent))
        rw [Chain.next_extend hindex, if_neg (by omega), if_neg hne]
        exact hend
      · exact hend

end Arena

section Calls

variable {ledger contents : List Content} {b : Block} {verb : Verb} {operands : List Operand}
  {outcome : Outcome}

theorem Effect.arena (e : Effect b verb operands contents outcome) (h : Arena ledger b)
    (hs : Accounts ledger b) (ha : Absorbed ledger b) (ho : ∀ o ∈ operands, o.Recorded ledger) :
    Arena (ledger ++ contents) outcome.2 := by
  cases e with
  | enter names unbound contents result plain known quiet =>
    have h' : Arena ledger { b with names := names, unbound := unbound } :=
      ⟨h.linked, h.inside, h.once, h.ends⟩
    exact h'.registerAll plain
  | tag chain path asked given =>
    rw [List.append_nil]
    exact h.tag chain
  | start l slot style right asked => exact h.start slot style l.direction right
  | extend l serial chain index c style right asked receiver found inside =>
    exact h.extend hs style l.direction right (ho _ (List.mem_of_head? receiver) _ _ rfl) found
  | compose left right operator asked givenLeft givenRight =>
    refine h.same_chains ?_ (by simp [filterOf]) fun f hf => ?_
    · simp [composed, Block.give, Block.absorb, register]
    · rcases (mem_absorb hs _ (ho _ givenLeft) (ho _ givenRight)).1 hf with rfl | ⟨hf, -⟩
      · exact .inr (List.mem_singleton.2 rfl)
      · exact .inl hf
  | negate negation serial left right operator negated asked receiver =>
    have hrec := ho _ (List.mem_of_head? receiver) _ _ rfl
    refine h.same_chains ?_ (by simp [filterOf]) fun f hf => ?_
    · simp [Block.negate, Block.give, Block.absorb, register]
    · rw [negate_registry hs ha negation hrec] at hf
      rcases (Registry.mem_overwrite hs.nodup).1 hf with ⟨rfl, -⟩ | ⟨hf, -⟩
      · exact .inr (List.mem_singleton.2 rfl)
      · exact .inl hf

end Calls

theorem Ledger.arena {script : List Step} {ledger : List Content} (h : Ledger script ledger) :
    Arena ledger (run script).block := by
  induction h with
  | start => exact Arena.empty
  | @step script ledger contents s past effect ih =>
    have sound := past.sound
    rw [run_snoc]
    exact effect.arena ih sound.accounts sound.absorbed (Run.operands_recorded sound.results s)

/-- A finished script has the arena of its last call, and items in its registry besides. -/
theorem exists_arena_finish (script : List Step) (result : Term) :
    ∃ ledger, Arena ledger (finish script result) ∧ Accounts ledger (finish script result) := by
  obtain ⟨ledger, hledger⟩ := exists_ledger script
  obtain ⟨items, hfinish⟩ := finish_eq_registerAll script result
  rw [hfinish]
  exact ⟨_, hledger.arena.registerAll (isPlain_items items),
    hledger.sound.accounts.registerAll (isPlain_items items)⟩

end GraphQuery.Block
