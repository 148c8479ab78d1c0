import GraphQuery.Proofs.Block.Heading
import GraphQuery.Proofs.Registry.Order

/-!
# Positions of runs

A call leaves the runs of the registry in their order, but for one: an extension takes the segment
that it extends out before the new one enters. When no other path is registered the run is gone by
then, and comes back at the end.
-/
namespace GraphQuery.Block
open Registry (KeepsOrder)

section Calls

variable {ledger contents : List Content} {b : Block} {verb : Verb} {operands : List Operand}
  {outcome : Outcome}

theorem kinds_sublist_registerAll (contents : List Content) (b : Block) :
    b.registry.kinds.Sublist (b.registerAll contents).registry.kinds := by
  induction contents generalizing b with
  | nil => exact List.Sublist.refl _
  | cons c contents ih =>
    exact (Registry.kinds_sublist_insert (c.fragment b.serials) b.registry).trans
      (ih (b.register c))

theorem keepsOrder_registerAll (contents : List Content) (h : b.registry.Grouped) :
    KeepsOrder b.registry (b.registerAll contents).registry :=
  .of_sublist (grouped_registerAll contents h) (kinds_sublist_registerAll contents b)

/-- A filter enters before its operands leave. -/
theorem keepsOrder_absorb (filter : Content) (left right : Operand) (h : b.registry.Grouped) :
    KeepsOrder b.registry (b.absorb filter left right).registry := by
  have hg := grouped_register filter h
  have hin : KeepsOrder b.registry (b.register filter).registry :=
    .of_sublist hg (Registry.kinds_sublist_insert _ _)
  have hsub := ((unregister_sublist right _).trans
    (unregister_sublist left (b.register filter))).map (·.kind)
  refine hin.trans (KeepsOrder.of_sublist hg hsub).symm fun k hk _ => ?_
  exact (Registry.kinds_sublist_insert _ _).subset hk

/-- When the one registered path, with something behind it, is the one that is extended. -/
theorem keepsOrder_extendPath_iff (h : Accounts ledger b) (hg : b.registry.Grouped)
    (serial chain index size : Nat) (style : Style) (direction : Direction) (right : Operand) :
    KeepsOrder b.registry (b.extendPath (.fragment serial (.segment chain index)) chain index size
        style direction right).2.registry ↔
      ∀ f, b.registry.ofKind .pattern = [f] → f.serial = serial →
        b.registry.getLast? = some f :=
  Registry.keepsOrder_insert_remove_iff ((Content.segment chain size).fragment b.serials) hg h.nodup

theorem Effect.keepsOrder (e : Effect b verb operands contents outcome) (h : Accounts ledger b)
    (ha : Absorbed ledger b) (ho : ∀ o ∈ operands, o.Recorded ledger) (hg : b.registry.Grouped)
    (hstay : ∀ (l : Link) (f : Fragment Content), verb = .link l →
      operands.head? = some (ofFragment f) → outcome.1.isOk → b.registry.ofKind .pattern = [f] →
        b.registry.getLast? = some f) :
    KeepsOrder b.registry outcome.2.registry := by
  cases e with
  | enter names unbound contents result plain known quiet =>
    exact keepsOrder_registerAll (b := { b with names := names, unbound := unbound }) contents hg
  | tag => exact KeepsOrder.refl _
  | start l slot style right asked =>
    exact .of_sublist (grouped_register (.segment b.chains.length 0) hg)
      (Registry.kinds_sublist_insert _ _)
  | extend l serial chain index c style right asked receiver found inside =>
    refine (keepsOrder_extendPath_iff h hg ..).2 fun f honly hserial => ?_
    have hf : f ∈ b.registry.ofKind .pattern := by simp [honly]
    have hrec := ho _ (List.mem_of_head? receiver) _ _ rfl
    have hcontent : f.content = .segment chain index := by
      have := h.content f (List.mem_filter.1 hf).1
      rw [hserial, hrec] at this
      exact (Option.some.inj this).symm
    refine hstay l f asked ?_ rfl honly
    rw [receiver, ofFragment, hserial, hcontent]
  | compose left right operator asked givenLeft givenRight =>
    exact keepsOrder_absorb (filterOf left right operator false) left right hg
  | negate negation serial left right operator negated asked receiver =>
    exact .of_kinds_eq (kinds_negate h ha negation (ho _ (List.mem_of_head? receiver) _ _ rfl))

end Calls

/-! ## Displacement -/

/-- A step displaces the run of the paths when it extends the only registered path while another
fragment stands behind that one. -/
def Run.Displaces (r : Run) (s : Step) : Prop :=
  ∃ (l : Link) (f : Fragment Content), s.verb = .link l ∧ r.receiver s = ofFragment f ∧
    (r.outcome s).1.isOk ∧ r.block.registry.ofKind .pattern = [f] ∧
      r.block.registry.getLast? ≠ some f

theorem Run.outcome_link {r : Run} {s : Step} {l : Link} (hv : s.verb = .link l)
    (hok : (r.outcome s).1.isOk) :
    ∃ other, r.outcome s = r.block.link l (r.receiver s) other := by
  rcases outcome_of_link hv with ⟨other, -, hcall⟩ | ⟨fault, hfail⟩
  · exact ⟨other, hcall⟩
  · rw [hfail] at hok
    cases hok

/-- Of the fragments of the kind of paths only segments can be extended. -/
theorem exists_extendPath {f : Fragment Content} {l : Link} {other : Operand} {b : Block}
    (hkind : f.content.kind = .pattern) (hok : (b.link l (ofFragment f) other).1.isOk) :
    ∃ (chain index size : Nat) (style : Style), b.link l (ofFragment f) other =
      b.extendPath (.fragment f.serial (.segment chain index)) chain index size style l.direction
        other := by
  obtain ⟨serial, kind, content⟩ := f
  cases content with
  | segment chain index =>
    simp only [ofFragment, link] at hok ⊢
    split at hok
    · cases hok
    · split at hok
      · exact ⟨_, _, _, _, rfl⟩
      · cases hok
  | custom => cases hok
  | _ => cases hkind

theorem Run.Displaces.not_keepsOrder {ledger : List Content} {r : Run} {s : Step}
    (h : r.Displaces s) (ha : Accounts ledger r.block) (hg : r.block.registry.Grouped) :
    ¬ KeepsOrder r.block.registry (r.outcome s).2.registry := by
  obtain ⟨l, f, hv, hr, hok, honly, hlast⟩ := h
  obtain ⟨other, hlink⟩ := r.outcome_link hv hok
  rw [hlink, hr] at hok ⊢
  have hf : f ∈ r.block.registry.ofKind .pattern := by simp [honly]
  obtain ⟨hf, hpattern⟩ := List.mem_filter.1 hf
  have hkind : f.content.kind = .pattern := by
    rw [← ha.kind f hf]
    simpa using hpattern
  obtain ⟨chain, index, size, style, hextend⟩ := exists_extendPath hkind hok
  rw [hextend, keepsOrder_extendPath_iff ha hg]
  intro hall
  exact hlast (hall f honly rfl)

/-- Every call leaves the runs in their order unless it displaces the paths, and so does what a
script ends with. -/
theorem keepsOrder_iff_not_displaces (script : List Step) :
    (∀ s, KeepsOrder (run script).block.registry (run (script ++ [s])).block.registry ↔
      ¬ (run script).Displaces s) ∧
    ∀ result, KeepsOrder (run script).block.registry (finish script result).registry := by
  obtain ⟨ledger, hledger⟩ := exists_ledger script
  have sound := hledger.sound
  have hg := run_grouped script
  constructor
  · intro s
    rw [run_snoc]
    constructor
    · intro hkeeps h
      exact h.not_keepsOrder sound.accounts hg hkeeps
    · intro hno
      obtain ⟨contents, effect⟩ := (run script).outcome_effect s
      refine effect.keepsOrder sound.accounts sound.absorbed
        (Run.operands_recorded sound.results s) hg fun l f hv hr hok honly => ?_
      have hreceiver : (run script).receiver s = ofFragment f := by
        simpa [Run.operands] using hr
      by_contra hlast
      exact hno ⟨l, f, hv, hreceiver, hok, honly, hlast⟩
  · intro result
    obtain ⟨items, hfinish⟩ := finish_eq_registerAll script result
    rw [hfinish]
    exact keepsOrder_registerAll _ hg

/-- A path to `x` and a filter of its node. -/
def filteredPath : List Step :=
  [⟨.node, none, [.value (.int 1)]⟩,
   ⟨.link ⟨true, .outgoing⟩, some 0, [.value (.text "x")]⟩,
   ⟨.property, some 0, [.value (.text "age")]⟩,
   ⟨.compare .greater, some 2, [.value (.int 30)]⟩]

/-- Another hop of a filtered path moves the paths behind the filters. -/
theorem filteredPath_not_keepsOrder : ¬ KeepsOrder (run filteredPath).block.registry
    (run (filteredPath ++ [⟨.link ⟨true, .outgoing⟩, some 1, [.value (.text "y")]⟩])).block.registry := by
  intro h
  have hbefore : (run filteredPath).block.registry.kinds = [.start, .pattern, .condition] := rfl
  have hafter : (run (filteredPath ++ [⟨.link ⟨true, .outgoing⟩, some 1,
      [.value (.text "y")]⟩])).block.registry.kinds = [.start, .condition, .pattern] := rfl
  have hkeeps := h .pattern .condition
  rw [Registry.Precedes, Registry.Precedes, hbefore, hafter] at hkeeps
  exact absurd hkeeps (by decide)

end GraphQuery.Block
