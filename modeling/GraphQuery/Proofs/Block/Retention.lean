import GraphQuery.Proofs.Block.Emission

/-!
# What filters leave alone

A filter drops its operands from the registry, whatever they are. All other fragments stay, and
those that are no conditions keep their order. So an entity of START is bound by the finished query
exactly if no filter has it for an operand: it is one thing to compare with a property of it, and
another to compare with itself.
-/
namespace GraphQuery

/-! ## Registries -/

namespace Registry

variable {α : Type}

theorem ofKind_remove {kind : Clause.Kind} {serial : Nat} {r : Registry α}
    (h : r.serials.Nodup) : (r.remove serial).ofKind kind =
      (r.ofKind kind).filter fun f => f.serial ≠ serial := by
  rw [remove_eq_filter h, ofKind, ofKind, List.filter_filter, List.filter_filter]
  simp only [Bool.and_comm]

end Registry

namespace Block

/-- The fragments that do not belong to an operand. -/
theorem ofKind_unregister {b : Block} (h : b.registry.serials.Nodup) (o : Operand)
    (kind : Clause.Kind) : (b.unregister o).registry.ofKind kind =
      (b.registry.ofKind kind).filter fun f => o.serial? ≠ some f.serial := by
  rw [unregister]
  split
  · next serial hs =>
    rw [Registry.ofKind_remove h, hs]
    simp only [ne_eq, Option.some.injEq, eq_comm (a := serial)]
  · next hs => simp [hs]

/-! ## Operands of filters -/

/-- Whether a fragment is an operand of a filter. -/
def Content.takes (serial : Nat) : Content → Bool
  | .filter left right _ _ => left.serial? = some serial || right.serial? = some serial
  | _ => false

/-- Whether a fragment is an operand of the filter that a call has made. -/
def takenBy (outcome : Outcome) (serial : Nat) : Bool :=
  match outcome.1 with
  | .ok (.fragment _ content) => content.takes serial
  | _ => false

theorem ofKind_absorb {ledger : List Content} {b : Block} (h : Accounts ledger b)
    {filter : Content} {kind : Clause.Kind} (hkind : filter.kind ≠ kind) (left right : Operand) :
    (b.absorb filter left right).registry.ofKind kind = (b.registry.ofKind kind).filter fun f =>
      !(left.serial? = some f.serial || right.serial? = some f.serial) := by
  have hn : (b.register filter).registry.serials.Nodup :=
    Registry.nodup_serials_insert.2 ⟨h.fresh, h.nodup⟩
  have hn' : ((b.register filter).unregister left).registry.serials.Nodup :=
    hn.sublist ((unregister_sublist _ _).map _)
  have hregister : (b.register filter).registry.ofKind kind = b.registry.ofKind kind :=
    Registry.ofKind_insert_ne _ _ hkind
  rw [absorb, ofKind_unregister hn', ofKind_unregister hn, hregister, List.filter_filter]
  refine List.filter_congr fun f _ => ?_
  simp [Bool.and_comm]

/-- A call that makes a filter leaves all fragments of other kinds in their order, but for the
operands of the filter. -/
theorem Effect.ofKind_combines {ledger contents : List Content} {b : Block} {verb : Verb}
    {operands : List Operand} {outcome : Outcome} (e : Effect b verb operands contents outcome)
    (hv : verb.combines) (h : Accounts ledger b) {kind : Clause.Kind} (hkind : kind ≠ .condition) :
    outcome.2.registry.ofKind kind =
      (b.registry.ofKind kind).filter fun f => !takenBy outcome f.serial := by
  cases e with
  | enter names unbound contents result plain known quiet =>
    obtain ⟨rfl, hserial⟩ := quiet (Verb.makesFilters_of_combines hv)
    have hnone (b : Block) (serial : Nat) : takenBy (result, b) serial = false := by
      rw [takenBy]
      split
      · next hok => cases hserial _ hok
      · rfl
    exact (List.filter_eq_self.2 fun f _ => by rw [hnone]; rfl).symm
  | tag chain path asked given =>
    rw [asked] at hv
    cases hv
  | start l slot style right asked =>
    rw [asked] at hv
    cases hv
  | extend l serial chain index c style right asked receiver found inside =>
    rw [asked] at hv
    cases hv
  | compose left right operator asked givenLeft givenRight =>
    have hfilter : (filterOf left right operator false).kind ≠ kind := Ne.symm hkind
    exact ofKind_absorb h hfilter left right
  | negate negation serial left right operator negated asked receiver =>
    rw [asked] at hv
    cases hv

/-! ## Whole runs -/

theorem takes_eq_false {left right : Operand} {operator : Operator} {negated : Bool}
    {serial : Nat} : (Content.filter left right operator negated).takes serial = false ↔
      left.serial? ≠ some serial ∧ right.serial? ≠ some serial := by
  simp [Content.takes]

/-- No operand of a recorded filter is registered. -/
theorem Run.Sound.not_taken {ledger : List Content} {r : Run} (h : r.Sound ledger) {serial : Nat}
    (hs : serial ∈ r.block.registry.serials) : ∀ c ∈ ledger, c.takes serial = false := by
  intro c hc
  cases c with
  | filter left right operator negated =>
    obtain ⟨hl, hr⟩ := h.absorbed _ hc
    exact takes_eq_false.2 ⟨fun h => hl (isRegistered_iff.2 ⟨serial, h, hs⟩),
      fun h => hr (isRegistered_iff.2 ⟨serial, h, hs⟩)⟩
  | _ => rfl

/-- What a call makes it registers, unless it is a filter. -/
theorem Effect.registers {ledger contents : List Content} {b : Block} {verb : Verb}
    {operands : List Operand} {outcome : Outcome} (e : Effect b verb operands contents outcome)
    (h : Accounts ledger b) {i : Nat} {content : Content} (hnew : contents[i]? = some content)
    (hplain : content.isPlain) : ledger.length + i ∈ outcome.2.registry.serials := by
  cases e with
  | enter names unbound contents result plain known quiet =>
    rw [← h.size]
    exact Registry.mem_serials.2 ⟨_, mem_registerAll.2 (.inr ⟨i, content, hnew, rfl⟩), rfl⟩
  | tag => cases hnew
  | start | extend | compose | negate =>
    rw [List.mem_singleton.1 (List.mem_of_getElem? hnew)] at hplain
    cases hplain

/-- A call drops nothing but segments, filters, and the operands of a filter that it makes. -/
theorem Effect.keeps {ledger contents : List Content} {b : Block} {verb : Verb}
    {operands : List Operand} {outcome : Outcome} (e : Effect b verb operands contents outcome)
    (h : Accounts ledger b) (ha : Absorbed ledger b) (ho : ∀ o ∈ operands, o.Recorded ledger)
    {f : Fragment Content} (hf : f ∈ b.registry) (hplain : f.content.isPlain)
    (hfree : ∀ c ∈ contents, c.takes f.serial = false) : f ∈ outcome.2.registry := by
  have hother {serial : Nat} {content : Content} (hrec : ledger[serial]? = some content)
      (hcontent : content.isPlain = false) : f.serial ≠ serial := by
    rintro rfl
    rw [h.content f hf] at hrec
    rw [Option.some.inj hrec, hcontent] at hplain
    cases hplain
  cases e with
  | enter names unbound contents result plain known quiet =>
    exact mem_registerAll.2 (.inl hf)
  | tag => exact hf
  | start => exact Registry.mem_insert.2 (.inr hf)
  | extend l serial chain index c style right asked receiver found inside =>
    have hne := hother (ho _ (List.mem_of_head? receiver) _ _ rfl) rfl
    refine Registry.mem_insert.2 (.inr ((mem_unregister h.nodup).2 ⟨hf, fun hs => ?_⟩))
    exact hne (Option.some.inj hs).symm
  | compose left right operator asked givenLeft givenRight =>
    have htaken := takes_eq_false.1 (hfree _ (List.mem_singleton_self _))
    exact (mem_absorb h _ (ho _ givenLeft) (ho _ givenRight)).2 (.inr ⟨hf, htaken⟩)
  | negate negation serial left right operator negated asked receiver =>
    have hrec := ho _ (List.mem_of_head? receiver) _ _ rfl
    rw [negate_registry h ha negation hrec]
    exact (Registry.mem_overwrite h.nodup).2 (.inr ⟨hf, hother hrec rfl⟩)

/-- What is neither a segment nor a filter stays registered until a filter takes it. -/
theorem Ledger.kept {script : List Step} {ledger : List Content} (h : Ledger script ledger)
    {serial : Nat} {content : Content} (hrec : ledger[serial]? = some content)
    (hplain : content.isPlain) (hfree : ∀ c ∈ ledger, c.takes serial = false) :
    serial ∈ (run script).block.registry.serials := by
  induction h with
  | start => simp at hrec
  | @step script ledger contents s past effect ih =>
    have sound := past.sound
    rw [List.forall_mem_append] at hfree
    rw [run_snoc]
    rcases getElem?_ledger_append hrec with hold | ⟨hge, hnew⟩
    · obtain ⟨f, hf, rfl⟩ := Registry.mem_serials.1 (ih hold hfree.1)
      have hcontent : f.content = content := by
        have := sound.accounts.content f hf
        rw [hold] at this
        exact (Option.some.inj this).symm
      have hkept := effect.keeps sound.accounts sound.absorbed
        (Run.operands_recorded sound.results s) hf (hcontent ▸ hplain) hfree.2
      exact Registry.mem_serials.2 ⟨f, hkept, rfl⟩
    · have hregistered := effect.registers sound.accounts hnew hplain
      rwa [Nat.add_sub_cancel' hge] at hregistered

/-- Items that are registered in the end have serial numbers of their own. -/
theorem Ledger.isRegistered_finish {script : List Step} {ledger : List Content}
    (h : Ledger script ledger) {serial : Nat} {content : Content}
    (hrec : ledger[serial]? = some content) (result : Term) :
    (finish script result).isRegistered (.fragment serial content) ↔
      serial ∈ (run script).block.registry.serials := by
  have hlt : serial < ledger.length := (List.getElem?_eq_some_iff.1 hrec).1
  obtain ⟨items, hfinish⟩ := finish_eq_registerAll script result
  rw [hfinish, isRegistered_iff]
  constructor
  · rintro ⟨_, ⟨⟩, hs⟩
    obtain ⟨f, hf, rfl⟩ := Registry.mem_serials.1 hs
    rcases mem_registerAll.1 hf with hf | ⟨i, c, -, rfl⟩
    · exact Registry.mem_serials.2 ⟨f, hf, rfl⟩
    · have := h.sound.accounts.size
      simp only [Content.fragment] at hlt
      omega
  · intro hs
    obtain ⟨f, hf, rfl⟩ := Registry.mem_serials.1 hs
    exact ⟨_, rfl, Registry.mem_serials.2 ⟨f, mem_registerAll.2 (.inl hf), rfl⟩⟩

/-- A call that makes a filter leaves the fragments of all other kinds as they are and in their
order, but for the operands of the filter, and so it leaves them alone exactly if no such fragment
is an operand. In the end no fragment is registered that a filter ever had for an operand, and
whatever is neither a filter nor a segment of a path is registered if none had. -/
theorem filters_keep_iff (script : List Step) :
    (∀ s : Step, s.verb.combines → ∀ kind, kind ≠ .condition →
      (run (script ++ [s])).block.registry.ofKind kind =
        ((run script).block.registry.ofKind kind).filter
          fun f => !takenBy ((run script).outcome s) f.serial) ∧
    (∀ s : Step, s.verb.combines →
      ((∀ kind, kind ≠ .condition → (run (script ++ [s])).block.registry.ofKind kind =
          (run script).block.registry.ofKind kind) ↔
        ∀ f ∈ (run script).block.registry, f.kind ≠ .condition →
          takenBy ((run script).outcome s) f.serial = false)) ∧
    ∀ (result : Term) (serial : Nat) (content : Content),
      .fragment serial content ∈ (run script).results →
        ((finish script result).isRegistered (.fragment serial content) →
          ∀ m c, .fragment m c ∈ (run script).results → c.takes serial = false) ∧
        (content.isPlain →
          (∀ m c, .fragment m c ∈ (run script).results → c.takes serial = false) →
            (finish script result).isRegistered (.fragment serial content)) := by
  obtain ⟨ledger, past⟩ := exists_ledger script
  have sound := past.sound
  have hstep (s : Step) (hs : s.verb.combines) (kind : Clause.Kind) (hkind : kind ≠ .condition) :
      (run (script ++ [s])).block.registry.ofKind kind =
        ((run script).block.registry.ofKind kind).filter
          fun f => !takenBy ((run script).outcome s) f.serial := by
    obtain ⟨contents, effect⟩ := (run script).outcome_effect s
    rw [run_snoc]
    exact effect.ofKind_combines hs sound.accounts hkind
  refine ⟨hstep, fun s hs => ⟨fun h f hf hkind => ?_, fun h kind hkind => ?_⟩,
    fun result serial content hmem => ?_⟩
  · have hmem : f ∈ (run script).block.registry.ofKind f.kind := by
      simp [Registry.ofKind, hf]
    rw [← h f.kind hkind, hstep s hs f.kind hkind, List.mem_filter] at hmem
    simpa using hmem.2
  · rw [hstep s hs kind hkind, List.filter_eq_self]
    intro f hf
    obtain ⟨hf, hk⟩ := List.mem_filter.1 hf
    have hkind' : f.kind ≠ .condition := (of_decide_eq_true hk) ▸ hkind
    rw [h f hf hkind']
    rfl
  · have hrec := sound.results _ hmem _ _ rfl
    have hregistered := past.isRegistered_finish hrec result
    constructor
    · intro h m c hc
      have hc := sound.results _ hc _ _ rfl
      exact sound.not_taken (hregistered.1 h) c (List.mem_of_getElem? hc)
    · intro hplain hfree
      refine hregistered.2 (past.kept hrec hplain fun c hc => ?_)
      obtain ⟨m, hm⟩ := List.mem_iff_getElem?.1 hc
      cases c with
      | filter => exact hfree m _ (past.filter_mem_results hm rfl)
      | _ => rfl

/-- Two nodes and a property of the first. -/
def friends : List Step :=
  [⟨.node, none, [.value (.int 1)]⟩,
   ⟨.property, some 0, [.value (.text "friend")]⟩,
   ⟨.node, none, [.value (.int 2)]⟩]

/-- Compares the property. -/
def comparing (term : Term) : Step := ⟨.compare .equal, some 1, [term]⟩

/-- A value in a comparison leaves both nodes to START. -/
theorem comparing_value_keeps :
    (∀ kind, kind ≠ .condition →
      (run (friends ++ [comparing (.value (.int 3))])).block.registry.ofKind kind =
        (run friends).block.registry.ofKind kind) ∧
    (finish (friends ++ [comparing (.value (.int 3))]) (.value .null)).isRegistered
      (.fragment 1 (.start 1 (.nodes [.value (.int 2)]))) := by
  constructor
  · refine ((filters_keep_iff friends).2.1 (comparing (.value (.int 3))) rfl).2 ?_
    intro f _ _
    rfl
  · refine ((filters_keep_iff (friends ++ [comparing (.value (.int 3))])).2.2 (.value .null) 1
      (.start 1 (.nodes [.value (.int 2)])) (List.mem_of_getElem? (i := 2) rfl)).2 rfl ?_
    intro m c hc
    have hresults : (run (friends ++ [comparing (.value (.int 3))])).results =
        [.fragment 0 (.start 0 (.nodes [.value (.int 1)])), .property 0 (.value (.text "friend")),
          .fragment 1 (.start 1 (.nodes [.value (.int 2)])),
          .fragment 2 (.filter (.property 0 (.value (.text "friend"))) (.value (.int 3))
            .equal false)] := rfl
    rw [hresults] at hc
    simp only [List.mem_cons, List.not_mem_nil, or_false, Operand.fragment.injEq, reduceCtorEq,
      false_or] at hc
    rcases hc with ⟨-, rfl⟩ | ⟨-, rfl⟩ | ⟨-, rfl⟩ <;> rfl

/-- A node in a comparison is dropped, though the comparison mentions it. -/
theorem comparing_node_drops :
    (finish (friends ++ [comparing (.result 2)]) (.value .null)).text =
      .ok "START n0=node(1) WHERE (n0.friend = n1)" ∧
    ((run friends).block.registry.ofKind .start).serials = [0, 1] ∧
    ((run (friends ++ [comparing (.result 2)])).block.registry.ofKind .start).serials = [0] :=
  ⟨rfl, rfl, rfl⟩

end Block
end GraphQuery
