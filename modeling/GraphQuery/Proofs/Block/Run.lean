import GraphQuery.Proofs.Block.Absorption

/-!
# Runs of scripts

What every call keeps, every run keeps. A finished script has what it ends with as further items
of RETURN, so that nothing but items enters after the last call.
-/
namespace GraphQuery.Block

/-- The terms of a script mention results only. -/
theorem Term.resolve_fragment {results : List Operand} {t : Term} {serial : Nat}
    {content : Content} (h : t.resolve results = .fragment serial content) :
    Operand.fragment serial content ∈ results := by
  cases t with
  | result step =>
    rw [Term.resolve] at h
    cases hs : results[step]? with
    | none => rw [hs] at h; cases h
    | some o =>
      rw [hs] at h
      cases h
      exact List.mem_of_getElem? hs
  | _ => simp [Term.resolve] at h

theorem mem_resolveItems {results : List Operand} {items : List Term} {o : Operand}
    (h : o ∈ resolveItems results items) : ∃ t ∈ items, o = t.resolve results := by
  induction items with
  | nil => cases h
  | cons t items ih =>
    rw [resolveItems] at h
    rcases List.mem_cons.1 h with rfl | h
    · exact ⟨t, by simp, rfl⟩
    · obtain ⟨u, hu, rfl⟩ := ih h
      exact ⟨u, by simp [hu], rfl⟩

theorem Run.operands_recorded {ledger : List Content} {r : Run}
    (h : ∀ o ∈ r.results, o.Recorded ledger) (s : Step) :
    ∀ o ∈ r.operands s, o.Recorded ledger := by
  have resolved (t : Term) : (t.resolve r.results).Recorded ledger := by
    intro serial content ht
    exact h _ (Term.resolve_fragment ht) _ _ rfl
  intro o ho
  rcases List.mem_cons.1 ho with rfl | ho
  · rw [Run.receiver]
    cases s.receiver with
    | none => exact Operand.recorded_of_serial rfl
    | some step => exact resolved _
  · obtain ⟨t, -, rfl⟩ := mem_resolveItems ho
    exact resolved t

/-- What holds of every run and its ledger. -/
structure Run.Sound (ledger : List Content) (r : Run) : Prop where
  accounts : Accounts ledger r.block
  absorbed : Absorbed ledger r.block
  results : ∀ o ∈ r.results, o.Recorded ledger

theorem Ledger.sound {script : List Step} {ledger : List Content} (h : Ledger script ledger) :
    (run script).Sound ledger := by
  induction h with
  | start => exact ⟨Accounts.empty, by simp [Absorbed], by simp [Run.start]⟩
  | @step script ledger contents s past effect ih =>
    have ho := Run.operands_recorded ih.results s
    rw [run_snoc]
    refine ⟨effect.accounts ih.accounts ih.absorbed ho,
      effect.absorbed ih.accounts ih.absorbed ho, fun o hmem => ?_⟩
    rcases List.mem_append.1 hmem with hmem | hmem
    · exact (ih.results o hmem).append contents
    · cases hout : ((run script).outcome s).1 with
      | error fault =>
        rw [List.mem_singleton.1 hmem, hout]
        exact Operand.recorded_of_serial rfl
      | ok given =>
        rw [List.mem_singleton.1 hmem, hout]
        exact effect.recorded ih.accounts ih.absorbed ho hout

theorem length_results (script : List Step) : (run script).results.length = script.length := by
  induction script using List.reverseRecOn with
  | nil => rfl
  | append_singleton script s ih =>
    rw [run_snoc, Run.step, Run.record, List.length_append, ih, List.length_append]
    rfl

/-! ## Finished scripts -/

/-- The block of a script that ends with a result. With null it is the block as the last call
leaves it. -/
def finish (script : List Step) (result : Term) : Block :=
  conclude (result.resolve (run script).results) (run script).block

@[simp] theorem finish_null (script : List Step) :
    finish script (.value .null) = (run script).block := rfl

theorem finish_eq_registerAll (script : List Step) (result : Term) :
    ∃ items : List Operand,
      finish script result = (run script).block.registerAll (items.map .item) := by
  rw [finish, conclude.eq_def]
  split
  · exact ⟨[], rfl⟩
  · exact ⟨[], rfl⟩
  · exact ⟨[], rfl⟩
  · exact ⟨_, registerItems_eq _ _⟩

@[simp] theorem chains_registerAll (contents : List Content) (b : Block) :
    (b.registerAll contents).chains = b.chains := by
  induction contents generalizing b with
  | nil => rfl
  | cons c contents ih => exact ih (b.register c)

@[simp] theorem chains_finish (script : List Step) (result : Term) :
    (finish script result).chains = (run script).block.chains := by
  obtain ⟨items, hfinish⟩ := finish_eq_registerAll script result
  rw [hfinish, chains_registerAll]

theorem isPlain_items (items : List Operand) :
    ∀ c ∈ items.map Content.item, c.isPlain := by
  intro c hc
  obtain ⟨o, -, rfl⟩ := List.mem_map.1 hc
  rfl

end GraphQuery.Block
