import GraphQuery.Proofs.Block.Run

/-!
# Merges

The registry becomes smaller only by a merge, the combination of a registered filter with another
registered fragment: one fragment enters and two leave. After any other call the registry is as
large as before, or larger.
-/
namespace GraphQuery

namespace Registry

variable {α : Type}

theorem length_remove (serial : Nat) (r : Registry α) : r.length ≤ (remove serial r).length + 1 := by
  have := List.le_length_eraseP (p := (·.serial == serial)) (l := r)
  rw [remove]
  omega

theorem length_overwrite (old : Nat) (new : Fragment α) (r : Registry α) :
    (overwrite old new r).length = r.length := by
  induction r with
  | nil => rfl
  | cons g r ih =>
    rw [overwrite]
    split <;> simp [ih]

end Registry

namespace Block

theorem length_unregister (o : Operand) (b : Block) :
    b.registry.length ≤ (b.unregister o).registry.length + 1 := by
  rw [unregister]
  split
  · exact Registry.length_remove _ _
  · omega

theorem length_register (content : Content) (b : Block) :
    (b.register content).registry.length = b.registry.length + 1 := Registry.length_insert _ _

theorem length_registerAll (contents : List Content) (b : Block) :
    b.registry.length ≤ (b.registerAll contents).registry.length := by
  induction contents generalizing b with
  | nil => exact Nat.le_refl _
  | cons c contents ih =>
    have := length_register c b
    have := ih (b.register c)
    simp only [registerAll, List.foldl_cons] at this ⊢
    omega

/-- A filter makes the registry smaller only if both its operands are registered, and are two. -/
theorem length_absorb (filter : Content) (left right : Operand) (b : Block) :
    b.registry.length ≤ (b.absorb filter left right).registry.length ∨
      (b.register filter).isRegistered left ∧
        ((b.register filter).unregister left).isRegistered right := by
  have hin := length_register filter b
  have hleft := length_unregister left (b.register filter)
  have hright := length_unregister right ((b.register filter).unregister left)
  rw [absorb]
  by_cases hl : (b.register filter).isRegistered left
  · by_cases hr : ((b.register filter).unregister left).isRegistered right
    · exact .inr ⟨hl, hr⟩
    · rw [unregister_eq_self hr]
      omega
  · rw [unregister_eq_self hl] at hright ⊢
    omega

section Calls

variable {ledger : List Content} {b : Block}

theorem Operand.Recorded.eq_ofFragment {o : Operand} (h : Accounts ledger b)
    (ho : o.Recorded ledger) (hreg : b.isRegistered o) : ∃ f ∈ b.registry, o = ofFragment f := by
  obtain ⟨serial, hs, hmem⟩ := isRegistered_iff.1 hreg
  obtain ⟨f, hf, rfl⟩ := Registry.mem_serials.1 hmem
  exact ⟨f, hf, ho.eq_fragment hs (h.content f hf)⟩

/-- What is registered next to a new fragment was registered before if it is recorded. -/
theorem isRegistered_of_register {o : Operand} (h : Accounts ledger b) (ho : o.Recorded ledger)
    {filter : Content} (hreg : (b.register filter).isRegistered o) : b.isRegistered o := by
  obtain ⟨serial, hs, hmem⟩ := isRegistered_iff.1 hreg
  rcases Registry.mem_serials_insert.1 hmem with rfl | hmem
  · have := ho.lt hs
    simp [Content.fragment, h.size] at this
  · exact isRegistered_iff.2 ⟨serial, hs, hmem⟩

/-- When a filter makes the registry smaller, its operands are two registered fragments. -/
theorem exists_fragments_of_absorb {filter : Content} {left right : Operand}
    (h : Accounts ledger b) (hl : left.Recorded ledger) (hr : right.Recorded ledger)
    (hlt : (b.absorb filter left right).registry.length < b.registry.length) :
    ∃ f ∈ b.registry, ∃ g ∈ b.registry, left = ofFragment f ∧ right = ofFragment g ∧
      f.serial ≠ g.serial := by
  obtain ⟨hleft, hright⟩ := (length_absorb filter left right b).resolve_left (by omega)
  have hnodup : (b.register filter).registry.serials.Nodup :=
    Registry.nodup_serials_insert.2 ⟨h.fresh, h.nodup⟩
  obtain ⟨serial, hs, hmem⟩ := isRegistered_iff.1 hright
  obtain ⟨e, he, rfl⟩ := Registry.mem_serials.1 hmem
  obtain ⟨hbefore, hapart⟩ := (mem_unregister hnodup).1 he
  have hstill : (b.register filter).isRegistered right :=
    isRegistered_iff.2 ⟨e.serial, hs, Registry.mem_serials.2 ⟨e, hbefore, rfl⟩⟩
  obtain ⟨f, hf, rfl⟩ := hl.eq_ofFragment h (isRegistered_of_register h hl hleft)
  obtain ⟨g, hg, rfl⟩ := hr.eq_ofFragment h (isRegistered_of_register h hr hstill)
  refine ⟨f, hf, g, hg, rfl, rfl, fun heq => hapart ?_⟩
  rw [← hs]
  exact congrArg some heq

/-! ## Calls -/

/-- A filter of a property leaves the registry as large. -/
theorem length_composed_property (slot : Nat) (key right : Operand) (operator : Operator)
    (b : Block) :
    b.registry.length ≤ (b.composed (.property slot key) right operator).2.registry.length := by
  refine (length_absorb _ (.property slot key) right b).resolve_right ?_
  rintro ⟨hleft, -⟩
  obtain ⟨serial, hs, -⟩ := isRegistered_iff.1 hleft
  cases hs

theorem length_compare (operator : Operator) (left right : Operand) (b : Block) :
    b.registry.length ≤ (b.compare operator left right).2.registry.length := by
  rw [compare.eq_def]
  split
  · exact length_composed_property _ _ _ _ _
  · exact length_composed_property _ _ _ _ _
  · split
    · exact Nat.le_refl _
    · exact Nat.le_refl _
    · rw [ordered.eq_def]
      split
      · split <;> exact Nat.le_refl _
      · exact Nat.le_refl _

theorem length_matching (left right : Operand) (b : Block) :
    b.registry.length ≤ (b.matching left right).2.registry.length := by
  rw [matching.eq_def]
  split
  · exact length_composed_property _ _ _ _ _
  · exact Nat.le_refl _

/-- A call that is no combination leaves the registry as large. -/
theorem Effect.length_registry {contents : List Content} {verb : Verb} {operands : List Operand}
    {outcome : Outcome} (e : Effect b verb operands contents outcome) (h : Accounts ledger b)
    (ha : Absorbed ledger b) (ho : ∀ o ∈ operands, o.Recorded ledger) (hv : verb.combines = false) :
    b.registry.length ≤ outcome.2.registry.length := by
  cases e with
  | enter names unbound contents result plain known quiet =>
    exact length_registerAll contents { b with names := names, unbound := unbound }
  | tag => exact Nat.le_refl _
  | start l slot style right asked =>
    have hin := length_register (.segment b.chains.length 0) b
    exact Nat.le_trans (Nat.le_succ _) (Nat.le_of_eq hin.symm)
  | extend l serial chain index c style right asked receiver found inside =>
    have hout := length_unregister (.fragment serial (.segment chain index)) b
    have hin := length_register (.segment chain c.segments.length)
      (b.unregister (.fragment serial (.segment chain index)))
    exact Nat.le_trans hout (Nat.le_of_eq hin.symm)
  | compose left right operator asked givenLeft givenRight => simp [hv] at asked
  | negate negation serial left right operator negated asked receiver =>
    have hsize := Registry.length_overwrite serial
      ((filterOf left right operator true).fragment b.serials) b.registry
    rw [negate_registry h ha negation (ho _ (List.mem_of_head? receiver) _ _ rfl)]
    exact Nat.le_of_eq hsize.symm

end Calls

/-! ## Runs -/

/-- A step merges when it combines two registered fragments. -/
def Run.Merges (r : Run) (s : Step) : Prop :=
  ∃ operator, s.verb = .combine operator ∧ ∃ f ∈ r.block.registry, ∃ g ∈ r.block.registry,
    r.receiver s = ofFragment f ∧ resolveItems r.results s.args = [ofFragment g] ∧
      f.serial ≠ g.serial

/-- Of the calls that make filters only combinations make the registry smaller. -/
theorem combine_of_length_lt {verb : Verb} {receiver : Operand} {args : List Operand} {b : Block}
    (hv : verb.combines)
    (hlt : (b.perform verb receiver args).2.registry.length < b.registry.length) :
    ∃ operator other, verb = .combine operator ∧ args = [other] ∧
      (b.combine operator receiver other).2.registry.length < b.registry.length := by
  cases verb with
  | compare operator =>
    match args with
    | [other] => exact absurd (length_compare operator receiver other b) (Nat.not_le_of_lt hlt)
    | [] | _ :: _ :: _ => exact absurd hlt (Nat.lt_irrefl _)
  | matching =>
    match args with
    | [other] => exact absurd (length_matching receiver other b) (Nat.not_le_of_lt hlt)
    | [] | _ :: _ :: _ => exact absurd hlt (Nat.lt_irrefl _)
  | combine operator =>
    match args with
    | [other] => exact ⟨operator, other, rfl, rfl, hlt⟩
    | [] | _ :: _ :: _ => exact absurd hlt (Nat.lt_irrefl _)
  | _ => cases hv

/-- Only a merge makes the registry smaller. -/
theorem Run.merges_of_length_lt {ledger : List Content} {r : Run} {s : Step} (h : r.Sound ledger)
    (hlt : (r.outcome s).2.registry.length < r.block.registry.length) : r.Merges s := by
  have ho := Run.operands_recorded h.results s
  have hv : s.verb.combines = true := by
    by_contra hno
    obtain ⟨contents, effect⟩ := r.outcome_effect s
    have := effect.length_registry h.accounts h.absorbed ho (by simpa using hno)
    omega
  rw [outcome] at hlt
  split at hlt
  · obtain ⟨operator, other, hverb, hargs, hlt⟩ := combine_of_length_lt hv hlt
    change (r.block.combine operator (r.receiver s) other).2.registry.length < _ at hlt
    have hleft := ho (r.receiver s) (by simp [operands])
    have hright := ho other (by simp [operands, hargs])
    rw [combine.eq_def] at hlt
    split at hlt
    · obtain ⟨f, hf, g, hg, hfr, hgo, hne⟩ :=
        exists_fragments_of_absorb h.accounts hleft hright hlt
      exact ⟨operator, hverb, f, hf, g, hg, hfr, by rw [hargs, hgo], hne⟩
    · split at hlt <;> exact absurd hlt (Nat.lt_irrefl _)
    · exact absurd hlt (Nat.lt_irrefl _)
  · exact absurd hlt (Nat.lt_irrefl _)

/-- A registry that has become smaller between two calls has seen a merge between them. -/
theorem exists_merges_of_length_lt {past later : List Step} (h : past <+: later)
    (hlt : (run later).block.registry.length < (run past).block.registry.length) :
    ∃ between s, past <+: between ∧ between ++ [s] <+: later ∧ (run between).Merges s := by
  induction later using List.reverseRecOn with
  | nil =>
    rw [List.prefix_nil.1 h] at hlt
    exact absurd hlt (Nat.lt_irrefl _)
  | append_singleton later s ih =>
    rcases List.prefix_concat_iff.1 h with rfl | h
    · exact absurd hlt (Nat.lt_irrefl _)
    · by_cases hstep : (run (later ++ [s])).block.registry.length < (run later).block.registry.length
      · obtain ⟨ledger, hledger⟩ := exists_ledger later
        rw [run_snoc] at hstep
        exact ⟨later, s, h, List.prefix_rfl, Run.merges_of_length_lt hledger.sound hstep⟩
      · obtain ⟨between, t, hfirst, hlast, hmerges⟩ := ih h (by omega)
        exact ⟨between, t, hfirst, hlast.trans (List.prefix_append _ _), hmerges⟩

end Block
end GraphQuery
