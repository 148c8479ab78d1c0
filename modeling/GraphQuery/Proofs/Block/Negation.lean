import GraphQuery.Proofs.Block.Condition

/-!
# Negations

A filter that is no negation and its negation are never both true, and never both false. The
negation of a negation is the same negation once more: it says what was said before.
-/
namespace GraphQuery.Block

/-! ## Recorded filters -/

/-- Whether a filter asks for a match wherever its right side is a pattern. -/
def Content.isEffective : Content → Bool
  | .filter _ right operator _ => effectiveOperator operator right = operator
  | _ => true

theorem isEffective_filterOf (left right : Operand) (operator : Operator) (negated : Bool) :
    (filterOf left right operator negated).isEffective := by
  have hagain : effectiveOperator (effectiveOperator operator right) right =
      effectiveOperator operator right := by
    cases right with
    | value v => cases v <;> rfl
    | _ => rfl
  exact decide_eq_true hagain

theorem Effect.isEffective {b : Block} {verb : Verb} {operands : List Operand}
    {contents : List Content} {outcome : Outcome} (e : Effect b verb operands contents outcome) :
    ∀ c ∈ contents, c.isEffective := by
  intro c hc
  cases e with
  | enter names unbound contents result plain known quiet =>
    have hplain := plain c hc
    cases c with
    | filter => cases hplain
    | _ => rfl
  | tag => cases hc
  | start | extend =>
    rw [List.mem_singleton.1 hc]
    rfl
  | compose | negate =>
    rw [List.mem_singleton.1 hc]
    exact isEffective_filterOf _ _ _ _

theorem Ledger.isEffective {script : List Step} {ledger : List Content}
    (h : Ledger script ledger) : ∀ c ∈ ledger, c.isEffective := by
  induction h with
  | start => simp
  | step past effect ih =>
    intro c hc
    rcases List.mem_append.1 hc with hc | hc
    · exact ih c hc
    · exact effect.isEffective c hc

theorem effective_of_mem_results {script : List Step} {serial : Nat} {left right : Operand}
    {operator : Operator} {negated : Bool}
    (h : .fragment serial (.filter left right operator negated) ∈ (run script).results) :
    effectiveOperator operator right = operator := by
  obtain ⟨ledger, past⟩ := exists_ledger script
  have hrecorded := past.sound.results _ h _ _ rfl
  exact of_decide_eq_true (past.isEffective _ (List.mem_of_getElem? hrecorded))

/-! ## Negated filters -/

theorem meaning_signed (s : Scope) (left right : Operand) (operator : Operator) (negated : Bool) :
    (Content.filter left right operator negated).meaning s =
      ((Content.filter left right operator false).meaning s).map (Condition.signed negated) := by
  cases hop : operator.connective? with
  | none =>
    rw [meaning_comparison s hop, meaning_comparison s hop]
    cases writtenSides s left operator right <;> rfl
  | some combination =>
    rw [meaning_combination s hop, meaning_combination s hop]
    cases right.write s .literal with
    | error fault => rfl
    | ok written =>
      cases left.meaning s with
      | error fault => rfl
      | ok c => cases right.meaning s <;> rfl

/-- A negated condition is the opposite of the condition, but not of its negation. -/
theorem Condition.opposes_signed_iff (c : Condition) (negated : Bool) :
    (∀ t : Truth, (c.signed true).holds t = !(c.signed negated).holds t) ↔ negated = false := by
  cases negated with
  | false => exact iff_of_true (fun t => rfl) rfl
  | true =>
    -- nothing is its own opposite
    refine iff_of_false (fun h => ?_) (by simp)
    have hself := h default
    cases hc : (c.signed true).holds default <;> simp [hc] at hself

theorem negate_effective {operator : Operator} {right : Operand}
    (h : effectiveOperator operator right = operator) (b : Block) (negation : Negation)
    (serial : Nat) (left : Operand) (negated : Bool) :
    (b.negate negation (.fragment serial (.filter left right operator negated))).1 =
      .ok (.fragment b.serials (.filter left right operator true)) := by
  have hfilter : filterOf left right operator true = .filter left right operator true := by
    rw [filterOf, h]
  rw [← hfilter]
  rfl

/-- Whatever filter a script has made, its negation is made, and so is the negation of that. Both
say the same. They say the opposite of the filter, for all truths, exactly if it is no negation
itself; if it is, all three say the same. -/
theorem negate_negates_iff {script : List Step} {serial : Nat} {left right : Operand}
    {operator : Operator} {negated : Bool} {e : Operand}
    (he : e = .fragment serial (.filter left right operator negated))
    (h : e ∈ (run script).results) (negation again : Negation) (b b' : Block) :
    ∃ e' e'' : Operand, (b.negate negation e).1 = .ok e' ∧ (b'.negate again e').1 = .ok e'' ∧
      ∀ s : Scope, (∃ fault, e.meaning s = .error fault ∧ e'.meaning s = .error fault ∧
          e''.meaning s = .error fault) ∨
        ∃ c c' : Condition, e.Says s c ∧ e'.Says s c' ∧ e''.Says s c' ∧
          ((∀ t : Truth, c'.holds t = !c.holds t) ↔ negated = false) ∧
          (negated = true → c' = c) := by
  subst he
  have heff := effective_of_mem_results h
  refine ⟨_, _, negate_effective heff b negation serial left negated,
    negate_effective heff b' again _ left true, fun s => ?_⟩
  have hmeaning := meaning_signed s left right operator
  cases hpositive : (Content.filter left right operator false).meaning s with
  | error fault =>
    simp only [hpositive] at hmeaning
    exact .inl ⟨fault, hmeaning negated, hmeaning true, hmeaning true⟩
  | ok c =>
    simp only [hpositive] at hmeaning
    refine .inr ⟨c.signed negated, c.signed true, ?_, ?_, ?_, c.opposes_signed_iff negated,
      fun h => by rw [h]⟩
    · exact Operand.says_of_meaning (hmeaning negated)
    · exact Operand.says_of_meaning (hmeaning true)
    · exact Operand.says_of_meaning (hmeaning true)

/-- A comparison of a property, negated. -/
def negatedOnce : List Step :=
  [⟨.node, none, [.value (.int 1)]⟩,
   ⟨.property, some 0, [.value (.text "a")]⟩,
   ⟨.compare .less, some 1, [.value (.int 1)]⟩,
   ⟨.negate .complement, some 2, []⟩]

def ageBelowOne (serial : Nat) (negated : Bool) : Operand :=
  .fragment serial
    (.filter (.property 0 (.value (.text "a"))) (.value (.int 1)) .less negated)

/-- The comparison is negated, and its negation is not. -/
theorem negatedOnce_opposite :
    (∃ e' c c', ((run negatedOnce).block.negate .named (ageBelowOne 1 false)).1 = .ok e' ∧
      (ageBelowOne 1 false).Says (run negatedOnce).block.scope c ∧
      e'.Says (run negatedOnce).block.scope c' ∧ ∀ t : Truth, c'.holds t = !c.holds t) ∧
    ∃ e' c c', ((run negatedOnce).block.negate .named (ageBelowOne 2 true)).1 = .ok e' ∧
      (ageBelowOne 2 true).Says (run negatedOnce).block.scope c ∧
      e'.Says (run negatedOnce).block.scope c' ∧ c' = c := by
  set b := (run negatedOnce).block
  have hcompared : ageBelowOne 1 false ∈ (run negatedOnce).results :=
    List.mem_of_getElem? (i := 2) rfl
  have hnegated : ageBelowOne 2 true ∈ (run negatedOnce).results :=
    List.mem_of_getElem? (i := 3) rfl
  constructor
  · obtain ⟨e', e'', he', he'', h⟩ := negate_negates_iff
      (e := ageBelowOne 1 false) rfl hcompared .named .named b b
    rcases h b.scope with ⟨fault, hfault, -⟩ | ⟨c, c', hc, hc', -, hiff, -⟩
    · cases hfault
    · exact ⟨e', c, c', he', hc, hc', hiff.2 rfl⟩
  · obtain ⟨e', e'', he', he'', h⟩ := negate_negates_iff
      (e := ageBelowOne 2 true) rfl hnegated .named .named b b
    rcases h b.scope with ⟨fault, hfault, -⟩ | ⟨c, c', hc, hc', -, -, hsame⟩
    · cases hfault
    · exact ⟨e', c, c', he', hc, hc', hsame rfl⟩

/-- The negation of a comparison, negated once more. -/
def negatedTwice : List Step := negatedOnce ++ [⟨.negate .complement, some 3, []⟩]

theorem negatedTwice_not_opposite :
    (finish negatedTwice (.value .null)).text = .ok "START n0=node(1) WHERE not (n0.a < 1)" ∧
    ∃ e e' c, (run negatedTwice).results[3]? = some e ∧ (run negatedTwice).results[4]? = some e' ∧
      e.meaning (run negatedTwice).block.scope = .ok c ∧
      e'.meaning (run negatedTwice).block.scope = .ok c ∧
      ¬ ∀ t : Truth, c.holds t = !c.holds t := by
  refine ⟨rfl, _, _, _, rfl, rfl, rfl, rfl, fun h => ?_⟩
  exact absurd (h default) (by decide)

end GraphQuery.Block
