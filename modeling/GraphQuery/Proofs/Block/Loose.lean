import GraphQuery.Proofs.Block.Tree

/-!
# Loose filters

A registered filter stands for its whole tree. A filter is left out of all trees when its own
negation takes its place, or when it negates one that has no place to give; combined with another
one it is in a tree again, and stays in one from then on. No other filter is ever lost.
-/
namespace GraphQuery.Block
namespace Run

/-- A step puts the negation of a registered filter in its place. -/
def Supersedes (r : Run) (s : Step) (m : Nat) : Prop :=
  ∃ (n : Negation) (k : Nat) (content negation : Content), s.verb = .negate n ∧
    r.receiver s = .fragment m content ∧ m ∈ r.block.registry.serials ∧
      (r.outcome s).1 = .ok (.fragment k negation)

/-- A step makes the negation of a filter that is not registered. -/
def Detaches (r : Run) (s : Step) (m : Nat) : Prop :=
  ∃ (n : Negation) (k : Nat) (content negation : Content), s.verb = .negate n ∧
    r.receiver s = .fragment k content ∧ k ∉ r.block.registry.serials ∧
      (r.outcome s).1 = .ok (.fragment m negation)

/-- A step makes a filter of which another one is an operand. -/
def Combines (r : Run) (s : Step) (m : Nat) : Prop :=
  s.verb.combines ∧ ∃ (k : Nat) (left right : Operand) (operator : Operator) (negated : Bool),
    (r.outcome s).1 = .ok (.fragment k (.filter left right operator negated)) ∧
      (left.serial? = some m ∨ right.serial? = some m)

end Run

/-- A filter is loose after a script when it was superseded by its own negation, or made as the
negation of an unregistered one, and was not combined since. -/
inductive Loose : List Step → Nat → Prop where
  | superseded {script : List Step} {s : Step} {m : Nat} (h : (run script).Supersedes s m) :
      Loose (script ++ [s]) m
  | detached {script : List Step} {s : Step} {m : Nat} (h : (run script).Detaches s m) :
      Loose (script ++ [s]) m
  | uncombined {script : List Step} {s : Step} {m : Nat} (past : Loose script m)
      (h : ¬ (run script).Combines s m) : Loose (script ++ [s]) m

theorem loose_snoc {script : List Step} {s : Step} {m : Nat} : Loose (script ++ [s]) m ↔
    (run script).Supersedes s m ∨ (run script).Detaches s m ∨
      Loose script m ∧ ¬ (run script).Combines s m := by
  constructor
  · intro h
    generalize ht : script ++ [s] = t at h
    cases h with
    | superseded h =>
      obtain ⟨rfl, hs⟩ := List.append_inj' ht rfl
      cases hs
      exact .inl h
    | detached h =>
      obtain ⟨rfl, hs⟩ := List.append_inj' ht rfl
      cases hs
      exact .inr (.inl h)
    | uncombined past h =>
      obtain ⟨rfl, hs⟩ := List.append_inj' ht rfl
      cases hs
      exact .inr (.inr ⟨past, h⟩)
  · rintro (h | h | ⟨past, h⟩)
    · exact .superseded h
    · exact .detached h
    · exact .uncombined past h

theorem not_loose_nil (m : Nat) : ¬ Loose [] m := by
  intro h
  generalize ht : ([] : List Step) = t at h
  cases h <;> simp at ht

/-- A step that gives no filter of its own leaves the loose ones as they are. -/
theorem loose_snoc_of_quiet {script : List Step} {s : Step} {m : Nat}
    (h : s.verb.makesFilters → ∀ o, ((run script).outcome s).1 = .ok o → o.serial? = none) :
    Loose (script ++ [s]) m ↔ Loose script m := by
  have hgives {k : Nat} {content : Content} (hv : s.verb.makesFilters) :
      ((run script).outcome s).1 ≠ .ok (.fragment k content) := by
    intro hout
    cases h hv _ hout
  rw [loose_snoc]
  constructor
  · rintro (⟨n, k, c, d, hv, -, -, hout⟩ | ⟨n, k, c, d, hv, -, -, hout⟩ | ⟨past, -⟩)
    · exact absurd hout (hgives (by rw [hv]; rfl))
    · exact absurd hout (hgives (by rw [hv]; rfl))
    · exact past
  · intro past
    refine .inr (.inr ⟨past, ?_⟩)
    rintro ⟨hv, k, left, right, operator, negated, hout, -⟩
    exact hgives (Verb.makesFilters_of_combines hv) hout

section Filters

variable {script : List Step} {s : Step} {left right : Operand} {operator : Operator}
  {negated : Bool}

theorem loose_snoc_composed (asked : s.verb.combines)
    (hout : (run script).outcome s = (run script).block.composed left right operator) {m : Nat} :
    Loose (script ++ [s]) m ↔
      Loose script m ∧ left.serial? ≠ some m ∧ right.serial? ≠ some m := by
  have hcombines : (run script).Combines s m ↔
      left.serial? = some m ∨ right.serial? = some m := by
    constructor
    · rintro ⟨-, k, l, r, op, n, hgiven, hs⟩
      rw [hout] at hgiven
      cases hgiven
      exact hs
    · intro hs
      exact ⟨asked, _, left, right, _, false, by rw [hout]; rfl, hs⟩
  rw [loose_snoc, hcombines, not_or]
  constructor
  · rintro (⟨n, k, c, d, hv, -⟩ | ⟨n, k, c, d, hv, -⟩ | hpast)
    · rw [hv] at asked
      cases asked
    · rw [hv] at asked
      cases asked
    · exact hpast
  · exact fun hpast => .inr (.inr hpast)

theorem loose_snoc_negated {negation : Negation} {serial : Nat}
    (asked : s.verb = .negate negation)
    (receiver : (run script).receiver s = .fragment serial (.filter left right operator negated))
    (hout : (run script).outcome s = (run script).block.negate negation
      (.fragment serial (.filter left right operator negated))) {m : Nat} :
    Loose (script ++ [s]) m ↔
      (m = serial ∧ serial ∈ (run script).block.registry.serials) ∨
        (m = (run script).block.serials ∧ serial ∉ (run script).block.registry.serials) ∨
          Loose script m := by
  have hgiven : ((run script).outcome s).1 =
      .ok (.fragment (run script).block.serials (filterOf left right operator true)) := by
    rw [hout]
    rfl
  have hcombines : ¬ (run script).Combines s m := by
    rintro ⟨hv, -⟩
    rw [asked] at hv
    cases hv
  rw [loose_snoc]
  constructor
  · rintro (⟨n, k, c, d, -, hr, hreg, -⟩ | ⟨n, k, c, d, -, hr, hreg, hd⟩ | ⟨past, -⟩)
    · rw [receiver] at hr
      cases hr
      exact .inl ⟨rfl, hreg⟩
    · rw [receiver] at hr
      rw [hgiven] at hd
      cases hr
      cases hd
      exact .inr (.inl ⟨rfl, hreg⟩)
    · exact .inr (.inr past)
  · rintro (⟨rfl, hreg⟩ | ⟨rfl, hreg⟩ | past)
    · exact .inl ⟨negation, _, _, _, asked, receiver, hreg, hgiven⟩
    · exact .inr (.inl ⟨negation, _, _, _, asked, receiver, hreg, hgiven⟩)
    · exact .inr (.inr ⟨past, hcombines⟩)

end Filters
end GraphQuery.Block
