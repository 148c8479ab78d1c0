import GraphQuery.Proofs.Block.Run

/-!
# Renumbering

The terms of a script mention the results of calls by number. When calls change places, so do their
results, and with the terms renumbered accordingly the later calls are asked for the same.
-/
namespace GraphQuery.Block

mutual

/-- A term with the results that it mentions found in other places. -/
def Term.renumber (place : Nat → Nat) : Term → Term
  | .value v => .value v
  | .list items => .list (renumberItems place items)
  | .tuple items => .tuple (renumberItems place items)
  | .map entries => .map (renumberEntries place entries)
  | .result step => .result (place step)
  | .block => .block
termination_by structural term => term

def renumberItems (place : Nat → Nat) : List Term → List Term
  | [] => []
  | item :: items => item.renumber place :: renumberItems place items
termination_by structural items => items

def renumberEntries (place : Nat → Nat) : List (Term × Term) → List (Term × Term)
  | [] => []
  | (key, term) :: entries =>
    (key.renumber place, term.renumber place) :: renumberEntries place entries
termination_by structural entries => entries

end

def Step.renumber (place : Nat → Nat) (s : Step) : Step :=
  ⟨s.verb, s.receiver.map place, renumberItems place s.args⟩

/-- The result of a step, null if there is none. -/
def resultAt (results : List Operand) (step : Nat) : Operand :=
  (results[step]?).getD (.value .null)

/-- What the one results have under a number the others have in its place. -/
def Relocates (place : Nat → Nat) (results results' : List Operand) : Prop :=
  ∀ step, resultAt results' (place step) = resultAt results step

section Terms

variable {place : Nat → Nat} {results results' : List Operand}

mutual

theorem Term.resolve_renumber (h : Relocates place results results') (t : Term) :
    (t.renumber place).resolve results' = t.resolve results := by
  cases t with
  | value v => rfl
  | list items =>
    rw [Term.renumber, Term.resolve, Term.resolve, resolveItems_renumber h items]
  | tuple items =>
    rw [Term.renumber, Term.resolve, Term.resolve, resolveItems_renumber h items]
  | map entries =>
    rw [Term.renumber, Term.resolve, Term.resolve, resolveEntries_renumber h [] entries]
  | result step => exact h step
  | block => rfl
termination_by structural t

theorem resolveItems_renumber (h : Relocates place results results') (items : List Term) :
    resolveItems results' (renumberItems place items) = resolveItems results items := by
  cases items with
  | nil => rfl
  | cons item items =>
    rw [renumberItems, resolveItems, resolveItems, Term.resolve_renumber h item,
      resolveItems_renumber h items]
termination_by structural items

theorem resolveEntries_renumber (h : Relocates place results results')
    (entered : List (Operand × Operand)) (entries : List (Term × Term)) :
    resolveEntries results' entered (renumberEntries place entries) =
      resolveEntries results entered entries := by
  match entries with
  | [] => rfl
  | (key, term) :: entries =>
    rw [renumberEntries, resolveEntries, resolveEntries, Term.resolve_renumber h key,
      Term.resolve_renumber h term, resolveEntries_renumber h _ entries]
termination_by structural entries

end

end Terms

/-! ## Places of results -/

theorem resultAt_append (results more : List Operand) (step : Nat) :
    resultAt (results ++ more) step =
      if step < results.length then resultAt results step
      else resultAt more (step - results.length) := by
  rw [resultAt, List.getElem?_append]
  split <;> rfl

theorem resultAt_cons (o : Operand) (results : List Operand) (step : Nat) :
    resultAt (o :: results) step = if step = 0 then o else resultAt results (step - 1) := by
  cases step with
  | zero => rfl
  | succ step => rfl

theorem resultAt_eq_null {results : List Operand} {step : Nat} (h : results.length ≤ step) :
    resultAt results step = .value .null := by
  rw [resultAt, List.getElem?_eq_none h, Option.getD_none]

/-- Where results are found when the one at a place is taken out that another place has as well. -/
def withdrawn (place other step : Nat) : Nat :=
  if step < place then step else if step = place then other else step - 1

/-- Where results are found when one is put in at a place. -/
def inserted (place step : Nat) : Nat := if step < place then step else step + 1

/-- Where results are found when the one at a place is put behind a number of others. -/
def postponed (place count step : Nat) : Nat :=
  if step < place then step else if step = place then place + count
  else if step ≤ place + count then step - 1 else step

/-- Where results are found when one is put before a number of others, at a place. -/
def advanced (place count step : Nat) : Nat :=
  if step < place then step else if step < place + count then step + 1
  else if step = place + count then place else step

section Places

variable {past later : List Operand} {owner : Operand}

theorem relocates_withdrawn {i : Nat} (hi : i < past.length) (howner : resultAt past i = owner) :
    Relocates (withdrawn past.length i) (past ++ owner :: later) (past ++ later) := by
  intro step
  rw [withdrawn, resultAt_append, resultAt_append, resultAt_cons]
  rcases Nat.lt_trichotomy step past.length with h | rfl | h
  · simp [h]
  · simp [hi, howner]
  · have h₁ : ¬ step < past.length := by omega
    have h₂ : step ≠ past.length := by omega
    have h₃ : ¬ step - 1 < past.length := by omega
    have h₄ : step - past.length ≠ 0 := by omega
    simp only [h₁, h₂, h₃, h₄, if_false]
    congr 1
    omega

theorem relocates_inserted :
    Relocates (inserted past.length) (past ++ later) (past ++ owner :: later) := by
  intro step
  rw [inserted, resultAt_append, resultAt_append, resultAt_cons]
  by_cases h : step < past.length
  · simp [h]
  · have h₁ : ¬ step + 1 < past.length := by omega
    have h₂ : step + 1 - past.length ≠ 0 := by omega
    simp only [h, h₁, h₂, if_false]
    congr 1
    omega

theorem relocates_postponed : Relocates (postponed past.length later.length)
    (past ++ owner :: later) (past ++ later ++ [owner]) := by
  intro step
  rw [postponed, List.append_assoc, resultAt_append, resultAt_append, resultAt_cons,
    resultAt_append, resultAt_cons]
  -- Results of the past stay, the one that is moved comes last, and all others move up.
  rcases Nat.lt_trichotomy step past.length with h | rfl | h
  · simp [h]
  · have h₁ : ¬ past.length + later.length < past.length := by omega
    simp [h₁]
  · have h₁ : ¬ step < past.length := by omega
    have h₂ : step ≠ past.length := by omega
    have h₃ : step - past.length ≠ 0 := by omega
    simp only [h₁, h₂, h₃, if_false]
    by_cases hin : step ≤ past.length + later.length
    · have h₄ : ¬ step - 1 < past.length := by omega
      have h₅ : step - 1 - past.length < later.length := by omega
      simp only [hin, h₄, h₅, if_true, if_false]
      congr 1
      omega
    · have h₄ : ¬ step - past.length < later.length := by omega
      have h₅ : step - past.length - later.length ≠ 0 := by omega
      simp only [hin, h₁, h₄, h₅, if_false]
      rw [resultAt_eq_null (by simp), resultAt_eq_null (by omega)]

theorem relocates_advanced : Relocates (advanced past.length later.length)
    (past ++ later ++ [owner]) (past ++ owner :: later) := by
  intro step
  rw [advanced, List.append_assoc, resultAt_append, resultAt_append, resultAt_cons,
    resultAt_append, resultAt_cons]
  by_cases h : step < past.length
  · simp [h]
  · simp only [h, if_false]
    rcases Nat.lt_trichotomy step (past.length + later.length) with hin | rfl | hin
    · have h₁ : ¬ step + 1 < past.length := by omega
      have h₂ : step + 1 - past.length ≠ 0 := by omega
      have h₃ : step - past.length < later.length := by omega
      simp only [hin, h₁, h₂, h₃, if_true, if_false]
      congr 1
      omega
    · simp
    · have h₁ : ¬ step < past.length + later.length := by omega
      have h₂ : step ≠ past.length + later.length := by omega
      have h₃ : step - past.length ≠ 0 := by omega
      have h₄ : ¬ step - past.length < later.length := by omega
      have h₅ : step - past.length - later.length ≠ 0 := by omega
      simp only [h, h₁, h₂, h₃, h₄, h₅, if_false]
      rw [resultAt_eq_null (by omega), resultAt_eq_null (by simp)]

end Places

/-! ## Calls asked for in two runs -/

/-- Two runs are asked for the same call by a step each. -/
structure SameCall (r : Run) (s : Step) (r' : Run) (s' : Step) : Prop where
  verb : s'.verb = s.verb
  receiver : r'.receiver s' = r.receiver s
  args : resolveItems r'.results s'.args = resolveItems r.results s.args

theorem SameCall.symm {r r' : Run} {s s' : Step} (h : SameCall r s r' s') : SameCall r' s' r s :=
  ⟨h.verb.symm, h.receiver.symm, h.args.symm⟩

theorem SameCall.outcome_eq {r r' : Run} {s s' : Step} (h : SameCall r s r' s')
    (hblock : r'.block = r.block) : r'.outcome s' = r.outcome s := by
  rw [Run.outcome_eq, Run.outcome_eq, h.verb, h.receiver, h.args, hblock]

theorem sameCall_renumber {place : Nat → Nat} {r r' : Run}
    (h : Relocates place r.results r'.results) (s : Step) : SameCall r s r' (s.renumber place) where
  verb := rfl
  receiver := by
    rw [Run.receiver, Run.receiver, Step.renumber]
    cases s.receiver with
    | none => rfl
    | some step => exact h step
  args := resolveItems_renumber h s.args

/-- Two runs of which the second one has the block and the results of the first one, though in
other places. -/
structure Run.Rearranges (place : Nat → Nat) (r r' : Run) : Prop where
  block : r'.block = r.block
  length : r'.results.length = r.results.length
  relocates : Relocates place r.results r'.results
  inside : ∀ step, step < r.results.length → place step < r.results.length
  outside : ∀ step, r.results.length ≤ step → place step = step

namespace Run.Rearranges

variable {place : Nat → Nat} {r r' : Run}

theorem step (h : r.Rearranges place r') (s : Step) :
    (r.step s).Rearranges place (r'.step (s.renumber place)) := by
  have houtcome := (sameCall_renumber h.relocates s).outcome_eq h.block
  rw [Run.step, Run.step, houtcome]
  refine ⟨rfl, by simp [record, h.length], fun step => ?_, fun step hstep => ?_, fun step hstep => ?_⟩
  · have hold := h.relocates step
    simp only [resultAt] at hold
    simp only [resultAt, record, List.getElem?_append, h.length]
    by_cases hlt : step < r.results.length
    · rw [if_pos hlt, if_pos (h.inside step hlt), hold]
    · rw [if_neg hlt, h.outside step (by omega), if_neg hlt]
  · simp only [record, List.length_append, List.length_singleton] at hstep ⊢
    by_cases hlt : step < r.results.length
    · exact Nat.lt_succ_of_lt (h.inside step hlt)
    · rw [h.outside step (by omega)]
      exact hstep
  · simp only [record, List.length_append, List.length_singleton] at hstep
    exact h.outside step (by omega)

theorem foldl (h : r.Rearranges place r') (steps : List Step) :
    (steps.foldl Run.step r).Rearranges place
      ((steps.map (Step.renumber place)).foldl Run.step r') := by
  induction steps generalizing r r' with
  | nil => exact h
  | cons s steps ih => exact ih (h.step s)

end Run.Rearranges

theorem run_append (script steps : List Step) :
    run (script ++ steps) = steps.foldl Run.step (run script) := by
  rw [run, List.foldl_append]
  rfl

/-- A script goes on from other places as it would from its own. -/
theorem finish_renumber {place : Nat → Nat} {script script' : List Step}
    (h : (run script).Rearranges place (run script')) (steps : List Step) (result : Term) :
    finish (script' ++ steps.map (Step.renumber place)) (result.renumber place) =
      finish (script ++ steps) result := by
  have hrest := h.foldl steps
  rw [← run_append, ← run_append] at hrest
  rw [finish, finish, Term.resolve_renumber hrest.relocates, hrest.block]

end GraphQuery.Block
