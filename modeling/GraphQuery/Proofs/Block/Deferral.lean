import GraphQuery.Proofs.Block.Naming
import GraphQuery.Proofs.Block.Renaming
import GraphQuery.Proofs.Block.Renumbering

/-!
# Moving a renaming

A variable may be given its name earlier or later among the calls behind the one that opens it: as
long as the call passes neither a renaming of the same variable nor a call that writes at once what
mentions it, the block in the end is the same. So what mentions the variable is written as if it
had had its last name from the start.
-/
namespace GraphQuery.Block

/-- The call that gives the variable which an earlier step resulted in another name. -/
def Step.naming (binding : Nat) (name : Value) : Step := ⟨.rename, some binding, [.value name]⟩

namespace Run

/-- The operands that a step has the block write at once. -/
def written (r : Run) (s : Step) : List Operand :=
  Block.written s.verb (resolveItems r.results s.args)

/-- A step neither renames the variable of a slot nor writes at once what mentions it. -/
def LetsPass (slot : Nat) (r : Run) (s : Step) : Prop :=
  r.renamed? s ≠ some slot ∧ ∀ o ∈ r.written s, o.avoids slot

end Run

/-- The steps that follow a script let a renaming pass. -/
def LetPass (slot : Nat) (script steps : List Step) : Prop :=
  ∀ before s, Performs steps before s → (run (script ++ before)).LetsPass slot s

theorem letPass_snoc {slot : Nat} {script steps : List Step} {s : Step}
    (h : LetPass slot script (steps ++ [s])) :
    LetPass slot script steps ∧ (run (script ++ steps)).LetsPass slot s :=
  ⟨fun before t ht => h before t (performs_snoc.2 (.inr ht)),
    h steps s (performs_snoc.2 (.inl ⟨rfl, rfl⟩))⟩

/-- Calls that do not rename anything and look for no index. -/
def Verb.letsPass : Verb → Bool
  | .rename | .search _ | .lookup _ => false
  | _ => true

theorem letPass_of_verbs {steps : List Step} (h : ∀ s ∈ steps, s.verb.letsPass) (slot : Nat)
    (script : List Step) : LetPass slot script steps := by
  intro before s hs
  have hverb := h s (hs.subset (by simp))
  rw [Run.LetsPass, Run.renamed?, Run.written]
  cases hcase : s.verb with
  | rename | search | lookup => rw [hcase] at hverb; cases hverb
  | _ => simp [Block.renamed?, Block.written]

theorem SameCall.letsPass {r r' : Run} {s s' : Step} {slot : Nat} (h : SameCall r s r' s')
    (hpass : r.LetsPass slot s) : r'.LetsPass slot s' := by
  rw [Run.LetsPass, Run.renamed?, Run.written] at hpass ⊢
  rw [h.verb, h.args, h.receiver]
  exact hpass

theorem SameCall.renamesTo {r r' : Run} {s s' : Step} (h : SameCall r s r' s') {slot : Nat}
    {name : Value} (hblock : r'.block = r.block.rename slot name)
    (hopened : slot < r.block.names.length) (hpass : r.LetsPass slot s) :
    Outcome.RenamesTo slot name (r.outcome s) (r'.outcome s') := by
  obtain ⟨hstay, hwritten⟩ := hpass
  rw [Run.outcome_eq, Run.outcome_eq, h.verb, h.receiver, h.args, hblock]
  rw [Run.renamed?] at hstay
  split
  · next hkeyed =>
    rw [if_pos hkeyed] at hstay
    exact perform_renamesTo hopened name hstay hwritten
  · exact .fail _ _

/-! ## Runs with the renaming and without -/

theorem Run.outcome_naming_step (r : Run) {i slot : Nat} {name : Value}
    (hslot : (resultAt r.results i).slot? = some slot) (hname : name.wellKeyed) :
    r.outcome (.naming i name) = (r.block.rename slot name).give (resultAt r.results i) := by
  have houtcome : r.outcome (.naming i name) =
      if name.wellKeyed && true then r.block.renamed (resultAt r.results i) (.value name)
      else r.block.fail .wrongType := r.outcome_eq (.naming i name)
  rw [houtcome, hname, Bool.and_true, if_pos rfl]
  simp only [Block.renamed, hslot]

/-- Of two runs the second one has made a renaming, behind the same past, that the first one has
not. -/
structure Ahead (slot : Nat) (name : Value) (past : List Operand) (owner : Operand)
    (later : List Operand) (r r' : Run) : Prop where
  block : r'.block = r.block.rename slot name
  opened : slot < r.block.names.length
  without : r.results = past ++ later
  ahead : r'.results = past ++ owner :: later

namespace Ahead

variable {slot : Nat} {name : Value} {past later : List Operand} {owner : Operand} {r r' : Run}

/-- A call that lets the renaming pass does the same in both runs. -/
theorem step (h : Ahead slot name past owner later r r') {s s' : Step} (hcall : SameCall r s r' s')
    (hpass : r.LetsPass slot s) :
    ∃ o, Ahead slot name past owner (later ++ [o]) (r.step s) (r'.step s') := by
  obtain ⟨hresult, hblock⟩ := hcall.renamesTo h.block h.opened hpass
  refine ⟨((r.outcome s).1.toOption).getD (.value .null), hblock, ?_, ?_, ?_⟩
  · have := (r.outcome_naming s).length_names
    have := h.opened
    change slot < (r.outcome s).2.names.length
    omega
  · simp [Run.step, Run.record, h.without]
  · simp [Run.step, Run.record, h.ahead, hresult]

/-- The renaming made up for, the first run has the block of the second one. -/
theorem step_naming (h : Ahead slot name past owner later r r') {i : Nat} (hi : i < past.length)
    (howner : resultAt past i = owner) (hslot : owner.slot? = some slot) (hname : name.wellKeyed) :
    r.step (.naming i name) = ⟨r'.block, past ++ later ++ [owner]⟩ := by
  have hresult : resultAt r.results i = owner := by
    rw [h.without, resultAt_append, if_pos hi, howner]
  rw [Run.step, r.outcome_naming_step (hresult ▸ hslot) hname, hresult, ← h.block, ← h.without]
  rfl

theorem length_ahead (h : Ahead slot name past owner later r r') :
    r'.results.length = past.length + later.length + 1 := by
  rw [h.ahead, List.length_append, List.length_cons, Nat.add_assoc]

theorem rearranges_postponed {i : Nat} (h : Ahead slot name past owner later r r')
    (hstep : r.step (.naming i name) = ⟨r'.block, past ++ later ++ [owner]⟩) :
    r'.Rearranges (postponed past.length later.length) (r.step (.naming i name)) := by
  rw [hstep]
  refine ⟨rfl, by simp [h.length_ahead, Nat.add_assoc], ?_, fun step => ?_, fun step => ?_⟩
  · rw [h.ahead]
    exact relocates_postponed
  · rw [h.length_ahead, postponed]
    grind
  · rw [h.length_ahead, postponed]
    grind

theorem rearranges_advanced {i : Nat} (h : Ahead slot name past owner later r r')
    (hstep : r.step (.naming i name) = ⟨r'.block, past ++ later ++ [owner]⟩) :
    (r.step (.naming i name)).Rearranges (advanced past.length later.length) r' := by
  rw [hstep]
  refine ⟨rfl, by simp [h.length_ahead, Nat.add_assoc], ?_, fun step => ?_, fun step => ?_⟩
  · rw [h.ahead]
    exact relocates_advanced
  · simp only [List.length_append, List.length_singleton, advanced]
    grind
  · simp only [List.length_append, List.length_singleton, advanced]
    grind

end Ahead

/-! ## Scripts -/

/-- A step of a script results in the variable of a slot that a call has opened. -/
structure Binds (script : List Step) (binding slot : Nat) : Prop where
  opened : ∃ o, Opens script slot o
  result : (resultAt (run script).results binding).slot? = some slot

namespace Binds

variable {past : List Step} {i slot : Nat} {name : Value} {between : List Step}

theorem lt (h : Binds past i slot) : i < (run past).results.length := by
  by_contra hout
  have hresult := h.result
  rw [resultAt_eq_null (Nat.le_of_not_lt hout)] at hresult
  cases hresult

theorem ahead (h : Binds past i slot) (hname : name.wellKeyed) :
    Ahead slot name (run past).results (resultAt (run past).results i) [] (run past)
      (run (past ++ [.naming i name])) := by
  rw [run_snoc, Run.step, (run past).outcome_naming_step h.result hname]
  exact ⟨rfl, lt_length_names_iff.2 h.opened, (List.append_nil _).symm, rfl⟩

/-- Behind a renaming that is made the run is ahead of the one where it is left out. -/
theorem ahead_of_withdrawn (h : Binds past i slot) (hname : name.wellKeyed)
    (hpass : LetPass slot (past ++ [.naming i name]) between) :
    ∃ later : List Operand, later.length = between.length ∧
      Ahead slot name (run past).results (resultAt (run past).results i) later
        (run (past ++ between.map (Step.renumber (withdrawn past.length i))))
        (run (past ++ [.naming i name] ++ between)) := by
  induction between using List.reverseRecOn with
  | nil =>
    rw [List.map_nil, List.append_nil, List.append_nil]
    exact ⟨[], rfl, h.ahead hname⟩
  | append_singleton between s ih =>
    obtain ⟨hrest, hlast⟩ := letPass_snoc hpass
    obtain ⟨later, hlength, hahead⟩ := ih hrest
    have hplaces : Relocates (withdrawn (run past).results.length i)
        ((run past).results ++ resultAt (run past).results i :: later)
        ((run past).results ++ later) := relocates_withdrawn h.lt rfl
    rw [← hahead.without, ← hahead.ahead, length_results] at hplaces
    have hcall := sameCall_renumber hplaces s
    obtain ⟨o, hnext⟩ := hahead.step hcall.symm (hcall.letsPass hlast)
    refine ⟨later ++ [o], by simp [hlength], ?_⟩
    rw [List.map_append, List.map_singleton, ← List.append_assoc, ← List.append_assoc, run_snoc,
      run_snoc]
    exact hnext

/-- With a renaming put in before some calls the run is ahead of the one without. -/
theorem ahead_of_inserted (h : Binds past i slot) (hname : name.wellKeyed)
    (hpass : LetPass slot past between) :
    ∃ later : List Operand, later.length = between.length ∧
      Ahead slot name (run past).results (resultAt (run past).results i) later
        (run (past ++ between))
        (run (past ++ [.naming i name] ++ between.map (Step.renumber (inserted past.length)))) := by
  induction between using List.reverseRecOn with
  | nil =>
    rw [List.map_nil, List.append_nil, List.append_nil]
    exact ⟨[], rfl, h.ahead hname⟩
  | append_singleton between s ih =>
    obtain ⟨hrest, hlast⟩ := letPass_snoc hpass
    obtain ⟨later, hlength, hahead⟩ := ih hrest
    have hplaces : Relocates (inserted (run past).results.length) ((run past).results ++ later)
        ((run past).results ++ resultAt (run past).results i :: later) := relocates_inserted
    rw [← hahead.without, ← hahead.ahead, length_results] at hplaces
    obtain ⟨o, hnext⟩ := hahead.step (sameCall_renumber hplaces s) hlast
    refine ⟨later ++ [o], by simp [hlength], ?_⟩
    rw [List.map_append, List.map_singleton, ← List.append_assoc, ← List.append_assoc, run_snoc,
      run_snoc]
    exact hnext

/-- A renaming put behind calls that let it pass. -/
theorem finish_postponed (h : Binds past i slot) (hname : name.wellKeyed)
    (hpass : LetPass slot (past ++ [.naming i name]) between) (rest : List Step) (result : Term) :
    finish (past ++ between.map (Step.renumber (withdrawn past.length i)) ++ [.naming i name] ++
        rest.map (Step.renumber (postponed past.length between.length)))
        (result.renumber (postponed past.length between.length)) =
      finish (past ++ [.naming i name] ++ between ++ rest) result := by
  obtain ⟨later, hlength, hahead⟩ := h.ahead_of_withdrawn hname hpass
  have hrearranges := hahead.rearranges_postponed (hahead.step_naming h.lt rfl h.result hname)
  rw [length_results, hlength, ← run_snoc] at hrearranges
  exact finish_renumber hrearranges rest result

/-- A renaming put before calls that let it pass. -/
theorem finish_advanced (h : Binds past i slot) (hname : name.wellKeyed)
    (hpass : LetPass slot past between) (rest : List Step) (result : Term) :
    finish (past ++ [.naming i name] ++ between.map (Step.renumber (inserted past.length)) ++
        rest.map (Step.renumber (advanced past.length between.length)))
        (result.renumber (advanced past.length between.length)) =
      finish (past ++ between ++ [.naming i name] ++ rest) result := by
  obtain ⟨later, hlength, hahead⟩ := h.ahead_of_inserted hname hpass
  have hrearranges := hahead.rearranges_advanced (hahead.step_naming h.lt rfl h.result hname)
  rw [length_results, hlength, ← run_snoc] at hrearranges
  exact finish_renumber hrearranges rest result

end Binds

/-- A name that is given stays as long as the variable is given no other. -/
theorem Binds.getElem?_names {past steps : List Step} {i slot : Nat} {name : Value}
    (h : Binds past i slot) (hname : name.wellKeyed)
    (hstay : ∀ before s, Performs steps before s →
      (run (past ++ [.naming i name] ++ before)).renamed? s ≠ some slot) :
    (run (past ++ [.naming i name] ++ steps)).block.names[slot]? = some name := by
  have hopened := lt_length_names_iff.2 h.opened
  induction steps using List.reverseRecOn with
  | nil =>
    rw [List.append_nil, run_snoc, Run.step, (run past).outcome_naming_step h.result hname]
    exact List.getElem?_set_self hopened
  | append_singleton steps s ih =>
    have hnow := hstay steps s (performs_snoc.2 (.inl ⟨rfl, rfl⟩))
    have hlt : slot < (run (past ++ [.naming i name] ++ steps)).block.names.length :=
      Nat.lt_of_lt_of_le hopened
        (length_names_mono (by rw [List.append_assoc]; exact List.prefix_append _ _))
    rw [← List.append_assoc, (step_naming _ s).getElem?_names hlt hnow]
    exact ih fun before t ht => hstay before t (performs_snoc.2 (.inr ht))

/-- A renaming can be put behind the calls that follow it, and before the calls that it follows,
as long as these let it pass, and the text of the block stays the same. If the variable is given no
other name later, it has this one in the end. -/
theorem text_eq_of_moved_naming (past between rest : List Step) (result : Term) {i slot : Nat}
    {name : Value} (h : Binds past i slot) (hname : name.wellKeyed) :
    (LetPass slot (past ++ [.naming i name]) between →
      (finish (past ++ between.map (Step.renumber (withdrawn past.length i)) ++ [.naming i name] ++
          rest.map (Step.renumber (postponed past.length between.length)))
          (result.renumber (postponed past.length between.length))).text =
        (finish (past ++ [.naming i name] ++ between ++ rest) result).text) ∧
    (LetPass slot past between →
      (finish (past ++ [.naming i name] ++ between.map (Step.renumber (inserted past.length)) ++
          rest.map (Step.renumber (advanced past.length between.length)))
          (result.renumber (advanced past.length between.length))).text =
        (finish (past ++ between ++ [.naming i name] ++ rest) result).text) ∧
    ((∀ before s, Performs (between ++ rest) before s →
        (run (past ++ [.naming i name] ++ before)).renamed? s ≠ some slot) →
      nameAt (finish (past ++ [.naming i name] ++ (between ++ rest)) result).names slot = name) := by
  refine ⟨fun hpass => ?_, fun hpass => ?_, fun hstay => ?_⟩
  · rw [h.finish_postponed hname hpass]
  · rw [h.finish_advanced hname hpass]
  · rw [nameAt, names_finish, h.getElem?_names hname hstay, Option.getD_some]

/-- What is done with a node whose renaming comes before, as the second step of a script. -/
def namedUses : List Step :=
  [⟨.link ⟨true, .outgoing⟩, some 1, [.value (.text "x")]⟩,
   ⟨.property, some 0, [.value (.text "age")]⟩,
   ⟨.compare .greater, some 3, [.value (.int 30)]⟩,
   ⟨.ret, none, [.result 1, .result 3]⟩]

/-- The same before the renaming. -/
def namelessUses : List Step := namedUses.map (Step.renumber (withdrawn 1 0))

theorem namedUses_moved :
    (finish ([⟨.node, none, [.value (.int 1)]⟩] ++ namelessUses ++ [.naming 0 (.text "a")])
      (.value .null)).text =
        .ok "START a=node(1) MATCH (a)-->(x) WHERE (a.age > 30) RETURN a,a.age" ∧
    (finish ([⟨.node, none, [.value (.int 1)]⟩] ++ [.naming 0 (.text "a")] ++
      namelessUses.map (Step.renumber (inserted 1))) (.value .null)).text =
        .ok "START a=node(1) MATCH (a)-->(x) WHERE (a.age > 30) RETURN a,a.age" ∧
    nameAt (finish ([⟨.node, none, [.value (.int 1)]⟩] ++ [.naming 0 (.text "a")] ++
      (namedUses ++ [])) (.value .null)).names 0 = .text "a" := by
  have hbinds : Binds [⟨.node, none, [.value (.int 1)]⟩] 0 0 :=
    ⟨⟨.nodes 0, [], _, ⟨[], rfl⟩, rfl, rfl⟩, rfl⟩
  have hpass (script : List Step) : LetPass 0 script namedUses := letPass_of_verbs (by decide) 0 _
  have hpass' (script : List Step) : LetPass 0 script namelessUses :=
    letPass_of_verbs (by decide) 0 _
  obtain ⟨hlater, -, hname⟩ := text_eq_of_moved_naming _ namedUses [] (.value .null) hbinds
    (show (Value.text "a").wellKeyed from rfl)
  obtain ⟨-, hearlier, -⟩ := text_eq_of_moved_naming _ namelessUses [] (.value .null) hbinds
    (show (Value.text "a").wellKeyed from rfl)
  have htext := (hlater (hpass _)).trans (show _ =
    .ok "START a=node(1) MATCH (a)-->(x) WHERE (a.age > 30) RETURN a,a.age" from rfl)
  rw [List.map_nil, List.append_nil] at htext hearlier
  rw [List.append_nil] at hearlier
  refine ⟨htext, (hearlier (hpass' _)).trans htext, hname fun before s hs => (hpass _ before s ?_).1⟩
  rwa [List.append_nil] at hs

end GraphQuery.Block
