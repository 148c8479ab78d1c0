import GraphQuery.Proofs.Block.Opening
import GraphQuery.Proofs.Block.Reach

/-!
# Calls that fail

A call that fails leaves the block as it is, but for two: a search and a look-up register their
entity before they ask for the index, and where there is none the entity is stranded. As long as
it stays registered the block has no text.
-/
namespace GraphQuery.Block

/-- The index of an entity was asked for and not found. -/
def Source.isUnresolved : Source → Bool
  | .search none _ | .lookup none _ => true
  | _ => false

/-- If the call fails, the block is what it was. -/
def Atomic (b : Block) (outcome : Outcome) : Prop :=
  ∀ fault, outcome.1 = .error fault → outcome.2 = b

/-- If the call fails, the block has an entity without an index besides. -/
def Strands (b : Block) (outcome : Outcome) : Prop :=
  ∀ fault, outcome.1 = .error fault →
    ∃ source : Source, source.isUnresolved ∧ outcome.2 = (b.bindEntity "n" source).2

/-! ## Calls that register nothing before they fail -/

namespace Atomic

variable {b : Block}

theorem fail (fault : Fault) : Atomic b (b.fail fault) := fun _ _ => rfl

theorem give (o : Operand) (b' : Block) : Atomic b (b'.give o) := by
  rintro fault ⟨⟩

theorem node (args : List Operand) : Atomic b (b.node args) := by
  rw [Block.node.eq_def]
  split
  · exact give _ _
  · exact give _ _
  · split
    · exact give _ _
    · exact fail _

theorem relationship (args : List Operand) : Atomic b (b.relationship args) := by
  rw [Block.relationship.eq_def]
  split
  · exact give _ _
  · exact give _ _
  · exact fail _

theorem renamed (owner name : Operand) : Atomic b (b.renamed owner name) := by
  rw [Block.renamed.eq_def]
  split
  · exact give _ _
  · exact fail _
  · exact fail _

theorem condition (arg : Operand) : Atomic b (b.condition arg) := by
  rw [Block.condition.eq_def]
  split
  · exact give _ _
  · exact give _ _

theorem custom (kind : Option Clause.Kind) (text separator : String) :
    Atomic b (b.custom kind text separator) := by
  cases kind with
  | none => exact fail _
  | some kind => exact give _ _

theorem property (owner key : Operand) : Atomic b (b.property owner key) := by
  rw [Block.property]
  split
  · exact give _ _
  · exact fail _

theorem link (l : Link) (receiver other : Operand) : Atomic b (b.link l receiver other) := by
  rw [Block.link.eq_def]
  split
  · exact give _ _
  · exact give _ _
  · split
    · exact fail _
    · split
      · exact give _ _
      · exact fail _
  · exact fail _

theorem shortestPath (path : Operand) : Atomic b (b.shortestPath path) := by
  rw [Block.shortestPath.eq_def]
  split
  · exact give _ _
  · exact fail _

theorem compare (operator : Operator) (left right : Operand) :
    Atomic b (b.compare operator left right) := by
  rw [Block.compare.eq_def]
  split
  · exact give _ _
  · exact give _ _
  · split
    · exact give _ _
    · exact give _ _
    · rw [Block.ordered.eq_def]
      split
      · split
        · exact give _ _
        · exact fail _
      · exact fail _

theorem matching (left right : Operand) : Atomic b (b.matching left right) := by
  rw [Block.matching.eq_def]
  split
  · exact give _ _
  · exact fail _

theorem combine (operator : Operator) (left right : Operand) :
    Atomic b (b.combine operator left right) := by
  rw [Block.combine.eq_def]
  split
  · exact give _ _
  · split
    · exact give _ _
    · exact fail _
  · exact fail _

theorem negation (n : Negation) (operand : Operand) : Atomic b (b.negate n operand) := by
  rw [Block.negate.eq_def]
  split
  · exact give _ _
  · split
    · exact give _ _
    · exact fail _
  · exact fail _

end Atomic

/-! ## Calls that register first -/

namespace Strands

variable {b : Block}

theorem give (o : Operand) (b' : Block) : Strands b (b'.give o) := by
  rintro fault ⟨⟩

theorem fail {source : Source} (h : source.isUnresolved) (fault : Fault) :
    Strands b ((b.bindEntity "n" source).2.fail fault) := fun _ _ => ⟨source, h, rfl⟩

theorem search (r : Resolver) (query type : Operand) : Strands b (b.search r query type) := by
  simp only [Block.search]
  split
  · exact give _ _
  · exact fail rfl _

/-- A key that cannot be written, or that has no index type, is found out first. -/
theorem lookup (r : Resolver) (key value : Operand) :
    Atomic b (b.lookup r key value) ∨ Strands b (b.lookup r key value) := by
  rw [Block.lookup]
  split
  · exact .inl (Atomic.fail _)
  · simp only
    split
    · split
      · exact .inl (Atomic.give _ _)
      · exact .inr (fail rfl _)
    · exact .inl (Atomic.fail _)

end Strands

/-- Every call is atomic, or is a search or a look-up that strands its entity when it fails. -/
theorem perform_atomic_or_strands (verb : Verb) (receiver : Operand) (args : List Operand)
    (b : Block) : Atomic b (b.perform verb receiver args) ∨
      (∃ r, verb = .search r ∨ verb = .lookup r) ∧ Strands b (b.perform verb receiver args) := by
  rw [perform.eq_def]
  split
  · exact .inl (Atomic.node _)
  · exact .inl (Atomic.relationship _)
  · exact .inr ⟨⟨_, .inl rfl⟩, Strands.search _ _ _⟩
  · exact .inr ⟨⟨_, .inl rfl⟩, Strands.search _ _ _⟩
  · exact (Strands.lookup _ _ _).imp_right fun h => ⟨⟨_, .inr rfl⟩, h⟩
  · exact .inl (Atomic.give _ _)
  · exact .inl (Atomic.give _ _)
  · exact .inl (Atomic.condition _)
  · exact .inl (Atomic.give _ _)
  · exact .inl (Atomic.link _ _ _)
  · exact .inl (Atomic.property _ _)
  · exact .inl (Atomic.renamed _ _)
  · exact .inl (Atomic.compare _ _ _)
  · exact .inl (Atomic.matching _ _)
  · exact .inl (Atomic.combine _ _ _)
  · exact .inl (Atomic.negation _ _)
  · exact .inl (Atomic.shortestPath _)
  · exact .inl (Atomic.custom _ _ _)
  · exact .inl (Atomic.give _ _)
  · exact .inl (Atomic.fail _)

theorem Run.atomic_or_strands (r : Run) (s : Step) : Atomic r.block (r.outcome s) ∨
    (∃ resolver, s.verb = .search resolver ∨ s.verb = .lookup resolver) ∧
      Strands r.block (r.outcome s) := by
  rw [outcome]
  split
  · exact perform_atomic_or_strands _ _ _ _
  · exact .inl (Atomic.fail _)

/-! ## Texts of blocks with stranded entities -/

theorem write_unresolved (s : Scope) {source : Source} (h : source.isUnresolved) :
    source.write s = .error .missingPart := by
  cases source with
  | search index query =>
    cases index with
    | none => rfl
    | some index => cases h
  | lookup index query =>
    cases index with
    | none => rfl
    | some index => cases h
  | _ => cases h

theorem render_unresolved (s : Scope) (slot : Nat) {source : Source} (h : source.isUnresolved)
    (v : Value) : (Content.start slot source).render s ≠ .ok v := by
  intro hrender
  have hwrite : (do
      let name ← (s.name slot).shown
      return Value.text (name ++ "=" ++ (← source.write s))) = Except.ok v := hrender
  rw [write_unresolved s h] at hwrite
  obtain ⟨name, -, hsource⟩ := bind_eq_ok.1 hwrite
  cases hsource

theorem text_ne_ok {b : Block} {f : Fragment Content} (hf : f ∈ b.registry) {slot : Nat}
    {source : Source} (hcontent : f.content = .start slot source) (h : source.isUnresolved)
    (text : String) : b.text ≠ .ok text := by
  intro htext
  obtain ⟨v, hv⟩ := exists_render_of_text htext hf
  rw [hcontent] at hv
  exact render_unresolved _ slot h v hv

/-! ## Failing calls of a script -/

/-- A call that fails leaves the block as it is exactly if it has opened no slot by then. One that
has is a search or a look-up, and registers an entity that keeps the block from having a text for
as long as it is registered. -/
theorem failed_call_keeps_iff (script : List Step) (s : Step) (fault : Fault)
    (h : ((run script).outcome s).1 = .error fault) :
    ((run (script ++ [s])).block = (run script).block ↔ (run script).opened? s = none) ∧
    ((run (script ++ [s])).block ≠ (run script).block →
      (∃ r, s.verb = .search r ∨ s.verb = .lookup r) ∧
      ∃ (f : Fragment Content) (source : Source), source.isUnresolved ∧
        f.content = .start (run script).block.names.length source ∧
        (run (script ++ [s])).block.registry = (run script).block.registry.insert f ∧
        (run (script ++ [s])).block.unbound = (run script).block.unbound ∧
        (run (script ++ [s])).block.chains = (run script).block.chains ∧
        ∀ (later : List Step) (result : Term),
          f ∈ (finish (script ++ s :: later) result).registry →
            ∀ text, (finish (script ++ s :: later) result).text ≠ .ok text) := by
  set b := (run script).block
  have hblock := block_run_snoc script s
  have hnames : (run (script ++ [s])).block.names.length =
      b.names.length + ((run script).opened? s).toList.length :=
    (step_naming script s).length_names
  have hkeeps : (run (script ++ [s])).block = b → (run script).opened? s = none := by
    intro hsame
    rw [hsame] at hnames
    cases hopened : (run script).opened? s with
    | none => rfl
    | some o =>
      rw [hopened, Option.toList_some, List.length_singleton] at hnames
      omega
  rcases (run script).atomic_or_strands s with hatomic | ⟨hverb, hstrands⟩
  · have hsame : (run (script ++ [s])).block = b := hblock.trans (hatomic fault h)
    exact ⟨⟨hkeeps, fun _ => hsame⟩, fun hne => absurd hsame hne⟩
  · obtain ⟨source, hsource, hafter⟩ := hstrands fault h
    rw [← hblock] at hafter
    refine ⟨⟨hkeeps, fun hopened => ?_⟩, fun _ => ⟨hverb, ?_⟩⟩
    · have hlength : (run (script ++ [s])).block.names.length = b.names.length + 1 := by
        rw [hafter]
        exact List.length_append
      rw [hopened, hlength, Option.toList_none, List.length_nil] at hnames
      omega
    · refine ⟨(Content.start b.names.length source).fragment b.serials, source, hsource, rfl, ?_⟩
      rw [hafter]
      exact ⟨rfl, rfl, rfl, fun later result hf => text_ne_ok hf rfl hsource⟩

/-- A search in an index of a type that the domain type has no name for. -/
def strandedSearch : List Step :=
  [⟨.search ⟨"Person", [], some [(.text "exact", "people")]⟩, none,
    [.value (.text "bio:graph"), .value (.text "fulltext")]⟩]

theorem strandedSearch_keeps : ((run []).outcome strandedSearch[0]).1 = .error .missingKey ∧
    (run strandedSearch).block ≠ (run []).block ∧
    ∀ text, (finish strandedSearch (.value .null)).text ≠ .ok text := by
  obtain ⟨hkeeps, hstrands⟩ := failed_call_keeps_iff [] strandedSearch[0] .missingKey rfl
  have hne : (run strandedSearch).block ≠ (run []).block := fun hsame => by
    have hnone := hkeeps.1 hsame
    cases hnone
  obtain ⟨-, f, source, -, -, hregistry, -, -, htext⟩ := hstrands hne
  refine ⟨rfl, hne, htext [] (.value .null) ?_⟩
  change f ∈ (run ([] ++ [strandedSearch[0]])).block.registry
  rw [hregistry]
  exact Registry.mem_insert.2 (.inl rfl)

/-- No call that fails changes the registry or the list of the unbound variables. -/
def FailuresKeep (script : List Step) : Prop :=
  ∀ past s, Performs script past s → ∀ fault, ((run past).outcome s).1 = .error fault →
    (run (past ++ [s])).block.registry = (run past).block.registry ∧
      (run (past ++ [s])).block.unbound = (run past).block.unbound

theorem strandedSearch_not_failuresKeep : ¬ FailuresKeep strandedSearch := by
  intro h
  have hregistry := (h [] strandedSearch[0] ⟨[], rfl⟩ .missingKey rfl).1
  have hlength := congrArg List.length hregistry
  exact absurd hlength (by decide)

end GraphQuery.Block
