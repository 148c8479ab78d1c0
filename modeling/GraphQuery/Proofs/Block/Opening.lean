import GraphQuery.Proofs.Block.Run

/-!
# Opening of slots

A call opens one slot for a variable, or gives one another name, or leaves all names as they are.
A slot that is opened keeps the name that it is opened with unless it is given another, and the
list of the unbound variables only grows.
-/
namespace GraphQuery.Block

/-- How a variable comes by its name: an entity by the size of the registry before it enters, an
unbound variable by the number of those before it. -/
inductive Origin where
  | nodes (size : Nat)
  | relationships (size : Nat)
  | node (count : Nat)
  | relationship (count : Nat)
  /-- An unbound variable with a name of its own. -/
  | given (name : Value)

namespace Origin

def name : Origin → Value
  | nodes size => numberedName "n" size
  | relationships size => numberedName "r" size
  | node count => numberedName "v" count
  | relationship count => numberedName "v" (count + 1)
  | given name => name

def isAutomatic : Origin → Bool
  | given _ => false
  | _ => true

def isEntity : Origin → Bool
  | nodes _ | relationships _ => true
  | _ => false

end Origin

/-! ## One call -/

/-- The variable that a call opens a slot for. An index search opens it before the index is looked
for, and so does a look-up of a key that has an index type, so that the slot stays when they fail. -/
def opened? (verb : Verb) (args : List Operand) (b : Block) : Option Origin :=
  match verb, args with
  | .node, [] => some (.node b.unbound.length)
  | .node, .value (.text name) :: _ => some (.given (.text name))
  | .node, args => if args.all isInteger then some (.nodes b.registry.length) else none
  | .relationship, .value (.int _) :: _ => some (.relationships b.registry.length)
  | .relationship, .value (.text expr) :: _ =>
    if leadingLetters expr = "" then some (.relationship b.unbound.length)
    else some (.given (.text (leadingLetters expr)))
  | .search _, [_] | .search _, [_, _] => some (.nodes b.registry.length)
  | .lookup r, [key, _] =>
    match b.display key with
    | .ok key => if (r.typeOf key).isTrue then some (.nodes b.registry.length) else none
    | .error _ => none
  | _, _ => none

/-- The slot that a call gives another name. -/
def renamed? (verb : Verb) (receiver : Operand) (args : List Operand) : Option Nat :=
  match verb, args with
  | .rename, [.value _] => receiver.slot?
  | _, _ => none

/-- The number of an origin is the one that the block gives. -/
def Origin.TakenFrom (b : Block) : Origin → Prop
  | nodes size | relationships size => size = b.registry.length
  | node count | relationship count => count = b.unbound.length
  | given _ => True

/-- A call that opens a slot puts its name behind the others. -/
structure Opening (b : Block) (o : Origin) (b' : Block) : Prop where
  taken : o.TakenFrom b
  names : b'.names = b.names ++ [o.name]
  unbound : b'.unbound = if o.isEntity then b.unbound else b.unbound ++ [b.names.length]
  registry : o.isEntity → b'.registry.length = b.registry.length + 1

/-- What a call does to the variables of a block. -/
inductive Naming (b : Block) (opened : Option Origin) (renamed : Option Nat) (b' : Block) : Prop where
  | opens (o : Origin) (hopened : opened = some o) (opening : Opening b o b')
  | renames (slot : Nat) (name : Value) (hopened : opened = none) (hrenamed : renamed = some slot)
      (names : b'.names = b.names.set slot name) (unbound : b'.unbound = b.unbound)
  | keeps (hopened : opened = none) (names : b'.names = b.names) (unbound : b'.unbound = b.unbound)

@[simp] theorem names_registerAll (contents : List Content) (b : Block) :
    (b.registerAll contents).names = b.names := by
  induction contents generalizing b with
  | nil => rfl
  | cons c contents ih => exact ih (b.register c)

@[simp] theorem unbound_registerAll (contents : List Content) (b : Block) :
    (b.registerAll contents).unbound = b.unbound := by
  induction contents generalizing b with
  | nil => rfl
  | cons c contents ih => exact ih (b.register c)

@[simp] theorem names_unregister (o : Operand) (b : Block) : (b.unregister o).names = b.names := by
  rw [unregister]
  split <;> rfl

@[simp] theorem unbound_unregister (o : Operand) (b : Block) :
    (b.unregister o).unbound = b.unbound := by
  rw [unregister]
  split <;> rfl

namespace Naming

variable {b : Block} {renamed : Option Nat}

/-! ### Calls that bind -/

theorem fail (fault : Fault) : Naming b none renamed (b.fail fault).2 := .keeps rfl rfl rfl

theorem give (o : Operand) : Naming b none renamed (b.give o).2 := .keeps rfl rfl rfl

theorem bindEntity {o : Origin} {initial : String} (source : Source) (h : o.TakenFrom b)
    (hentity : o.isEntity) (hname : o.name = numberedName initial b.registry.length) :
    Naming b (some o) renamed (b.bindEntity initial source).2 := by
  refine .opens o rfl ⟨h, ?_, ?_, fun _ => Registry.length_insert _ _⟩
  · rw [hname]
    rfl
  · rw [if_pos hentity]
    rfl

theorem bindNodes (source : Source) :
    Naming b (some (.nodes b.registry.length)) renamed (b.bindEntity "n" source).2 :=
  bindEntity source rfl rfl rfl

theorem node (args : List Operand) : Naming b (b.opened? .node args) renamed (b.node args).2 := by
  rw [Block.node.eq_def]
  split
  · exact .opens _ rfl ⟨rfl, rfl, rfl, fun h => by cases h⟩
  · exact .opens _ rfl ⟨trivial, rfl, rfl, fun h => by cases h⟩
  · next hempty htext =>
    rw [opened?]
    · split
      · exact bindNodes _
      · exact fail _
    · exact hempty
    · exact htext

theorem relationship (args : List Operand) :
    Naming b (b.opened? .relationship args) renamed (b.relationship args).2 := by
  rw [Block.relationship.eq_def]
  split
  · exact bindEntity _ rfl rfl rfl
  · next expr _ =>
    rw [opened?]
    by_cases h : leadingLetters expr = ""
    · rw [if_pos h]
      refine .opens _ rfl ⟨rfl, ?_, rfl, fun h => by cases h⟩
      simp [bindRelationship, relationshipName, h, openSlot, Block.give, Origin.name]
    · rw [if_neg h]
      refine .opens _ rfl ⟨trivial, ?_, rfl, fun h => by cases h⟩
      simp [bindRelationship, relationshipName, h, openSlot, Block.give, Origin.name]
  · next hint htext =>
    have hnone : b.opened? .relationship args = none := by
      rw [opened?.eq_def]
      split <;> simp_all
    rw [hnone]
    exact fail _

theorem search (r : Resolver) (query type : Operand) :
    Naming b (some (.nodes b.registry.length)) renamed (b.search r query type).2 := by
  rw [Block.search]
  split
  · exact bindNodes _
  · exact bindNodes _

theorem lookup (r : Resolver) (key value : Operand) :
    Naming b (b.opened? (.lookup r) [key, value]) renamed (b.lookup r key value).2 := by
  rw [Block.lookup, opened?]
  cases b.display key with
  | error fault => exact fail _
  | ok key =>
    simp only
    split
    · split
      · exact bindNodes _
      · exact bindNodes _
    · exact fail _

theorem rename (receiver name : Operand) :
    Naming b none (renamed? .rename receiver [name]) (b.renamed receiver name).2 := by
  rw [Block.renamed.eq_def]
  split
  · next slot v hslot => exact .renames slot v rfl hslot rfl rfl
  · exact fail _
  · exact fail _

/-! ### Calls that bind nothing -/

theorem keeps_register (content : Content) (o : Operand) :
    Naming b none renamed ((b.register content).give o).2 := .keeps rfl rfl rfl

theorem keeps_composed (left right : Operand) (operator : Operator) :
    Naming b none renamed (b.composed left right operator).2 := by
  refine .keeps rfl ?_ ?_ <;> simp [composed, Block.give, absorb, register]

theorem condition (arg : Operand) : Naming b none renamed (b.condition arg).2 := by
  rw [Block.condition.eq_def]
  split
  · exact keeps_register _ _
  · exact give _

theorem ret (items : List Operand) : Naming b none renamed (b.ret items).2 := by
  simp only [Block.ret, registerItems_eq]
  exact .keeps rfl (names_registerAll _ _) (unbound_registerAll _ _)

theorem custom (kind : Option Clause.Kind) (text separator : String) :
    Naming b none renamed (b.custom kind text separator).2 := by
  cases kind with
  | none => exact fail _
  | some kind => exact keeps_register _ _

theorem link (l : Link) (receiver other : Operand) :
    Naming b none renamed (b.link l receiver other).2 := by
  rw [Block.link.eq_def]
  split
  · exact .keeps rfl rfl rfl
  · exact .keeps rfl rfl rfl
  · split
    · exact fail _
    · split
      · exact .keeps rfl (names_unregister _ _) (unbound_unregister _ _)
      · exact fail _
  · exact fail _

theorem shortestPath (path : Operand) : Naming b none renamed (b.shortestPath path).2 := by
  rw [Block.shortestPath.eq_def]
  split
  · exact .keeps rfl rfl rfl
  · exact fail _

theorem property (owner key : Operand) : Naming b none renamed (b.property owner key).2 := by
  rw [Block.property]
  split
  · exact give _
  · exact fail _

theorem compare (operator : Operator) (left right : Operand) :
    Naming b none renamed (b.compare operator left right).2 := by
  rw [Block.compare.eq_def]
  split
  · exact keeps_composed _ _ _
  · exact keeps_composed _ _ _
  · split
    · exact give _
    · exact give _
    · rw [Block.ordered.eq_def]
      split
      · split
        · exact give _
        · exact fail _
      · exact fail _

theorem matching (left right : Operand) : Naming b none renamed (b.matching left right).2 := by
  rw [Block.matching.eq_def]
  split
  · exact keeps_composed _ _ _
  · exact fail _

theorem combine (operator : Operator) (left right : Operand) :
    Naming b none renamed (b.combine operator left right).2 := by
  rw [Block.combine.eq_def]
  split
  · exact keeps_composed _ _ _
  · split
    · exact give _
    · exact fail _
  · exact fail _

theorem negation (n : Negation) (operand : Operand) :
    Naming b none renamed (b.negate n operand).2 := by
  rw [Block.negate.eq_def]
  split
  · refine .keeps rfl ?_ ?_ <;> simp [Block.give, absorb, register]
  · split
    · exact give _
    · exact fail _
  · exact fail _

end Naming

/-- Every call opens a slot, renames a variable or leaves the variables as they are. -/
theorem perform_naming (verb : Verb) (receiver : Operand) (args : List Operand) (b : Block) :
    Naming b (b.opened? verb args) (renamed? verb receiver args)
      (b.perform verb receiver args).2 := by
  rw [perform.eq_def]
  split
  · exact Naming.node _
  · exact Naming.relationship _
  · exact Naming.search _ _ _
  · exact Naming.search _ _ _
  · exact Naming.lookup _ _ _
  · exact Naming.give _
  · exact Naming.give _
  · exact Naming.condition _
  · exact Naming.ret _
  · exact Naming.link _ _ _
  · exact Naming.property _ _
  · exact Naming.rename _ _
  · exact Naming.compare _ _ _
  · exact Naming.matching _ _
  · exact Naming.combine _ _ _
  · exact Naming.negation _ _
  · exact Naming.shortestPath _
  · exact Naming.custom _ _ _
  · exact Naming.give _
  · have hopened : b.opened? verb args = none := by
      rw [opened?.eq_def]
      split <;> simp_all
    have hrenamed : renamed? verb receiver args = none := by
      rw [renamed?.eq_def]
      split <;> simp_all
    rw [hopened, hrenamed]
    exact Naming.fail _

namespace Naming

variable {b b' : Block} {opened : Option Origin} {renamed : Option Nat}

theorem length_names (h : Naming b opened renamed b') :
    b'.names.length = b.names.length + opened.toList.length := by
  cases h with
  | opens o hopened opening => simp [hopened, opening.names]
  | renames slot name hopened hrenamed names unbound => simp [hopened, names]
  | keeps hopened names unbound => simp [hopened, names]

theorem getElem?_names (h : Naming b opened renamed b') {slot : Nat} (hslot : slot < b.names.length)
    (hstay : renamed ≠ some slot) : b'.names[slot]? = b.names[slot]? := by
  cases h with
  | opens o hopened opening => rw [opening.names, List.getElem?_append_left hslot]
  | renames changed name hopened hrenamed names unbound =>
    have hne : changed ≠ slot := fun h => hstay (h ▸ hrenamed)
    rw [names, List.getElem?_set_ne hne]
  | keeps hopened names unbound => rw [names]

theorem opening {o : Origin} (h : Naming b (some o) renamed b') : Opening b o b' := by
  cases h with
  | opens o' hopened opening => exact Option.some.inj hopened ▸ opening
  | renames slot name hopened hrenamed names unbound => cases hopened
  | keeps hopened names unbound => cases hopened

theorem length_unbound_le (h : Naming b opened renamed b') :
    b.unbound.length ≤ b'.unbound.length := by
  cases h with
  | opens o hopened opening =>
    rw [opening.unbound]
    split <;> simp
  | renames slot name hopened hrenamed names unbound => simp [unbound]
  | keeps hopened names unbound => simp [unbound]

end Naming

/-! ## Runs -/

namespace Run

def opened? (r : Run) (s : Step) : Option Origin :=
  let args := resolveItems r.results s.args
  if allWellKeyed args then r.block.opened? s.verb args else none

def renamed? (r : Run) (s : Step) : Option Nat :=
  let args := resolveItems r.results s.args
  if allWellKeyed args then Block.renamed? s.verb (r.receiver s) args else none

theorem outcome_naming (r : Run) (s : Step) :
    Naming r.block (r.opened? s) (r.renamed? s) (r.outcome s).2 := by
  simp only [opened?, renamed?, outcome]
  split
  · exact perform_naming _ _ _ _
  · exact .fail _

end Run

theorem step_naming (past : List Step) (s : Step) :
    Naming (run past).block ((run past).opened? s) ((run past).renamed? s)
      (run (past ++ [s])).block := by
  rw [run_snoc]
  exact (run past).outcome_naming s

/-- A script makes a call right behind others. -/
def Performs (script past : List Step) (s : Step) : Prop := past ++ [s] <+: script

theorem performs_snoc {script past : List Step} {s t : Step} :
    Performs (script ++ [t]) past s ↔ past = script ∧ s = t ∨ Performs script past s := by
  rw [Performs, List.prefix_concat_iff]
  simp [Performs]

/-- What no call makes smaller is as large behind a script as before. -/
theorem le_of_isPrefix {f : List Step → Nat} {past later : List Step} (h : past <+: later)
    (hstep : ∀ script s, f script ≤ f (script ++ [s])) : f past ≤ f later := by
  obtain ⟨rest, rfl⟩ := h
  induction rest using List.reverseRecOn with
  | nil => simp
  | append_singleton rest s ih =>
    rw [← List.append_assoc]
    exact Nat.le_trans ih (hstep _ s)

theorem length_names_mono {past later : List Step} (h : past <+: later) :
    (run past).block.names.length ≤ (run later).block.names.length := by
  refine le_of_isPrefix (f := fun script => (run script).block.names.length) h fun script s => ?_
  have := (step_naming script s).length_names
  omega

theorem length_unbound_mono {past later : List Step} (h : past <+: later) :
    (run past).block.unbound.length ≤ (run later).block.unbound.length :=
  le_of_isPrefix (f := fun script => (run script).block.unbound.length) h fun script s =>
    (step_naming script s).length_unbound_le

/-- Of two calls the one that finds fewer slots comes first. -/
theorem Performs.isPrefix {script past later : List Step} {s t : Step} (hs : Performs script past s)
    (ht : Performs script later t)
    (hlt : (run past).block.names.length < (run later).block.names.length) :
    past ++ [s] <+: later := by
  have hne : past ++ [s] ≠ later ++ [t] := by
    intro h
    rw [(List.append_inj' h rfl).1] at hlt
    exact Nat.lt_irrefl _ hlt
  rcases List.prefix_or_prefix_of_prefix hs ht with h | h
  · exact (List.prefix_concat_iff.1 h).resolve_left hne
  · have hback := (List.prefix_concat_iff.1 h).resolve_left hne.symm
    have := length_names_mono ((List.prefix_append later [t]).trans hback)
    omega

/-- A call of the script opens a slot. -/
def Opens (script : List Step) (slot : Nat) (o : Origin) : Prop :=
  ∃ past s, Performs script past s ∧ (run past).opened? s = some o ∧
    (run past).block.names.length = slot

/-- A call of the script gives the variable of a slot another name. -/
def Renames (script : List Step) (slot : Nat) : Prop :=
  ∃ past s, Performs script past s ∧ (run past).renamed? s = some slot

/-- Only calls that ask for it rename. -/
theorem Renames.exists_verb {script : List Step} {slot : Nat} (h : Renames script slot) :
    ∃ s ∈ script, s.verb = .rename := by
  obtain ⟨past, s, hperforms, hrenamed⟩ := h
  refine ⟨s, hperforms.subset (by simp), ?_⟩
  rw [Run.renamed?] at hrenamed
  split at hrenamed
  · rw [Block.renamed?.eq_def] at hrenamed
    split at hrenamed
    · assumption
    · cases hrenamed
  · cases hrenamed

theorem opens_snoc {script : List Step} {s : Step} {slot : Nat} {o : Origin} :
    Opens (script ++ [s]) slot o ↔ Opens script slot o ∨
      (run script).opened? s = some o ∧ (run script).block.names.length = slot := by
  constructor
  · rintro ⟨past, t, hperforms, hopened, hslot⟩
    rcases performs_snoc.1 hperforms with ⟨rfl, rfl⟩ | hperforms
    · exact .inr ⟨hopened, hslot⟩
    · exact .inl ⟨past, t, hperforms, hopened, hslot⟩
  · rintro (⟨past, t, hperforms, h⟩ | h)
    · exact ⟨past, t, performs_snoc.2 (.inr hperforms), h⟩
    · exact ⟨script, s, performs_snoc.2 (.inl ⟨rfl, rfl⟩), h⟩

/-- The slots are those that a call has opened. -/
theorem lt_length_names_iff {script : List Step} {slot : Nat} :
    slot < (run script).block.names.length ↔ ∃ o, Opens script slot o := by
  induction script using List.reverseRecOn with
  | nil =>
    have hno : ∀ o, ¬ Opens [] slot o := by
      rintro o ⟨past, s, hperforms, -⟩
      simp [Performs] at hperforms
    simp [Run.start, Block.empty, hno]
  | append_singleton script s ih =>
    have hlength := (step_naming script s).length_names
    simp only [opens_snoc, exists_or, ← ih, hlength]
    cases (run script).opened? s with
    | none => simp
    | some o =>
      simp only [Option.toList_some, List.length_singleton, Option.some.injEq, exists_and_right,
        exists_eq', true_and]
      omega

/-- A slot that is never renamed keeps the name that it was opened with. -/
theorem Opens.getElem?_names {script : List Step} {slot : Nat} {o : Origin}
    (h : Opens script slot o) (hstay : ¬ Renames script slot) :
    (run script).block.names[slot]? = some o.name := by
  induction script using List.reverseRecOn with
  | nil =>
    obtain ⟨past, s, hperforms, -⟩ := h
    simp [Performs] at hperforms
  | append_singleton script s ih =>
    have hnaming := step_naming script s
    rcases opens_snoc.1 h with h | ⟨hopened, rfl⟩
    · have hbefore : ¬ Renames script slot := fun ⟨past, t, hperforms, ht⟩ =>
        hstay ⟨past, t, performs_snoc.2 (.inr hperforms), ht⟩
      have hnow : (run script).renamed? s ≠ some slot := fun hs =>
        hstay ⟨script, s, performs_snoc.2 (.inl ⟨rfl, rfl⟩), hs⟩
      rw [hnaming.getElem?_names (lt_length_names_iff.2 ⟨o, h⟩) hnow, ih h hbefore]
    · rw [hopened] at hnaming
      rw [hnaming.opening.names, List.getElem?_concat_length]

end GraphQuery.Block
