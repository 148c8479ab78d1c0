import GraphQuery.Block.Script

/-!
# Effects of calls

Whatever a call is asked for, it has one of six effects: contents enter the registry one by one,
a chain is tagged, a path starts or is extended, two operands are composed into a filter, or a
filter is negated. Every theorem about all calls goes through these.
-/
namespace GraphQuery.Block

/-- Neither a segment of a path nor a filter. -/
def Content.isPlain : Content → Bool
  | .segment _ _ | .filter _ _ _ _ => false
  | _ => true

def registerAll (contents : List Content) (b : Block) : Block :=
  contents.foldl (fun b content => b.register content) b

theorem registerItems_eq (items : List Operand) (b : Block) :
    b.registerItems items = b.registerAll (items.map .item) := by
  rw [registerItems, registerAll, List.foldl_map]

/-- The verbs that make a filter of two operands. -/
def Verb.combines : Verb → Bool
  | .compare _ | .matching | .combine _ => true
  | _ => false

def Verb.makesFilters : Verb → Bool
  | .negate _ => true
  | verb => verb.combines

theorem Verb.makesFilters_of_combines {verb : Verb} (h : verb.combines) : verb.makesFilters := by
  cases verb with
  | compare | matching | combine => rfl
  | _ => cases h

/-- No fragment, or one that the call was given or that is registered. -/
def Operand.Known (operands : List Operand) (r : Registry Content) (o : Operand) : Prop :=
  o.serial? = none ∨ o ∈ operands ∨ ∃ f ∈ r, o = ofFragment f

/-- What a call on a block does, with the contents that it registers. The operands are the
receiver and the arguments. -/
inductive Effect (b : Block) (verb : Verb) (operands : List Operand) :
    List Content → Outcome → Prop where
  | enter (names : List Value) (unbound : List Nat) (contents : List Content)
      (result : Except Fault Operand)
      (plain : ∀ c ∈ contents, c.isPlain)
      (known : ∀ o, result = .ok o → o.Known operands
        (registerAll contents { b with names := names, unbound := unbound }).registry)
      (quiet : verb.makesFilters → contents = [] ∧ ∀ o, result = .ok o → o.serial? = none) :
      Effect b verb operands contents
        (result, registerAll contents { b with names := names, unbound := unbound })
  | tag (chain : Nat) (path : Operand) (asked : verb = .shortestPath) (given : path ∈ operands) :
      Effect b verb operands [] (give path
        { b with chains := b.chains.modify chain fun c => { c with shortest := true } })
  | start (l : Link) (slot : Nat) (style : Style) (right : Operand) (asked : verb = .link l) :
      Effect b verb operands [.segment b.chains.length 0]
        (b.startPath slot style l.direction right)
  | extend (l : Link) (serial chain index : Nat) (c : Chain) (style : Style) (right : Operand)
      (asked : verb = .link l)
      (receiver : operands.head? = some (.fragment serial (.segment chain index)))
      (found : b.chains[chain]? = some c)
      (inside : index < c.segments.length) :
      Effect b verb operands [.segment chain c.segments.length]
        (b.extendPath (.fragment serial (.segment chain index)) chain index c.segments.length
          style l.direction right)
  | compose (left right : Operand) (operator : Operator)
      (asked : verb.combines) (givenLeft : left ∈ operands) (givenRight : right ∈ operands) :
      Effect b verb operands [filterOf left right operator false]
        (b.composed left right operator)
  | negate (negation : Negation) (serial : Nat) (left right : Operand) (operator : Operator)
      (negated : Bool) (asked : verb = .negate negation)
      (receiver : operands.head? = some (.fragment serial (.filter left right operator negated))) :
      Effect b verb operands [filterOf left right operator true]
        (b.negate negation (.fragment serial (.filter left right operator negated)))

namespace Effect

variable {b : Block} {verb : Verb} {operands : List Operand}

/-- A call that fails leaves everything as it is. -/
theorem fail (fault : Fault) : Effect b verb operands [] (b.fail fault) :=
  .enter b.names b.unbound [] (.error fault) (by simp) (by simp) fun _ => ⟨rfl, by simp⟩

/-- What is no fragment can be given whatever is asked for. -/
theorem give {o : Operand} (h : o.serial? = none) : Effect b verb operands [] (b.give o) :=
  .enter b.names b.unbound [] (.ok o) (by simp) (by rintro _ ⟨⟩; exact .inl h)
    fun _ => ⟨rfl, by rintro _ ⟨⟩; exact h⟩

theorem give_value (v : Value) : Effect b verb operands [] (b.give (.value v)) := give rfl

theorem give_block : Effect b verb operands [] (b.give .block) := give rfl

/-- The effect of a call that makes no filters whatever it is given. -/
theorem enter_of_not (hv : verb.makesFilters = false) (names : List Value) (unbound : List Nat)
    (contents : List Content) (result : Except Fault Operand)
    (plain : ∀ c ∈ contents, c.isPlain)
    (known : ∀ o, result = .ok o → o.Known operands
      (registerAll contents { b with names := names, unbound := unbound }).registry) :
    Effect b verb operands contents
      (result, registerAll contents { b with names := names, unbound := unbound }) :=
  .enter names unbound contents result plain known fun h => by simp [hv] at h

theorem give_operand {o : Operand} (hv : verb.makesFilters = false) (h : o ∈ operands) :
    Effect b verb operands [] (b.give o) :=
  enter_of_not hv b.names b.unbound [] (.ok o) (by simp) (by rintro _ ⟨⟩; exact .inr (.inl h))

theorem register_upcoming (hv : verb.makesFilters = false) (names : List Value)
    (content : Content) (plain : content.isPlain) : Effect b verb operands [content]
      (({ b with names := names }.register content).give (b.upcoming content)) := by
  refine enter_of_not hv names b.unbound [content] (.ok (b.upcoming content))
    (by simpa using plain) ?_
  rintro o ⟨⟩
  refine .inr (.inr ⟨content.fragment b.serials, ?_, rfl⟩)
  exact Registry.mem_insert.2 (.inl rfl)

/-! ## Calls that make no filters -/

section Quiet

variable (hv : verb.makesFilters = false)

include hv

theorem bindEntity (initial : String) (source : Source) :
    Effect b verb operands [.start b.names.length source] (b.bindEntity initial source) :=
  register_upcoming hv _ _ rfl

theorem bindNode (name : Value) : Effect b verb operands [] (b.bindNode name) :=
  enter_of_not hv _ _ [] _ (by simp) (by rintro _ ⟨⟩; exact .inl rfl)

theorem bindRelationship (expr : String) : Effect b verb operands [] (b.bindRelationship expr) :=
  enter_of_not hv _ _ [] _ (by simp) (by rintro _ ⟨⟩; exact .inl rfl)

theorem node (args : List Operand) : ∃ contents, Effect b verb operands contents (b.node args) := by
  rw [Block.node.eq_def]
  split
  · exact ⟨_, bindNode hv _⟩
  · exact ⟨_, bindNode hv _⟩
  · split
    · exact ⟨_, bindEntity hv _ _⟩
    · exact ⟨_, fail _⟩

theorem relationship (args : List Operand) :
    ∃ contents, Effect b verb operands contents (b.relationship args) := by
  rw [Block.relationship.eq_def]
  split
  · exact ⟨_, bindEntity hv _ _⟩
  · exact ⟨_, bindRelationship hv _⟩
  · exact ⟨_, fail _⟩

/-- An entity that is registered and then fails stays registered. -/
theorem bindEntity_fail (initial : String) (source : Source) (fault : Fault) :
    Effect b verb operands [.start b.names.length source]
      ((b.bindEntity initial source).2.fail fault) :=
  enter_of_not hv _ b.unbound [_] (.error fault) (by simp [Content.isPlain]) (by simp)

theorem search (r : Resolver) (query type : Operand) :
    ∃ contents, Effect b verb operands contents (b.search r query type) := by
  rw [Block.search]
  split
  · exact ⟨_, bindEntity hv _ _⟩
  · exact ⟨_, bindEntity_fail hv _ _ _⟩

theorem lookup (r : Resolver) (key value : Operand) :
    ∃ contents, Effect b verb operands contents (b.lookup r key value) := by
  rw [Block.lookup]
  split
  · exact ⟨_, fail _⟩
  · simp only
    split
    · split
      · exact ⟨_, bindEntity hv _ _⟩
      · exact ⟨_, bindEntity_fail hv _ _ _⟩
    · exact ⟨_, fail _⟩

theorem renamed {owner : Operand} (name : Operand) (h : owner ∈ operands) :
    ∃ contents, Effect b verb operands contents (b.renamed owner name) := by
  rw [Block.renamed.eq_def]
  split
  · exact ⟨_, enter_of_not hv _ b.unbound [] (.ok owner) (by simp)
      (by rintro _ ⟨⟩; exact .inr (.inl h))⟩
  · exact ⟨_, fail _⟩
  · exact ⟨_, fail _⟩

theorem condition (arg : Operand) :
    ∃ contents, Effect b verb operands contents (b.condition arg) := by
  rw [Block.condition.eq_def]
  split
  · exact ⟨_, enter_of_not hv b.names b.unbound [_] (.ok .block) (by simp [Content.isPlain])
      (by rintro _ ⟨⟩; exact .inl rfl)⟩
  · exact ⟨_, give_block⟩

theorem ret (items : List Operand) :
    ∃ contents, Effect b verb operands contents (b.ret items) := by
  simp only [Block.ret, registerItems_eq]
  refine ⟨_, enter_of_not hv b.names b.unbound _ _ (by simp [Content.isPlain]) ?_⟩
  rintro o ⟨⟩
  cases hlast : (registerAll (items.map Content.item) b).registry.getLast? with
  | none => exact .inl rfl
  | some f => exact .inr (.inr ⟨f, List.mem_of_getLast? hlast, rfl⟩)

theorem custom (kind : Option Clause.Kind) (text separator : String) :
    ∃ contents, Effect b verb operands contents (b.custom kind text separator) := by
  cases kind with
  | none => exact ⟨_, fail _⟩
  | some kind => exact ⟨_, register_upcoming hv b.names (.custom kind text separator) rfl⟩

end Quiet

theorem property (owner key : Operand) :
    ∃ contents, Effect b verb operands contents (b.property owner key) := by
  rw [Block.property]
  split
  · exact ⟨_, give rfl⟩
  · exact ⟨_, fail _⟩

/-! ## Paths -/

theorem link {l : Link} {receiver : Operand} (other : Operand) (hv : verb = .link l)
    (hr : operands.head? = some receiver) :
    ∃ contents, Effect b verb operands contents (b.link l receiver other) := by
  rw [Block.link.eq_def]
  split
  · exact ⟨_, .start l _ _ _ hv⟩
  · exact ⟨_, .start l _ _ _ hv⟩
  · split
    · exact ⟨_, fail _⟩
    · next c found =>
      split
      · next style hs =>
        obtain ⟨segment, hi, -⟩ := Option.bind_eq_some_iff.1 hs
        obtain ⟨inside, -⟩ := List.getElem?_eq_some_iff.1 hi
        exact ⟨_, .extend l _ _ _ c style other hv hr found inside⟩
      · exact ⟨_, fail _⟩
  · exact ⟨_, fail _⟩

theorem shortestPath {path : Operand} (hv : verb = .shortestPath) (h : path ∈ operands) :
    ∃ contents, Effect b verb operands contents (b.shortestPath path) := by
  rw [Block.shortestPath.eq_def]
  split
  · exact ⟨_, .tag _ _ hv h⟩
  · exact ⟨_, fail _⟩

/-! ## Filters -/

theorem compare {left right : Operand} (operator : Operator) (hv : verb.combines)
    (hl : left ∈ operands) (hr : right ∈ operands) :
    ∃ contents, Effect b verb operands contents (b.compare operator left right) := by
  rw [Block.compare.eq_def]
  split
  · exact ⟨_, .compose _ _ _ hv hl hr⟩
  · exact ⟨_, .compose _ _ _ hv hr hl⟩
  · split
    · exact ⟨_, give_value _⟩
    · exact ⟨_, give_value _⟩
    · rw [Block.ordered.eq_def]
      split
      · split
        · exact ⟨_, give_value _⟩
        · exact ⟨_, fail _⟩
      · exact ⟨_, fail _⟩

theorem matching {left right : Operand} (hv : verb.combines)
    (hl : left ∈ operands) (hr : right ∈ operands) :
    ∃ contents, Effect b verb operands contents (b.matching left right) := by
  rw [Block.matching.eq_def]
  split
  · exact ⟨_, .compose _ _ _ hv hl hr⟩
  · exact ⟨_, fail _⟩

theorem combine {left right : Operand} (operator : Operator) (hv : verb.combines)
    (hl : left ∈ operands) (hr : right ∈ operands) :
    ∃ contents, Effect b verb operands contents (b.combine operator left right) := by
  rw [Block.combine.eq_def]
  split
  · exact ⟨_, .compose _ _ _ hv hl hr⟩
  · split
    · exact ⟨_, give_value _⟩
    · exact ⟨_, fail _⟩
  · exact ⟨_, fail _⟩

theorem negation {n : Negation} {receiver : Operand} (hv : verb = .negate n)
    (hr : operands.head? = some receiver) :
    ∃ contents, Effect b verb operands contents (b.negate n receiver) := by
  cases receiver with
  | fragment serial content =>
    cases content with
    | filter left right operator negated => exact ⟨_, .negate n _ _ _ _ _ hv hr⟩
    | _ => exact ⟨_, fail _⟩
  | value v =>
    rw [Block.negate.eq_def]
    dsimp only
    split
    · exact ⟨_, give_value _⟩
    · exact ⟨_, fail _⟩
  | _ => exact ⟨_, fail _⟩

end Effect

/-- Every call has one of the six effects. -/
theorem perform_effect (verb : Verb) (receiver : Operand) (args : List Operand) (b : Block) :
    ∃ contents, Effect b verb (receiver :: args) contents (b.perform verb receiver args) := by
  rw [perform.eq_def]
  split
  · exact Effect.node rfl _
  · exact Effect.relationship rfl _
  · exact Effect.search rfl _ _ _
  · exact Effect.search rfl _ _ _
  · exact Effect.lookup rfl _ _ _
  · exact ⟨_, Effect.give_block⟩
  · exact ⟨_, Effect.give_block⟩
  · exact Effect.condition rfl _
  · exact Effect.ret rfl _
  · exact Effect.link _ rfl rfl
  · exact Effect.property _ _
  · exact Effect.renamed rfl _ (by simp)
  · exact Effect.compare _ rfl (by simp) (by simp)
  · exact Effect.matching rfl (by simp) (by simp)
  · exact Effect.combine _ rfl (by simp) (by simp)
  · exact Effect.negation rfl rfl
  · exact Effect.shortestPath rfl (by simp)
  · exact Effect.custom rfl _ _ _
  · exact ⟨_, Effect.give_operand rfl (by simp)⟩
  · exact ⟨_, Effect.fail _⟩

namespace Run

/-- The object that a step is called on. -/
def receiver (r : Run) (s : Step) : Operand :=
  (s.receiver.map fun step => Term.resolve r.results (.result step)).getD (.value .null)

def operands (r : Run) (s : Step) : List Operand :=
  r.receiver s :: resolveItems r.results s.args

theorem outcome_eq (r : Run) (s : Step) : r.outcome s =
    if allWellKeyed (resolveItems r.results s.args) then
      r.block.perform s.verb (r.receiver s) (resolveItems r.results s.args)
    else r.block.fail .wrongType := rfl

/-- A call on a path takes one argument. -/
theorem outcome_of_link {r : Run} {s : Step} {l : Link} (hv : s.verb = .link l) :
    (∃ other, resolveItems r.results s.args = [other] ∧
      r.outcome s = r.block.link l (r.receiver s) other) ∨
    ∃ fault, r.outcome s = r.block.fail fault := by
  rw [outcome_eq]
  split
  · rw [hv]
    cases resolveItems r.results s.args with
    | nil => exact .inr ⟨_, rfl⟩
    | cons other rest =>
      cases rest with
      | nil => exact .inl ⟨other, rfl, rfl⟩
      | cons => exact .inr ⟨_, rfl⟩
  · exact .inr ⟨_, rfl⟩

theorem outcome_effect (r : Run) (s : Step) :
    ∃ contents, Effect r.block s.verb (r.operands s) contents (r.outcome s) := by
  rw [outcome]
  split
  · exact perform_effect _ _ _ _
  · exact ⟨_, Effect.fail _⟩

end Run
end GraphQuery.Block
