import GraphQuery.Proofs.Block.Opening

/-!
# Renaming

What a call does is the same whatever the names of the variables are, unless it writes an operand
at once, as a look-up does with its key and its value and a search with the type of its index. So a
renaming can be exchanged with every call that neither renames the same variable nor writes at once
what mentions it.
-/
namespace GraphQuery.Block

/-! ## Operands that avoid a variable -/

mutual

/-- An operand mentions neither the variable of a slot nor a path or the whole block, which may do
so. -/
def Operand.avoids (slot : Nat) : Operand → Bool
  | .value _ => true
  | .list items => itemsAvoid slot items
  | .tuple items => itemsAvoid slot items
  | .map entries => entriesAvoid slot entries
  | .block => false
  | .node i => i != slot
  | .relationship i _ => i != slot
  | .property i key => i != slot && key.avoids slot
  | .fragment _ content => content.avoids slot
termination_by structural operand => operand

def Content.avoids (slot : Nat) : Content → Bool
  | .start i source => i != slot && source.avoids slot
  | .segment _ _ => false
  | .filter left right _ _ => left.avoids slot && right.avoids slot
  | .condition _ => true
  | .item operand => operand.avoids slot
  | .custom _ _ _ => true
termination_by structural content => content

def Source.avoids (slot : Nat) : Source → Bool
  | .nodes ids => itemsAvoid slot ids
  | .relationships ids => itemsAvoid slot ids
  | .search _ query => query.avoids slot
  | .lookup _ _ => true
termination_by structural source => source

def itemsAvoid (slot : Nat) : List Operand → Bool
  | [] => true
  | item :: items => item.avoids slot && itemsAvoid slot items
termination_by structural items => items

def entriesAvoid (slot : Nat) : List (Operand × Operand) → Bool
  | [] => true
  | (key, operand) :: entries => key.avoids slot && operand.avoids slot && entriesAvoid slot entries
termination_by structural entries => entries

end

/-- Two scopes have the same names but for that of one slot. -/
def Scope.AgreesBut (slot : Nat) (s t : Scope) : Prop := ∀ i, i ≠ slot → s.name i = t.name i

mutual

theorem Operand.write_of_avoids {slot : Nat} {s t : Scope} (h : s.AgreesBut slot t) (m : Manner)
    (o : Operand) (ho : o.avoids slot) : o.write s m = o.write t m := by
  cases o with
  | value v => rfl
  | list items =>
    rw [Operand.avoids] at ho
    rw [Operand.write, Operand.write, writeItems_of_avoid h .shown items ho]
  | tuple items =>
    rw [Operand.avoids] at ho
    rw [Operand.write, Operand.write, writeItems_of_avoid h .shown items ho]
  | map entries =>
    rw [Operand.avoids] at ho
    rw [Operand.write, Operand.write, writeEntries_of_avoid h entries ho]
  | block => cases ho
  | node i =>
    rw [Operand.avoids, bne_iff_ne] at ho
    rw [Operand.write, Operand.write, h i ho]
  | relationship i expr =>
    rw [Operand.avoids, bne_iff_ne] at ho
    rw [Operand.write, Operand.write, h i ho]
  | property i key =>
    rw [Operand.avoids, Bool.and_eq_true, bne_iff_ne] at ho
    rw [Operand.write, Operand.write, h i ho.1, Operand.write_of_avoids h .plain key ho.2]
  | fragment serial content =>
    rw [Operand.avoids] at ho
    rw [Operand.write, Operand.write, Content.write_of_avoids h m content ho]
termination_by structural o

theorem Content.write_of_avoids {slot : Nat} {s t : Scope} (h : s.AgreesBut slot t) (m : Manner)
    (c : Content) (hc : c.avoids slot) : c.write s m = c.write t m := by
  cases c with
  | start i source =>
    rw [Content.avoids, Bool.and_eq_true, bne_iff_ne] at hc
    rw [Content.write, Content.write, h i hc.1, Source.write_of_avoids h source hc.2]
  | segment chain index => cases hc
  | filter left right operator negated =>
    rw [Content.avoids, Bool.and_eq_true] at hc
    rw [Content.write, Content.write, Operand.write_of_avoids h _ right hc.2,
      Operand.write_of_avoids h _ left hc.1]
  | condition text => rfl
  | item operand =>
    rw [Content.avoids] at hc
    rw [Content.write, Content.write, Operand.write_of_avoids h _ operand hc]
  | custom kind text separator => rfl
termination_by structural c

theorem Source.write_of_avoids {slot : Nat} {s t : Scope} (h : s.AgreesBut slot t)
    (source : Source) (hs : source.avoids slot) : source.write s = source.write t := by
  cases source with
  | nodes ids =>
    rw [Source.avoids] at hs
    rw [Source.write, Source.write, writeItems_of_avoid h .plain ids hs]
  | relationships ids =>
    rw [Source.avoids] at hs
    rw [Source.write, Source.write, writeItems_of_avoid h .plain ids hs]
  | search index query =>
    rw [Source.avoids] at hs
    cases index with
    | none => rfl
    | some index => rw [Source.write, Source.write, Operand.write_of_avoids h _ query hs]
  | lookup index query => cases index <;> rfl
termination_by structural source

theorem writeItems_of_avoid {slot : Nat} {s t : Scope} (h : s.AgreesBut slot t) (m : Manner)
    (items : List Operand) (hitems : itemsAvoid slot items) :
    writeItems s m items = writeItems t m items := by
  cases items with
  | nil => rfl
  | cons item items =>
    rw [itemsAvoid, Bool.and_eq_true] at hitems
    rw [writeItems, writeItems, Operand.write_of_avoids h m item hitems.1,
      writeItems_of_avoid h m items hitems.2]
termination_by structural items

theorem writeEntries_of_avoid {slot : Nat} {s t : Scope} (h : s.AgreesBut slot t)
    (entries : List (Operand × Operand)) (hentries : entriesAvoid slot entries) :
    writeEntries s entries = writeEntries t entries := by
  match entries with
  | [] => rfl
  | (key, operand) :: entries =>
    rw [entriesAvoid, Bool.and_eq_true, Bool.and_eq_true] at hentries
    rw [writeEntries, writeEntries, Operand.write_of_avoids h _ key hentries.1.1,
      Operand.write_of_avoids h _ operand hentries.1.2, writeEntries_of_avoid h entries hentries.2]
termination_by structural entries

end

/-! ## Renamed blocks -/

section Rename

variable {b : Block} {slot : Nat} {name : Value}

theorem nameAt_rename {i : Nat} (h : i ≠ slot) :
    nameAt (b.rename slot name).names i = nameAt b.names i := by
  rw [nameAt, nameAt, rename, List.getElem?_set_ne h.symm]

theorem display_rename {o : Operand} (h : o.avoids slot) :
    (b.rename slot name).display o = b.display o := by
  have hagree : (b.rename slot name).scope.AgreesBut slot b.scope := fun i hi => by
    rw [Scope.name, Scope.name]
    exact nameAt_rename hi
  rw [display, display, Operand.display, Operand.display, Operand.write_of_avoids hagree .plain o h]

theorem rename_rename {i : Nat} (h : i ≠ slot) (other : Value) :
    (b.rename slot name).rename i other = (b.rename i other).rename slot name := by
  rw [rename, rename, rename, rename, List.set_comm _ _ h.symm]

theorem unregister_rename (o : Operand) :
    (b.rename slot name).unregister o = (b.unregister o).rename slot name := by
  rw [unregister, unregister]
  split <;> rfl

theorem registerItems_rename (items : List Operand) :
    (b.rename slot name).registerItems items = (b.registerItems items).rename slot name := by
  induction items generalizing b with
  | nil => rfl
  | cons item items ih => exact @ih (b.register (.item item))

theorem absorb_rename (filter : Content) (left right : Operand) :
    (b.rename slot name).absorb filter left right =
      (b.absorb filter left right).rename slot name := by
  rw [absorb, absorb, ← unregister_rename, ← unregister_rename]
  rfl

theorem indexNameFor_rename {type : Operand} (h : type.avoids slot) (r : Resolver) :
    (b.rename slot name).indexNameFor r type = b.indexNameFor r type := by
  rw [indexNameFor.eq_def, indexNameFor.eq_def]
  split
  · rfl
  · rw [display_rename h]
  · rfl

theorem lookupTarget_rename {key value : Operand} (h : key.avoids slot) (h' : value.avoids slot)
    (r : Resolver) (type : Value) :
    (b.rename slot name).lookupTarget r type key value = b.lookupTarget r type key value := by
  rw [lookupTarget, lookupTarget, display_rename h, display_rename h']

/-- A slot that is opened lies behind the one that is renamed. -/
theorem openSlot_rename (h : slot < b.names.length) (initial : Value) :
    (b.rename slot name).openSlot initial = (b.openSlot initial).rename slot name := by
  rw [openSlot, openSlot, rename, rename, List.set_append_left _ _ h]

end Rename

/-- The outcome of a call on a block where a variable has another name: the same result and a block
that is renamed just so. Only what a failing call says may be different. -/
def Outcome.RenamesTo (slot : Nat) (name : Value) (before after : Outcome) : Prop :=
  after.1.toOption = before.1.toOption ∧ after.2 = before.2.rename slot name

namespace Outcome.RenamesTo

variable {b : Block} {slot : Nat} {name : Value}

theorem give (o : Operand) {b' : Block} :
    RenamesTo slot name (b'.give o) ((b'.rename slot name).give o) := ⟨rfl, rfl⟩

theorem fail (fault fault' : Fault) {b' : Block} :
    RenamesTo slot name (b'.fail fault) ((b'.rename slot name).fail fault') := ⟨rfl, rfl⟩

/-! ### Calls that open a slot -/

section Opened

variable (h : slot < b.names.length)

include h

theorem bindNode (initial : Value) :
    RenamesTo slot name (b.bindNode initial) ((b.rename slot name).bindNode initial) := by
  rw [Block.bindNode, Block.bindNode, openSlot_rename h, rename, List.length_set]
  exact give _

theorem bindRelationship (expr : String) :
    RenamesTo slot name (b.bindRelationship expr) ((b.rename slot name).bindRelationship expr) := by
  rw [Block.bindRelationship, Block.bindRelationship, openSlot_rename h]
  simp only [rename, List.length_set]
  exact give _

theorem bindEntity (initial : String) (source : Source) :
    RenamesTo slot name (b.bindEntity initial source)
      ((b.rename slot name).bindEntity initial source) := by
  rw [Block.bindEntity, Block.bindEntity, openSlot_rename h]
  simp only [rename, List.length_set]
  exact give _

theorem node (args : List Operand) :
    RenamesTo slot name (b.node args) ((b.rename slot name).node args) := by
  rw [Block.node.eq_def, Block.node.eq_def]
  split
  · exact bindNode h _
  · exact bindNode h _
  · split
    · exact bindEntity h _ _
    · exact fail _ _

theorem relationship (args : List Operand) :
    RenamesTo slot name (b.relationship args) ((b.rename slot name).relationship args) := by
  rw [Block.relationship.eq_def, Block.relationship.eq_def]
  split
  · exact bindEntity h _ _
  · exact bindRelationship h _
  · exact fail _ _

theorem search (r : Resolver) (query : Operand) {type : Operand} (htype : type.avoids slot) :
    RenamesTo slot name (b.search r query type) ((b.rename slot name).search r query type) := by
  simp only [Block.search, (bindEntity h "n" (.search none query)).2, indexNameFor_rename htype]
  split
  · exact bindEntity h _ _
  · exact fail _ _

theorem lookup (r : Resolver) {key value : Operand} (hkey : key.avoids slot)
    (hvalue : value.avoids slot) :
    RenamesTo slot name (b.lookup r key value) ((b.rename slot name).lookup r key value) := by
  simp only [Block.lookup, (bindEntity h "n" (.lookup none "")).2, display_rename hkey,
    lookupTarget_rename hkey hvalue]
  split
  · exact fail _ _
  · split
    · split
      · exact bindEntity h _ _
      · exact fail _ _
    · exact fail _ _

end Opened

/-! ### Other calls -/

theorem condition (arg : Operand) :
    RenamesTo slot name (b.condition arg) ((b.rename slot name).condition arg) := by
  rw [Block.condition.eq_def, Block.condition.eq_def]
  split
  · exact give _
  · exact give _

theorem ret (items : List Operand) :
    RenamesTo slot name (b.ret items) ((b.rename slot name).ret items) := by
  simp only [Block.ret, registerItems_rename]
  exact give _

theorem custom (kind : Option Clause.Kind) (text separator : String) :
    RenamesTo slot name (b.custom kind text separator)
      ((b.rename slot name).custom kind text separator) := by
  cases kind with
  | none => exact fail _ _
  | some kind => exact give _

theorem link (l : Link) (receiver other : Operand) :
    RenamesTo slot name (b.link l receiver other) ((b.rename slot name).link l receiver other) := by
  rw [Block.link.eq_def, Block.link.eq_def]
  split
  · exact give _
  · exact give _
  · simp only [rename]
    split
    · exact fail _ _
    · split
      · simp only [extendPath]
        exact give _
      · exact fail _ _
  · exact fail _ _

theorem property (owner key : Operand) :
    RenamesTo slot name (b.property owner key) ((b.rename slot name).property owner key) := by
  rw [Block.property, Block.property]
  split
  · exact give _
  · exact fail _ _

theorem shortestPath (path : Operand) :
    RenamesTo slot name (b.shortestPath path) ((b.rename slot name).shortestPath path) := by
  rw [Block.shortestPath.eq_def, Block.shortestPath.eq_def]
  split
  · exact give _
  · exact fail _ _

theorem composed (left right : Operand) (operator : Operator) :
    RenamesTo slot name (b.composed left right operator)
      ((b.rename slot name).composed left right operator) := by
  rw [Block.composed, Block.composed]
  simp only [absorb_rename]
  exact give _

theorem compare (operator : Operator) (left right : Operand) :
    RenamesTo slot name (b.compare operator left right)
      ((b.rename slot name).compare operator left right) := by
  rw [Block.compare.eq_def, Block.compare.eq_def]
  split
  · exact composed _ _ _
  · exact composed _ _ _
  · split
    · exact give _
    · exact give _
    · rw [Block.ordered.eq_def, Block.ordered.eq_def]
      split
      · split
        · exact give _
        · exact fail _ _
      · exact fail _ _

theorem matching (left right : Operand) :
    RenamesTo slot name (b.matching left right) ((b.rename slot name).matching left right) := by
  rw [Block.matching.eq_def, Block.matching.eq_def]
  split
  · exact composed _ _ _
  · exact fail _ _

theorem combine (operator : Operator) (left right : Operand) :
    RenamesTo slot name (b.combine operator left right)
      ((b.rename slot name).combine operator left right) := by
  rw [Block.combine.eq_def, Block.combine.eq_def]
  split
  · exact composed _ _ _
  · split
    · exact give _
    · exact fail _ _
  · exact fail _ _

theorem negation (n : Negation) (operand : Operand) :
    RenamesTo slot name (b.negate n operand) ((b.rename slot name).negate n operand) := by
  rw [Block.negate.eq_def, Block.negate.eq_def]
  split
  · simp only [absorb_rename]
    exact give _
  · split
    · exact give _
    · exact fail _ _
  · exact fail _ _

/-- Of two renamings the order does not matter if they are of two variables. -/
theorem renamed {owner other : Operand} (h : renamed? .rename owner [other] ≠ some slot) :
    RenamesTo slot name (b.renamed owner other) ((b.rename slot name).renamed owner other) := by
  rw [Block.renamed.eq_def, Block.renamed.eq_def]
  split
  · next i v hslot =>
    have hne : i ≠ slot := fun hi => h (hi ▸ hslot)
    rw [rename_rename hne]
    exact give _
  · exact fail _ _
  · exact fail _ _

end Outcome.RenamesTo

/-- The operands that a call writes at once. -/
def written (verb : Verb) (args : List Operand) : List Operand :=
  match verb, args with
  | .search _, [_, type] => [type]
  | .lookup _, [key, value] => [key, value]
  | _, _ => []

theorem perform_renamesTo {b : Block} {slot : Nat} (h : slot < b.names.length) (name : Value)
    {verb : Verb} {receiver : Operand} {args : List Operand}
    (hstay : renamed? verb receiver args ≠ some slot)
    (hwritten : ∀ o ∈ written verb args, o.avoids slot) :
    Outcome.RenamesTo slot name (b.perform verb receiver args)
      ((b.rename slot name).perform verb receiver args) := by
  rw [perform.eq_def, perform.eq_def]
  split
  · exact .node h _
  · exact .relationship h _
  · exact .search h _ _ rfl
  · exact .search h _ _ (hwritten _ (by simp [written]))
  · exact .lookup h _ (hwritten _ (by simp [written])) (hwritten _ (by simp [written]))
  · exact .give _
  · exact .give _
  · exact .condition _
  · exact .ret _
  · exact .link _ _ _
  · exact .property _ _
  · exact .renamed hstay
  · exact .compare _ _ _
  · exact .matching _ _
  · exact .combine _ _ _
  · exact .negation _ _
  · exact .shortestPath _
  · exact .custom _ _ _
  · exact .give _
  · exact .fail _ _

end GraphQuery.Block
