import GraphQuery.Block.Sameness
import GraphQuery.Block.Text
import GraphQuery.Text.Letter

/-!
# Bindings

Entities of START and unbound variables. An entity is named after the size of the registry before
it enters, an unbound variable after the number of those before it; a relationship variable takes
the leading letters of its expression for a name, if there are any.
-/
namespace GraphQuery.Block

def numberedName (initial : String) (n : Nat) : Value := .text (initial ++ Decimal.intText n)

def isInteger : Operand → Bool
  | .value (.int _) => true
  | _ => false

/-- Arguments for a message. One that is no plain value is known by the text that shows it. -/
def rejected (call expected : String) (args : List Operand) (b : Block) : Fault :=
  match (Operand.tuple args).write b.scope .shown with
  | .ok shown =>
    .failure (Failure.unknownArgument ("Unknown arg " ++ shown.display) (.foreign shown.display)
      (some expected) "dsl" (some call))
  | .error fault => fault

/-! ## Unbound variables -/

def bindNode (name : Value) (b : Block) : Outcome :=
  let slot := b.names.length
  ({ b.openSlot name with unbound := b.unbound ++ [slot] }).give (.node slot)

def leadingLetters (expr : String) : String := String.ofList (expr.toList.takeWhile Text.isLetter)

def relationshipName (expr : String) (count : Nat) : Value :=
  let letters := leadingLetters expr
  if letters = "" then numberedName "v" count else .text letters

def bindRelationship (expr : String) (b : Block) : Outcome :=
  let slot := b.names.length
  ({ b.openSlot (relationshipName expr (b.unbound.length + 1)) with
    unbound := b.unbound ++ [slot] }).give (.relationship slot expr)

/-! ## Entities of START -/

def bindEntity (initial : String) (source : Source) (b : Block) : Outcome :=
  let content := Content.start b.names.length source
  ((b.openSlot (numberedName initial b.registry.length)).register content).give (b.upcoming content)

/-- A node variable, named or not, or the nodes of the given numbers. -/
def node (args : List Operand) (b : Block) : Outcome :=
  match args with
  | [] => b.bindNode (numberedName "v" b.unbound.length)
  | .value (.text name) :: _ => b.bindNode (.text name)
  | args =>
    if args.all isInteger then b.bindEntity "n" (.nodes args)
    else b.fail (b.rejected "node" "str or int node ids" args)

/-- The relationships of the given numbers, or a relationship variable with its expression. -/
def relationship (args : List Operand) (b : Block) : Outcome :=
  match args with
  | .value (.int n) :: args => b.bindEntity "r" (.relationships (.value (.int n) :: args))
  | .value (.text expr) :: _ => b.bindRelationship expr
  | args => b.fail (b.rejected "rel" "str or int relationship ids" args)

/-! ## Index searches -/

/-- What a domain type knows about its indexes: the type of the index that serves a key, and the
names of the indexes by type. Without a table of names an index is named after owner and type. -/
structure Resolver where
  owner : String
  types : List (Value × Value)
  names : Option (List (Value × String))
deriving Inhabited

def valueUnder {α : Type} (key : Value) (entries : List (Value × α)) : Option α :=
  (entries.find? fun entry => entry.1.same key).map Prod.snd

namespace Resolver

def typeOf (r : Resolver) (key : String) : Value := (valueUnder (.text key) r.types).getD .null

def indexName (r : Resolver) (type : Value) : Except Fault String :=
  match r.names with
  | none => type.shown.map (r.owner ++ "_" ++ ·)
  | some names =>
    if type.unhashable?.isNone then
      match valueUnder type names with
      | some name => .ok name
      | none => .error .missingKey
    else .error .wrongType

end Resolver

/-- An operand as the type of an index: one that is no plain value is in no table of names. -/
def indexNameFor (r : Resolver) (type : Operand) (b : Block) : Except Fault String :=
  match type, r.names with
  | .value type, _ => r.indexName type
  | type, none => do return r.owner ++ "_" ++ (← b.display type)
  | type, some _ => .error (if type.isKey then .missingKey else .wrongType)

/-- Nodes found by an index query. The entity is registered even when there is no index for it. -/
def search (r : Resolver) (query type : Operand) (b : Block) : Outcome :=
  let unresolved := b.bindEntity "n" (.search none query)
  match unresolved.2.indexNameFor r type with
  | .ok index => b.bindEntity "n" (.search (some index) query)
  | .error fault => unresolved.2.fail fault

def lookupTarget (r : Resolver) (type : Value) (key value : Operand) (b : Block) :
    Except Fault (String × String) := do
  let index ← r.indexName type
  let key ← b.display key
  let value ← b.display value
  return (index, key ++ "=\"" ++ value ++ "\"")

/-- Nodes found under a key of an index. The key is written once to find the type of its index,
and once more, with the value, for the entity that is registered by then. -/
def lookup (r : Resolver) (key value : Operand) (b : Block) : Outcome :=
  match b.display key with
  | .error fault => b.fail fault
  | .ok name =>
    let type := r.typeOf name
    if type.isTrue then
      let unresolved := b.bindEntity "n" (.lookup none "")
      match unresolved.2.lookupTarget r type key value with
      | .ok (index, query) => b.bindEntity "n" (.lookup (some index) query)
      | .error fault => unresolved.2.fail fault
    else
      b.fail (.failure (Failure.missingIndex
        ("No index on " ++ r.owner ++ " property " ++ name) r.owner name))

/-! ## Properties and names -/

def property (owner key : Operand) (b : Block) : Outcome :=
  match owner.slot? with
  | some slot => b.give (.property slot key)
  | none => b.fail .wrongType

/-- Gives a variable another name. -/
def renamed (owner name : Operand) (b : Block) : Outcome :=
  match owner.slot?, name with
  | some slot, .value name => (b.rename slot name).give owner
  | some _, _ => b.fail .wrongType
  | none, _ => b.fail .missingPart

end GraphQuery.Block
