import GraphQuery.Block.Chain
import GraphQuery.Failure.Fault
import GraphQuery.Registry.Basic

/-!
# Blocks

The state of a query that is built by calls: the names of the variables, the chains of the
traversals and the registry of the fragments. A call gives an operand or a fault, and the block
as it is afterwards.
-/
namespace GraphQuery

structure Block where
  /-- The current names of the variables, by slot. -/
  names : List Value
  chains : List Block.Chain
  registry : Registry Block.Content
  /-- The slots of the variables that are not bound by START. -/
  unbound : List Nat
  /-- The next serial number. -/
  serials : Nat
deriving Inhabited

namespace Block

open Clause (Kind)

def empty : Block := ⟨[], [], [], [], 0⟩

abbrev Outcome := Except Fault Operand × Block

def give (operand : Operand) (b : Block) : Outcome := (.ok operand, b)

def fail (fault : Fault) (b : Block) : Outcome := (.error fault, b)

def Content.fragment (serial : Nat) (content : Content) : Fragment Content :=
  ⟨serial, content.kind, content⟩

def ofFragment (f : Fragment Content) : Operand := .fragment f.serial f.content

/-- Registers a fragment of its own for a content. -/
def register (content : Content) (b : Block) : Block :=
  { b with
    registry := b.registry.insert (content.fragment b.serials)
    serials := b.serials + 1 }

/-- The fragment that is registered next, as an operand. -/
def upcoming (content : Content) (b : Block) : Operand := .fragment b.serials content

def unregister (operand : Operand) (b : Block) : Block :=
  match operand.serial? with
  | some serial => { b with registry := b.registry.remove serial }
  | none => b

def isRegistered (operand : Operand) (b : Block) : Bool :=
  match operand.serial? with
  | some serial => b.registry.has serial
  | none => false

def nameAt (names : List Value) (slot : Nat) : Value := (names[slot]?).getD .null

/-- Opens a slot for a variable of the given name. -/
def openSlot (name : Value) (b : Block) : Block := { b with names := b.names ++ [name] }

def rename (slot : Nat) (name : Value) (b : Block) : Block :=
  { b with names := b.names.set slot name }

def segment? (chains : List Chain) (chain index : Nat) : Option Segment :=
  (chains[chain]?).bind fun c => c.segments[index]?

end Block
end GraphQuery
