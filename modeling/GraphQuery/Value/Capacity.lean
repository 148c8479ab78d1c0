import GraphQuery.Failure.Fault
import GraphQuery.Value.TypeName

/-!
# Capacities

Integers are written up to a number of digits, and a value that has a longer one in it is not
written at all. Lengths and counts are numbers of 64 bits, also where they count bytes. What would
be larger is not built; how much of the rest a machine has room for is left open.
-/
namespace GraphQuery

/-! ## Digits -/

/-- Integers are written with at most as many digits. -/
def digitLimit : Nat := 4300

def writable (n : Int) : Bool := decide ((Decimal.natDigits n.natAbs).length ≤ digitLimit)

/-- A progression is written by its three numbers. -/
def Progression.isWritable (p : Progression) : Bool :=
  writable p.start && writable p.stop && writable p.step

mutual

/-- All integers in the value can be written, in whichever of its forms it is. -/
def Value.isWritable : Value → Bool
  | .int n => writable n
  | .range p => p.isWritable
  | .list items => areWritable items
  | .tuple items => areWritable items
  | .map entries => areWritableEntries entries
  | .null => true
  | .bool _ => true
  | .float _ => true
  | .text _ => true
  | .regex _ => true
  | .bytes _ => true
  | .foreign _ => true
termination_by structural v => v

def areWritable : List Value → Bool
  | [] => true
  | item :: items => item.isWritable && areWritable items
termination_by structural items => items

def areWritableEntries : List (Value × Value) → Bool
  | [] => true
  | (key, v) :: entries => key.isWritable && v.isWritable && areWritableEntries entries
termination_by structural entries => entries

end

/-- What is made by writing the value, if that is possible. -/
def Value.written {α : Type} (v : Value) (made : α) : Except Fault α :=
  if v.isWritable then .ok made else .error .tooManyDigits

/-- The text of a value within another text. -/
def Value.shown (v : Value) : Except Fault String := v.written v.display

/-! ## Lengths -/

/-- Lengths are below this number. -/
def lengthLimit : Int := Int.pow 2 63

/-- The number of bytes for a character of a text, the same for all of them. -/
def charWidth (s : String) : Nat :=
  if s.toList.all fun c => decide (c.toNat < 0x100) then 1
  else if s.toList.all fun c => decide (c.toNat < 0x10000) then 2
  else 4

/-- The bytes of a reference to a member. -/
def memberWidth : Nat := 8

/-- The members of a value, listed if that is possible. -/
def Value.listed : Value → Except Fault (List Value)
  | .range p =>
    if lengthLimit ≤ p.size then .error .lengthTooLarge
    else if lengthLimit ≤ memberWidth * p.size then .error .outOfMemory
    else .ok (p.members.map .int)
  | v =>
    match v.members? with
    | some members => .ok members
    | none => .error (.notIterable v.fullTypeName)

/-- The length of what can be repeated, and the bytes for each of its parts. -/
def Value.extent? : Value → Option (Nat × Nat)
  | .text s => some (s.length, charWidth s)
  | .bytes data => some (data.length, 1)
  | .list items | .tuple items => some (items.length, memberWidth)
  | _ => none

/-- The fault of a repetition whose length is out of range. -/
def Value.overlong : Value → Fault
  | .text _ => .textTooLong
  | .bytes _ => .bytesTooLong
  | _ => .outOfMemory

/-- Why `count` times a value cannot be had, if it cannot. -/
def Value.repeatFault? (count : Int) (v : Value) : Option Fault :=
  match v.extent? with
  | none => some (.unsupported "*" "int" v.fullTypeName)
  | some (length, width) =>
    if count < -lengthLimit ∨ lengthLimit ≤ count then some .countTooLarge
    else if lengthLimit ≤ count * length then some v.overlong
    else if lengthLimit ≤ count * length * width then some .outOfMemory
    else none

end GraphQuery
