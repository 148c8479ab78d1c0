import GraphQuery.Failure.Basic
import GraphQuery.Misfit

/-!
# Faults

What keeps an operation on a query under construction from succeeding: a failure of this library,
or an operation that its operands do not have or whose result would be too large.
-/
namespace GraphQuery

inductive Fault where
  | failure (f : Failure)
  /-- A call whose arguments do not fit. -/
  | misfit (call : String) (m : Misfit)
  /-- An operand of a type without the operation. -/
  | wrongType
  | unsupported (operation left right : String)
  | incomparable (left right : String)
  /-- Repetition by a number that is no integer. -/
  | repeatedBy (type : String)
  | notIterable (type : String)
  | unjoinable
  /-- Something else in a list of texts. -/
  | notText (position : Nat) (type : String)
  | unhashable (type : String)
  /-- Something else in a list of pairs. -/
  | notPair (position : Nat)
  | pairLength (position length : Nat)
  /-- A filter was asked whether it is true. -/
  | noTruthValue
  | missingKey
  /-- The receiver has no such part. -/
  | missingPart
  | missingAttribute (type name : String)
  | unknownName
  | outOfBounds
  | notRendered
  /-- A length, a count or an integer beyond what can be represented. -/
  | lengthTooLarge
  | countTooLarge
  | textTooLong
  | bytesTooLong
  | beyondFloats
  | outOfMemory
  /-- An integer of more digits than are written. -/
  | tooManyDigits
  /-- The text would contain itself. -/
  | endless

namespace Fault

/-- The name of the kind of a fault that is no failure. -/
def name : Fault → String
  | .failure f => f.names.headD ""
  | .misfit _ _ | .wrongType | .unsupported _ _ _ | .incomparable _ _ | .repeatedBy _
  | .notIterable _ | .unjoinable | .notText _ _ | .unhashable _ | .notPair _
  | .noTruthValue => "TypeError"
  | .pairLength _ _ | .unknownName | .tooManyDigits => "ValueError"
  | .missingKey => "KeyError"
  | .missingPart | .missingAttribute _ _ => "AttributeError"
  | .outOfBounds => "IndexError"
  | .notRendered => "NotImplementedError"
  | .lengthTooLarge | .countTooLarge | .textTooLong | .bytesTooLong | .beyondFloats =>
    "OverflowError"
  | .outOfMemory => "MemoryError"
  | .endless => "RecursionError"

def message : Fault → String
  | .failure f => f.message
  | .misfit call m => m.message call
  | .unsupported operation left right =>
    "unsupported operand type(s) for " ++ operation ++ ": '" ++ left ++ "' and '" ++ right ++ "'"
  | .incomparable left right =>
    "'>' not supported between instances of '" ++ left ++ "' and '" ++ right ++ "'"
  | .repeatedBy type => "can't multiply sequence by non-int of type '" ++ type ++ "'"
  | .notIterable type => "'" ++ type ++ "' object is not iterable"
  | .unjoinable => "can only join an iterable"
  | .notText position type =>
    "sequence item " ++ Decimal.intText position ++ ": expected str instance, " ++ type ++ " found"
  | .unhashable type => "unhashable type: '" ++ type ++ "'"
  | .notPair position =>
    "cannot convert dictionary update sequence element #" ++ Decimal.intText position ++
      " to a sequence"
  | .pairLength position length =>
    "dictionary update sequence element #" ++ Decimal.intText position ++ " has length " ++
      Decimal.intText length ++ "; 2 is required"
  | .noTruthValue =>
    "Boolean value of a filter expression is undefined; use & and | instead of and/or"
  | .missingAttribute type name => "'" ++ type ++ "' object has no attribute '" ++ name ++ "'"
  | .countTooLarge => "cannot fit 'int' into an index-sized integer"
  | .textTooLong => "repeated string is too long"
  | .bytesTooLong => "repeated bytes are too long"
  | .beyondFloats => "int too large to convert to float"
  | .tooManyDigits =>
    "Exceeds the limit (4300 digits) for integer string conversion; " ++
      "use sys.set_int_max_str_digits() to increase the limit"
  | _ => ""

end Fault
end GraphQuery
