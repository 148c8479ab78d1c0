import GraphQuery.Proofs.Block.Tree
import GraphQuery.Proofs.Value.Written

/-!
# Conditions

What the text of a filter says: comparisons, combined and negated. A condition is true or not as
soon as the comparisons in it are. The text of a filter is that of its condition.
-/
namespace GraphQuery.Block

inductive Condition where
  /-- What is no filter, where a filter is combined with it. -/
  | atom (text : String)
  | comparison (left : String) (operator : Operator) (right : String)
  | both (c d : Condition)
  | either (c d : Condition)
  | negation (c : Condition)
deriving DecidableEq

/-- Which comparisons are true, and which atoms. -/
structure Truth where
  atom : String → Bool
  comparison : String → Operator → String → Bool
deriving Inhabited

namespace Condition

def holds (t : Truth) : Condition → Bool
  | .atom text => t.atom text
  | .comparison left operator right => t.comparison left operator right
  | .both c d => c.holds t && d.holds t
  | .either c d => c.holds t || d.holds t
  | .negation c => !c.holds t

def text : Condition → String
  | .atom text => text
  | .comparison left operator right => phrase false left operator right
  | .both c d => phrase false c.text .conjunction d.text
  | .either c d => phrase false c.text .disjunction d.text
  | .negation c => "not " ++ c.text

def signed (negated : Bool) (c : Condition) : Condition := if negated then .negation c else c

end Condition

/-- How an operator combines conditions. All others compare texts. -/
def Operator.connective? : Operator → Option (Condition → Condition → Condition)
  | .conjunction => some .both
  | .disjunction => some .either
  | _ => none

/-- What stands at the right of a combination. -/
def rightCondition (right : Operand) (c : Condition) : Condition :=
  match right with
  | .value (.regex pattern) => .atom ("/" ++ pattern ++ "/")
  | _ => c

/-- The sides of a filter as they stand in its text. The right one is written first, and put in its
place last. -/
def writtenSides (s : Scope) (left : Operand) (operator : Operator) (right : Operand) :
    Except Fault (String × String) := do
  let written ← right.write s (rightManner operator)
  let left ← (← left.write s .literal).shown
  return (left, rightSide operator right (← written.shown))

mutual

/-- What an operand says as a side of a combination. -/
def Operand.meaning (s : Scope) : Operand → Except Fault Condition
  | .fragment _ content => Content.meaning s content
  | operand => do return .atom (← (← operand.write s .literal).shown)
termination_by structural operand => operand

def Content.meaning (s : Scope) : Content → Except Fault Condition
  | .filter left right operator negated =>
    match operator.connective? with
    | some combination => do
      -- the right side is written before the left one, so its faults come first
      let _ ← right.write s .literal
      let c ← Operand.meaning s left
      let d ← Operand.meaning s right
      return (combination c (rightCondition right d)).signed negated
    | none => do
      let (left, right) ← writtenSides s left operator right
      return (Condition.comparison left operator right).signed negated
  | content => do return .atom (← (← content.write s .literal).shown)
termination_by structural content => content

end

/-! ## Texts -/

@[simp] theorem Condition.text_signed (negated : Bool) (c : Condition) :
    (c.signed negated).text = (if negated then "not " else "") ++ c.text := by
  cases negated <;> simp [signed, text]

theorem phrase_eq (negated : Bool) (left : String) (operator : Operator) (right : String) :
    phrase negated left operator right =
      (if negated then "not " else "") ++ phrase false left operator right := by
  cases negated <;> simp [phrase, ← String.toList_inj]

theorem Operator.connective_text {operator : Operator}
    {combination : Condition → Condition → Condition}
    (h : operator.connective? = some combination) (c d : Condition) :
    (combination c d).text = phrase false c.text operator d.text := by
  cases operator with
  | conjunction | disjunction =>
    cases h
    rfl
  | _ => cases h

theorem Operator.ne_matching {operator : Operator}
    {combination : Condition → Condition → Condition}
    (h : operator.connective? = some combination) : operator ≠ .matching := by
  rintro rfl
  cases h

theorem text_rightCondition {operator : Operator} (h : operator ≠ .matching) (right : Operand)
    (c : Condition) : (rightCondition right c).text = rightSide operator right c.text := by
  rw [rightCondition.eq_def]
  split
  · rfl
  · next hright =>
    rw [rightSide.eq_def]
    split
    · next heq => exact absurd rfl (hright _)
    · exact (if_neg h).symm

theorem meaning_combination {operator : Operator} (s : Scope)
    {combination : Condition → Condition → Condition}
    (h : operator.connective? = some combination) (left right : Operand) (negated : Bool) :
    (Content.filter left right operator negated).meaning s = (do
      let _ ← right.write s .literal
      let c ← left.meaning s
      let d ← right.meaning s
      return (combination c (rightCondition right d)).signed negated) := by
  rw [Content.meaning.eq_def]
  simp only [h]

theorem meaning_comparison {operator : Operator} (s : Scope) (h : operator.connective? = none)
    (left right : Operand) (negated : Bool) :
    (Content.filter left right operator negated).meaning s =
      (writtenSides s left operator right).map fun sides =>
        (Condition.comparison sides.1 operator sides.2).signed negated := by
  rw [Content.meaning.eq_def]
  simp only [h]
  cases writtenSides s left operator right <;> rfl

theorem writeText_of_ne {m : Manner} (hm : m ≠ .shown) (title text : String) :
    writeText title text m = .text text := by
  cases m with
  | shown => exact absurd rfl hm
  | _ => rfl

/-- A filter is written as a phrase of its sides, whatever the manner. -/
theorem write_filter_eq (s : Scope) (m : Manner) (left right : Operand) (operator : Operator)
    (negated : Bool) :
    (Content.filter left right operator negated).write s m =
      (writtenSides s left operator right).map fun sides =>
        writeText "BooleanExpression" (phrase negated sides.1 operator sides.2) m := by
  rw [Content.write, writtenSides]
  cases right.write s (rightManner operator) with
  | error fault => rfl
  | ok written =>
    cases left.write s .literal with
    | error fault => rfl
    | ok v =>
      simp only [bind, Except.bind]
      cases v.shown with
      | error fault => rfl
      | ok l => cases written.shown <;> rfl

theorem writtenSides_of_write {s : Scope} {left right : Operand} {operator : Operator}
    {l r : Value} (hl : left.write s .literal = .ok l) (wl : l.isWritable)
    (hr : right.write s (rightManner operator) = .ok r) (wr : r.isWritable) :
    writtenSides s left operator right = .ok (l.display, rightSide operator right r.display) := by
  have hleft : l.shown = .ok l.display := Value.written_of_isWritable wl
  have hright : r.shown = .ok r.display := Value.written_of_isWritable wr
  rw [writtenSides, hl, hr]
  simp only [bind, Except.bind, hleft, hright]
  rfl

theorem shown_atom (x : Except Fault Value) :
    x >>= Value.shown = (do return Condition.atom (← (← x).shown)).map Condition.text := by
  cases x with
  | error fault => rfl
  | ok v =>
    simp only [bind, Except.bind]
    cases v.shown <;> rfl

/-- A filter is written as its condition if the sides of it are. -/
theorem write_filter_of {m : Manner} (hm : m ≠ .shown) {s : Scope} {left right : Operand}
    (hleft : left.write s .literal >>= Value.shown = (left.meaning s).map Condition.text)
    (hright : right.write s .literal >>= Value.shown = (right.meaning s).map Condition.text)
    (operator : Operator) (negated : Bool) :
    (Content.filter left right operator negated).write s m =
      ((Content.filter left right operator negated).meaning s).map fun c => .text c.text := by
  rw [write_filter_eq]
  simp only [writeText_of_ne hm]
  cases hop : operator.connective? with
  | none =>
    rw [meaning_comparison s hop]
    rcases writtenSides s left operator right with fault | ⟨l, r⟩
    · rfl
    · have htext : phrase negated l operator r =
          ((Condition.comparison l operator r).signed negated).text := by
        rw [Condition.text_signed, Condition.text, ← phrase_eq]
      exact congrArg (fun text => Except.ok (Value.text text)) htext
  | some combination =>
    have hne := Operator.ne_matching hop
    have hsides : writtenSides s left operator right = (do
        let w ← right.write s .literal
        let l ← left.write s .literal >>= Value.shown
        let r ← w.shown
        return (l, rightSide operator right r)) := by
      simp only [writtenSides, rightManner, if_neg hne, bind_assoc]
    rw [meaning_combination s hop, hsides, hleft]
    cases hw : right.write s .literal with
    | error fault => rfl
    | ok w =>
      have hshown : w.shown = (right.meaning s).map Condition.text := by
        rw [← hright, hw]
        rfl
      cases left.meaning s with
      | error fault => rfl
      | ok c =>
        simp only [bind, Except.bind, Except.map, hshown]
        cases right.meaning s with
        | error fault => rfl
        | ok d =>
          have htext : phrase negated c.text operator (rightSide operator right d.text) =
              ((combination c (rightCondition right d)).signed negated).text := by
            rw [Condition.text_signed, Operator.connective_text hop, text_rightCondition hne,
              ← phrase_eq]
          exact congrArg (fun text => Except.ok (Value.text text)) htext

mutual

/-- The text of an operand of a combination is that of what it says. -/
theorem Operand.text_meaning (s : Scope) (o : Operand) :
    o.write s .literal >>= Value.shown = (o.meaning s).map Condition.text := by
  cases o with
  | fragment serial content =>
    rw [Operand.write, Operand.meaning]
    exact content.text_meaning s
  | _ => exact shown_atom _
termination_by structural o

theorem Content.text_meaning (s : Scope) (c : Content) :
    c.write s .literal >>= Value.shown = (c.meaning s).map Condition.text := by
  cases c with
  | filter left right operator negated =>
    rw [write_filter_of (by decide) (left.text_meaning s) (right.text_meaning s)]
    cases (Content.filter left right operator negated).meaning s <;> rfl
  | _ => exact shown_atom _
termination_by structural c

end

/-- A filter is written as its condition, on its own and within another one. -/
theorem write_filter {m : Manner} (hm : m ≠ .shown) (s : Scope) (left right : Operand)
    (operator : Operator) (negated : Bool) :
    (Content.filter left right operator negated).write s m =
      ((Content.filter left right operator negated).meaning s).map fun c => .text c.text :=
  write_filter_of hm (left.text_meaning s) (right.text_meaning s) operator negated

def Operand.isFilter : Operand → Bool
  | .fragment _ content => content.isFilter
  | _ => false

theorem Operand.write_of_isFilter {o : Operand} (h : o.isFilter) {m : Manner} (hm : m ≠ .shown)
    (s : Scope) : o.write s m = (o.meaning s).map fun c => .text c.text := by
  cases o with
  | fragment serial content =>
    cases content with
    | filter left right operator negated =>
      rw [Operand.write, Operand.meaning]
      exact write_filter hm s left right operator negated
    | _ => cases h
  | _ => cases h

/-- What an operand says in a scope. If it is a filter, this is what is written for it. -/
structure Operand.Says (s : Scope) (o : Operand) (c : Condition) : Prop where
  meaning : o.meaning s = .ok c
  write : o.isFilter → ∀ m, m ≠ .shown → o.write s m = .ok (.text c.text)

theorem Operand.says_of_meaning {s : Scope} {o : Operand} {c : Condition}
    (h : o.meaning s = .ok c) : o.Says s c :=
  ⟨h, fun hfilter m hm => by rw [write_of_isFilter hfilter hm, h]; rfl⟩

end GraphQuery.Block
