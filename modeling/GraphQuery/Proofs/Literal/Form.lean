import GraphQuery.Literal
import GraphQuery.Proofs.Decimal.Numeral
import GraphQuery.Proofs.Text.Masked

/-!
# Forms of values

The form of a value is left when all texts and patterns in it are emptied. The literal of a value
tells its form, and no more outside of its tokens, if nothing in it that is written as it stands
leaves a token open: no key, and no value that has no literal form.
-/
namespace GraphQuery

open Text (Escapes)

mutual

/-- The value with all texts and patterns in it emptied. The keys of mappings stay. -/
def Value.form : Value → Value
  | .text _ => .text ""
  | .regex _ => .regex ""
  | .list items => .list (forms items)
  | .tuple items => .tuple (forms items)
  | .map entries => .map (entryForms entries)
  | .null => .null
  | .bool b => .bool b
  | .int n => .int n
  | .float x => .float x
  | .range p => .range p
  | .bytes data => .bytes data
  | .foreign label => .foreign label
termination_by structural v => v

def forms : List Value → List Value
  | [] => []
  | item :: items => item.form :: forms items
termination_by structural items => items

def entryForms : List (Value × Value) → List (Value × Value)
  | [] => []
  | (key, v) :: entries => (key, v.form) :: entryForms entries
termination_by structural entries => entries

end

mutual

/-- Nothing that is written as it stands in the literal of the value leaves a token open: no key,
and no value that has no literal form. -/
def Value.Sealed (e : Escapes) : Value → Prop
  | .list items => AllSealed e items
  | .tuple items => AllSealed e items
  | .map entries => EntriesSealed e entries
  | .bytes data => e.Sealed (Text.quotedBytes data)
  | .foreign label => e.Sealed label
  | .null => True
  | .bool _ => True
  | .int _ => True
  | .float _ => True
  | .text _ => True
  | .range _ => True
  | .regex _ => True
termination_by structural v => v

def AllSealed (e : Escapes) : List Value → Prop
  | [] => True
  | item :: items => item.Sealed e ∧ AllSealed e items
termination_by structural items => items

def EntriesSealed (e : Escapes) : List (Value × Value) → Prop
  | [] => True
  | (key, v) :: entries => e.Sealed key.display ∧ v.Sealed e ∧ EntriesSealed e entries
termination_by structural entries => entries

end

mutual

/-- A value of the kinds that have a literal, with names for keys: no name has a double quote. -/
def Value.isLiteral : Value → Bool
  | .list items => areLiteral items
  | .tuple items => areLiteral items
  | .map entries => areLiteralEntries entries
  | .bytes _ => false
  | .foreign _ => false
  | .null => true
  | .bool _ => true
  | .int _ => true
  | .float _ => true
  | .text _ => true
  | .range _ => true
  | .regex _ => true
termination_by structural v => v

def areLiteral : List Value → Bool
  | [] => true
  | item :: items => item.isLiteral && areLiteral items
termination_by structural items => items

def areLiteralEntries : List (Value × Value) → Bool
  | [] => true
  | (key, v) :: entries =>
    !key.display.toList.contains '"' && v.isLiteral && areLiteralEntries entries
termination_by structural entries => entries

end

variable {e : Escapes}

/-! ## Literals -/

theorem Decimal.not_mem_intText (n : Int) : '"' ∉ (Decimal.intText n).toList :=
  fun h => absurd (Decimal.isNumeral_of_mem_intText h) (by decide)

theorem Decimal.not_mem_floatText (x : Float) : '"' ∉ (Decimal.floatText x).toList :=
  fun h => absurd (Decimal.isNumeral_of_mem_floatText h) (by decide)

theorem Progression.not_mem_inspect (p : Progression) : '"' ∉ p.inspect.toList := by
  rw [inspect]
  split <;> simp [Decimal.not_mem_intText]

mutual

/-- The literal of a sealed value tells its form, and no more outside of its tokens. -/
theorem Value.alike_literal (v : Value) (h : v.Sealed e) : e.Alike v.literal v.form.literal := by
  cases v with
  | text s =>
    rw [Value.form, Value.literal, Value.literal]
    exact .textLiteral e s ""
  | regex pattern =>
    rw [Value.form, Value.literal, Value.literal]
    exact .textLiteral e pattern ""
  | list items =>
    rw [Value.form, Value.literal, Value.literal]
    rw [Value.Sealed] at h
    exact (Escapes.Alike.join (.of_not_mem (by simp)) (alike_literals items h)).between
      (by simp) (by simp)
  | tuple items =>
    rw [Value.form, Value.literal, Value.literal]
    rw [Value.Sealed] at h
    exact (Escapes.Alike.join (.of_not_mem (by simp)) (alike_literals items h)).between
      (by simp) (by simp)
  | map entries =>
    rw [Value.form, Value.literal, Value.literal]
    rw [Value.Sealed] at h
    exact (Escapes.Alike.join (.of_not_mem (by simp)) (alike_propertyTexts entries h)).between
      (by simp) (by simp)
  | bytes data =>
    rw [Value.form, Value.literal]
    exact .refl h
  | foreign label =>
    rw [Value.form, Value.literal]
    exact .refl h
  | null => exact .of_not_mem (by simp [Value.literal])
  | bool b => exact .of_not_mem (by cases b <;> simp [Value.literal])
  | int n => exact .of_not_mem (by simp [Value.literal, Decimal.not_mem_intText])
  | float x => exact .of_not_mem (by simp [Value.literal, Decimal.not_mem_floatText])
  | range p => exact .of_not_mem (by simp [Value.literal, Progression.not_mem_inspect])
termination_by structural v

theorem alike_literals (items : List Value) (h : AllSealed e items) :
    List.Forall₂ e.Alike (literals items) (literals (forms items)) := by
  cases items with
  | nil => exact .nil
  | cons item items =>
    rw [AllSealed] at h
    exact .cons (item.alike_literal h.1) (alike_literals items h.2)
termination_by structural items

theorem alike_propertyTexts (entries : List (Value × Value)) (h : EntriesSealed e entries) :
    List.Forall₂ e.Alike (propertyTexts entries) (propertyTexts (entryForms entries)) := by
  cases entries with
  | nil => exact .nil
  | cons entry entries =>
    obtain ⟨key, v⟩ := entry
    rw [EntriesSealed] at h
    have hcolon : e.Alike ": " ": " := .of_not_mem (by simp)
    have hname := (Escapes.Alike.refl h.1).append hcolon
    exact .cons (hname.append (v.alike_literal h.2.1)) (alike_propertyTexts entries h.2.2)
termination_by structural entries

end

theorem alike_propertyMap (entries : List (Value × Value)) (h : EntriesSealed e entries) :
    e.Alike (propertyMap entries) (propertyMap (entryForms entries)) :=
  (Escapes.Alike.join (.of_not_mem (by simp)) (alike_propertyTexts entries h)).between
    (by simp) (by simp)

mutual

theorem Value.sealed_of_isLiteral (v : Value) (h : v.isLiteral) : v.Sealed e := by
  cases v with
  | list items =>
    rw [Value.isLiteral] at h
    rw [Value.Sealed]
    exact allSealed_of_areLiteral items h
  | tuple items =>
    rw [Value.isLiteral] at h
    rw [Value.Sealed]
    exact allSealed_of_areLiteral items h
  | map entries =>
    rw [Value.isLiteral] at h
    rw [Value.Sealed]
    exact entriesSealed_of_areLiteral entries h
  | bytes | foreign => cases h
  | _ => trivial
termination_by structural v

theorem allSealed_of_areLiteral (items : List Value) (h : areLiteral items) :
    AllSealed e items := by
  cases items with
  | nil => trivial
  | cons item items =>
    rw [areLiteral, Bool.and_eq_true] at h
    exact ⟨item.sealed_of_isLiteral h.1, allSealed_of_areLiteral items h.2⟩
termination_by structural items

theorem entriesSealed_of_areLiteral (entries : List (Value × Value))
    (h : areLiteralEntries entries) : EntriesSealed e entries := by
  cases entries with
  | nil => trivial
  | cons entry entries =>
    obtain ⟨key, v⟩ := entry
    rw [areLiteralEntries, Bool.and_eq_true, Bool.and_eq_true] at h
    exact ⟨.of_not_mem (by simpa using h.1.1), v.sealed_of_isLiteral h.1.2,
      entriesSealed_of_areLiteral entries h.2⟩
termination_by structural entries

end

mutual

theorem Value.sealed_form (v : Value) : v.form.Sealed e ↔ v.Sealed e := by
  cases v with
  | list items =>
    rw [Value.form, Value.Sealed, Value.Sealed]
    exact allSealed_forms items
  | tuple items =>
    rw [Value.form, Value.Sealed, Value.Sealed]
    exact allSealed_forms items
  | map entries =>
    rw [Value.form, Value.Sealed, Value.Sealed]
    exact entriesSealed_entryForms entries
  | _ => exact Iff.rfl
termination_by structural v

theorem allSealed_forms (items : List Value) : AllSealed e (forms items) ↔ AllSealed e items := by
  cases items with
  | nil => exact Iff.rfl
  | cons item items =>
    rw [forms, AllSealed, AllSealed, item.sealed_form, allSealed_forms items]
termination_by structural items

theorem entriesSealed_entryForms (entries : List (Value × Value)) :
    EntriesSealed e (entryForms entries) ↔ EntriesSealed e entries := by
  cases entries with
  | nil => exact Iff.rfl
  | cons entry entries =>
    obtain ⟨key, v⟩ := entry
    rw [entryForms, EntriesSealed, EntriesSealed, v.sealed_form, entriesSealed_entryForms entries]
termination_by structural entries

end

end GraphQuery
