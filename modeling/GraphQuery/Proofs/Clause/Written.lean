import GraphQuery.Clause.Basic
import GraphQuery.Proofs.Value.Progression
import GraphQuery.Proofs.Value.Written

/-!
# Written entries

Entries are written one after the other, each of them after its key. A condition is written if the
keys on the way to it and its value can be, where of a progression the numbers of the closed range
count.
-/
namespace GraphQuery

mutual

/-- The conditions on the value can be written. -/
def Value.isAskable : Value → Bool
  | .map entries => areAskable entries
  | .range p => Clause.isListable p
  | v => v.isWritable
termination_by structural v => v

def areAskable : List (Value × Value) → Bool
  | [] => true
  | (name, v) :: entries => name.isWritable && v.isAskable && areAskable entries
termination_by structural entries => entries

end

theorem areAskable_iff {entries : List (Value × Value)} :
    areAskable entries ↔ ∀ e ∈ entries, e.1.isWritable ∧ e.2.isAskable := by
  induction entries with
  | nil => simp [areAskable]
  | cons e entries ih =>
    rw [areAskable, Bool.and_eq_true, Bool.and_eq_true, ih, List.forall_mem_cons]

namespace Clause

variable {key : String} {texts : List String}

/-! ## One after the other -/

theorem rangeCondition_eq_ok {p : Progression} {text : String} :
    rangeCondition key p = .ok text ↔ isListable p ∧ rangeText key p = text := by
  cases h : isListable p <;> simp [rangeCondition, h]

theorem conditionEntryTexts_cons_eq_ok {name v : Value} {entries : List (Value × Value)} :
    conditionEntryTexts key ((name, v) :: entries) = .ok texts ↔
      name.isWritable ∧ ∃ first, conditionTexts (key ++ "." ++ name.display) v = .ok first ∧
        ∃ rest, conditionEntryTexts key entries = .ok rest ∧ first ++ rest = texts := by
  simp only [conditionEntryTexts, bind_eq_ok, Value.shown_eq_ok, pure, Except.pure,
    Except.ok.injEq]
  simp only [and_assoc, exists_and_left, exists_eq_left']

theorem entriesTexts_cons_eq_ok {kind : Kind} {replace : Bool} {name v : Value}
    {entries : List (Value × Value)} :
    entriesTexts kind replace ((name, v) :: entries) = .ok texts ↔
      name.isWritable ∧ ∃ first, entryTexts kind replace name.display v = .ok first ∧
        ∃ rest, entriesTexts kind replace entries = .ok rest ∧ first ++ rest = texts := by
  simp only [entriesTexts, bind_eq_ok, Value.shown_eq_ok, pure, Except.pure, Except.ok.injEq]
  simp only [and_assoc, exists_and_left, exists_eq_left']

theorem orderItemTexts_cons_eq_ok {item : Value} {items : List Value} :
    orderItemTexts key (item :: items) = .ok texts ↔
      ∃ first, orderTexts key item = .ok first ∧
        ∃ rest, orderItemTexts key items = .ok rest ∧ first ++ rest = texts := by
  rw [orderItemTexts]
  cases orderTexts key item with
  | error fault => simp
  | ok first => cases orderItemTexts key items <;> simp

/-! ## Whether there are texts -/

/-- The outcome of writing something: texts if it is fine, and the fault if it is not. -/
structure Decided (fine : Bool) (fault : Fault) (outcome : Except Fault (List String)) : Prop where
  texts : fine = true → ∃ texts, outcome = .ok texts
  fault : fine = false → outcome = .error fault

namespace Decided

variable {fault : Fault}

theorem ok (texts : List String) : Decided true fault (.ok texts) :=
  ⟨fun _ => ⟨texts, rfl⟩, fun h => absurd h (by decide)⟩

theorem error : Decided false fault (.error fault) :=
  ⟨fun h => absurd h (by decide), fun _ => rfl⟩

theorem written (v : Value) (texts : List String) :
    Decided v.isWritable .tooManyDigits (v.written texts) where
  texts := fun h => ⟨texts, Value.written_of_isWritable h⟩
  fault := Value.written_of_not_isWritable

theorem append {fine fine' : Bool} {x y : Except Fault (List String)} (h : Decided fine fault x)
    (h' : Decided fine' fault y) :
    Decided (fine && fine') fault (do return (← x) ++ (← y)) := by
  cases fine with
  | false =>
    rw [h.fault rfl]
    exact error
  | true =>
    obtain ⟨first, rfl⟩ := h.texts rfl
    cases fine' with
    | false =>
      rw [h'.fault rfl]
      exact error
    | true =>
      obtain ⟨rest, rfl⟩ := h'.texts rfl
      exact ok _

theorem shown {fine : Bool} {name : Value} {f : String → Except Fault (List String)}
    (h : Decided fine .tooManyDigits (f name.display)) :
    Decided (name.isWritable && fine) .tooManyDigits (name.shown >>= f) := by
  rw [Value.shown, Value.written]
  cases name.isWritable with
  | false => exact error
  | true => exact h

end Decided

theorem rangeCondition_decided (key : String) (p : Progression) :
    Decided (isListable p) .tooManyDigits ((rangeCondition key p).map fun text => [text]) := by
  rw [rangeCondition]
  cases isListable p with
  | false => exact .error
  | true => exact .ok _

mutual

theorem conditionTexts_decided (key : String) (v : Value) :
    Decided v.isAskable .tooManyDigits (conditionTexts key v) := by
  cases v with
  | map entries => exact conditionEntryTexts_decided key entries
  | list | tuple | int => exact .written _ _
  | range p => exact rangeCondition_decided key p
  | _ => exact .ok _
termination_by structural v

theorem conditionEntryTexts_decided (key : String) (entries : List (Value × Value)) :
    Decided (areAskable entries) .tooManyDigits (conditionEntryTexts key entries) := by
  cases entries with
  | nil => exact .ok _
  | cons entry entries =>
    obtain ⟨name, v⟩ := entry
    rw [areAskable, Bool.and_assoc, conditionEntryTexts]
    exact ((conditionTexts_decided (key ++ "." ++ name.display) v).append
      (conditionEntryTexts_decided key entries)).shown
termination_by structural entries

end

end Clause

/-! ## Values whose integers can all be written -/

theorem isListable_of_isWritable {p : Progression} (h : p.isWritable) : Clause.isListable p := by
  simp only [Progression.isWritable, Bool.and_eq_true] at h
  obtain ⟨⟨hstart, hstop⟩, hstep⟩ := h
  cases hempty : p.isEmpty with
  | true => rw [Clause.isListable, hempty, Bool.true_or]
  | false =>
    have hlast : writable p.last :=
      (Progression.natAbs_last_le hempty).elim (writable_of_natAbs_le · hstart)
        (writable_of_natAbs_le · hstop)
    rw [Clause.isListable, hstart, hlast, hstep, Bool.and_true, Bool.and_true, Bool.or_true]

mutual

theorem isAskable_of_isWritable (v : Value) (h : v.isWritable) : v.isAskable := by
  cases v with
  | map entries => exact areAskable_of_isWritable entries h
  | range p => exact isListable_of_isWritable h
  | _ => exact h
termination_by structural v

theorem areAskable_of_isWritable (entries : List (Value × Value)) (h : areWritableEntries entries) :
    areAskable entries := by
  cases entries with
  | nil => rfl
  | cons entry entries =>
    obtain ⟨name, v⟩ := entry
    simp only [areWritableEntries, Bool.and_eq_true] at h
    simp only [areAskable, Bool.and_eq_true]
    exact ⟨⟨h.1.1, isAskable_of_isWritable v h.1.2⟩, areAskable_of_isWritable entries h.2⟩
termination_by structural entries

end

namespace Clause

/-- The integers that a clause of the kind writes of the value can be written. -/
def writes (kind : Kind) (v : Value) : Bool :=
  if kind = .condition then v.isAskable else v.isWritable

theorem writes_of_isWritable (kind : Kind) {v : Value} (h : v.isWritable) : writes kind v := by
  rw [writes]
  split
  · exact isAskable_of_isWritable v h
  · exact h

theorem writes_of_areWritableEntries (kind : Kind) {entries : List (Value × Value)}
    (h : areWritableEntries entries) :
    ∀ entry ∈ entries, entry.1.isWritable ∧ writes kind entry.2 := fun entry hentry =>
  (areWritableEntries_iff.1 h entry hentry).imp id (writes_of_isWritable kind)

end Clause
end GraphQuery
