import GraphQuery.Value.Capacity

/-!
# Written values

A value is written if all its integers can be, and the only fault of writing it is an integer of too
many digits.
-/
namespace GraphQuery

/-! ## Outcomes -/

section Outcomes

variable {α β : Type} {x : Except Fault α} {b : β}

theorem bind_eq_ok {f : α → Except Fault β} : x >>= f = .ok b ↔ ∃ a, x = .ok a ∧ f a = .ok b := by
  cases x with
  | error fault => simp [bind, Except.bind]
  | ok a => simp [bind, Except.bind]

theorem map_eq_ok {f : α → β} : x.map f = .ok b ↔ ∃ a, x = .ok a ∧ f a = b := by
  cases x with
  | error fault => simp [Except.map]
  | ok a => simp [Except.map]

end Outcomes

/-! ## Integers -/

theorem writable_iff {n : Int} : writable n ↔ n.natAbs < Nat.pow 10 digitLimit := by
  have hdigits {limit : Nat} (hlimit : 0 < limit) :
      (Decimal.natDigits n.natAbs).length ≤ limit ↔ n.natAbs < Nat.pow 10 limit :=
    Nat.length_toDigits_le_iff (by decide) hlimit
  rw [writable, decide_eq_true_iff]
  exact hdigits (by decide)

/-- What has few digits is written. -/
theorem writable_of_lt {n : Int} {d : Nat} (h : n.natAbs < Nat.pow 10 d) (hd : d ≤ digitLimit) :
    writable n := by
  have hpow {limit : Nat} (hle : d ≤ limit) : Nat.pow 10 d ≤ Nat.pow 10 limit :=
    Nat.pow_le_pow_right (by decide) hle
  exact writable_iff.2 (Nat.lt_of_lt_of_le h (hpow hd))

/-- What is nearer to zero than a written integer is written. -/
theorem writable_of_natAbs_le {m n : Int} (h : m.natAbs ≤ n.natAbs) (hn : writable n) :
    writable m :=
  writable_iff.2 (Nat.lt_of_le_of_lt h (writable_iff.1 hn))

/-- The least positive integer of too many digits. -/
def tooLong : Int := Int.pow 10 digitLimit

theorem not_writable_tooLong : writable tooLong = false := by
  have hpow (limit : Nat) : ¬ (Int.pow 10 limit).natAbs < Nat.pow 10 limit :=
    Int.natAbs_pow 10 limit ▸ Nat.lt_irrefl _
  rw [← Bool.not_eq_true, writable_iff]
  exact hpow digitLimit

/-! ## Values -/

namespace Value

variable {α β : Type} {v : Value} {made x : α}

@[simp] theorem isWritable_text (s : String) : (Value.text s).isWritable = true := rfl

theorem written_of_isWritable (h : v.isWritable) : v.written made = .ok made := if_pos h

theorem written_of_not_isWritable (h : v.isWritable = false) :
    v.written made = .error .tooManyDigits := by
  rw [written, h]
  rfl

theorem written_eq_ok : v.written made = .ok x ↔ v.isWritable ∧ made = x := by
  cases h : v.isWritable <;> simp [written, h]

theorem map_written (f : α → β) : (v.written made).map f = v.written (f made) := by
  rw [written, written]
  split <;> rfl

theorem shown_bind (f : String → α) :
    (v.shown >>= fun s => .ok (f s)) = v.written (f v.display) := by
  rw [shown, written, written]
  split <;> rfl

theorem shown_eq_ok {s : String} : v.shown = .ok s ↔ v.isWritable ∧ v.display = s := written_eq_ok

end Value

theorem areWritable_iff {items : List Value} :
    areWritable items ↔ ∀ item ∈ items, item.isWritable := by
  induction items with
  | nil => simp [areWritable]
  | cons item items ih => rw [areWritable, Bool.and_eq_true, ih, List.forall_mem_cons]

theorem areWritableEntries_iff {entries : List (Value × Value)} :
    areWritableEntries entries ↔ ∀ e ∈ entries, e.1.isWritable ∧ e.2.isWritable := by
  induction entries with
  | nil => simp [areWritableEntries]
  | cons e entries ih =>
    rw [areWritableEntries, Bool.and_eq_true, Bool.and_eq_true, ih, List.forall_mem_cons]

end GraphQuery
