import GraphQuery.Clause.Kind

/-!
# Registries

A registry lists the fragments of a query text. A new fragment goes right behind the last one of
its kind, so that each kind forms one run, which stands where its first member was registered.
-/
namespace GraphQuery

/-- A fragment is known by its serial number: two fragments with one content are still two. -/
structure Fragment (α : Type) where
  serial : Nat
  kind : Clause.Kind
  content : α
deriving Inhabited

abbrev Registry (α : Type) := List (Fragment α)

namespace Registry

variable {α : Type}

def has (r : Registry α) (serial : Nat) : Bool := r.any (·.serial == serial)

def kinds (r : Registry α) : List Clause.Kind := r.map (·.kind)

/-- Puts a fragment behind the last one of its kind, or at the end. -/
def insert (f : Fragment α) : Registry α → Registry α
  | [] => [f]
  | g :: r =>
    if g.kind = f.kind ∧ f.kind ∉ r.map (·.kind) then g :: f :: r else g :: insert f r

/-- The fragments of one kind, in order. -/
def ofKind (kind : Clause.Kind) (r : Registry α) : Registry α := r.filter (·.kind = kind)

/-- Drops the first entry of a fragment, if it has one. -/
def remove (serial : Nat) (r : Registry α) : Registry α := r.eraseP (·.serial == serial)

/-- Puts a fragment in the place of the first entry of another. -/
def overwrite (old : Nat) (new : Fragment α) : Registry α → Registry α
  | [] => []
  | g :: r => if g.serial = old then new :: r else g :: overwrite old new r

/-- The new fragment gives up an entry of its own before it takes the place of the old one; where
the old one has no place, it is inserted. -/
def replace (old : Nat) (new : Fragment α) (r : Registry α) : Registry α :=
  let rest := remove new.serial r
  if has rest old then overwrite old new rest else insert new rest

/-- Positions below zero count from the end. -/
def at? (r : Registry α) (position : Int) : Option (Fragment α) :=
  if 0 ≤ position then r[position.toNat]?
  else if (-position).toNat ≤ r.length then r[r.length - (-position).toNat]? else none

/-! ## Insertion -/

@[simp] theorem length_insert (f : Fragment α) (r : Registry α) : (insert f r).length = r.length + 1 := by
  induction r with
  | nil => rfl
  | cons g r ih =>
    rw [insert]
    split <;> simp [ih]

@[simp] theorem mem_insert {f g : Fragment α} {r : Registry α} : g ∈ insert f r ↔ g = f ∨ g ∈ r := by
  induction r with
  | nil => simp [insert]
  | cons h r ih =>
    rw [insert]
    split
    · simp [or_left_comm]
    · simp [ih, or_left_comm]

theorem ofKind_eq_nil {kind : Clause.Kind} {r : Registry α} (h : kind ∉ r.map (·.kind)) :
    ofKind kind r = [] := by
  simpa [ofKind] using h

/-- Within its kind a new fragment is the last one. -/
theorem ofKind_insert (f : Fragment α) (r : Registry α) :
    ofKind f.kind (insert f r) = ofKind f.kind r ++ [f] := by
  induction r with
  | nil => simp [insert, ofKind]
  | cons g r ih =>
    rw [insert]
    split
    · next h =>
      have rest := ofKind_eq_nil h.2
      simp only [ofKind] at rest ⊢
      simp [h.1, rest]
    · by_cases h : g.kind = f.kind <;> simp_all [ofKind]

/-- The fragments of the other kinds stay as they are. -/
theorem ofKind_insert_ne {kind : Clause.Kind} (f : Fragment α) (r : Registry α)
    (h : f.kind ≠ kind) : ofKind kind (insert f r) = ofKind kind r := by
  induction r with
  | nil => simp [insert, ofKind, h]
  | cons g r ih =>
    rw [insert]
    split
    · simp [ofKind, h, List.filter_cons]
    · simp_all [ofKind, List.filter_cons]

end Registry
end GraphQuery
