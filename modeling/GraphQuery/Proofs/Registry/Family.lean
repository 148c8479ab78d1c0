import GraphQuery.Proofs.Registry.Serial
import Mathlib.Data.List.Basic

/-!
# Registries as families of lists

All kinds share one registry, and every operation looks for its positions in the whole of it. For
each single kind the registry still is a plain list, on which an insertion appends, a removal erases
and a replacement writes at the first entry of the old fragment. The operations on the other kinds
leave that list alone. A fragment may have several entries.
-/
namespace GraphQuery.Registry
open Clause (Kind)

variable {α : Type}

/-! ## Entries -/

theorem remove_cons (serial : Nat) (g : Fragment α) (r : Registry α) :
    remove serial (g :: r) = if g.serial = serial then r else g :: remove serial r := by
  simp [remove, List.eraseP_cons]

theorem ofKind_cons (kind : Kind) (g : Fragment α) (r : Registry α) :
    ofKind kind (g :: r) = if g.kind = kind then g :: ofKind kind r else ofKind kind r := by
  simp [ofKind, List.filter_cons]

theorem serials_remove (serial : Nat) (r : Registry α) :
    serials (remove serial r) = r.serials.erase serial := by
  induction r with
  | nil => rfl
  | cons g r ih =>
    rw [remove_cons, serials_cons, List.erase_cons]
    split <;> simp_all

/-- Where the old fragment has no entry, its index is past the end and nothing is written. -/
theorem serials_overwrite_eq_set (old : Nat) (new : Fragment α) (r : Registry α) :
    serials (overwrite old new r) = r.serials.set (r.serials.idxOf old) new.serial := by
  induction r with
  | nil => rfl
  | cons g r ih =>
    rw [overwrite, serials_cons]
    split
    · next hg => rw [hg, List.idxOf_cons_self, serials_cons, List.set_cons_zero]
    · next hg => rw [List.idxOf_cons_ne _ hg, List.set_cons_succ, serials_cons, ih]

theorem mem_of_mem_overwrite {old : Nat} {new f : Fragment α} {r : Registry α}
    (h : f ∈ overwrite old new r) : f = new ∨ f ∈ r := by
  induction r with
  | nil => cases h
  | cons g r ih =>
    rw [overwrite] at h
    split at h <;> grind

theorem mem_of_mem_replace {old : Nat} {new f : Fragment α} {r : Registry α}
    (h : f ∈ replace old new r) : f = new ∨ f ∈ r := by
  have hrest {g : Fragment α} (hg : g ∈ remove new.serial r) : g ∈ r :=
    (remove_sublist _ _).subset hg
  rw [replace] at h
  split at h
  · exact (mem_of_mem_overwrite h).imp_right hrest
  · exact (mem_insert.1 h).imp_right hrest

/-! ## The entries of one kind -/

section OfKind

variable {serial : Nat} {r : Registry α}

/-- The first entry of a fragment is the first one among those of its kind. -/
theorem ofKind_remove_of_kind {k : Kind} (h : ∀ f ∈ r, f.serial = serial → f.kind = k)
    (kind : Kind) : ofKind kind (remove serial r) =
      if k = kind then remove serial (ofKind kind r) else ofKind kind r := by
  induction r with
  | nil => exact (ite_self _).symm
  | cons g r ih =>
    rw [List.forall_mem_cons] at h
    rw [remove_cons, ofKind_cons]
    split
    · next hg => split <;> simp_all [remove_cons]
    · next hg =>
      rw [ofKind_cons, ih h.2]
      split <;> split <;> simp [remove_cons, hg]

theorem ofKind_overwrite_of_kind {new : Fragment α}
    (h : ∀ f ∈ r, f.serial = serial → f.kind = new.kind) (kind : Kind) :
    ofKind kind (overwrite serial new r) =
      if new.kind = kind then overwrite serial new (ofKind kind r) else ofKind kind r := by
  induction r with
  | nil => exact (ite_self _).symm
  | cons g r ih =>
    rw [List.forall_mem_cons] at h
    rw [overwrite, ofKind_cons]
    split
    · next hg =>
      rw [ofKind_cons]
      split <;> simp_all [overwrite]
    · next hg =>
      rw [ofKind_cons, ih h.2]
      split <;> split <;> simp [overwrite, hg]

end OfKind

/-! ## Operations -/

/-- The fragments that there are, each with a serial number of its own. -/
structure Stock (α : Type) where
  fragment : Nat → Fragment α
  serial_fragment (serial : Nat) : (fragment serial).serial = serial

/-- What a registry may be asked to do. An object that is to be removed need not be a fragment. -/
inductive Operation where
  | insert (fragment : Nat)
  | remove (object : Option Nat)
  | replace (old new : Nat)

namespace Stock

attribute [simp] serial_fragment

variable (s : Stock α)

def kindOf (serial : Nat) : Kind := (s.fragment serial).kind

theorem kind_fragment (serial : Nat) : (s.fragment serial).kind = s.kindOf serial := rfl

/-- Whether all entries of a registry are fragments of the stock. -/
def Holds (r : Registry α) : Prop := ∀ f ∈ r, s.fragment f.serial = f

end Stock

namespace Operation

variable (s : Stock α)

def apply : Operation → Registry α → Registry α
  | insert fragment, r => r.insert (s.fragment fragment)
  | remove none, r => r
  | remove (some fragment), r => r.remove fragment
  | replace old new, r => r.replace old (s.fragment new)

/-- The kind whose run an operation is about. -/
def kind? : Operation → Option Kind
  | insert fragment => some (s.kindOf fragment)
  | remove object => object.map s.kindOf
  | replace _ new => some (s.kindOf new)

/-- What takes the place of a registered fragment is of its kind. -/
def Fits (r : Registry α) : Operation → Prop
  | replace old new => r.has old = false ∨ s.kindOf old = s.kindOf new
  | _ => True

instance (r : Registry α) : (op : Operation) → Decidable (op.Fits s r)
  | insert _ => .isTrue trivial
  | remove _ => .isTrue trivial
  | replace _ _ => inferInstanceAs (Decidable (_ ∨ _))

/-- An operation on a plain list, of which each entry is a serial number. -/
def onList : Operation → List Nat → List Nat
  | insert fragment, l => l ++ [fragment]
  | remove none, l => l
  | remove (some fragment), l => l.erase fragment
  | replace old new, l =>
    let rest := l.erase new
    if old ∈ rest then rest.set (rest.idxOf old) new else rest ++ [new]

end Operation

namespace Stock
open Operation

variable {s : Stock α} {r : Registry α}

theorem Holds.apply (h : s.Holds r) (op : Operation) : s.Holds (op.apply s r) := by
  intro f hf
  cases op with
  | insert fragment =>
    rcases mem_insert.1 hf with rfl | hf
    · rw [s.serial_fragment]
    · exact h f hf
  | remove object =>
    cases object with
    | none => exact h f hf
    | some fragment => exact h f ((remove_sublist _ _).subset hf)
  | replace old new =>
    rcases mem_of_mem_replace hf with rfl | hf
    · rw [s.serial_fragment]
    · exact h f hf

theorem Holds.kind_eq (h : s.Holds r) {f : Fragment α} (hf : f ∈ r) {serial : Nat}
    (hs : f.serial = serial) : f.kind = s.kindOf serial := by
  rw [kindOf, ← hs, h f hf]

/-- Of a fragment of the stock the serial number tells everything. -/
theorem Holds.map_serials (h : s.Holds r) (kind : Kind) :
    (serials (ofKind kind r)).map s.fragment = ofKind kind r := by
  rw [serials, List.map_map]
  refine (List.map_congr_left fun f hf => ?_).trans (List.map_id _)
  exact h f (List.mem_of_mem_filter hf)

theorem serials_remove_self (h : s.Holds r) (fragment : Nat) :
    serials (ofKind (s.kindOf fragment) (r.remove fragment)) =
      (serials (ofKind (s.kindOf fragment) r)).erase fragment := by
  rw [ofKind_remove_of_kind fun _ hf hs => h.kind_eq hf hs, if_pos rfl, serials_remove]

theorem ofKind_remove_other (h : s.Holds r) {fragment : Nat} {kind : Kind}
    (hne : s.kindOf fragment ≠ kind) : ofKind kind (r.remove fragment) = ofKind kind r := by
  rw [ofKind_remove_of_kind fun _ hf hs => h.kind_eq hf hs, if_neg hne]

/-- The new fragment takes the place of one of its own kind, or there is none to take. -/
theorem Holds.replace_cases (h : s.Holds r) {old new : Nat}
    (hfits : (Operation.replace old new).Fits s r) :
    (s.kindOf old = s.kindOf new ∧ old ∈ serials (ofKind (s.kindOf new) (r.remove new)) ∧
      r.replace old (s.fragment new) = overwrite old (s.fragment new) (r.remove new)) ∨
    (old ∉ serials (ofKind (s.kindOf new) (r.remove new)) ∧
      r.replace old (s.fragment new) = (r.remove new).insert (s.fragment new)) := by
  rw [Registry.replace, s.serial_fragment]
  by_cases hold : old ∈ serials (r.remove new)
  · obtain ⟨f, hf, hs⟩ := mem_serials.1 hold
    have hr := (remove_sublist _ _).subset hf
    have hkind : s.kindOf old = s.kindOf new := by
      refine hfits.resolve_left ?_
      rw [Bool.not_eq_false, has_iff]
      exact mem_serials.2 ⟨f, hr, hs⟩
    refine .inl ⟨hkind, mem_serials.2 ⟨f, ?_, hs⟩, if_pos (has_iff.2 hold)⟩
    exact List.mem_filter.2 ⟨hf, by simpa [← hkind] using h.kind_eq hr hs⟩
  · refine .inr ⟨fun hmem => hold ?_, if_neg (mt has_iff.1 hold)⟩
    exact (List.filter_sublist.map _).subset hmem

/-! ## One operation -/

theorem serials_replace_self (h : s.Holds r) {old new : Nat}
    (hfits : (Operation.replace old new).Fits s r) :
    serials (ofKind (s.kindOf new) (r.replace old (s.fragment new))) =
      (Operation.replace old new).onList (serials (ofKind (s.kindOf new) r)) := by
  rw [onList, ← serials_remove_self h]
  rcases h.replace_cases hfits with ⟨hkind, hmem, hreplace⟩ | ⟨hmem, hreplace⟩
  · have hrest : s.Holds (r.remove new) := h.apply (.remove (some new))
    rw [hreplace, if_pos hmem, ofKind_overwrite_of_kind fun _ hf hs =>
      (hrest.kind_eq hf hs).trans hkind, s.kind_fragment, if_pos rfl, serials_overwrite_eq_set,
      s.serial_fragment]
  · have hinsert := ofKind_insert (s.fragment new) (r.remove new)
    rw [hreplace, if_neg hmem, kindOf, hinsert]
    simp [serials]

theorem ofKind_replace_other (h : s.Holds r) {old new : Nat}
    (hfits : (Operation.replace old new).Fits s r) {kind : Kind} (hne : s.kindOf new ≠ kind) :
    ofKind kind (r.replace old (s.fragment new)) = ofKind kind r := by
  rw [← ofKind_remove_other h hne]
  rcases h.replace_cases hfits with ⟨hkind, -, hreplace⟩ | ⟨-, hreplace⟩
  · have hrest : s.Holds (r.remove new) := h.apply (.remove (some new))
    rw [hreplace, ofKind_overwrite_of_kind fun _ hf hs => (hrest.kind_eq hf hs).trans hkind,
      s.kind_fragment, if_neg hne]
  · rw [hreplace, ofKind_insert_ne _ _ hne]

/-- For the kind that it is about an operation is one on the plain list of that kind. -/
theorem serials_ofKind_apply (h : s.Holds r) {op : Operation} (hfits : op.Fits s r) {kind : Kind}
    (hkind : op.kind? s = some kind) :
    serials (ofKind kind (op.apply s r)) = op.onList (serials (ofKind kind r)) := by
  cases op with
  | insert fragment =>
    obtain rfl : s.kindOf fragment = kind := Option.some.inj hkind
    have hinsert := ofKind_insert (s.fragment fragment) r
    rw [Operation.apply, kindOf, hinsert]
    simp [serials, onList]
  | remove object =>
    obtain ⟨fragment, rfl, rfl⟩ := Option.map_eq_some_iff.1 hkind
    exact serials_remove_self h fragment
  | replace old new =>
    obtain rfl : s.kindOf new = kind := Option.some.inj hkind
    exact serials_replace_self h hfits

/-- The lists of all other kinds it leaves alone. -/
theorem ofKind_apply (h : s.Holds r) {op : Operation} (hfits : op.Fits s r) {kind : Kind}
    (hkind : op.kind? s ≠ some kind) : ofKind kind (op.apply s r) = ofKind kind r := by
  cases op with
  | insert fragment => exact ofKind_insert_ne _ _ fun hf => hkind (congrArg some hf)
  | remove object =>
    cases object with
    | none => rfl
    | some fragment => exact ofKind_remove_other h fun hf => hkind (congrArg some hf)
  | replace old new => exact ofKind_replace_other h hfits fun hf => hkind (congrArg some hf)

/-! ## Sequences of operations -/

def performAll (s : Stock α) (r : Registry α) (ops : List Operation) : Registry α :=
  ops.foldl (fun r op => op.apply s r) r

/-- Each replacement fits the registry that it finds. -/
def AllFit (s : Stock α) : Registry α → List Operation → Prop
  | _, [] => True
  | r, op :: ops => op.Fits s r ∧ AllFit s (op.apply s r) ops

instance decidableAllFit (s : Stock α) :
    (r : Registry α) → (ops : List Operation) → Decidable (s.AllFit r ops)
  | _, [] => .isTrue trivial
  | r, op :: ops =>
    have := decidableAllFit s (op.apply s r) ops
    inferInstanceAs (Decidable (_ ∧ _))

/-- The operations on one kind, carried out on a plain list. -/
def listOf (s : Stock α) (kind : Kind) (l : List Nat) (ops : List Operation) : List Nat :=
  (ops.filter fun op => op.kind? s = some kind).foldl (fun l op => op.onList l) l

theorem Holds.performAll (h : s.Holds r) (ops : List Operation) :
    s.Holds (s.performAll r ops) := by
  induction ops generalizing r with
  | nil => exact h
  | cons op ops ih => exact ih (h.apply op)

theorem serials_ofKind_performAll (h : s.Holds r) {ops : List Operation} (hfit : s.AllFit r ops)
    (kind : Kind) : serials (ofKind kind (s.performAll r ops)) =
      s.listOf kind (serials (ofKind kind r)) ops := by
  induction ops generalizing r with
  | nil => rfl
  | cons op ops ih =>
    have hrest := ih (h.apply op) hfit.2
    rw [Stock.performAll, List.foldl_cons, ← Stock.performAll, hrest, listOf, listOf]
    by_cases hkind : op.kind? s = some kind
    · rw [List.filter_cons_of_pos (by simpa using hkind), List.foldl_cons,
        serials_ofKind_apply h hfit.1 hkind]
    · rw [List.filter_cons_of_neg (by simpa using hkind), ofKind_apply h hfit.1 hkind]

theorem allFit_append {before behind : List Operation} :
    s.AllFit r (before ++ behind) ↔ s.AllFit r before ∧ s.AllFit (s.performAll r before) behind := by
  induction before generalizing r with
  | nil => simp [AllFit, Stock.performAll]
  | cons op before ih =>
    rw [List.cons_append, AllFit, AllFit, ih, and_assoc]
    rfl

/-- In a sequence of operations, each replacement of which takes the place of an unregistered
fragment or of one of its kind, the fragments of a kind are those that the operations on that kind
leave in an empty plain list. An operation on another kind leaves them as they are. -/
theorem ofKind_performAll_eq (s : Stock α) {ops : List Operation} (h : s.AllFit [] ops)
    (kind : Kind) :
    ofKind kind (s.performAll [] ops) = (s.listOf kind [] ops).map s.fragment ∧
    ∀ before op behind, ops = before ++ op :: behind → op.kind? s ≠ some kind →
      ofKind kind (s.performAll [] (before ++ [op])) = ofKind kind (s.performAll [] before) := by
  have hempty : s.Holds ([] : Registry α) := fun _ hf => nomatch hf
  constructor
  · rw [← (hempty.performAll ops).map_serials, serials_ofKind_performAll hempty h]
    rfl
  · rintro before op behind rfl hkind
    have hfits := (allFit_append.1 h).2.1
    rw [Stock.performAll, List.foldl_append]
    exact ofKind_apply (hempty.performAll before) hfits hkind

/-- Conditions and starting points in turn. -/
def alternating : Stock Unit where
  fragment serial := ⟨serial, if serial % 2 = 0 then .condition else .start, ()⟩
  serial_fragment _ := rfl

/-- Two kinds mixed, a condition that is registered twice, objects that are not registered, and
replacements of both. -/
def mixed : List Operation :=
  [.insert 0, .insert 1, .insert 2, .insert 0, .remove none, .remove (some 4), .replace 0 2,
   .replace 1 5, .replace 3 2]

/-- The second condition takes the first entry of the first one, and goes to the end afterwards. -/
theorem mixed_conditions : alternating.AllFit [] mixed ∧
    ofKind .condition (alternating.performAll [] mixed) = [⟨0, .condition, ()⟩, ⟨2, .condition, ()⟩] ∧
    ofKind .condition (alternating.performAll [] [.insert 0, .insert 1]) =
      ofKind .condition (alternating.performAll [] [.insert 0]) := by
  have hfit : alternating.AllFit [] mixed := by decide
  obtain ⟨hlist, hothers⟩ := ofKind_performAll_eq alternating hfit .condition
  refine ⟨hfit, hlist.trans rfl, ?_⟩
  exact hothers [.insert 0] (.insert 1) (mixed.drop 2) rfl (by decide)

end Stock

end GraphQuery.Registry
