import GraphQuery.Proofs.Text.Solid
import Mathlib.Algebra.Order.Ring.Nat

/-!
# Ink

The ink of a text is the number of its characters that are no blanks. Stripping and joining by
blanks move no ink, so a text can be weighed by its pieces.
-/
namespace GraphQuery.Text

def ink (s : String) : Nat := s.toList.countP fun c => !isBlank c

@[simp] theorem ink_empty : ink "" = 0 := rfl

@[simp] theorem ink_append (s t : String) : ink (s ++ t) = ink s + ink t := by
  simp [ink]

theorem countP_dropWhile_isBlank (cs : List Char) :
    (cs.dropWhile isBlank).countP (fun c => !isBlank c) = cs.countP fun c => !isBlank c := by
  induction cs with
  | nil => rfl
  | cons c cs ih => by_cases hc : isBlank c <;> simp [hc, ih]

@[simp] theorem ink_strip (s : String) : ink (strip s) = ink s := by
  simp [ink, strip, stripChars, countP_dropWhile_isBlank]

theorem ink_join {separator : String} (h : ink separator = 0) (parts : List String) :
    ink (join separator parts) = (parts.map ink).sum := by
  induction parts with
  | nil => rfl
  | cons part rest ih =>
    cases rest with
    | nil => simp [join]
    | cons next rest => simp [join_cons, h, ih]

theorem Solid.ink_pos {s : String} (h : Solid s) : 0 < ink s := by
  obtain ⟨c, hc, hblank⟩ := h.first
  exact List.countP_pos_iff.2 ⟨c, List.mem_of_head? hc, by simp [hblank]⟩

end GraphQuery.Text
