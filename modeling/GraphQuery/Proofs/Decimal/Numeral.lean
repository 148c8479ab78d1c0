import GraphQuery.Decimal.Layout
import GraphQuery.Proofs.Decimal.Integer

/-!
# Characters of numbers

Whatever number is written, its text has digits, signs, points and a few letters in it and nothing
else.
-/
namespace GraphQuery.Decimal

/-- The signs and letters that stand in numbers. -/
def marks : List Char := ['-', '+', '.', 'e', 'i', 'n', 'f', 'a']

def isNumeral (c : Char) : Bool := c.isDigit || marks.contains c

theorem isNumeral_of_isDigit {c : Char} (h : c.isDigit) : isNumeral c := by simp [isNumeral, h]

theorem isNumeral_of_mem_natDigits {n : Nat} {c : Char} (h : c ∈ natDigits n) : isNumeral c :=
  isNumeral_of_isDigit (isDigit_of_mem_natDigits h)

theorem isNumeral_of_mem_signText {negative : Bool} {c : Char} (h : c ∈ signText negative) :
    isNumeral c := by
  cases negative with
  | false => cases h
  | true =>
    rw [List.mem_singleton.1 h]
    rfl

theorem isNumeral_of_mem_intText {n : Int} {c : Char} (h : c ∈ (intText n).toList) :
    isNumeral c := by
  rw [toList_intText, List.mem_append] at h
  exact h.elim isNumeral_of_mem_signText isNumeral_of_mem_natDigits

theorem isNumeral_of_mem_exponentText {n : Int} {c : Char} (h : c ∈ exponentText n) :
    isNumeral c := by
  simp only [exponentText, List.mem_cons] at h
  rcases h with rfl | rfl | h
  · rfl
  · split <;> rfl
  · split at h
    · rcases List.mem_cons.1 h with rfl | h
      · rfl
      · exact isNumeral_of_mem_natDigits h
    · exact isNumeral_of_mem_natDigits h

theorem isNumeral_of_mem_layout {d : Scaled} {c : Char} (h : c ∈ layout d) : isNumeral c := by
  have hdigits {c : Char} (hc : c ∈ natDigits d.digits) : isNumeral c := isNumeral_of_mem_natDigits hc
  have hzeros {c : Char} {n : Nat} (hc : c ∈ List.replicate n '0') : isNumeral c := by
    rw [(List.mem_replicate.1 hc).2]
    rfl
  simp only [layout] at h
  split at h
  · rw [List.mem_append, List.mem_append] at h
    rcases h with (h | h) | h
    · exact hdigits (List.mem_of_mem_take h)
    · split at h
      · cases h
      · rcases List.mem_cons.1 h with rfl | h
        · rfl
        · exact hdigits (List.mem_of_mem_drop h)
    · exact isNumeral_of_mem_exponentText h
  · split at h
    · simp only [List.mem_append, List.mem_cons, List.not_mem_nil, or_false] at h
      rcases h with (h | h) | rfl | rfl
      · exact hdigits h
      · exact hzeros h
      · rfl
      · rfl
    · split at h
      · rw [List.mem_append, List.mem_cons] at h
        rcases h with h | rfl | h
        · exact hdigits (List.mem_of_mem_take h)
        · rfl
        · exact hdigits (List.mem_of_mem_drop h)
      · simp only [List.cons_append, List.mem_cons, List.mem_append] at h
        rcases h with rfl | rfl | h | h
        · rfl
        · rfl
        · exact hzeros h
        · exact hdigits h

theorem isNumeral_of_mem_floatText {x : Float} {c : Char} (h : c ∈ (floatText x).toList) :
    isNumeral c := by
  rw [floatText, String.toList_ofList, floatChars] at h
  have hletters {letters : List Char} (hall : letters.all isNumeral) (hc : c ∈ letters) :
      isNumeral c := List.all_eq_true.1 hall c hc
  split at h
  · exact hletters rfl h
  · exact (List.mem_append.1 h).elim isNumeral_of_mem_signText (hletters rfl)
  · exact (List.mem_append.1 h).elim isNumeral_of_mem_signText (hletters rfl)
  · exact (List.mem_append.1 h).elim isNumeral_of_mem_signText isNumeral_of_mem_layout

end GraphQuery.Decimal
