import GraphQuery.Proofs.Text.Solid
import GraphQuery.Proofs.Text.Token
import Mathlib.Data.List.Forall2

/-!
# Masked texts

A text is masked when every token in it is emptied of what it says. A text is sealed when no token
that it opens stays open, so that what stands behind it is masked as it would be alone; then a text
that is put together from sealed pieces is masked piece by piece.
-/
namespace GraphQuery.Text.Escapes

variable (e : Escapes)

/-- The text with an empty token in the place of each token. A double quote that opens none stays,
with all that is behind it. -/
def maskedChars : List Char → List Char
  | [] => []
  | '"' :: cs =>
    match _hread : e.readInside cs with
    | some (_, rest) => '"' :: '"' :: maskedChars rest
    | none => '"' :: cs
  | c :: cs => c :: maskedChars cs
termination_by cs => cs.length
decreasing_by
  · have := e.length_readInside _hread
    simp only [List.length_cons]
    omega
  · simp

def masked (s : String) : String := String.ofList (e.maskedChars s.toList)

/-- Whatever stands behind the text is masked as it would be alone. -/
def Sealed (s : String) : Prop := ∀ t, e.masked (s ++ t) = e.masked s ++ e.masked t

/-! ## Characters -/

@[simp] theorem maskedChars_nil : e.maskedChars [] = [] := by rw [maskedChars]

theorem maskedChars_cons {c : Char} (h : c ≠ '"') (cs : List Char) :
    e.maskedChars (c :: cs) = c :: e.maskedChars cs := by
  rw [maskedChars.eq_def]
  split <;> simp_all

theorem maskedChars_token {cs said rest : List Char} (h : e.readInside cs = some (said, rest)) :
    e.maskedChars ('"' :: cs) = '"' :: '"' :: e.maskedChars rest := by
  rw [maskedChars]
  split <;> simp_all

theorem maskedChars_open {cs : List Char} (h : e.readInside cs = none) :
    e.maskedChars ('"' :: cs) = '"' :: cs := by
  rw [maskedChars]
  split <;> simp_all

theorem readInside_of_not_mem {cs : List Char} (h : '"' ∉ cs) : e.readInside cs = none := by
  fun_induction readInside e cs <;> simp_all

theorem maskedChars_append {cs : List Char} (h : '"' ∉ cs) (rest : List Char) :
    e.maskedChars (cs ++ rest) = cs ++ e.maskedChars rest := by
  induction cs with
  | nil => rfl
  | cons c cs ih =>
    rw [List.mem_cons, not_or] at h
    rw [List.cons_append, e.maskedChars_cons (Ne.symm h.1), ih h.2, List.cons_append]

/-- A token says the same in front of more text. -/
theorem readInside_append {cs said rest : List Char} (h : e.readInside cs = some (said, rest))
    (more : List Char) : e.readInside (cs ++ more) = some (said, rest ++ more) := by
  fun_induction readInside e cs generalizing said with
  | case1 => cases h
  | case2 rest' =>
    cases h
    rfl
  | case3 c cs ih =>
    obtain ⟨⟨said', rest'⟩, hread, heq⟩ := Option.map_eq_some_iff.1 h
    cases heq
    rw [List.cons_append, List.cons_append, readInside_backslash, ih hread]
    rfl
  | case4 c cs hquote hescape ih =>
    obtain ⟨⟨said', rest'⟩, hread, heq⟩ := Option.map_eq_some_iff.1 h
    cases heq
    have hbackslash : c ≠ '\\' := by
      rintro rfl
      cases cs with
      | nil => cases hread
      | cons d cs => exact hescape d cs rfl rfl
    rw [List.cons_append, e.readInside_cons (fun hc => hquote hc) hbackslash, ih hread]
    rfl

/-- A token that stays open is closed by the first quote behind it, if two characters that are
nothing to a token stand in between. -/
theorem readInside_append_open {cs : List Char} (h : e.readInside cs = none) (rest : List Char) :
    ∃ said, e.readInside (cs ++ ',' :: ' ' :: '"' :: rest) = some (said, rest) := by
  fun_induction readInside e cs with
  | case1 => exact ⟨_, rfl⟩
  | case2 => cases h
  | case3 c cs ih =>
    obtain ⟨said, hread⟩ := ih (Option.map_eq_none_iff.1 h)
    exact ⟨_, by rw [List.cons_append, List.cons_append, readInside_backslash, hread]; rfl⟩
  | case4 c cs hquote hescape ih =>
    by_cases hbackslash : c = '\\'
    · subst hbackslash
      cases cs with
      | nil => exact ⟨_, rfl⟩
      | cons d cs => exact absurd rfl (hescape d cs rfl)
    · obtain ⟨said, hread⟩ := ih (Option.map_eq_none_iff.1 h)
      exact ⟨_, by
        rw [List.cons_append, e.readInside_cons (fun hc => hquote hc) hbackslash, hread]; rfl⟩

/-- Behind a text either everything is masked as it would be alone, or a token is open. -/
theorem maskedChars_append_cases (cs : List Char) :
    (∀ rest, e.maskedChars (cs ++ rest) = e.maskedChars cs ++ e.maskedChars rest) ∨
      ∃ front back, e.readInside back = none ∧
        ∀ rest, e.maskedChars (cs ++ rest) = front ++ e.maskedChars ('"' :: (back ++ rest)) := by
  fun_induction maskedChars e cs with
  | case1 => exact .inl fun rest => by simp
  | case2 cs said rest hread ih =>
    have hstep (more : List Char) : e.maskedChars ('"' :: cs ++ more) =
        '"' :: '"' :: e.maskedChars (rest ++ more) :=
      e.maskedChars_token (e.readInside_append hread more)
    rcases ih with hall | ⟨front, back, hopen, hall⟩
    · exact .inl fun more => by rw [hstep, hall, List.cons_append, List.cons_append]
    · exact .inr ⟨'"' :: '"' :: front, back, hopen, fun more => by
        rw [hstep, hall, List.cons_append, List.cons_append]⟩
  | case3 cs hopen => exact .inr ⟨[], cs, hopen, fun rest => by simp⟩
  | case4 c cs hquote ih =>
    have hstep (more : List Char) : e.maskedChars (c :: cs ++ more) =
        c :: e.maskedChars (cs ++ more) := e.maskedChars_cons (fun hc => hquote hc) _
    rcases ih with hall | ⟨front, back, hopen, hall⟩
    · exact .inl fun more => by rw [hstep, hall, List.cons_append]
    · exact .inr ⟨c :: front, back, hopen, fun more => by rw [hstep, hall, List.cons_append]⟩

/-! ## Sealed texts -/

variable {e}

theorem Sealed.of_not_mem {s : String} (h : '"' ∉ s.toList) : e.Sealed s := by
  intro t
  have hnil := e.maskedChars_append h []
  rw [List.append_nil, maskedChars_nil, List.append_nil] at hnil
  simp only [masked, String.toList_append, e.maskedChars_append h, hnil, String.ofList_append]

theorem Sealed.append {s t : String} (hs : e.Sealed s) (ht : e.Sealed t) : e.Sealed (s ++ t) := by
  intro u
  rw [String.append_assoc, hs, ht, hs, String.append_assoc]

/-- The last double quote leaves a token open, unless it ends one. -/
theorem not_sealed_of_quote {front back : List Char} (hfront : '"' ∉ front) (hback : '"' ∉ back)
    (hbackslash : '\\' ∉ back) : ¬ e.Sealed (String.ofList (front ++ '"' :: back)) := by
  intro h
  have htoken : e.readInside (back ++ ['x', '"']) = some (back ++ ['x'], []) := by
    have hquote : '"' ∉ back ++ ['x'] := by simp [hback]
    have hread := e.readInside_append_quote hquote (by simp [hbackslash]) []
    rwa [List.append_assoc] at hread
  have hleft := e.maskedChars_append hfront ('"' :: (back ++ ['x', '"']))
  have hright := e.maskedChars_append hfront ('"' :: back)
  rw [e.maskedChars_token htoken] at hleft
  rw [e.maskedChars_open (e.readInside_of_not_mem hback)] at hright
  have halone : e.maskedChars ['x', '"'] = ['x', '"'] := by
    rw [e.maskedChars_cons (by decide), e.maskedChars_open rfl]
  have hlength := congrArg (fun s => s.toList.length) (h "x\"")
  simp [masked, hleft, hright, halone] at hlength

/-! ## Literals -/

variable (e)

theorem maskedChars_of_read {cs said rest : List Char} (h : e.read cs = some (said, rest)) :
    e.maskedChars cs = '"' :: '"' :: e.maskedChars rest := by
  rw [read.eq_def] at h
  split at h
  · exact e.maskedChars_token h
  · cases h

/-- Of an escaped text only an empty token is left. -/
theorem masked_textLiteral_append (s t : String) :
    e.masked (textLiteral s ++ t) = "\"\"" ++ e.masked t := by
  have hread := e.maskedChars_of_read (e.read_textLiteral s t.toList)
  rw [masked, masked, String.toList_append, hread]
  simp [← String.toList_inj]

theorem masked_textLiteral (s : String) : e.masked (textLiteral s) = "\"\"" := by
  have := e.masked_textLiteral_append s ""
  simpa [masked] using this

theorem sealed_textLiteral (s : String) : e.Sealed (textLiteral s) := by
  intro t
  rw [masked_textLiteral_append, masked_textLiteral]

/-- Behind a token that is left open what a literal says comes to light. -/
theorem masked_ne_of_not_sealed {s : String} (h : ¬ e.Sealed s) {front : String}
    (hfront : '"' ∉ front.toList) (back : String) :
    e.masked (front ++ (s ++ ", " ++ textLiteral "x" ++ back)) ≠
      e.masked (front ++ (s ++ ", " ++ textLiteral "y" ++ back)) := by
  rcases e.maskedChars_append_cases s.toList with hall | ⟨masks, opened, hopen, hall⟩
  · refine absurd (fun t => ?_) h
    simp [masked, hall]
  · -- the literal opens no token but closes the one that is open
    have hshown {c : Char} (hc : c ≠ '"') {t : String} (ht : (textLiteral t).toList = ['"', c, '"']) :
        e.masked (front ++ (s ++ ", " ++ textLiteral t ++ back)) = String.ofList
          (front.toList ++ (masks ++ '"' :: '"' :: c :: e.maskedChars ('"' :: back.toList))) := by
      obtain ⟨said, hread⟩ := e.readInside_append_open hopen (c :: '"' :: back.toList)
      have hchars : (front ++ (s ++ ", " ++ textLiteral t ++ back)).toList =
          front.toList ++ (s.toList ++ ',' :: ' ' :: '"' :: c :: '"' :: back.toList) := by
        simp [ht]
      rw [masked, hchars, e.maskedChars_append hfront, hall, e.maskedChars_token hread,
        e.maskedChars_cons hc]
    rw [hshown (c := 'x') (by decide) (by decide), hshown (c := 'y') (by decide) (by decide)]
    simp

/-! ## Texts that are masked alike -/

/-- Two texts that differ at most in what their tokens say. -/
structure Alike (s t : String) : Prop where
  left : e.Sealed s
  right : e.Sealed t
  masked_eq : e.masked s = e.masked t

namespace Alike

variable {e} {s t : String}

theorem refl (h : e.Sealed s) : e.Alike s s := ⟨h, h, rfl⟩

theorem of_not_mem (h : '"' ∉ s.toList) : e.Alike s s := refl (.of_not_mem h)

theorem textLiteral (e : Escapes) (s t : String) :
    e.Alike (GraphQuery.textLiteral s) (GraphQuery.textLiteral t) :=
  ⟨e.sealed_textLiteral s, e.sealed_textLiteral t, by
    rw [masked_textLiteral, masked_textLiteral]⟩

theorem append {s' t' : String} (h : e.Alike s t) (h' : e.Alike s' t') :
    e.Alike (s ++ s') (t ++ t') :=
  ⟨h.left.append h'.left, h.right.append h'.right, by
    rw [h.left, h.right, h.masked_eq, h'.masked_eq]⟩

/-- Behind a front and in front of a back without double quotes. -/
theorem between {front back : String} (h : e.Alike s t) (hfront : '"' ∉ front.toList)
    (hback : '"' ∉ back.toList) : e.Alike (front ++ s ++ back) (front ++ t ++ back) :=
  ((of_not_mem hfront).append h).append (of_not_mem hback)

theorem join {separator : String} (hseparator : e.Sealed separator) {texts others : List String}
    (h : List.Forall₂ e.Alike texts others) :
    e.Alike (Text.join separator texts) (Text.join separator others) := by
  induction h with
  | nil => exact of_not_mem (by simp [Text.join])
  | @cons text other texts others h hrest ih =>
    cases hrest with
    | nil => exact h
    | cons =>
      have hboth := (h.append (refl hseparator)).append ih
      rwa [← join_cons (List.cons_ne_nil _ _), ← join_cons (List.cons_ne_nil _ _)] at hboth

end Alike
end GraphQuery.Text.Escapes
