import GraphQuery.Literal
import Mathlib.Data.List.TakeWhile

/-!
# Quoted tokens

A token begins with a double quote and ends at the next one that no backslash escapes. A text that
is escaped reads back from its token, whatever stands behind it. A text that is enclosed as it is
reads back exactly if there is nothing in it to be escaped.
-/
namespace GraphQuery.Text

/-- Of two texts, each of characters of a class with something behind it that does not begin with
one of them, both parts are the same if the whole is. -/
theorem append_inj_of_head {p : Char → Bool} {a b x y : List Char} (ha : ∀ c ∈ a, p c)
    (hb : ∀ c ∈ b, p c) (hx : ∀ c ∈ x.head?, p c = false) (hy : ∀ c ∈ y.head?, p c = false)
    (h : a ++ x = b ++ y) : a = b ∧ x = y := by
  have hcut {l rest : List Char} (hl : ∀ c ∈ l, p c) (hrest : ∀ c ∈ rest.head?, p c = false) :
      (l ++ rest).takeWhile p = l := by
    rw [List.takeWhile_append_of_pos hl]
    cases rest with
    | nil => simp
    | cons c rest => simp [hrest c rfl]
  have hab : a = b := by rw [← hcut ha hx, h, hcut hb hy]
  subst hab
  exact ⟨rfl, List.append_cancel_left h⟩

/-! ## Reading -/

/-- What a character stands for behind a backslash. Double quotes and backslashes stand for
themselves. -/
structure Escapes where
  meaning : Char → Char
  quote : meaning '"' = '"'
  backslash : meaning '\\' = '\\'

instance : Inhabited Escapes := ⟨id, rfl, rfl⟩

namespace Escapes

variable (e : Escapes)

/-- What a token says from within, and what is left behind it. -/
def readInside : List Char → Option (List Char × List Char)
  | [] => none
  | '"' :: rest => some ([], rest)
  | '\\' :: c :: cs => (readInside cs).map (Prod.map (e.meaning c :: ·) id)
  | c :: cs => (readInside cs).map (Prod.map (c :: ·) id)

/-- The token in front of a text, and what is left behind it. -/
def read : List Char → Option (List Char × List Char)
  | '"' :: cs => e.readInside cs
  | _ => none

theorem readInside_quote (rest : List Char) : e.readInside ('"' :: rest) = some ([], rest) := rfl

theorem readInside_backslash (c : Char) (cs : List Char) : e.readInside ('\\' :: c :: cs) =
    (e.readInside cs).map (Prod.map (e.meaning c :: ·) id) := rfl

theorem readInside_cons {c : Char} (hquote : c ≠ '"') (hbackslash : c ≠ '\\') (cs : List Char) :
    e.readInside (c :: cs) = (e.readInside cs).map (Prod.map (c :: ·) id) := by
  rw [readInside.eq_def]
  split <;> simp_all

/-- Every escape leaves a character less to be said. -/
theorem length_readInside {cs said rest : List Char} (h : e.readInside cs = some (said, rest)) :
    said.length + rest.length < cs.length := by
  fun_induction readInside e cs generalizing said with
  | case1 => cases h
  | case2 rest' =>
    cases h
    simp
  | case3 c cs ih =>
    obtain ⟨⟨said', rest'⟩, hread, heq⟩ := Option.map_eq_some_iff.1 h
    cases heq
    have := ih hread
    simp only [List.length_cons]
    omega
  | case4 c cs _ _ ih =>
    obtain ⟨⟨said', rest'⟩, hread, heq⟩ := Option.map_eq_some_iff.1 h
    cases heq
    have := ih hread
    simp only [List.length_cons]
    omega

/-! ## Escaped texts -/

theorem readInside_literalChar (c : Char) (cs : List Char) :
    e.readInside (literalChar c ++ cs) =
      (e.readInside cs).map (Prod.map (c :: ·) id) := by
  by_cases hbackslash : c = '\\'
  · subst hbackslash
    have hread := e.readInside_backslash '\\' cs
    rwa [e.backslash] at hread
  · by_cases hquote : c = '"'
    · subst hquote
      have hread := e.readInside_backslash '"' cs
      rwa [e.quote] at hread
    · have hplain : literalChar c = [c] := by
        rw [literalChar.eq_def]
        split <;> simp_all
      rw [hplain, List.singleton_append, e.readInside_cons hquote hbackslash]

/-- An escaped text reads back, whatever stands behind its token. -/
theorem read_textLiteral (s : String) (rest : List Char) :
    e.read ((textLiteral s).toList ++ rest) = some (s.toList, rest) := by
  have hinside (cs : List Char) :
      e.readInside (cs.flatMap literalChar ++ '"' :: rest) = some (cs, rest) := by
    induction cs with
    | nil => rfl
    | cons c cs ih =>
      rw [List.flatMap_cons, List.append_assoc, readInside_literalChar, ih]
      rfl
  have htoken : (textLiteral s).toList ++ rest =
      '"' :: (s.toList.flatMap literalChar ++ '"' :: rest) := by
    simp [textLiteral]
  rw [htoken]
  exact hinside s.toList

/-! ## Enclosed texts -/

/-- A quote ends the token, and what stands behind it is left over. -/
theorem readInside_append_quote {cs : List Char} (hquote : '"' ∉ cs) (hbackslash : '\\' ∉ cs)
    (rest : List Char) : e.readInside (cs ++ '"' :: rest) = some (cs, rest) := by
  induction cs with
  | nil => rfl
  | cons c cs ih =>
    rw [List.mem_cons, not_or] at hquote hbackslash
    rw [List.cons_append, e.readInside_cons (Ne.symm hquote.1) (Ne.symm hbackslash.1),
      ih hquote.2 hbackslash.2]
    rfl

/-- A text that is enclosed as it is reads back exactly if nothing in it has to be escaped. -/
theorem readInside_enclosed_iff (cs rest : List Char) :
    e.readInside (cs ++ '"' :: rest) = some (cs, rest) ↔ '"' ∉ cs ∧ '\\' ∉ cs := by
  refine ⟨fun h => ?_, fun h => e.readInside_append_quote h.1 h.2 rest⟩
  induction cs with
  | nil => simp
  | cons c cs ih =>
    by_cases hquote : c = '"'
    · -- the token is over, and nothing was said
      subst hquote
      rw [List.cons_append, readInside_quote] at h
      cases h
    · by_cases hbackslash : c = '\\'
      · -- of the backslash and what it escapes only one can be said
        subst hbackslash
        obtain ⟨d, ds, hds⟩ := List.exists_cons_of_ne_nil (show cs ++ '"' :: rest ≠ [] by simp)
        rw [List.cons_append, hds, readInside_backslash] at h
        obtain ⟨⟨said, left⟩, hread, heq⟩ := Option.map_eq_some_iff.1 h
        have hlength := e.length_readInside hread
        have hall := congrArg List.length hds
        simp only [Prod.map_apply, id_eq, Prod.mk.injEq, List.cons.injEq] at heq
        simp only [List.length_append, List.length_cons] at hall
        rw [heq.1.2, heq.2] at hlength
        omega
      · rw [List.cons_append, e.readInside_cons hquote hbackslash] at h
        obtain ⟨⟨said, left⟩, hread, heq⟩ := Option.map_eq_some_iff.1 h
        simp only [Prod.map_apply, id_eq, Prod.mk.injEq, List.cons.injEq, true_and] at heq
        obtain ⟨rfl, rfl⟩ := heq
        simpa [Ne.symm hquote, Ne.symm hbackslash] using ih hread

end Escapes

/-- A text between double quotes, as it is. -/
def enclosed (s : String) : String := "\"" ++ s ++ "\""

namespace Escapes

variable (e : Escapes)

theorem read_enclosed (s rest : String) : e.read (enclosed s ++ rest).toList =
    e.readInside (s.toList ++ '"' :: rest.toList) := by
  have hchars : (enclosed s ++ rest).toList = '"' :: (s.toList ++ '"' :: rest.toList) := by
    simp [enclosed]
  rw [hchars]
  rfl

theorem read_enclosed_iff (s rest : String) :
    e.read (enclosed s ++ rest).toList = some (s.toList, rest.toList) ↔
      '"' ∉ s.toList ∧ '\\' ∉ s.toList := by
  rw [read_enclosed, readInside_enclosed_iff]

/-- The first double quote ends the token, and all that the text has behind it is left over. -/
theorem read_enclosed_of_quote {s front back : String} (hs : s = front ++ "\"" ++ back)
    (hquote : '"' ∉ front.toList) (hbackslash : '\\' ∉ front.toList) (rest : String) :
    e.read (enclosed s ++ rest).toList = some (front.toList, (back ++ "\"" ++ rest).toList) := by
  have hchars : s.toList ++ '"' :: rest.toList =
      front.toList ++ '"' :: (back ++ "\"" ++ rest).toList := by
    simp [hs]
  rw [read_enclosed, hchars, e.readInside_append_quote hquote hbackslash]

end Escapes
end GraphQuery.Text
