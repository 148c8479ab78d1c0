import GraphQuery.Literal
import GraphQuery.Text.Blank

/-!
# Words of a text

A text is read by its words. Blanks stand between words, brackets and commas are words of their
own, and what is quoted belongs to one word, whatever characters it has. Within quotes a backslash
takes the character behind it along.
-/
namespace GraphQuery.Text

/-- The characters that are words of their own. -/
def marks : List Char := ['(', ')', '[', ']', '{', '}', ',']

def quotes : List Char := ['"', '\x27']

/-- Where the reader of a text is, with the characters of the present word: outside of quotes or
within them, and there possibly behind a backslash. -/
inductive Mode where
  | plain (word : List Char)
  | quoted (quote : Char) (word : List Char)
  | escaped (quote : Char) (word : List Char)

/-- The present word, if there is one. -/
def ended (word : List Char) : List String := if word = [] then [] else [String.ofList word]

/-- What one more character does, with the words that it completes. -/
def Mode.step : Mode → Char → List String × Mode
  | .plain word, c =>
    if isBlank c then (ended word, .plain [])
    else if marks.contains c then (ended word ++ [String.ofList [c]], .plain [])
    else if quotes.contains c then (ended word, .quoted c [c])
    else ([], .plain (word ++ [c]))
  | .quoted quote word, c =>
    if c = quote then ([String.ofList (word ++ [c])], .plain [])
    else if c = '\\' then ([], .escaped quote (word ++ [c]))
    else ([], .quoted quote (word ++ [c]))
  | .escaped quote word, c => ([], .quoted quote (word ++ [c]))

def scan (m : Mode) : List Char → List String × Mode
  | [] => ([], m)
  | c :: cs =>
    let next := scan (m.step c).2 cs
    ((m.step c).1 ++ next.1, next.2)

/-- What is left to be read where the text ends. No quote may be open there. -/
def Mode.rest? : Mode → Option (List String)
  | .plain word => some (ended word)
  | _ => none

/-- The words of a text, unless a quote is left open. -/
def words? (cs : List Char) : Option (List String) :=
  (scan (.plain []) cs).2.rest?.map ((scan (.plain []) cs).1 ++ ·)

/-! ## Texts in a row -/

theorem scan_append (m : Mode) (cs ds : List Char) : scan m (cs ++ ds) =
    ((scan m cs).1 ++ (scan (scan m cs).2 ds).1, (scan (scan m cs).2 ds).2) := by
  induction cs generalizing m with
  | nil => simp [scan]
  | cons c cs ih =>
    rw [List.cons_append, scan, ih, scan]
    simp [List.append_assoc]

theorem words?_eq_some {cs : List Char} {words : List String} (h : words? cs = some words) :
    ∃ before word, scan (.plain []) cs = (before, .plain word) ∧ words = before ++ ended word := by
  obtain ⟨rest, hrest, rfl⟩ := Option.map_eq_some_iff.1 h
  cases hmode : (scan (.plain []) cs).2 with
  | plain word =>
    rw [hmode] at hrest
    cases hrest
    exact ⟨_, word, Prod.ext rfl hmode, rfl⟩
  | _ =>
    rw [hmode] at hrest
    cases hrest

/-- The words in front of a character that ends every word, and those behind it. -/
theorem words?_append_stop {c : Char} {stop : List String}
    (hstop : ∀ word, (Mode.plain word).step c = (ended word ++ stop, .plain [])) {cs : List Char}
    {words : List String} (h : words? cs = some words) (ds : List Char) :
    words? (cs ++ c :: ds) = (words? ds).map fun rest => words ++ (stop ++ rest) := by
  obtain ⟨before, word, hscan, rfl⟩ := words?_eq_some h
  rw [words?, scan_append, hscan, scan, hstop, words?, Option.map_map]
  congr 1
  funext rest
  simp

theorem step_blank {c : Char} (h : isBlank c) (word : List Char) :
    (Mode.plain word).step c = (ended word ++ [], .plain []) := by
  rw [Mode.step, if_pos h, List.append_nil]

theorem isBlank_of_mem_marks {c : Char} (h : c ∈ marks) : isBlank c = false := by
  have hall : marks.all (!isBlank ·) := rfl
  simpa using List.all_eq_true.1 hall c h

theorem step_mark {c : Char} (h : c ∈ marks) (word : List Char) :
    (Mode.plain word).step c = (ended word ++ [String.ofList [c]], .plain []) := by
  rw [Mode.step, isBlank_of_mem_marks h, if_neg Bool.false_ne_true,
    if_pos (List.contains_iff_mem.2 h)]

/-! ## Single words -/

/-- A character of a word that is not quoted. -/
def isPlainChar (c : Char) : Bool := !isBlank c && !marks.contains c && !quotes.contains c

theorem step_plain {c : Char} (h : isPlainChar c) (word : List Char) :
    (Mode.plain word).step c = ([], .plain (word ++ [c])) := by
  simp only [isPlainChar, Bool.and_eq_true, Bool.not_eq_true'] at h
  rw [Mode.step, h.1.1, h.1.2, h.2]
  rfl

theorem scan_plain {cs : List Char} (h : ∀ c ∈ cs, isPlainChar c) (word : List Char) :
    scan (.plain word) cs = ([], .plain (word ++ cs)) := by
  induction cs generalizing word with
  | nil => simp [scan]
  | cons c cs ih =>
    rw [scan, step_plain (h c List.mem_cons_self),
      ih fun d hd => h d (List.mem_cons_of_mem c hd), List.append_assoc]
    rfl

theorem words?_plain {cs : List Char} (h : ∀ c ∈ cs, isPlainChar c) :
    words? cs = some (ended cs) := by
  rw [words?, scan_plain h]
  rfl

theorem step_quoted {c : Char} (hquote : c ≠ '"') (hbackslash : c ≠ '\\') (word : List Char) :
    (Mode.quoted '"' word).step c = ([], .quoted '"' (word ++ [c])) := by
  rw [Mode.step, if_neg hquote, if_neg hbackslash]

/-- No character of a literal ends the quoted word. -/
theorem scan_literalChar (c : Char) (word rest : List Char) :
    scan (.quoted '"' word) (literalChar c ++ rest) =
      scan (.quoted '"' (word ++ literalChar c)) rest := by
  by_cases hbackslash : c = '\\'
  · subst hbackslash
    simp [literalChar, scan, Mode.step]
  · by_cases hquote : c = '"'
    · subst hquote
      simp [literalChar, scan, Mode.step]
    · have hplain : literalChar c = [c] := by
        rw [literalChar.eq_def]
        split <;> simp_all
      rw [hplain, List.singleton_append, scan, step_quoted hquote hbackslash]
      rfl

theorem scan_literal (s word : List Char) :
    scan (.quoted '"' word) (s.flatMap literalChar ++ ['"']) =
      ([String.ofList (word ++ (s.flatMap literalChar ++ ['"']))], .plain []) := by
  induction s generalizing word with
  | nil => rfl
  | cons c s ih =>
    rw [List.flatMap_cons, List.append_assoc, scan_literalChar, ih, List.append_assoc]

/-- The literal of a text is one word. -/
theorem words?_textLiteral (s : String) : words? (textLiteral s).toList = some [textLiteral s] := by
  have hchars : (textLiteral s).toList = '"' :: (s.toList.flatMap literalChar ++ ['"']) := by
    simp [textLiteral]
  have hopen : (Mode.plain []).step '"' = ([], .quoted '"' ['"']) := rfl
  have hword : String.ofList (['"'] ++ (s.toList.flatMap literalChar ++ ['"'])) =
      textLiteral s := rfl
  rw [words?, hchars, scan, hopen, scan_literal, hword]
  rfl

end GraphQuery.Text
