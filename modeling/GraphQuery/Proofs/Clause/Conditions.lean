import GraphQuery.Proofs.Clause.Reading
import GraphQuery.Proofs.Clause.Written
import GraphQuery.Proofs.Decimal.Numeral
import GraphQuery.Query.Text

/-!
# Conditions of a part

The conditions of a part stand in one text, joined by AND. A mapping gives conditions that are
atoms, so these are true together exactly if each of them is. A raw text may have alternatives;
beside another condition these come apart.
-/
namespace GraphQuery

open Text (isPlainChar isBlank words? ended)

namespace Clause

/-! ## Texts that are part of an atom -/

/-- Neither AND nor OR. -/
def Piece.isQuiet (p : Piece) : Bool := !p.isKeyword "AND" && !p.isKeyword "OR"

/-- No piece of the text comes between factors. -/
def Quiet (s : String) : Prop := ∃ ps, pieces? s.toList = some ps ∧ ∀ p ∈ ps, p.isQuiet

/-- A character that no letter of the keyword is. -/
theorem isKeyword_of_mem {keyword word : String} {c : Char} (hc : c ∈ word.toList)
    (hupper : c.toUpper ∉ keyword.toList) : isKeyword keyword word = false := by
  refine beq_eq_false_iff_ne.2 fun heq => hupper ?_
  rw [← heq]
  exact List.mem_map_of_mem hc

/-- A letter of the keyword that no character is. -/
theorem isKeyword_of_not_mem {keyword word : String} {k : Char} (hk : k ∈ keyword.toList)
    (hchars : ∀ c ∈ word.toList, c.toUpper ≠ k) : isKeyword keyword word = false := by
  refine beq_eq_false_iff_ne.2 fun heq => ?_
  rw [← heq] at hk
  obtain ⟨c, hc, hupper⟩ := List.mem_map.1 hk
  exact hchars c hc hupper

theorem quiet_plain {s : String} (h : s.toList.all isPlainChar)
    (hand : isKeyword "AND" s = false) (hor : isKeyword "OR" s = false) : Quiet s := by
  refine ⟨_, pieces?_plain (List.all_eq_true.1 h), fun p hp => ?_⟩
  obtain ⟨word, hword, rfl⟩ := List.mem_map.1 hp
  obtain rfl : word = s := by
    rw [ended] at hword
    split at hword
    · cases hword
    · rw [List.mem_singleton.1 hword, String.ofList_toList]
  simp [Piece.isQuiet, Piece.isKeyword, Piece.word, hand, hor]

theorem Quiet.append_blank {s t : String} (hs : Quiet s) (ht : Quiet t) :
    Quiet (s ++ " " ++ t) := by
  obtain ⟨ps, hps, hquiet⟩ := hs
  obtain ⟨qs, hqs, hquiet'⟩ := ht
  have hchars : (s ++ " " ++ t).toList = s.toList ++ ' ' :: t.toList := by simp
  refine ⟨ps ++ qs, ?_, fun p hp => (List.mem_append.1 hp).elim (hquiet p) (hquiet' p)⟩
  rw [hchars]
  exact pieces?_append_blank (show isBlank ' ' from rfl) hps hqs

theorem isQuiet_bracketed (opening closing : String) (ps : List Piece) :
    (bracketed opening closing ps).isQuiet := by
  have hwords (keyword : String) : (bracketed opening closing ps).isKeyword keyword = false := by
    rw [Piece.isKeyword.eq_def]
    split
    · next heq => simp [bracketed] at heq
    · rfl
  simp [Piece.isQuiet, hwords]

/-! ## Literals -/

/-- The characters of numbers, listed. -/
def numerals : List Char := (List.range 10).map (fun n => Char.ofNat (48 + n)) ++ Decimal.marks

theorem mem_numerals {c : Char} (h : Decimal.isNumeral c) : c ∈ numerals := by
  rcases Bool.or_eq_true_iff.1 h with hdigit | hmark
  · have hrange : 48 ≤ c.toNat ∧ c.toNat ≤ 57 := by
      simpa [Char.isDigit, UInt32.le_iff_toNat_le] using hdigit
    have hback : 48 + (c.toNat - 48) = c.toNat := by omega
    refine List.mem_append_left _ (List.mem_map.2 ⟨c.toNat - 48, List.mem_range.2 (by omega), ?_⟩)
    rw [hback, Char.ofNat_toNat]
  · exact List.mem_append_right _ (by simpa using hmark)

theorem numerals_plain {c : Char} (h : c ∈ numerals) :
    isPlainChar c ∧ c.toUpper ≠ 'D' ∧ c.toUpper ≠ 'R' := by
  have hall : numerals.all fun c => isPlainChar c && (c.toUpper != 'D' && c.toUpper != 'R') := by
    decide
  simpa using List.all_eq_true.1 hall c h

theorem quiet_numeral {s : String} (h : ∀ c ∈ s.toList, Decimal.isNumeral c) : Quiet s := by
  have hplain (c : Char) (hc : c ∈ s.toList) := numerals_plain (mem_numerals (h c hc))
  exact quiet_plain (List.all_eq_true.2 fun c hc => (hplain c hc).1)
    (isKeyword_of_not_mem (show 'D' ∈ "AND".toList by decide) fun c hc => (hplain c hc).2.1)
    (isKeyword_of_not_mem (show 'R' ∈ "OR".toList by decide) fun c hc => (hplain c hc).2.2)

/-- A quoted word is no bracket and no keyword. -/
theorem quiet_textLiteral (s : String) : Quiet (textLiteral s) := by
  have hquote : '"' ∈ (textLiteral s).toList := by simp [textLiteral]
  have hkeyword {keyword : String} (h : '"' ∉ keyword.toList) :
      isKeyword keyword (textLiteral s) = false := isKeyword_of_mem hquote h
  refine ⟨_, pieces?_textLiteral s, fun p hp => ?_⟩
  rw [List.mem_singleton.1 hp]
  have hand := hkeyword (show '"' ∉ "AND".toList by decide)
  have hor := hkeyword (show '"' ∉ "OR".toList by decide)
  simp [Piece.isQuiet, Piece.isKeyword, Piece.word, hand, hor]

theorem quiet_bracketed {opening closing : Char} (hpair : (opening, closing) ∈ brackets)
    {text front inside : String}
    (htext : text.toList = front.toList ++ opening :: (inside.toList ++ [closing]))
    (h : Quiet front) (h' : (pieces? inside.toList).isSome) : Quiet text := by
  obtain ⟨ps, hps, hquiet⟩ := h
  obtain ⟨qs, hqs⟩ := Option.isSome_iff_exists.1 h'
  refine ⟨_, by rw [htext]; exact pieces?_bracketed hpair hps hqs, fun p hp => ?_⟩
  rcases List.mem_append.1 hp with hp | hp
  · exact hquiet p hp
  · rw [List.mem_singleton.1 hp]
    exact isQuiet_bracketed _ _ qs

end Clause

mutual

/-- A value that is written as a literal, with keys that are words. -/
def Value.isClear : Value → Bool
  | .list items => areClear items
  | .tuple items => areClear items
  | .map entries => areClearEntries entries
  | .bytes _ => false
  | .foreign _ => false
  | .null => true
  | .bool _ => true
  | .int _ => true
  | .float _ => true
  | .text _ => true
  | .range _ => true
  | .regex _ => true
termination_by structural v => v

def areClear : List Value → Bool
  | [] => true
  | item :: items => item.isClear && areClear items
termination_by structural items => items

def areClearEntries : List (Value × Value) → Bool
  | [] => true
  | (key, v) :: entries =>
    key.display.toList.all isPlainChar && v.isClear && areClearEntries entries
termination_by structural entries => entries

end

namespace Clause

theorem Quiet.isSome {s : String} (h : Quiet s) : (pieces? s.toList).isSome := by
  obtain ⟨ps, hps, -⟩ := h
  rw [hps]
  rfl

/-- Texts with commas between them. -/
theorem isSome_pieces?_join {texts : List String} (h : ∀ s ∈ texts, (pieces? s.toList).isSome) :
    (pieces? (Text.join ", " texts).toList).isSome := by
  induction texts with
  | nil => rfl
  | cons s texts ih =>
    obtain ⟨hs, hrest⟩ := List.forall_mem_cons.1 h
    cases texts with
    | nil => exact hs
    | cons s' texts =>
      obtain ⟨ps, hps⟩ := Option.isSome_iff_exists.1 hs
      obtain ⟨qs, hqs⟩ := Option.isSome_iff_exists.1 (ih hrest)
      have hchars : (Text.join ", " (s :: s' :: texts)).toList =
          s.toList ++ ',' :: ([] ++ ' ' :: (Text.join ", " (s' :: texts)).toList) := by
        simp [Text.join]
      have hnone : pieces? [] = some [] := rfl
      have hblank := pieces?_append_blank (show isBlank ' ' from rfl) hnone hqs
      rw [hchars, pieces?_append_comma hps hblank]
      rfl

/-- A list of texts in brackets, with a name in front of them or with none. -/
theorem quiet_enclosed (opening closing : Char) (hpair : (opening, closing) ∈ brackets)
    {text front : String} {texts : List String} (h : Quiet front) (h' : ∀ s ∈ texts, (pieces? s.toList).isSome)
    (htext : text.toList =
      front.toList ++ opening :: ((Text.join ", " texts).toList ++ [closing])) : Quiet text :=
  quiet_bracketed hpair htext h (isSome_pieces?_join h')

theorem quiet_empty : Quiet "" := ⟨[], rfl, by simp⟩

theorem quiet_intText (n : Int) : Quiet (Decimal.intText n) :=
  quiet_numeral fun _ => Decimal.isNumeral_of_mem_intText

theorem isSome_intTexts (ns : List Int) :
    ∀ s ∈ ns.map Decimal.intText, (pieces? s.toList).isSome := by
  intro s hs
  obtain ⟨n, -, rfl⟩ := List.mem_map.1 hs
  exact (quiet_intText n).isSome

theorem quiet_inspect (p : Progression) : Quiet p.inspect := by
  have hname : Quiet "range" := quiet_plain (by decide) rfl rfl
  rw [Progression.inspect]
  split
  · exact quiet_enclosed '(' ')' (by decide) hname (isSome_intTexts [p.start, p.stop])
      (by simp [Text.join])
  · exact quiet_enclosed '(' ')' (by decide) hname (isSome_intTexts [p.start, p.stop, p.step])
      (by simp [Text.join])

mutual

/-- A literal says nothing by itself. -/
theorem quiet_literal (v : Value) (h : v.isClear) : Quiet v.literal := by
  cases v with
  | text s => exact quiet_textLiteral s
  | regex pattern => exact quiet_textLiteral pattern
  | list items =>
    rw [Value.isClear] at h
    rw [Value.literal]
    exact quiet_enclosed '[' ']' (by decide) quiet_empty (isSome_literals items h) (by simp)
  | tuple items =>
    rw [Value.isClear] at h
    rw [Value.literal]
    exact quiet_enclosed '[' ']' (by decide) quiet_empty (isSome_literals items h) (by simp)
  | map entries =>
    rw [Value.isClear] at h
    rw [Value.literal]
    exact quiet_enclosed '{' '}' (by decide) quiet_empty (isSome_propertyTexts entries h) (by simp)
  | range p => exact quiet_inspect p
  | int n => exact quiet_intText n
  | float x => exact quiet_numeral fun _ => Decimal.isNumeral_of_mem_floatText
  | null => exact quiet_plain (by decide) rfl rfl
  | bool b => cases b <;> exact quiet_plain (by decide) rfl rfl
  | bytes | foreign => cases h
termination_by structural v

theorem isSome_literals (items : List Value) (h : areClear items) :
    ∀ s ∈ literals items, (pieces? s.toList).isSome := by
  cases items with
  | nil => simp [literals]
  | cons item items =>
    rw [areClear, Bool.and_eq_true] at h
    rw [literals]
    exact List.forall_mem_cons.2 ⟨(quiet_literal item h.1).isSome, isSome_literals items h.2⟩
termination_by structural items

theorem isSome_propertyTexts (entries : List (Value × Value)) (h : areClearEntries entries) :
    ∀ s ∈ propertyTexts entries, (pieces? s.toList).isSome := by
  cases entries with
  | nil => simp [propertyTexts]
  | cons entry entries =>
    obtain ⟨key, v⟩ := entry
    rw [areClearEntries, Bool.and_eq_true, Bool.and_eq_true] at h
    rw [propertyTexts]
    refine List.forall_mem_cons.2 ⟨?_, isSome_propertyTexts entries h.2⟩
    have hkey : ∀ c ∈ key.display.toList ++ [':'], isPlainChar c := by
      intro c hc
      rcases List.mem_append.1 hc with hc | hc
      · exact List.all_eq_true.1 h.1.1 c hc
      · rw [List.mem_singleton.1 hc]
        rfl
    obtain ⟨ps, hps⟩ := Option.isSome_iff_exists.1 (quiet_literal v h.1.2).isSome
    have hchars : (key.display ++ ": " ++ v.literal).toList =
        (key.display.toList ++ [':']) ++ ' ' :: v.literal.toList := by simp
    rw [hchars, pieces?_append_blank (show isBlank ' ' from rfl) (pieces?_plain hkey) hps]
    rfl
termination_by structural entries

end

/-! ## Conditions of mappings -/

theorem readPieces_quiet {ps : List Piece} (h : ∀ p ∈ ps, p.isQuiet) :
    readPieces ps = (factor? ps).map fun f => [[f]] := by
  have hquiet (p : Piece) (hp : p ∈ ps) :
      p.isKeyword "AND" = false ∧ p.isKeyword "OR" = false := by
    simpa [Piece.isQuiet] using h p hp
  rw [readPieces, List.splitOnP_eq_singleton fun p hp => (hquiet p hp).2, List.mapM_cons, factors?,
    List.splitOnP_eq_singleton fun p hp => (hquiet p hp).1, List.mapM_cons]
  cases factor? ps <;> rfl

/-- A variable or a property of one, whose name is no keyword. -/
structure IsSubject (key : String) : Prop where
  nonempty : key ≠ ""
  plain : ∀ c ∈ key.toList, isPlainChar c
  free : ∀ keyword ∈ ["AND", "OR", "NOT"], isKeyword keyword key = false

/-- What begins with a subject and is quiet otherwise is an atom. -/
theorem reads_atom {key text : String} (h : IsSubject key) {rest : String} (hrest : Quiet rest)
    (htext : text.toList = key.toList ++ ' ' :: rest.toList) :
    ∃ words, reading? text = some [[.atom words]] := by
  obtain ⟨qs, hqs, hquiet⟩ := hrest
  have hne : key.toList ≠ [] := by
    intro hnil
    exact h.nonempty (String.toList_injective hnil)
  have hword : pieces? key.toList = some [.word key] := by
    rw [pieces?_plain h.plain, ended, if_neg hne, String.ofList_toList]
    rfl
  have hpieces : pieces? text.toList = some (.word key :: qs) := by
    rw [htext]
    exact pieces?_append_blank (show isBlank ' ' from rfl) hword hqs
  have hall : ∀ p ∈ Piece.word key :: qs, p.isQuiet := by
    refine List.forall_mem_cons.2 ⟨?_, hquiet⟩
    have hand := h.free "AND" (by simp)
    have hor := h.free "OR" (by simp)
    simp [Piece.isQuiet, Piece.isKeyword, Piece.word, hand, hor]
  have hnot : (Piece.word key).isKeyword "NOT" = false := h.free "NOT" (by simp)
  have hatom : factor? (.word key :: qs) =
      some (.atom ((Piece.word key :: qs).flatMap (·.words))) := by
    rw [factor?.eq_def]
    simp only [hnot, Bool.false_eq_true, if_false]
    rfl
  exact ⟨_, by rw [reading?, hpieces, Option.bind_some, readPieces_quiet hall, hatom]; rfl⟩

theorem IsSubject.property {key name : String} (h : IsSubject key)
    (hname : ∀ c ∈ name.toList, isPlainChar c) : IsSubject (key ++ "." ++ name) := by
  have hchars : (key ++ "." ++ name).toList = key.toList ++ '.' :: name.toList := by simp
  constructor
  · intro hempty
    rw [hempty] at hchars
    simp at hchars
  · intro c hc
    rw [hchars, List.mem_append, List.mem_cons] at hc
    rcases hc with hc | rfl | hc
    · exact h.plain c hc
    · rfl
    · exact hname c hc
  · intro keyword hkeyword
    have hpoint : '.' ∈ (key ++ "." ++ name).toList := by simp
    refine isKeyword_of_mem hpoint ?_
    revert hkeyword keyword
    decide

section Subjects

variable {key : String} (hkey : IsSubject key)

include hkey

/-- A comparison of a subject. -/
theorem reads_comparison {text operator literal : String} (hop : Quiet operator)
    (hliteral : Quiet literal) (htext : text.toList =
      key.toList ++ ' ' :: (operator.toList ++ ' ' :: literal.toList)) :
    ∃ words, reading? text = some [[.atom words]] :=
  reads_atom hkey (hop.append_blank hliteral) (by simp [htext])

theorem reads_equality {v : Value} (h : v.isClear) :
    ∃ words, reading? (key ++ " = " ++ v.literal) = some [[.atom words]] :=
  reads_comparison hkey (quiet_plain (s := "=") (by decide) rfl rfl) (quiet_literal v h) (by simp)

theorem reads_rangeText (p : Progression) :
    ∃ words, reading? (rangeText key p) = some [[.atom words]] := by
  have hin : Quiet "IN" := quiet_plain (by decide) rfl rfl
  have hname : Quiet "RANGE" := quiet_plain (by decide) rfl rfl
  rw [rangeText]
  split
  · have hnone : ∀ s ∈ ([] : List String), (pieces? s.toList).isSome := by simp
    have hempty : Quiet "[]" := quiet_enclosed '[' ']' (by decide) quiet_empty hnone rfl
    exact reads_comparison hkey hin hempty (by simp)
  · split
    · have hbounds : Quiet ("RANGE(" ++ Decimal.intText p.start ++ ", " ++
          Decimal.intText p.last ++ ")") :=
        quiet_enclosed '(' ')' (by decide) hname (isSome_intTexts [p.start, p.last])
          (by simp [Text.join])
      exact reads_comparison hkey hin hbounds (by simp)
    · have hbounds : Quiet ("RANGE(" ++ Decimal.intText p.start ++ ", " ++
          Decimal.intText p.last ++ ", " ++ Decimal.intText p.step ++ ")") :=
        quiet_enclosed '(' ')' (by decide) hname (isSome_intTexts [p.start, p.last, p.step])
          (by simp [Text.join])
      exact reads_comparison hkey hin hbounds (by simp)

end Subjects

mutual

/-- Whatever a subject is asked to be, the condition is an atom. -/
theorem reads_conditionTexts {key : String} (hkey : IsSubject key) (v : Value) (h : v.isClear)
    {texts : List String} (hok : conditionTexts key v = .ok texts) :
    ∀ s ∈ texts, ∃ words, reading? s = some [[.atom words]] := by
  have hequality := reads_equality hkey h
  have hin : Quiet "IN" := quiet_plain (by decide) rfl rfl
  cases v with
  | map entries =>
    rw [Value.isClear] at h
    exact reads_conditionEntryTexts hkey entries h hok
  | list items =>
    obtain ⟨-, rfl⟩ := Value.written_eq_ok.1 hok
    exact List.forall_mem_singleton.2
      (reads_comparison hkey hin (quiet_literal (.list items) h) (by simp))
  | tuple items =>
    have hliteral : Quiet (Value.literal (.list items)) := quiet_literal (.list items) h
    obtain ⟨-, rfl⟩ := Value.written_eq_ok.1 hok
    exact List.forall_mem_singleton.2 (reads_comparison hkey hin hliteral (by simp))
  | null =>
    have his : Quiet "IS" := quiet_plain (by decide) rfl rfl
    have hnull : Quiet "NULL" := quiet_plain (by decide) rfl rfl
    cases hok
    exact List.forall_mem_singleton.2 (reads_comparison hkey his hnull (by simp))
  | regex pattern =>
    have hmatches : Quiet "=~" := quiet_plain (by decide) rfl rfl
    cases hok
    exact List.forall_mem_singleton.2
      (reads_comparison hkey hmatches (quiet_textLiteral pattern) (by simp))
  | range p =>
    obtain ⟨text, htext, rfl⟩ := map_eq_ok.1 hok
    obtain ⟨-, rfl⟩ := rangeCondition_eq_ok.1 htext
    exact List.forall_mem_singleton.2 (reads_rangeText hkey p)
  | int n =>
    obtain ⟨-, rfl⟩ := Value.written_eq_ok.1 hok
    exact List.forall_mem_singleton.2 hequality
  | bytes | foreign => cases h
  | _ =>
    cases hok
    exact List.forall_mem_singleton.2 hequality
termination_by structural v

theorem reads_conditionEntryTexts {key : String} (hkey : IsSubject key)
    (entries : List (Value × Value)) (h : areClearEntries entries) {texts : List String}
    (hok : conditionEntryTexts key entries = .ok texts) :
    ∀ s ∈ texts, ∃ words, reading? s = some [[.atom words]] := by
  cases entries with
  | nil =>
    cases hok
    simp
  | cons entry entries =>
    obtain ⟨name, v⟩ := entry
    rw [areClearEntries, Bool.and_eq_true, Bool.and_eq_true] at h
    have hname := hkey.property (List.all_eq_true.1 h.1.1)
    obtain ⟨-, first, hfirst, rest, hrest, rfl⟩ := conditionEntryTexts_cons_eq_ok.1 hok
    exact List.forall_mem_append.2
      ⟨reads_conditionTexts hname v h.1.2 hfirst, reads_conditionEntryTexts hkey entries h.2 hrest⟩
termination_by structural entries

end

theorem reads_entriesTexts {replace : Bool} {entries : List (Value × Value)} {texts : List String}
    (h : ∀ e ∈ entries, IsSubject e.1.display ∧ e.2.isClear)
    (hok : entriesTexts .condition replace entries = .ok texts) :
    ∀ s ∈ texts, ∃ words, reading? s = some [[.atom words]] := by
  induction entries generalizing texts with
  | nil =>
    cases hok
    simp
  | cons entry entries ih =>
    obtain ⟨hentry, hentries⟩ := List.forall_mem_cons.1 h
    obtain ⟨-, first, hfirst, rest, hrest, rfl⟩ := entriesTexts_cons_eq_ok.1 hok
    exact List.forall_mem_append.2
      ⟨reads_conditionTexts hentry.1 entry.2 hentry.2 hfirst, ih hentries hrest⟩

/-! ## Conditions of a part -/

/-- The alternatives of a text. One that does not read as a condition has none, so it is not
true. -/
def alternatives (s : String) : Reading := (reading? s).getD []

def isTrue (t : Truth) (s : String) : Bool := anyHolds t (alternatives s)

/-- There is an OR outside of all parentheses. -/
def HasAlternatives (s : String) : Prop := 2 ≤ (alternatives s).length

instance (s : String) : Decidable (HasAlternatives s) :=
  inferInstanceAs (Decidable (2 ≤ (alternatives s).length))

/-- A clause that is made of a mapping of subjects. -/
def Mapped (c : Clause) : Prop :=
  ∃ replace entries, ofArgument .condition replace (.map entries) = .ok c ∧
    ∀ e ∈ entries, IsSubject e.1.display ∧ e.2.isClear

/-- A clause whose texts read as conditions, such as one that is made of a raw text. -/
def Readable (c : Clause) : Prop := ∀ s ∈ c.values, (reading? s).isSome

/-- The texts of all conditions of a part, in order. -/
def conditions (part : List Clause) : List String :=
  (part.filter (·.kind = .condition)).flatMap (·.values)

theorem Mapped.exists_atom {c : Clause} (h : Mapped c) :
    ∀ s ∈ c.values, ∃ words, reading? s = some [[.atom words]] := by
  obtain ⟨replace, entries, hmade, hentries⟩ := h
  obtain ⟨texts, htexts, rfl⟩ := map_eq_ok.1 hmade
  exact reads_entriesTexts hentries htexts

/-- How conditions that are joined by AND read. -/
theorem reading?_join {texts : List String} (hne : texts ≠ [])
    (h : ∀ s ∈ texts, (reading? s).isSome) :
    reading? (Text.join " AND " texts) = some (together (texts.map alternatives)) := by
  induction texts with
  | nil => exact absurd rfl hne
  | cons s texts ih =>
    obtain ⟨hs, hrest⟩ := List.forall_mem_cons.1 h
    obtain ⟨r, hr⟩ := Option.isSome_iff_exists.1 hs
    have hfirst : alternatives s = r := by rw [alternatives, hr, Option.getD_some]
    cases texts with
    | nil =>
      rw [List.map_singleton, together_cons, hfirst]
      exact hr.trans (congrArg some (fuse_nil r).symm)
    | cons s' texts =>
      rw [Text.join, reading?_and hr (ih (List.cons_ne_nil s' texts) hrest), ← hfirst]
      · rfl
      · exact List.cons_ne_nil s' texts

theorem groupText?_condition {part : List Clause} (hne : conditions part ≠ []) :
    groupText? part .condition = some ("WHERE " ++ Text.join " AND " (conditions part)) := by
  have hown : (part.filter (·.kind = .condition)).isEmpty = false := by
    rw [List.isEmpty_eq_false_iff]
    intro hnil
    rw [conditions, hnil] at hne
    exact hne rfl
  rw [groupText?, if_neg (by simp [hown])]
  rfl

/-- A single condition, or none that has alternatives. -/
def Unmixed (part : List Clause) : Prop :=
  (conditions part).length = 1 ∨ ∀ s ∈ conditions part, ¬ HasAlternatives s

instance (part : List Clause) : Decidable (Unmixed part) :=
  inferInstanceAs (Decidable (_ ∨ ∀ s ∈ conditions part, ¬ HasAlternatives s))

section Readings

variable {part : List Clause}

theorem mem_conditions {s : String} :
    s ∈ conditions part ↔ ∃ c ∈ part, c.kind = .condition ∧ s ∈ c.values := by
  simp [conditions, and_assoc]

theorem isSome_conditions (h : ∀ c ∈ part, c.kind = .condition → Mapped c ∨ Readable c) :
    ∀ s ∈ conditions part, (reading? s).isSome := by
  intro s hs
  obtain ⟨c, hc, hkind, hs⟩ := mem_conditions.1 hs
  rcases h c hc hkind with hmapped | hreadable
  · obtain ⟨words, hwords⟩ := hmapped.exists_atom s hs
    rw [hwords]
    rfl
  · exact hreadable s hs

theorem unmixed_of_mapped (h : ∀ c ∈ part, c.kind = .condition → Mapped c) : Unmixed part := by
  refine .inr fun s hs => ?_
  obtain ⟨c, hc, hkind, hs⟩ := mem_conditions.1 hs
  obtain ⟨words, hwords⟩ := (h c hc hkind).exists_atom s hs
  rw [HasAlternatives, alternatives, hwords, Option.getD_some, List.length_singleton]
  decide

theorem filled_alternatives {s : String} (h : (reading? s).isSome) : Filled (alternatives s) := by
  obtain ⟨r, hr⟩ := Option.isSome_iff_exists.1 h
  rw [alternatives, hr]
  exact filled_of_reading hr

/-- Without alternatives beside other conditions all conditions are true together exactly if each
of them is. -/
theorem Unmixed.isTrue_join (h : Unmixed part) (hne : conditions part ≠ [])
    (hreads : ∀ s ∈ conditions part, (reading? s).isSome) (t : Truth) :
    isTrue t (Text.join " AND " (conditions part)) = (conditions part).all (isTrue t) := by
  rw [isTrue, alternatives, reading?_join hne hreads, Option.getD_some]
  rcases h with hone | hsingle
  · obtain ⟨s, hs⟩ := List.length_eq_one_iff.1 hone
    rw [hs, List.map_singleton, together, List.foldr_cons, List.foldr_nil, fuse_nil]
    simp [isTrue]
  · have hlength : ∀ r ∈ (conditions part).map alternatives, r.length = 1 := by
      intro r hr
      obtain ⟨s, hs, rfl⟩ := List.mem_map.1 hr
      have hpos := List.length_pos_iff.2 (filled_alternatives (hreads s hs)).alternatives
      have hfew := hsingle s hs
      rw [HasAlternatives] at hfew
      omega
    obtain ⟨c, hc, hall⟩ := together_of_single (by simpa using hne) hlength
    rw [hc, anyHolds, anyHolds, Bool.or_false, hall, List.all_map]
    rfl

/-- Independent conditions, one with alternatives among them, can be true together with one of them
not being true. -/
theorem exists_isTrue_join (hmixed : ¬ Unmixed part) (hne : conditions part ≠ [])
    (hreads : ∀ s ∈ conditions part, (reading? s).isSome)
    (hfree : Independent ((conditions part).flatMap fun s => (alternatives s).flatten)) :
    ∃ t, isTrue t (Text.join " AND " (conditions part)) ∧
      ∃ s ∈ conditions part, ¬ isTrue t s := by
  rw [Unmixed, not_or] at hmixed
  obtain ⟨hmany, hsome⟩ := hmixed
  obtain ⟨s, hs, htwo⟩ : ∃ s ∈ conditions part, HasAlternatives s := by
    by_contra hnone
    exact hsome fun s hs htwo => hnone ⟨s, hs, htwo⟩
  obtain ⟨first, rest, hlist⟩ := List.exists_cons_of_ne_nil hne
  have hrest : rest.map alternatives ≠ [] := by
    rintro hnil
    rw [hlist, List.map_eq_nil_iff.1 hnil] at hmany
    exact hmany rfl
  have hfilled : ∀ r ∈ (conditions part).map alternatives, Filled r := by
    intro r hr
    obtain ⟨s, hs, rfl⟩ := List.mem_map.1 hr
    exact filled_alternatives (hreads s hs)
  have hfactors : Independent ((conditions part).map alternatives).flatten.flatten := by
    rwa [List.flatten_flatten, List.map_map, ← List.flatMap_def]
  have hmem := List.mem_map_of_mem (f := alternatives) hs
  rw [hlist, List.map_cons] at hfilled hfactors hmem
  obtain ⟨t, hwhole, r, hr, hfails⟩ := exists_truth_astray hrest hfactors hfilled hmem htwo
  rw [← List.map_cons, ← hlist] at hwhole hr
  obtain ⟨s', hs', rfl⟩ := List.mem_map.1 hr
  refine ⟨t, ?_, s', hs', hfails⟩
  rw [isTrue, alternatives, reading?_join hne hreads]
  exact hwhole

end Readings

/-- The conditions of a part, which mappings of subjects give or which read as conditions, stand
behind WHERE as one text that reads as a condition. It is true whenever each condition is. It is
true exactly then if there is only one condition, or if none has alternatives, as none of a mapping
has; where the factors of the conditions are independent, in these cases only. -/
theorem where_true_iff_unmixed {part : List Clause} (hne : conditions part ≠ [])
    (h : ∀ c ∈ part, c.kind = .condition → Mapped c ∨ Readable c) :
    ∃ text, groupText? part .condition = some ("WHERE " ++ text) ∧ (reading? text).isSome ∧
      (∀ t, (∀ s ∈ conditions part, isTrue t s) → isTrue t text) ∧
      (Unmixed part → ∀ t, isTrue t text = (conditions part).all (isTrue t)) ∧
      ((∀ c ∈ part, c.kind = .condition → Mapped c) → Unmixed part) ∧
      (Independent ((conditions part).flatMap fun s => (alternatives s).flatten) →
        (∀ t, isTrue t text = (conditions part).all (isTrue t)) → Unmixed part) := by
  have hreads := isSome_conditions h
  have hjoin := reading?_join hne hreads
  refine ⟨_, groupText?_condition hne, by rw [hjoin]; rfl, fun t hall => ?_,
    fun hunmixed => hunmixed.isTrue_join hne hreads, unmixed_of_mapped, fun hfree hsame => ?_⟩
  · rw [isTrue, alternatives, hjoin]
    refine anyHolds_together (by simpa using hne) fun r hr => ?_
    obtain ⟨s, hs, rfl⟩ := List.mem_map.1 hr
    exact hall s hs
  · by_contra hmixed
    obtain ⟨t, hwhole, s, hs, hfails⟩ := exists_isTrue_join hmixed hne hreads hfree
    rw [hsame t] at hwhole
    exact hfails (List.all_eq_true.1 hwhole s hs)

/-- What a mapping asks of a node. -/
def askedOfNode : Clause := ⟨.condition, ["n.age = 30", "n.name IN [\"Ann OR Bob\"]"]⟩

/-- A raw text with its alternatives in parentheses. -/
def askedInWords : Clause := ⟨.condition, ["NOT n.gone AND (n.vip OR n.score > 7)"]⟩

/-- A raw text with alternatives, beside another condition. -/
def looseAlternatives : List Clause := [⟨.condition, ["a OR b"]⟩, ⟨.condition, ["c"]⟩]

/-- Alternatives in parentheses stay together beside a mapping. Without them they do not. -/
theorem asked_true_together :
    (∃ text, groupText? [askedOfNode, askedInWords] .condition = some ("WHERE " ++ text) ∧
      ∀ t, isTrue t text = (conditions [askedOfNode, askedInWords]).all (isTrue t)) ∧
    ∃ text, groupText? looseAlternatives .condition = some ("WHERE " ++ text) ∧
      ¬ ∀ t, isTrue t text = (conditions looseAlternatives).all (isTrue t) := by
  constructor
  · have hsubject : IsSubject "n" := ⟨by decide, List.all_eq_true.1 rfl, by decide⟩
    have hmapped : Mapped askedOfNode := ⟨false,
      [(.text "n", .map [(.text "age", .int 30), (.text "name", .list [.text "Ann OR Bob"])])],
      rfl, List.forall_mem_singleton.2 ⟨hsubject, rfl⟩⟩
    have hreadable : Readable askedInWords := List.forall_mem_singleton.2 rfl
    have hmade : ∀ c ∈ [askedOfNode, askedInWords], c.kind = .condition →
        Mapped c ∨ Readable c := by
      simp [hmapped, hreadable]
    obtain ⟨text, htext, -, -, hsame, -⟩ := where_true_iff_unmixed (by decide) hmade
    exact ⟨text, htext, hsame (by decide)⟩
  · have hmade : ∀ c ∈ looseAlternatives, c.kind = .condition → Mapped c ∨ Readable c := by
      refine List.forall_mem_cons.2 ⟨fun _ => .inr ?_, List.forall_mem_singleton.2 fun _ => .inr ?_⟩
      all_goals exact List.forall_mem_singleton.2 rfl
    have hatoms : [["a"], ["b"], ["c"]].Nodup := by decide
    obtain ⟨text, htext, -, -, -, -, honly⟩ := where_true_iff_unmixed (by decide) hmade
    have hmixed : ¬ Unmixed looseAlternatives := by decide
    exact ⟨text, htext, fun hsame => hmixed (honly (independent_atoms hatoms) hsame)⟩

/-- With the first alternative the text is true, whatever becomes of the other condition. -/
theorem looseAlternatives_come_apart :
    ((Query.empty none none).add .condition [.text "a OR b", .text "c"]).map Query.text =
      .ok "WHERE a OR b AND c" ∧
    ¬ ∀ t, isTrue t "a OR b AND c" = (conditions looseAlternatives).all (isTrue t) := by
  refine ⟨rfl, fun h => ?_⟩
  exact absurd (h fun words => words = ["a"]) (by decide)

end Clause
end GraphQuery
