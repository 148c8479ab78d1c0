import GraphQuery.Text.Blank
import GraphQuery.Text.Join
import Mathlib.Data.List.TakeWhile

/-!
# Solid texts

A text is solid when it has no blank at either end and is not empty. Stripping makes solid all
texts that are not blank throughout, and leaves those alone that are solid already. Solid texts
with something between them are solid again.
-/
namespace GraphQuery.Text

/-- The text begins and ends with a character that is no blank. -/
structure Solid (s : String) : Prop where
  first : ∃ c, s.toList.head? = some c ∧ isBlank c = false
  last : ∃ c, s.toList.getLast? = some c ∧ isBlank c = false

theorem isBlank_of_isDigit {c : Char} (h : c.isDigit) : isBlank c = false := by
  have hrange : 48 ≤ c.toNat ∧ c.toNat ≤ 57 := by
    simpa [Char.isDigit, UInt32.le_iff_toNat_le] using h
  simp only [isBlank, inRanges, blankRanges, List.any_cons, List.any_nil, Bool.or_false,
    Bool.or_eq_false_iff, Bool.and_eq_false_iff, decide_eq_false_iff_not]
  omega

theorem solid_of_forall {s : String} (hne : s ≠ "") (h : ∀ c ∈ s.toList, isBlank c = false) :
    Solid s := by
  have hchars : s.toList ≠ [] := fun hnil => hne (String.toList_eq_nil_iff.1 hnil)
  exact ⟨⟨_, List.head?_eq_some_head hchars, h _ (List.head_mem hchars)⟩,
    ⟨_, List.getLast?_eq_some_getLast hchars, h _ (List.getLast_mem hchars)⟩⟩

/-! ## Stripping -/

theorem dropWhile_eq_self {cs : List Char} (h : ∀ c, cs.head? = some c → isBlank c = false) :
    cs.dropWhile isBlank = cs := by
  cases cs with
  | nil => rfl
  | cons c cs => simp [h c rfl]

theorem stripChars_eq_self {cs : List Char} (hfirst : ∀ c, cs.head? = some c → isBlank c = false)
    (hlast : ∀ c, cs.getLast? = some c → isBlank c = false) : stripChars cs = cs := by
  have hback : cs.reverse.dropWhile isBlank = cs.reverse :=
    dropWhile_eq_self fun c hc => hlast c (by simpa using hc)
  rw [stripChars, dropWhile_eq_self hfirst, hback, List.reverse_reverse]

theorem Solid.strip_eq {s : String} (h : Solid s) : strip s = s := by
  obtain ⟨c, hc, hfirst⟩ := h.first
  obtain ⟨d, hd, hlast⟩ := h.last
  have hchars : stripChars s.toList = s.toList := by
    refine stripChars_eq_self (fun e he => ?_) fun e he => ?_
    · rw [hc] at he
      exact Option.some.inj he ▸ hfirst
    · rw [hd] at he
      exact Option.some.inj he ▸ hlast
  rw [strip, hchars, String.ofList_toList]

theorem Solid.ne_empty {s : String} (h : Solid s) : s ≠ "" := by
  rintro rfl
  obtain ⟨c, hc, -⟩ := h.first
  cases hc

/-- No blank stands in front once those in front are dropped. -/
theorem head?_dropWhile_isBlank {l : List Char} {c : Char}
    (h : (l.dropWhile isBlank).head? = some c) : isBlank c = false := by
  have := List.head?_dropWhile_not isBlank l
  rw [h] at this
  simpa using this

theorem head?_stripChars {l : List Char} {c : Char} (h : (stripChars l).head? = some c) :
    isBlank c = false := by
  have hprefix : stripChars l <+: l.dropWhile isBlank := by
    have := (List.dropWhile_suffix isBlank (l := (l.dropWhile isBlank).reverse)).reverse
    rwa [List.reverse_reverse] at this
  obtain ⟨rest, hrest⟩ := hprefix
  refine head?_dropWhile_isBlank (l := l) ?_
  rw [← hrest, List.head?_append, h, Option.some_or]

theorem getLast?_stripChars {l : List Char} {c : Char} (h : (stripChars l).getLast? = some c) :
    isBlank c = false := by
  rw [stripChars, List.getLast?_reverse] at h
  exact head?_dropWhile_isBlank h

theorem solid_strip {s : String} (h : strip s ≠ "") : Solid (strip s) := by
  have hne : stripChars s.toList ≠ [] := by
    intro hnil
    exact h (by rw [strip, hnil])
  have hlist : (strip s).toList = stripChars s.toList := String.toList_ofList
  constructor
  · refine ⟨_, by rw [hlist, List.head?_eq_some_head hne], head?_stripChars (l := s.toList) ?_⟩
    rw [List.head?_eq_some_head hne]
  · refine ⟨_, by rw [hlist, List.getLast?_eq_some_getLast hne],
      getLast?_stripChars (l := s.toList) ?_⟩
    rw [List.getLast?_eq_some_getLast hne]

/-- A text that has nothing to strip and is not empty is solid, and the other way round. -/
theorem solid_iff {s : String} : Solid s ↔ s ≠ "" ∧ strip s = s := by
  constructor
  · intro h
    exact ⟨h.ne_empty, h.strip_eq⟩
  · rintro ⟨hne, hs⟩
    rw [← hs] at hne ⊢
    exact solid_strip hne

/-- What begins with a character that is no blank is not stripped away. -/
theorem solid_strip_of_first {s : String} {c : Char} (hc : s.toList.head? = some c)
    (hb : isBlank c = false) : Solid (strip s) := by
  refine solid_strip fun hempty => ?_
  obtain ⟨cs, hcs⟩ := List.head?_eq_some_iff.1 hc
  have hnil : stripChars (c :: cs) = [] := by
    rw [← hcs, ← String.toList_ofList (l := stripChars s.toList), ← strip, hempty]
    rfl
  rw [stripChars, List.dropWhile_cons_of_neg (by simp [hb]), List.reverse_eq_nil_iff,
    List.dropWhile_eq_nil_iff] at hnil
  have := hnil c (by simp)
  rw [hb] at this
  cases this

theorem Solid.dropWhile_append {s : String} (h : Solid s) (cs : List Char) :
    (s.toList ++ cs).dropWhile isBlank = s.toList ++ cs := by
  obtain ⟨c, hc, hfirst⟩ := h.first
  refine dropWhile_eq_self fun e he => ?_
  rw [List.head?_append, hc, Option.some_or] at he
  exact Option.some.inj he ▸ hfirst

theorem Solid.dropWhile_reverse {s : String} (h : Solid s) :
    s.toList.reverse.dropWhile isBlank = s.toList.reverse := by
  obtain ⟨d, hd, hlast⟩ := h.last
  refine dropWhile_eq_self fun e he => ?_
  rw [List.head?_reverse, hd] at he
  exact Option.some.inj he ▸ hlast

/-- Blanks behind a solid text are stripped. -/
theorem Solid.strip_append {s blanks : String} (h : Solid s)
    (hb : ∀ c ∈ blanks.toList, isBlank c = true) : strip (s ++ blanks) = s := by
  rw [strip, String.toList_append, stripChars, h.dropWhile_append, List.reverse_append,
    List.dropWhile_append_of_pos (by simpa using hb), h.dropWhile_reverse, List.reverse_reverse,
    String.ofList_toList]

/-- A solid text stays in front, whatever is stripped from what stands behind it. -/
theorem Solid.exists_strip_append {s : String} (h : Solid s) (t : String) :
    ∃ rest, strip (s ++ t) = s ++ rest := by
  refine ⟨String.ofList (t.toList.reverse.dropWhile isBlank).reverse, ?_⟩
  rw [strip, String.toList_append, stripChars, h.dropWhile_append, List.reverse_append,
    List.dropWhile_append]
  split
  · next hnil =>
    rw [h.dropWhile_reverse, List.reverse_reverse, List.isEmpty_iff.1 hnil, String.ofList_toList]
    exact String.append_empty.symm
  · rw [List.reverse_append, List.reverse_reverse, String.ofList_append, String.ofList_toList]

/-- Behind a solid text, what begins with no blank is stripped at its end only. -/
theorem Solid.strip_append_of_first {s t : String} (hs : Solid s) {c : Char}
    (hc : t.toList.head? = some c) (hb : isBlank c = false) (between : String) :
    strip (s ++ between ++ t) = s ++ between ++ strip t := by
  obtain ⟨cs, hcs⟩ := List.head?_eq_some_iff.1 hc
  have hfront : t.toList.dropWhile isBlank = t.toList :=
    dropWhile_eq_self fun d hd => Option.some.inj (hc.symm.trans hd) ▸ hb
  have hback : t.toList.reverse.dropWhile isBlank ≠ [] := by
    rw [Ne, List.dropWhile_eq_nil_iff]
    intro hblank
    have := hblank c (by simp [hcs])
    rw [hb] at this
    cases this
  rw [strip, String.append_assoc, String.toList_append, stripChars, hs.dropWhile_append,
    ← String.toList_append, ← String.append_assoc, String.toList_append, List.reverse_append,
    List.dropWhile_append, if_neg (by simpa using hback), List.reverse_append,
    List.reverse_reverse, String.ofList_append, String.ofList_toList, strip, stripChars, hfront]

/-! ## Joining -/

/-- What stands between two solid texts may be anything. -/
theorem Solid.append {s t : String} (hs : Solid s) (ht : Solid t) (between : String) :
    Solid (s ++ between ++ t) := by
  obtain ⟨c, hc, hfirst⟩ := hs.first
  obtain ⟨d, hd, hlast⟩ := ht.last
  constructor
  · exact ⟨c, by simp [String.toList_append, List.head?_append, hc], hfirst⟩
  · exact ⟨d, by simp [String.toList_append, List.getLast?_append, hd], hlast⟩

theorem join_cons {separator part : String} {parts : List String} (h : parts ≠ []) :
    join separator (part :: parts) = part ++ separator ++ join separator parts := by
  cases parts with
  | nil => exact absurd rfl h
  | cons next parts => rfl

theorem join_append {separator : String} {xs ys : List String} (hx : xs ≠ []) (hy : ys ≠ []) :
    join separator (xs ++ ys) = join separator xs ++ separator ++ join separator ys := by
  induction xs with
  | nil => exact absurd rfl hx
  | cons x xs ih =>
    cases xs with
    | nil => exact join_cons hy
    | cons x' xs =>
      have hfirst : join separator (x :: x' :: xs) = x ++ separator ++ join separator (x' :: xs) := rfl
      rw [List.cons_append, join_cons (by simp), ih (by simp), hfirst]
      simp only [String.append_assoc]

theorem join_concat_inj {separator s t : String} (front : List String) :
    join separator (front ++ [s]) = join separator (front ++ [t]) ↔ s = t := by
  cases front with
  | nil => rfl
  | cons part front =>
    rw [join_append (List.cons_ne_nil _ _) (List.cons_ne_nil _ _),
      join_append (List.cons_ne_nil _ _) (List.cons_ne_nil _ _)]
    exact String.append_right_inj _

/-- A text joined of parts begins with the first of them. -/
theorem head?_join {separator part : String} {parts : List String} {c : Char}
    (h : part.toList.head? = some c) :
    (join separator (part :: parts)).toList.head? = some c := by
  cases parts with
  | nil => exact h
  | cons next parts => simp [join, String.toList_append, List.head?_append, h]

theorem solid_join {separator : String} {parts : List String} (hne : parts ≠ [])
    (h : ∀ part ∈ parts, Solid part) : Solid (join separator parts) := by
  induction parts with
  | nil => exact absurd rfl hne
  | cons part parts ih =>
    have hpart := h part (by simp)
    cases parts with
    | nil => exact hpart
    | cons next parts =>
      rw [join_cons (by simp)]
      exact hpart.append (ih (by simp) fun t ht => h t (List.mem_cons_of_mem _ ht)) separator

/-- Of all that is joined, what stands in front has to begin with no blank, and the last text has
to be solid. -/
theorem solid_join_concat {separator s : String} {front : List String} (hs : Solid s)
    (h : ∀ t ∈ front, ∃ c, t.toList.head? = some c ∧ isBlank c = false) :
    Solid (join separator (front ++ [s])) := by
  cases front with
  | nil => exact hs
  | cons t front =>
    obtain ⟨c, hc, hb⟩ := h t List.mem_cons_self
    obtain ⟨d, hd, hlast⟩ := hs.last
    have hjoin : join separator (t :: front ++ [s]) =
        join separator (t :: front) ++ separator ++ s :=
      join_append (List.cons_ne_nil _ _) (List.cons_ne_nil _ _)
    refine ⟨⟨c, head?_join hc, hb⟩, ⟨d, ?_, hlast⟩⟩
    rw [hjoin, String.toList_append, List.getLast?_append, hd, Option.some_or]

end GraphQuery.Text
