import GraphQuery.NodePattern
import GraphQuery.Proofs.Decimal.Integer
import GraphQuery.Proofs.Text.Solid

/-!
# Literals that determine their values

Null, truth values, integers and texts, and lists and mappings of such values to any depth, are
determined by their literals, and so are the parts of a node pattern by its text. What carries the
proof is that a literal determines its value in front of anything that does not go on with a digit.
-/
namespace GraphQuery

/-! ## Plain values -/

/-- The characters that end a name. No identifier has one of them. -/
def nameEnds : List Char := [':', ' ', ')', '}']

def nameChar (c : Char) : Bool := !nameEnds.contains c

def isName (s : String) : Bool := s.toList.all nameChar

def Value.isName : Value → Bool
  | .text s => GraphQuery.isName s
  | _ => false

mutual

/-- Null, truth values, integers, texts, and lists and mappings of these, with names for keys. -/
def Value.isPlain : Value → Bool
  | .null | .bool _ | .int _ | .text _ => true
  | .list items => arePlain items
  | .map entries => arePlainEntries entries
  | _ => false
termination_by structural v => v

def arePlain : List Value → Bool
  | [] => true
  | item :: items => item.isPlain && arePlain items
termination_by structural items => items

def arePlainEntries : List (Value × Value) → Bool
  | [] => true
  | (key, v) :: entries => key.isName && v.isPlain && arePlainEntries entries
termination_by structural entries => entries

end

theorem arePlain_iff {items : List Value} : arePlain items ↔ ∀ v ∈ items, v.isPlain := by
  induction items with
  | nil => simp [arePlain]
  | cons item items ih => simp [arePlain, ih]

theorem arePlainEntries_iff {entries : List (Value × Value)} :
    arePlainEntries entries ↔ ∀ e ∈ entries, e.1.isName ∧ e.2.isPlain := by
  induction entries with
  | nil => simp [arePlainEntries]
  | cons entry entries ih => simp [arePlainEntries, ih]

theorem Value.exists_text_of_isName {v : Value} (h : v.isName) :
    ∃ s, v = .text s ∧ GraphQuery.isName s := by
  cases v with
  | text s => exact ⟨s, rfl, h⟩
  | _ => cases h

/-! ## First characters -/

theorem Value.toList_literal_list (items : List Value) : (Value.list items).literal.toList =
    '[' :: ((Text.join ", " (literals items)).toList ++ [']']) := by
  simp [literal]

theorem Value.toList_literal_map (entries : List (Value × Value)) :
    (Value.map entries).literal.toList =
      '\x7b' :: ((Text.join ", " (propertyTexts entries)).toList ++ ['\x7d']) := by
  simp [literal]

/-- What the literal of a plain value begins with. -/
def Value.Opens (c : Char) : Value → Prop
  | .null => c = 'n'
  | .bool _ => c = 't' ∨ c = 'f'
  | .int _ => c = '-' ∨ c.isDigit
  | .text _ => c = '"'
  | .list _ => c = '['
  | .map _ => c = '\x7b'
  | _ => False

theorem Value.exists_opens {v : Value} (h : v.isPlain) :
    ∃ c cs, v.literal.toList = c :: cs ∧ v.Opens c := by
  cases v with
  | null => exact ⟨_, _, rfl, rfl⟩
  | bool b =>
    cases b with
    | false => exact ⟨'f', _, rfl, .inr rfl⟩
    | true => exact ⟨'t', _, rfl, .inl rfl⟩
  | int n =>
    obtain ⟨c, cs, hchars, hc, -⟩ := Decimal.exists_head_intText n
    exact ⟨c, cs, hchars, hc⟩
  | text s => exact ⟨'"', _, String.toList_ofList, rfl⟩
  | list items => exact ⟨'[', _, toList_literal_list items, rfl⟩
  | map entries => exact ⟨'\x7b', _, toList_literal_map entries, rfl⟩
  | _ => cases h

/-- No plain literal begins with what closes a list. -/
theorem Value.exists_head_literal {v : Value} (h : v.isPlain) :
    ∃ c cs, v.literal.toList = c :: cs ∧ c ≠ ']' := by
  obtain ⟨c, cs, hchars, hc⟩ := exists_opens h
  refine ⟨c, cs, hchars, ?_⟩
  rintro rfl
  cases v <;> simp [Opens] at hc

/-- A literal that goes on with something else begins like the literal of another value. -/
theorem Value.opens_of_append {v w : Value} (hv : v.isPlain) (hw : w.isPlain) {r s : List Char}
    (h : v.literal.toList ++ r = w.literal.toList ++ s) : ∃ c, v.Opens c ∧ w.Opens c := by
  obtain ⟨c, cs, hc, hopens⟩ := exists_opens hv
  obtain ⟨d, ds, hd, hopens'⟩ := exists_opens hw
  rw [hc, hd] at h
  obtain rfl : c = d := (List.cons.inj h).1
  exact ⟨c, hopens, hopens'⟩

/-! ## Members with commas between them -/

theorem literals_eq_map (items : List Value) : literals items = items.map Value.literal := by
  induction items with
  | nil => rfl
  | cons item items ih => rw [literals, ih, List.map_cons]

def propertyText (entry : Value × Value) : String := entry.1.display ++ ": " ++ entry.2.literal

theorem propertyTexts_eq_map (entries : List (Value × Value)) :
    propertyTexts entries = entries.map propertyText := by
  induction entries with
  | nil => rfl
  | cons entry entries ih => rw [propertyTexts, ih, List.map_cons, propertyText]

/-- What stands behind the first of several members, up to the one that closes them. -/
def following (closing : Char) (rest : List Char) : List String → List Char
  | [] => closing :: rest
  | text :: texts => ',' :: ' ' :: ((Text.join ", " (text :: texts)).toList ++ closing :: rest)

theorem join_append_closing (closing : Char) (rest : List Char) (text : String)
    (texts : List String) : (Text.join ", " (text :: texts)).toList ++ closing :: rest =
      text.toList ++ following closing rest texts := by
  cases texts with
  | nil => rfl
  | cons next texts =>
    rw [Text.join_cons (by simp)]
    simp [following]

theorem head?_following (closing : Char) (rest : List Char) (texts : List String) :
    ∀ c ∈ (following closing rest texts).head?, c = ',' ∨ c = closing := by
  cases texts <;> simp [following]

/-- If every member is determined by its text in front of a comma or of what closes them all, and
does not begin with the latter, then all of them are determined by the text of them all. -/
theorem join_append_inj {α : Type} {f : α → String} {closing : Char} (hclosing : closing ≠ ',')
    {xs ys : List α}
    (hxs : ∀ x ∈ xs, ∃ c cs, (f x).toList = c :: cs ∧ c ≠ closing)
    (hys : ∀ y ∈ ys, ∃ c cs, (f y).toList = c :: cs ∧ c ≠ closing)
    (hinj : ∀ x ∈ xs, ∀ y ∈ ys, ∀ r s : List Char, (∀ c ∈ r.head?, c = ',' ∨ c = closing) →
      (∀ c ∈ s.head?, c = ',' ∨ c = closing) → (f x).toList ++ r = (f y).toList ++ s →
        x = y ∧ r = s)
    {r s : List Char} (h : (Text.join ", " (xs.map f)).toList ++ closing :: r =
      (Text.join ", " (ys.map f)).toList ++ closing :: s) : xs = ys ∧ r = s := by
  induction xs generalizing ys with
  | nil =>
    cases ys with
    | nil => exact ⟨rfl, (List.cons.inj h).2⟩
    | cons y ys =>
      obtain ⟨c, cs, hy, hne⟩ := hys y (by simp)
      rw [List.map_cons, join_append_closing, hy] at h
      exact absurd (List.cons.inj h).1.symm hne
  | cons x xs ih =>
    cases ys with
    | nil =>
      obtain ⟨c, cs, hx, hne⟩ := hxs x (by simp)
      rw [List.map_cons, join_append_closing, hx] at h
      exact absurd (List.cons.inj h).1 hne
    | cons y ys =>
      rw [List.map_cons, List.map_cons, join_append_closing, join_append_closing] at h
      obtain ⟨rfl, hrest⟩ := hinj x (by simp) y (by simp) _ _ (head?_following _ _ _)
        (head?_following _ _ _) h
      -- either both are closed now, or both go on with a comma
      cases xs with
      | nil =>
        cases ys with
        | nil => exact ⟨rfl, (List.cons.inj hrest).2⟩
        | cons y ys => exact absurd (List.cons.inj hrest).1 hclosing
      | cons x' xs =>
        cases ys with
        | nil => exact absurd (List.cons.inj hrest).1.symm hclosing
        | cons y ys =>
          obtain ⟨heq, hrs⟩ := ih (fun z hz => hxs z (List.mem_cons_of_mem _ hz))
            (fun z hz => hys z (List.mem_cons_of_mem _ hz))
            (fun z hz w hw => hinj z (List.mem_cons_of_mem _ hz) w (List.mem_cons_of_mem _ hw))
            (List.cons.inj (List.cons.inj hrest).2).2
          exact ⟨by rw [heq], hrs⟩

/-! ## Literals -/

/-- A rest that does not go on with a digit. -/
def Ends (rest : List Char) : Prop := ∀ c ∈ rest.head?, c.isDigit = false

theorem Ends.of_closing {closing : Char} (hclosing : closing.isDigit = false) {rest : List Char}
    (h : ∀ c ∈ rest.head?, c = ',' ∨ c = closing) : Ends rest := by
  intro c hc
  rcases h c hc with rfl | rfl
  · decide
  · exact hclosing

/-- A plain value is determined by its literal, whatever stands behind it. -/
def Value.Determined (v : Value) : Prop := v.isPlain → ∀ w r s, w.isPlain → Ends r → Ends s →
  v.literal.toList ++ r = w.literal.toList ++ s → v = w ∧ r = s

theorem items_append_inj {items others : List Value} (h : arePlain items) (h' : arePlain others)
    (hitems : ∀ v ∈ items, v.Determined) {r s : List Char}
    (heq : (Text.join ", " (literals items)).toList ++ ']' :: r =
      (Text.join ", " (literals others)).toList ++ ']' :: s) : items = others ∧ r = s := by
  rw [arePlain_iff] at h h'
  rw [literals_eq_map, literals_eq_map] at heq
  refine join_append_inj (by decide) (fun v hv => Value.exists_head_literal (h v hv))
    (fun v hv => Value.exists_head_literal (h' v hv)) (fun v hv w hw r s hr hs => ?_) heq
  exact hitems v hv (h v hv) w r s (h' w hw) (.of_closing (by decide) hr)
    (.of_closing (by decide) hs)

/-- Two names with something behind them that no name goes on with. -/
theorem name_append_inj {a b : String} (ha : isName a) (hb : isName b) {x y : List Char}
    (hx : ∀ c ∈ x.head?, nameChar c = false) (hy : ∀ c ∈ y.head?, nameChar c = false)
    (h : a.toList ++ x = b.toList ++ y) : a = b ∧ x = y := by
  obtain ⟨hname, hrest⟩ := Text.append_inj_of_head (List.all_eq_true.1 ha) (List.all_eq_true.1 hb)
    hx hy h
  exact ⟨String.toList_inj.1 hname, hrest⟩

theorem toList_propertyText (name : String) (v : Value) : (propertyText (.text name, v)).toList =
    name.toList ++ ':' :: ' ' :: v.literal.toList := by
  simp [propertyText, Value.display]

/-- No property begins with what closes a mapping. -/
theorem exists_head_propertyText {e : Value × Value} (h : e.1.isName) :
    ∃ c cs, (propertyText e).toList = c :: cs ∧ c ≠ '\x7d' := by
  obtain ⟨key, v⟩ := e
  obtain ⟨name, rfl, hname⟩ := Value.exists_text_of_isName h
  rw [toList_propertyText]
  cases hchars : name.toList with
  | nil => exact ⟨':', _, rfl, by decide⟩
  | cons c cs =>
    refine ⟨c, _, rfl, ?_⟩
    rintro rfl
    rw [isName, hchars] at hname
    cases hname

theorem entries_append_inj {entries others : List (Value × Value)} (h : arePlainEntries entries)
    (h' : arePlainEntries others) (hentries : ∀ e ∈ entries, e.2.Determined) {r s : List Char}
    (heq : (Text.join ", " (propertyTexts entries)).toList ++ '\x7d' :: r =
      (Text.join ", " (propertyTexts others)).toList ++ '\x7d' :: s) :
    entries = others ∧ r = s := by
  rw [arePlainEntries_iff] at h h'
  rw [propertyTexts_eq_map, propertyTexts_eq_map] at heq
  refine join_append_inj (by decide) (fun e he => exists_head_propertyText (h e he).1)
    (fun e he => exists_head_propertyText (h' e he).1) (fun e he d hd r s hr hs heq => ?_) heq
  obtain ⟨key, v⟩ := e
  obtain ⟨key', w⟩ := d
  obtain ⟨name, rfl, hname⟩ := Value.exists_text_of_isName (h _ he).1
  obtain ⟨name', rfl, hname'⟩ := Value.exists_text_of_isName (h' _ hd).1
  rw [toList_propertyText, toList_propertyText, List.append_assoc, List.append_assoc] at heq
  have hcolon : ∀ cs : List Char, ∀ c ∈ (':' :: cs).head?, nameChar c = false := by
    rintro cs c ⟨⟩
    decide
  obtain ⟨rfl, hrest⟩ := name_append_inj hname hname' (hcolon _) (hcolon _) heq
  obtain ⟨rfl, hrs⟩ := hentries _ he (h _ he).2 w r s (h' _ hd).2 (.of_closing (by decide) hr)
    (.of_closing (by decide) hs) (List.cons.inj (List.cons.inj hrest).2).2
  exact ⟨rfl, hrs⟩

theorem textLiteral_append_inj {t u : String} {r s : List Char}
    (h : (textLiteral t).toList ++ r = (textLiteral u).toList ++ s) : t = u ∧ r = s := by
  have hread := Text.Escapes.read_textLiteral default t r
  rw [h, Text.Escapes.read_textLiteral] at hread
  obtain ⟨hsaid, hrest⟩ := Prod.mk.inj (Option.some.inj hread)
  exact ⟨String.toList_inj.1 hsaid.symm, hrest.symm⟩

mutual

theorem Value.determined (v : Value) : v.Determined := by
  intro hv w r s hw hr hs h
  -- values of two forms have no first character in common
  obtain ⟨c, hopens, hopens'⟩ := Value.opens_of_append hv hw h
  cases v with
  | null =>
    cases w with
    | null => exact ⟨rfl, List.append_cancel_left h⟩
    | _ => simp_all [Value.Opens]
  | bool b =>
    cases w with
    | bool b' => cases b <;> cases b' <;> simp_all [Value.literal]
    | _ => cases hopens <;> simp_all [Value.Opens]
  | int n =>
    cases w with
    | int m =>
      obtain ⟨rfl, hrs⟩ := Decimal.intText_append_inj hr hs h
      exact ⟨rfl, hrs⟩
    | bool b => cases hopens' <;> simp_all [Value.Opens]
    | _ => simp_all [Value.Opens]
  | text t =>
    cases w with
    | text u =>
      obtain ⟨rfl, hrs⟩ := textLiteral_append_inj h
      exact ⟨rfl, hrs⟩
    | _ => simp_all [Value.Opens]
  | list items =>
    cases w with
    | list others =>
      rw [Value.toList_literal_list, Value.toList_literal_list, List.cons_append,
        List.cons_append, List.append_assoc, List.append_assoc] at h
      obtain ⟨rfl, hrs⟩ := items_append_inj hv hw (determined_of_mem_items items)
        (List.cons.inj h).2
      exact ⟨rfl, hrs⟩
    | _ => simp_all [Value.Opens]
  | map entries =>
    cases w with
    | map others =>
      rw [Value.toList_literal_map, Value.toList_literal_map, List.cons_append,
        List.cons_append, List.append_assoc, List.append_assoc] at h
      obtain ⟨rfl, hrs⟩ := entries_append_inj hv hw (determined_of_mem_entries entries)
        (List.cons.inj h).2
      exact ⟨rfl, hrs⟩
    | _ => simp_all [Value.Opens]
  | _ => cases hv
termination_by structural v

theorem determined_of_mem_items (items : List Value) : ∀ v ∈ items, v.Determined := by
  cases items with
  | nil => simp
  | cons item items =>
    exact List.forall_mem_cons.2 ⟨item.determined, determined_of_mem_items items⟩
termination_by structural items

theorem determined_of_mem_entries (entries : List (Value × Value)) :
    ∀ e ∈ entries, e.2.Determined := by
  cases entries with
  | nil => simp
  | cons entry entries =>
    obtain ⟨key, v⟩ := entry
    exact List.forall_mem_cons.2 ⟨v.determined, determined_of_mem_entries entries⟩
termination_by structural entries

end

/-! ## Node patterns -/

namespace NodePattern

/-- A pattern of names, with plain properties. -/
def isPlain (p : NodePattern) : Bool :=
  isName p.name && p.labels.all isName && arePlainEntries p.properties

/-- What stands behind the labels. -/
def tail (properties : List (Value × Value)) : List Char :=
  if properties.isEmpty then [')'] else ' ' :: ((propertyMap properties).toList ++ [')'])

theorem toList_text (p : NodePattern) : p.text.toList =
    '(' :: (p.name.toList ++ ((labelText p.labels).toList ++ tail p.properties)) := by
  rw [text, tail]
  split <;> simp

theorem head?_tail (properties : List (Value × Value)) :
    ∀ c ∈ (tail properties).head?, nameChar c = false := by
  rw [tail]
  split
  · rintro c ⟨⟩
    decide
  · rintro c ⟨⟩
    decide

theorem head?_labels (labels : List String) (properties : List (Value × Value)) :
    ∀ c ∈ ((labelText labels).toList ++ tail properties).head?, nameChar c = false := by
  cases labels with
  | nil => exact head?_tail properties
  | cons label labels =>
    intro c hc
    obtain rfl : ':' = c := by simpa [labelText] using hc
    decide

theorem tail_inj {properties others : List (Value × Value)} (h : arePlainEntries properties)
    (h' : arePlainEntries others) (heq : tail properties = tail others) : properties = others := by
  cases properties with
  | nil =>
    cases others with
    | nil => rfl
    | cons entry others => cases heq
  | cons entry properties =>
    cases others with
    | nil => cases heq
    | cons other others =>
      have hmap : (Value.map (entry :: properties)).literal.toList ++ [')'] =
          (Value.map (other :: others)).literal.toList ++ [')'] := (List.cons.inj heq).2
      have hend : Ends [')'] := by
        rintro c ⟨⟩
        decide
      have hvalue := (Value.map (entry :: properties)).determined h (.map (other :: others)) _ _ h'
        hend hend hmap
      exact Value.map.inj hvalue.1

theorem labels_append_inj {labels others : List String} {properties entries : List (Value × Value)}
    (h : labels.all isName) (h' : others.all isName)
    (heq : (labelText labels).toList ++ tail properties = (labelText others).toList ++ tail entries) :
    labels = others ∧ tail properties = tail entries := by
  -- a label begins with a colon, and the rest does not
  have hcolon {properties : List (Value × Value)} {cs : List Char} :
      tail properties ≠ ':' :: cs := by
    rw [tail]
    split <;> simp
  have hcons (label : String) (labels : List String) (properties : List (Value × Value)) :
      (labelText (label :: labels)).toList ++ tail properties =
        ':' :: (label.toList ++ ((labelText labels).toList ++ tail properties)) := by
    simp [labelText]
  induction labels generalizing others with
  | nil =>
    cases others with
    | nil => exact ⟨rfl, heq⟩
    | cons label others =>
      rw [hcons] at heq
      exact absurd heq hcolon
  | cons label labels ih =>
    cases others with
    | nil =>
      rw [hcons] at heq
      exact absurd heq.symm hcolon
    | cons other others =>
      rw [hcons, hcons] at heq
      rw [List.all_cons, Bool.and_eq_true] at h h'
      obtain ⟨rfl, hrest⟩ := name_append_inj h.1 h'.1 (head?_labels _ _) (head?_labels _ _)
        (List.cons.inj heq).2
      obtain ⟨rfl, htail⟩ := ih h.2 h'.2 hrest
      exact ⟨rfl, htail⟩

theorem text_inj {p q : NodePattern} (hp : p.isPlain) (hq : q.isPlain) (h : p.text = q.text) :
    p = q := by
  obtain ⟨name, labels, properties⟩ := p
  obtain ⟨name', labels', properties'⟩ := q
  rw [isPlain, Bool.and_eq_true, Bool.and_eq_true] at hp hq
  have hchars := congrArg String.toList h
  rw [toList_text, toList_text] at hchars
  obtain ⟨rfl, hrest⟩ := name_append_inj hp.1.1 hq.1.1 (head?_labels _ _) (head?_labels _ _)
    (List.cons.inj hchars).2
  obtain ⟨rfl, htail⟩ := labels_append_inj hp.1.2 hq.1.2 hrest
  obtain rfl := tail_inj hp.2 hq.2 htail
  rfl

end NodePattern

/-- Plain values with the same literal are the same value, to any depth and with the entries of
mappings in the same order. Node patterns of names with plain properties and the same text have the
same name, the same labels and the same properties. -/
theorem plain_literals_unambiguous :
    (∀ v w : Value, v.isPlain → w.isPlain → v.literal = w.literal → v = w) ∧
    ∀ p q : NodePattern, p.isPlain → q.isPlain → p.text = q.text → p = q := by
  have hnil : Ends [] := by simp [Ends]
  refine ⟨fun v w hv hw h => ?_, fun p q => NodePattern.text_inj⟩
  exact (v.determined hv w [] [] hw hnil hnil (by rw [h])).1

/-- A text that reads like the end of one text and the beginning of another. -/
def separated : Value := .list [.text "a\", \"b", .null]

/-- A property whose text reads like the end of the pattern. -/
def titled : NodePattern := ⟨"n", ["Person", "Admin"], [(.text "name", .text "\x7d)")]⟩

theorem separated_determined :
    (∃ v : Value, v.isPlain ∧ v.literal = "[\"a\\\", \\\"b\", null]" ∧ separated = v) ∧
    ∃ p : NodePattern, p.isPlain ∧ p.text = "(n:Person:Admin \x7bname: \"\x7d)\"\x7d)" ∧
      titled = p :=
  ⟨⟨separated, rfl, rfl, plain_literals_unambiguous.1 separated separated rfl rfl rfl⟩,
    ⟨titled, rfl, rfl, plain_literals_unambiguous.2 titled titled rfl rfl rfl⟩⟩

end GraphQuery
