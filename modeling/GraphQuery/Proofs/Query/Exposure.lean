import GraphQuery.Proofs.Literal.Unambiguous
import GraphQuery.Proofs.Query.Acceptance
import Mathlib.Data.List.Infix

/-!
# Objects without a literal form

An object that has no literal form is turned away where the shape of a value counts, and displayed
everywhere else. So a call that is given such an object somewhere in its arguments either fails, for
an argument of a shape that its kind does not take, or puts the text of the object into the query.
-/
namespace GraphQuery

/-! ## Texts within texts -/

namespace Text

/-- The first text stands somewhere in the second one. -/
def Inside (s t : String) : Prop := s.toList <:+: t.toList

namespace Inside

variable {s t : String}

theorem refl (s : String) : Inside s s := List.infix_rfl

theorem append_left (h : Inside s t) (front : String) : Inside s (front ++ t) := by
  rw [Inside, String.toList_append]
  exact List.infix_append_of_infix_right h

theorem append_right (h : Inside s t) (back : String) : Inside s (t ++ back) := by
  rw [Inside, String.toList_append]
  exact h.trans (List.prefix_append _ _).isInfix

theorem join {parts : List String} (h : Inside s t) (separator : String) (ht : t ∈ parts) :
    Inside s (Text.join separator parts) := by
  induction parts with
  | nil => cases ht
  | cons part rest ih =>
    cases rest with
    | nil =>
      rw [← List.mem_singleton.1 ht]
      exact h
    | cons next rest =>
      rw [join_cons (List.cons_ne_nil next rest)]
      rcases List.mem_cons.1 ht with rfl | ht
      · exact (h.append_right separator).append_right _
      · exact (ih ht).append_left _

theorem upper (h : Inside s t) : Inside (Text.upper s) (Text.upper t) := by
  rw [Inside, Text.upper, Text.upper, String.toList_ofList, String.toList_ofList]
  exact List.IsInfix.flatMap h upperChar

end Inside

end Text

/-! ## Parts of values -/

namespace Value

open Text (Inside)

/-- An object that has no literal form. -/
def isUnsupported : Value → Bool
  | .bytes _ | .foreign _ => true
  | _ => false

/-- The first value is the second one or stands in it, at any depth of its lists and of the values
of its mappings. -/
inductive Holds (x : Value) : Value → Prop
  | self : Holds x x
  | list {items : List Value} {v : Value} (hv : v ∈ items) (h : Holds x v) : Holds x (.list items)
  | tuple {items : List Value} {v : Value} (hv : v ∈ items) (h : Holds x v) :
    Holds x (.tuple items)
  | entry {entries : List (Value × Value)} {e : Value × Value} (he : e ∈ entries)
    (h : Holds x e.2) : Holds x (.map entries)

/-- The text of the object stands in the other text, as it is or in upper case. -/
def ShownIn (x : Value) (s : String) : Prop :=
  Inside x.inspect s ∨ Inside (Text.upper x.inspect) s

theorem inspectItems_eq_map (items : List Value) : inspectItems items = items.map inspect := by
  induction items with
  | nil => rfl
  | cons item items ih => rw [inspectItems, ih, List.map_cons]

theorem inspectEntries_eq_map (entries : List (Value × Value)) :
    inspectEntries entries = entries.map fun e => e.1.inspect ++ ": " ++ e.2.inspect := by
  induction entries with
  | nil => rfl
  | cons entry entries ih => rw [inspectEntries, ih, List.map_cons]

theorem inside_inspectTuple {s t : String} {items : List String} (h : Inside s t)
    (ht : t ∈ items) : Inside s (inspectTuple items) := by
  cases items with
  | nil => cases ht
  | cons item rest =>
    cases rest with
    | nil =>
      rw [← List.mem_singleton.1 ht]
      exact (h.append_left "(").append_right ",)"
    | cons next rest => exact ((h.join ", " ht).append_left "(").append_right ")"

namespace Holds

variable {x v : Value}

/-- A message about a value shows all of its parts. -/
theorem inside_inspect (h : Holds x v) : Inside x.inspect v.inspect := by
  induction h with
  | self => exact .refl _
  | list hv _ ih =>
    rw [Value.inspect, inspectItems_eq_map]
    exact ((ih.join ", " (List.mem_map_of_mem hv)).append_left "[").append_right "]"
  | tuple hv _ ih =>
    rw [Value.inspect, inspectItems_eq_map]
    exact inside_inspectTuple ih (List.mem_map_of_mem hv)
  | @entry entries e he _ ih =>
    have hentry := ih.append_left (e.1.inspect ++ ": ")
    rw [Value.inspect, inspectEntries_eq_map]
    exact ((hentry.join ", " (List.mem_map.2 ⟨e, he, rfl⟩)).append_left "\x7b").append_right "\x7d"

/-- The literal of a value has the literals of all of its parts. -/
theorem inside_literal (h : Holds x v) : Inside x.literal v.literal := by
  induction h with
  | self => exact .refl _
  | list hv _ ih | tuple hv _ ih =>
    rw [Value.literal, literals_eq_map]
    exact ((ih.join ", " (List.mem_map_of_mem hv)).append_left "[").append_right "]"
  | @entry entries e he _ ih =>
    have hentry : Inside x.literal (propertyText e) := ih.append_left (e.1.display ++ ": ")
    rw [Value.literal, propertyTexts_eq_map]
    exact ((hentry.join ", " (List.mem_map.2 ⟨e, he, rfl⟩)).append_left "\x7b").append_right "\x7d"

section Unsupported

variable (hx : x.isUnsupported)

include hx

theorem literal_eq_inspect : x.literal = x.inspect := by
  cases x with
  | bytes | foreign => rfl
  | _ => cases hx

theorem inspect_inside_literal (h : Holds x v) : Inside x.inspect v.literal :=
  literal_eq_inspect hx ▸ h.inside_literal

theorem not_text {s : String} : ¬ Holds x (.text s) := by
  rintro ⟨⟩
  cases hx

theorem inspect_inside_display (h : Holds x v) : Inside x.inspect v.display := by
  cases v with
  | text s => exact absurd h (not_text hx)
  | _ => exact h.inside_inspect

theorem exists_item {items : List Value} (h : Holds x (.list items)) : ∃ v ∈ items, Holds x v := by
  cases h with
  | self => cases hx
  | list hv h => exact ⟨_, hv, h⟩

theorem exists_member {items : List Value} (h : Holds x (.tuple items)) :
    ∃ v ∈ items, Holds x v := by
  cases h with
  | self => cases hx
  | tuple hv h => exact ⟨_, hv, h⟩

theorem exists_entry {entries : List (Value × Value)} (h : Holds x (.map entries)) :
    ∃ e ∈ entries, Holds x e.2 := by
  cases h with
  | self => cases hx
  | entry he h => exact ⟨_, he, h⟩

/-- What holds such an object has content. -/
theorem hasContent (h : Holds x v) : Clause.hasContent v := by
  cases h with
  | self => cases x <;> first | rfl | cases hx
  | list | tuple => rfl
  | entry he =>
    rw [Clause.hasContent, List.isEmpty_eq_false_iff.2 (List.ne_nil_of_mem he)]
    rfl

/-- Such an object stays in one of the arguments when the lists around them are taken away. -/
theorem exists_mem_flatten (h : Holds x v) : ∃ w ∈ Clause.flatten v, Holds x w := by
  have hall {items : List Value} {u : Value} (hu : u ∈ items)
      (hw : ∃ w ∈ Clause.flatten u, Holds x w) : ∃ w ∈ Clause.flattenAll items, Holds x w := by
    obtain ⟨w, hw, hholds⟩ := hw
    induction items with
    | nil => cases hu
    | cons item items ih =>
      rw [Clause.flattenAll]
      rcases List.mem_cons.1 hu with rfl | hu
      · exact ⟨w, List.mem_append_left _ hw, hholds⟩
      · obtain ⟨w', hw', hholds'⟩ := ih hu
        exact ⟨w', List.mem_append_right _ hw', hholds'⟩
  induction h with
  | self =>
    refine ⟨x, ?_, .self⟩
    cases x <;> first | exact List.mem_singleton.2 rfl | cases hx
  | list hv _ ih | tuple hv _ ih => exact hall hv ih
  | entry he h => exact ⟨_, List.mem_singleton.2 rfl, .entry he h⟩

end Unsupported

end Holds

end Value

/-! ## What clauses show -/

namespace Clause

open Text (Inside)

theorem exists_of_conditionEntryTexts {key : String} {entries : List (Value × Value)}
    {texts : List String} (h : conditionEntryTexts key entries = .ok texts) {e : Value × Value}
    (he : e ∈ entries) :
    ∃ part, conditionTexts (key ++ "." ++ e.1.display) e.2 = .ok part ∧ part ⊆ texts := by
  induction entries generalizing texts with
  | nil => cases he
  | cons entry entries ih =>
    obtain ⟨-, first, hfirst, rest, hrest, rfl⟩ := conditionEntryTexts_cons_eq_ok.1 h
    rcases List.mem_cons.1 he with rfl | he
    · exact ⟨first, hfirst, List.subset_append_left _ _⟩
    · obtain ⟨part, hpart, hsub⟩ := ih hrest he
      exact ⟨part, hpart, List.Subset.trans hsub (List.subset_append_right _ _)⟩

theorem exists_of_orderItemTexts {key : String} {items : List Value} {texts : List String}
    (h : orderItemTexts key items = .ok texts) {v : Value} (hv : v ∈ items) :
    ∃ part, orderTexts key v = .ok part ∧ part ⊆ texts := by
  induction items generalizing texts with
  | nil => cases hv
  | cons item items ih =>
    obtain ⟨first, hfirst, rest, hrest, rfl⟩ := orderItemTexts_cons_eq_ok.1 h
    rcases List.mem_cons.1 hv with rfl | hv
    · exact ⟨first, hfirst, List.subset_append_left _ _⟩
    · obtain ⟨part, hpart, hsub⟩ := ih hrest hv
      exact ⟨part, hpart, List.Subset.trans hsub (List.subset_append_right _ _)⟩

theorem exists_of_entriesTexts {kind : Kind} {replace : Bool} {entries : List (Value × Value)}
    {texts : List String} (h : entriesTexts kind replace entries = .ok texts)
    {e : Value × Value} (he : e ∈ entries) :
    ∃ part, entryTexts kind replace e.1.display e.2 = .ok part ∧ part ⊆ texts := by
  induction entries generalizing texts with
  | nil => cases he
  | cons entry entries ih =>
    obtain ⟨-, first, hfirst, rest, hrest, rfl⟩ := entriesTexts_cons_eq_ok.1 h
    rcases List.mem_cons.1 he with rfl | he
    · exact ⟨first, hfirst, List.subset_append_left _ _⟩
    · obtain ⟨part, hpart, hsub⟩ := ih hrest he
      exact ⟨part, hpart, List.Subset.trans hsub (List.subset_append_right _ _)⟩

section Shown

variable {x v : Value} (hx : x.isUnsupported) (h : x.Holds v)

include hx h

/-- A condition takes every value, and writes the object. -/
theorem exists_shown_conditionTexts {key : String} {texts : List String}
    (hok : conditionTexts key v = .ok texts) : ∃ s ∈ texts, Inside x.inspect s := by
  induction h generalizing key texts with
  | self =>
    have hwritten : Inside x.inspect (key ++ " = " ++ x.literal) :=
      (Value.Holds.self.inspect_inside_literal hx).append_left _
    cases x with
    | bytes | foreign =>
      cases hok
      exact ⟨_, List.mem_singleton.2 rfl, hwritten⟩
    | _ => cases hx
  | list hv h | tuple hv h =>
    obtain ⟨-, rfl⟩ := Value.written_eq_ok.1 hok
    exact ⟨_, List.mem_singleton.2 rfl,
      ((Value.Holds.list hv h).inspect_inside_literal hx).append_left _⟩
  | @entry entries e he _ ih =>
    obtain ⟨part, hpart, hsub⟩ := exists_of_conditionEntryTexts hok he
    obtain ⟨s, hs, hinside⟩ := ih hpart
    exact ⟨s, hsub hs, hinside⟩

theorem exists_shown_nodeTexts {kind : Kind} {key : String} {texts : List String}
    (hok : nodeTexts kind key v = .ok texts) : ∃ s ∈ texts, Inside x.inspect s := by
  have hlabels {items : List Value} {labels : List String} (hl : labels? items = some labels)
      {w : Value} (hw : w ∈ items) (hholds : x.Holds w) : False := by
    have hall : items.all Value.isText = true := by rw [← isSome_labels?, hl]; rfl
    have htext := List.all_eq_true.1 hall w hw
    cases w with
    | text s => exact hholds.not_text hx
    | _ => cases htext
  cases v with
  | text s => exact absurd h (Value.Holds.not_text hx)
  | list items =>
    rw [nodeTexts.eq_def] at hok
    cases hl : labels? items with
    | none => simp [hl] at hok
    | some labels =>
      obtain ⟨w, hw, hholds⟩ := h.exists_item hx
      exact (hlabels hl hw hholds).elim
  | tuple items =>
    rw [nodeTexts.eq_def] at hok
    cases hl : labels? items with
    | none => simp [hl] at hok
    | some labels =>
      obtain ⟨w, hw, hholds⟩ := h.exists_member hx
      exact (hlabels hl hw hholds).elim
  | map entries =>
    rw [nodeTexts, NodePattern.build, Value.map_written] at hok
    obtain ⟨-, rfl⟩ := Value.written_eq_ok.1 hok
    obtain ⟨e, he, -⟩ := h.exists_entry hx
    have hmap : Inside x.inspect (propertyMap entries) := h.inspect_inside_literal hx
    refine ⟨_, List.mem_singleton.2 rfl, ?_⟩
    rw [NodePattern.text, if_neg (by simpa using List.ne_nil_of_mem he)]
    exact ((hmap.append_left " ").append_left _).append_right ")"
  | _ => cases hok

theorem exists_shown_assignmentTexts {replace : Bool} {key : String} {texts : List String}
    (hok : assignmentTexts replace key v = .ok texts) : ∃ s ∈ texts, Inside x.inspect s := by
  cases v with
  | text s => exact absurd h (Value.Holds.not_text hx)
  | map entries =>
    obtain ⟨-, rfl⟩ := Value.written_eq_ok.1 hok
    cases replace with
    | true =>
      have hmap : Inside x.inspect (propertyMap entries) := h.inspect_inside_literal hx
      exact ⟨_, List.mem_singleton.2 rfl, hmap.append_left _⟩
    | false =>
      obtain ⟨e, he, hholds⟩ := h.exists_entry hx
      exact ⟨_, List.mem_map_of_mem he, (hholds.inspect_inside_literal hx).append_left _⟩
  | _ => cases hok

theorem exists_shown_propertyNames {kind : Kind} {key : String} {texts : List String}
    (hok : propertyNames kind key v = .ok texts) : ∃ s ∈ texts, Inside x.inspect s := by
  cases v with
  | text s => exact absurd h (Value.Holds.not_text hx)
  | list items =>
    obtain ⟨-, rfl⟩ := Value.written_eq_ok.1 hok
    obtain ⟨w, hw, hholds⟩ := h.exists_item hx
    exact ⟨_, List.mem_map_of_mem hw, (hholds.inspect_inside_display hx).append_left _⟩
  | tuple items =>
    obtain ⟨-, rfl⟩ := Value.written_eq_ok.1 hok
    obtain ⟨w, hw, hholds⟩ := h.exists_member hx
    exact ⟨_, List.mem_map_of_mem hw, (hholds.inspect_inside_display hx).append_left _⟩
  | _ => cases hok

/-- The direction of an ordering is written in upper case. -/
theorem exists_shown_orderTexts {key : String} {texts : List String}
    (hok : orderTexts key v = .ok texts) : ∃ s ∈ texts, x.ShownIn s := by
  induction h generalizing texts with
  | self =>
    cases x with
    | bytes | foreign => cases hok
    | _ => cases hx
  | list hv _ ih | tuple hv _ ih =>
    obtain ⟨part, hpart, hsub⟩ := exists_of_orderItemTexts hok hv
    obtain ⟨s, hs, hshown⟩ := ih hpart
    exact ⟨s, hsub hs, hshown⟩
  | entry he h =>
    obtain ⟨-, rfl⟩ := Value.written_eq_ok.1 hok
    exact ⟨_, List.mem_map_of_mem he, .inr ((h.inspect_inside_display hx).upper.append_left _)⟩

/-- An entry that is taken has a text in which the object stands. -/
theorem exists_shown_entryTexts {kind : Kind} {replace : Bool} {key : String} {texts : List String}
    (hok : entryTexts kind replace key v = .ok texts) : ∃ s ∈ texts, x.ShownIn s := by
  have hplain (hinside : ∃ s ∈ texts, Inside x.inspect s) : ∃ s ∈ texts, x.ShownIn s :=
    hinside.imp fun _ hs => ⟨hs.1, .inl hs.2⟩
  have halias {s : String} (hs : Inside x.inspect s) : Inside x.inspect (s ++ " AS " ++ key) :=
    (hs.append_right " AS ").append_right key
  cases kind with
  | pattern | optionalPattern | creation | uniqueCreation | merge =>
    exact hplain (exists_shown_nodeTexts hx h hok)
  | condition => exact hplain (exists_shown_conditionTexts hx h hok)
  | assignment => exact hplain (exists_shown_assignmentTexts hx h hok)
  | removal | result => exact hplain (exists_shown_propertyNames hx h hok)
  | order => exact exists_shown_orderTexts hx h hok
  | start | carry =>
    cases v with
    | text s => exact absurd h (Value.Holds.not_text hx)
    | _ => cases hok
  | unwind =>
    cases v with
    | text s => exact absurd h (Value.Holds.not_text hx)
    | list items =>
      obtain ⟨-, rfl⟩ := Value.written_eq_ok.1 hok
      exact ⟨_, List.mem_singleton.2 rfl, .inl (halias (h.inspect_inside_literal hx))⟩
    | tuple items =>
      obtain ⟨-, rfl⟩ := Value.written_eq_ok.1 hok
      have hliteral : Inside x.inspect (Value.literal (.tuple items)) :=
        h.inspect_inside_literal hx
      exact ⟨_, List.mem_singleton.2 rfl, .inl (halias hliteral)⟩
    | _ => cases hok
  | hint | deletion | limit | skip => cases hok

theorem exists_shown_argumentTexts {kind : Kind} {replace : Bool} {texts : List String}
    (hok : argumentTexts kind replace v = .ok texts) : ∃ s ∈ texts, x.ShownIn s := by
  cases v with
  | text s => exact absurd h (Value.Holds.not_text hx)
  | int n =>
    cases h
    cases hx
  | map entries =>
    obtain ⟨e, he, hholds⟩ := h.exists_entry hx
    obtain ⟨part, hpart, hsub⟩ := exists_of_entriesTexts hok he
    obtain ⟨s, hs, hshown⟩ := exists_shown_entryTexts hx hholds hpart
    exact ⟨s, hsub hs, hshown⟩
  | _ => cases hok

theorem exists_shown_ofArgument {kind : Kind} {replace : Bool} {c : Clause}
    (hok : ofArgument kind replace v = .ok c) : ∃ s ∈ c.values, x.ShownIn s := by
  rw [ofArgument] at hok
  cases htexts : argumentTexts kind replace v with
  | error f => rw [htexts] at hok; cases hok
  | ok texts =>
    rw [htexts] at hok
    cases hok
    exact exists_shown_argumentTexts hx h htexts

end Shown

theorem exists_made_of_mem {kind : Kind} {replace : Bool} {args : List Value}
    {clauses : List Clause}
    (h : List.Forall₂ (fun v c => ofArgument kind replace v = .ok c) args clauses) {v : Value}
    (hv : v ∈ args) : ∃ c ∈ clauses, ofArgument kind replace v = .ok c := by
  induction h with
  | nil => cases hv
  | @cons w c args clauses hc _ ih =>
    rcases List.mem_cons.1 hv with rfl | hv
    · exact ⟨c, List.mem_cons_self, hc⟩
    · obtain ⟨d, hd, hmade⟩ := ih hv
      exact ⟨d, List.mem_cons_of_mem _ hd, hmade⟩

/-- The object stands in one of the arguments that count. -/
theorem exists_given_holds {x : Value} (hx : x.isUnsupported) {args : List Value}
    (h : x.Holds (.list args)) : ∃ v ∈ given args, x.Holds v := by
  obtain ⟨v, hv, hholds⟩ := h.exists_mem_flatten hx
  exact ⟨v, List.mem_filter.2 ⟨hv, hholds.hasContent hx⟩, hholds⟩

end Clause

namespace Query

open Clause (given accepts hasShape offence)

theorem call_of_accepts {kind : Clause.Kind} {args : List Value}
    (h : ∀ v ∈ given args, accepts kind v) (q : Query) (replace : Bool) :
    ∃ clauses, q.call (.clause kind replace) ⟨args, []⟩ =
        .ok (q.append (opening kind ++ clauses.map some)) ∧
      List.Forall₂ (fun v c => Clause.ofArgument kind replace v = .ok c) (given args) clauses := by
  rw [call_clause]
  exact derive_of_accepts h q replace

/-- An argument that is not accepted is of another shape, or an integer has too many digits. -/
theorem call_of_rejected {kind : Clause.Kind} {args : List Value} {v : Value}
    (hv : v ∈ given args) (hnot : accepts kind v = false) (q : Query) (replace : Bool) :
    (∃ f shown, q.call (.clause kind replace) ⟨args, []⟩ = .error (.failure f) ∧
        f.Names kind shown) ∨
      (∃ w ∈ given args, w.isWritable = false) ∧
        q.call (.clause kind replace) ⟨args, []⟩ = .error .tooManyDigits := by
  rw [call_clause]
  rcases Clause.accepts_all_or_first kind (given args) with
    hall | ⟨front, w, back, hargs, hfront, hw⟩
  · rw [hall v hv] at hnot
    cases hnot
  · have happly : q.add kind args replace = .error (Clause.rejection kind (offence kind w)) :=
      derive_of_rejected hargs hfront hw q replace
    rw [happly]
    rcases Clause.offence_cases hw with ⟨hshown, -⟩ | ⟨hlong, hw⟩
    · rw [Clause.rejection, if_pos hshown]
      exact .inl ⟨_, _, rfl, rfl, rfl, rfl⟩
    · rw [Clause.rejection_of_not_isWritable kind hlong]
      exact .inr ⟨⟨w, by simp [hargs], hw⟩, rfl⟩

/-- No member of a list of properties to return or remove is looked at. -/
theorem mem_values_of_members {kind : Clause.Kind} (hkind : kind = .result ∨ kind = .removal)
    {replace : Bool} {key : Value} {items : List Value} {c : Clause}
    (h : Clause.ofArgument kind replace (.map [(key, .list items)]) = .ok c) {item : Value}
    (hitem : item ∈ items) : key.display ++ "." ++ item.display ∈ c.values := by
  obtain ⟨texts, htexts, rfl⟩ := map_eq_ok.1 h
  obtain ⟨-, names, hnames, rest, -, rfl⟩ := Clause.entriesTexts_cons_eq_ok.1 htexts
  have hwritten : (Value.list items).written (items.map fun i => key.display ++ "." ++ i.display) =
      .ok names := by
    rcases hkind with rfl | rfl <;> exact hnames
  obtain ⟨-, rfl⟩ := Value.written_eq_ok.1 hwritten
  exact List.mem_append_left _ (List.mem_map_of_mem hitem)

theorem call_of_members {kind : Clause.Kind} (hkind : kind = .result ∨ kind = .removal)
    (q : Query) (replace : Bool) (key : Value) {items : List Value} {item : Value}
    (hitem : item ∈ items) :
    (∃ clauses : List Clause, q.call (.clause kind replace) ⟨[.map [(key, .list items)]], []⟩ =
        .ok (q.append (clauses.map some)) ∧
      ∃ c ∈ clauses, key.display ++ "." ++ item.display ∈ c.values) ∨
    (Value.map [(key, .list items)]).isWritable = false ∧
      q.call (.clause kind replace) ⟨[.map [(key, .list items)]], []⟩ = .error .tooManyDigits := by
  have hshape : hasShape kind (.map [(key, .list items)]) := by
    rcases hkind with rfl | rfl <;> rfl
  have hopening : opening kind = [] := by
    rcases hkind with rfl | rfl <;> rfl
  have hgiven : given [.map [(key, .list items)]] = [] ++ .map [(key, .list items)] :: [] := rfl
  cases haccepts : accepts kind (.map [(key, .list items)]) with
  | true =>
    have hall : ∀ v ∈ given [.map [(key, .list items)]], accepts kind v := by
      simp [hgiven, haccepts]
    have hmem : .map [(key, .list items)] ∈ given [.map [(key, .list items)]] := by simp [hgiven]
    obtain ⟨clauses, hok, hmade⟩ := call_of_accepts hall q replace
    obtain ⟨c, hc, hown⟩ := Clause.exists_made_of_mem hmade hmem
    rw [hopening] at hok
    exact .inl ⟨clauses, hok, c, hc, mem_values_of_members hkind hown hitem⟩
  | false =>
    have happly := derive_of_rejected hgiven (by simp) haccepts q replace
    rcases Clause.offence_cases haccepts with ⟨-, hmisshapen⟩ | ⟨hlong, hmap⟩
    · rw [hshape] at hmisshapen
      cases hmisshapen
    · rw [Clause.rejection_of_not_isWritable kind hlong] at happly
      exact .inr ⟨hmap, happly⟩

/-- An object without a literal form in the arguments of a clause method makes the call fail exactly
if some argument is not accepted, which for arguments whose integers can all be written means that
it is of a shape that the kind does not take. Then the failure names the clause, unless an integer
has too many digits. Otherwise the text of the object stands in a value of the query. The members of
a list of properties to return or remove may be anything. -/
theorem rejected_iff_not_shown {x : Value} (hx : x.isUnsupported) {args : List Value}
    (h : x.Holds (.list args)) (q : Query) (kind : Clause.Kind) (replace : Bool) :
    ((∃ fault, q.call (.clause kind replace) ⟨args, []⟩ = .error fault) ↔
      ∃ v ∈ given args, accepts kind v = false) ∧
    ((∀ v ∈ given args, v.isWritable) →
      ((∃ f shown, q.call (.clause kind replace) ⟨args, []⟩ = .error (.failure f) ∧
        f.Names kind shown) ↔ ∃ v ∈ given args, hasShape kind v = false)) ∧
    (∀ fault, q.call (.clause kind replace) ⟨args, []⟩ = .error fault →
      (∃ f shown, fault = .failure f ∧ f.Names kind shown) ∨
        fault = .tooManyDigits ∧ ∃ v ∈ given args, v.isWritable = false) ∧
    ((∃ fault, q.call (.clause kind replace) ⟨args, []⟩ = .error fault) ↔
      ¬ ∃ clauses : List Clause, q.call (.clause kind replace) ⟨args, []⟩ =
          .ok (q.append (opening kind ++ clauses.map some)) ∧
        ∃ c ∈ clauses, ∃ s ∈ c.values, x.ShownIn s) ∧
    (kind = .result ∨ kind = .removal → ∀ key items, ∀ item ∈ items,
      (∃ clauses : List Clause, q.call (.clause kind replace) ⟨[.map [(key, .list items)]], []⟩ =
          .ok (q.append (clauses.map some)) ∧
        ∃ c ∈ clauses, key.display ++ "." ++ item.display ∈ c.values) ∨
      (Value.map [(key, .list items)]).isWritable = false ∧
        q.call (.clause kind replace) ⟨[.map [(key, .list items)]], []⟩ =
          .error .tooManyDigits) := by
  have hshown (hall : ∀ v ∈ given args, accepts kind v) :
      ∃ clauses : List Clause, q.call (.clause kind replace) ⟨args, []⟩ =
          .ok (q.append (opening kind ++ clauses.map some)) ∧
        ∃ c ∈ clauses, ∃ s ∈ c.values, x.ShownIn s := by
    obtain ⟨clauses, hok, hmade⟩ := call_of_accepts hall q replace
    obtain ⟨v, hv, hholds⟩ := Clause.exists_given_holds hx h
    obtain ⟨c, hc, hcv⟩ := Clause.exists_made_of_mem hmade hv
    exact ⟨clauses, hok, c, hc, Clause.exists_shown_ofArgument hx hholds hcv⟩
  have hsplit : (∀ v ∈ given args, accepts kind v) ∨ ∃ v ∈ given args, accepts kind v = false := by
    by_contra hneither
    simp only [not_or, not_exists, not_and, Bool.not_eq_false] at hneither
    exact hneither.1 hneither.2
  have hrejected {fault : Fault} (hfail : q.call (.clause kind replace) ⟨args, []⟩ = .error fault) :
      ∃ v ∈ given args, accepts kind v = false := by
    refine hsplit.resolve_left fun hall => ?_
    obtain ⟨clauses, hok, -⟩ := hshown hall
    rw [hok] at hfail
    cases hfail
  refine ⟨⟨fun ⟨fault, hfail⟩ => hrejected hfail, ?_⟩, fun hargs => ⟨?_, ?_⟩, ?_, ⟨?_, ?_⟩,
    fun hkind key items item hitem => call_of_members hkind q replace key hitem⟩
  · rintro ⟨v, hv, hnot⟩
    rcases call_of_rejected hv hnot q replace with ⟨f, shown, hfail, -⟩ | ⟨-, hfail⟩
    · exact ⟨_, hfail⟩
    · exact ⟨_, hfail⟩
  · rintro ⟨f, shown, hfail, -⟩
    obtain ⟨v, hv, hnot⟩ := hrejected hfail
    refine ⟨v, hv, Bool.eq_false_iff.2 fun hshape => ?_⟩
    rw [Clause.accepts_of_isWritable (hargs v hv) hshape] at hnot
    cases hnot
  · rintro ⟨v, hv, hmisshapen⟩
    have hnot : accepts kind v = false :=
      Bool.eq_false_iff.2 fun haccepts => by
        rw [Clause.hasShape_of_accepts haccepts] at hmisshapen
        cases hmisshapen
    refine (call_of_rejected hv hnot q replace).resolve_right ?_
    rintro ⟨⟨w, hw, hlong⟩, -⟩
    rw [hargs w hw] at hlong
    cases hlong
  · intro fault hfail
    obtain ⟨v, hv, hnot⟩ := hrejected hfail
    rcases call_of_rejected hv hnot q replace with ⟨f, shown, hnamed, hnames⟩ | ⟨hlong, hdigits⟩
    · rw [hfail] at hnamed
      exact .inl ⟨f, shown, Except.error.inj hnamed, hnames⟩
    · rw [hfail] at hdigits
      exact .inr ⟨Except.error.inj hdigits, hlong⟩
  · rintro ⟨fault, hfail⟩ ⟨clauses, hok, -⟩
    rw [hok] at hfail
    cases hfail
  · intro hnone
    obtain ⟨v, hv, hnot⟩ := hsplit.resolve_left fun hall => hnone (hshown hall)
    rcases call_of_rejected hv hnot q replace with ⟨f, shown, hfail, -⟩ | ⟨-, hfail⟩
    · exact ⟨_, hfail⟩
    · exact ⟨_, hfail⟩

/-- A day, which has no literal form. -/
def someDay : Value := .foreign "2020-01-01"

/-- A day among the directions of an ordering, in a mapping in a list. -/
def orderedByDay : List Value :=
  [.text "n.age", .list [.map [(.text "n", .tuple [.map [(.text "seen", .list [someDay])]])]]]

theorem someDay_shown :
    someDay.isUnsupported ∧ someDay.Holds (.list orderedByDay) ∧
    ∃ clauses : List Clause, (Query.mk none []).call (.clause .order false) ⟨orderedByDay, []⟩ =
        .ok ((Query.mk none []).append (opening .order ++ clauses.map some)) ∧
      ∃ c ∈ clauses, ∃ s ∈ c.values, someDay.ShownIn s := by
  have hholds : someDay.Holds (.list orderedByDay) :=
    .list (.tail _ (.head _)) (.list (.head _) (.entry (.head _) (.tuple (.head _)
      (.entry (.head _) (.list (.head _) .self)))))
  refine ⟨rfl, hholds, ?_⟩
  have hiff := (rejected_iff_not_shown (x := someDay) rfl hholds ⟨none, []⟩ .order false).2.2.2.1
  by_contra hnone
  obtain ⟨fault, hfail⟩ := hiff.2 hnone
  cases hfail

/-- A condition on a day is written with the text of the day, and a number is returned as if it were
the name of a property. -/
theorem someDay_not_rejected :
    ((Query.mk none []).call (.clause .condition false)
      ⟨[], [("n", .map [(.text "since", someDay)])]⟩).map text =
        .ok "WHERE n.since = 2020-01-01" ∧
    ((Query.mk none []).call (.clause .result false) ⟨[], [("n", .list [.int 1])]⟩).map text =
      .ok "RETURN n.1" :=
  ⟨rfl, rfl⟩

end Query
end GraphQuery
