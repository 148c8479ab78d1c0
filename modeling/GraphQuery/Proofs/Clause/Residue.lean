import GraphQuery.Proofs.Clause.Written
import GraphQuery.Proofs.Literal.Form
import GraphQuery.Query.Text

/-!
# What texts leave of a clause

Where a value is written as a literal, the contents of its texts and patterns stay within their
tokens: two mappings of one form give clauses that differ only in what the tokens say. Labels,
expressions and values without a literal form are written as they stand, and one that leaves a token
open lets the texts behind it out.
-/
namespace GraphQuery

open Text (Escapes)

variable {e : Escapes}

mutual

/-- Texts and patterns have no integers. -/
theorem Value.isWritable_form (v : Value) : v.form.isWritable = v.isWritable := by
  cases v with
  | list items => exact areWritable_forms items
  | tuple items => exact areWritable_forms items
  | map entries => exact areWritableEntries_entryForms entries
  | _ => rfl
termination_by structural v

theorem areWritable_forms (items : List Value) : areWritable (forms items) = areWritable items := by
  cases items with
  | nil => rfl
  | cons item items =>
    rw [forms, areWritable, areWritable, item.isWritable_form, areWritable_forms items]
termination_by structural items

theorem areWritableEntries_entryForms (entries : List (Value × Value)) :
    areWritableEntries (entryForms entries) = areWritableEntries entries := by
  cases entries with
  | nil => rfl
  | cons entry entries =>
    obtain ⟨key, v⟩ := entry
    rw [entryForms, areWritableEntries, areWritableEntries, v.isWritable_form,
      areWritableEntries_entryForms entries]
termination_by structural entries

end

namespace Clause

/-- The same fault, or texts that are masked alike. -/
inductive SameMasked (e : Escapes) :
    Except Fault (List String) → Except Fault (List String) → Prop
  | fault (fault : Fault) : SameMasked e (.error fault) (.error fault)
  | texts {texts others : List String} (h : List.Forall₂ e.Alike texts others) :
    SameMasked e (.ok texts) (.ok others)

namespace SameMasked

variable {x y x' y' : Except Fault (List String)}

theorem single {s t : String} (h : e.Alike s t) : SameMasked e (.ok [s]) (.ok [t]) :=
  .texts (.cons h .nil)

/-- Both are written or neither is. -/
theorem written {v w : Value} (hvw : w.isWritable = v.isWritable) {texts others : List String}
    (h : List.Forall₂ e.Alike texts others) :
    SameMasked e (v.written texts) (w.written others) := by
  rw [Value.written, Value.written, hvw]
  split
  · exact .texts h
  · exact .fault _

theorem append (h : SameMasked e x y) (h' : SameMasked e x' y') :
    SameMasked e (do return (← x) ++ (← x')) (do return (← y) ++ (← y')) := by
  cases h with
  | fault => exact .fault _
  | texts h =>
    cases h' with
    | fault => exact .fault _
    | texts h' => exact .texts (List.rel_append h h')

/-- What follows the same text. -/
theorem shown (name : Value) {f g : String → Except Fault (List String)}
    (h : SameMasked e (f name.display) (g name.display)) :
    SameMasked e (name.shown >>= f) (name.shown >>= g) := by
  rw [Value.shown, Value.written]
  split
  · exact h
  · exact .fault _

theorem map_eq {α : Type} {f : List String → α} (h : SameMasked e x y)
    (hf : ∀ {texts others}, List.Forall₂ e.Alike texts others → f texts = f others) :
    x.map f = y.map f := by
  cases h with
  | fault => rfl
  | texts h => exact congrArg Except.ok (hf h)

end SameMasked

/-! ## Conditions -/

theorem sealed_rangeText {key : String} (hkey : e.Sealed key) (p : Progression) :
    e.Sealed (rangeText key p) := by
  rw [rangeText]
  split
  · exact hkey.append (.of_not_mem (by simp))
  · simp only [String.append_assoc]
    refine hkey.append (.of_not_mem ?_)
    split <;> simp [Decimal.not_mem_intText]

mutual

theorem sameMasked_conditionTexts {key : String} (hkey : e.Sealed key) (v : Value)
    (h : v.Sealed e) : SameMasked e (conditionTexts key v) (conditionTexts key v.form) := by
  have hbehind {front s t : String} (hfront : '"' ∉ front.toList) (hst : e.Alike s t) :
      List.Forall₂ e.Alike [key ++ front ++ s] [key ++ front ++ t] :=
    .cons (((Escapes.Alike.refl hkey).append (.of_not_mem hfront)).append hst) .nil
  cases v with
  | map entries =>
    rw [Value.form, conditionTexts, conditionTexts]
    rw [Value.Sealed] at h
    exact sameMasked_conditionEntryTexts hkey entries h
  | range p =>
    rw [Value.form, conditionTexts, rangeCondition]
    split
    · exact .single (.refl (sealed_rangeText hkey p))
    · exact .fault _
  | null => exact .single ((Escapes.Alike.refl hkey).append (.of_not_mem (by simp)))
  | list items =>
    exact .written (Value.list items).isWritable_form
      (hbehind (by simp) ((Value.list items).alike_literal h))
  | tuple items =>
    exact .written (Value.tuple items).isWritable_form
      (hbehind (by simp) ((Value.list items).alike_literal h))
  | int n => exact .written rfl (hbehind (by simp) ((Value.int n).alike_literal h))
  | regex pattern => exact .texts (hbehind (by simp) (.textLiteral e pattern ""))
  | bool b => exact .texts (hbehind (by simp) ((Value.bool b).alike_literal h))
  | float x => exact .texts (hbehind (by simp) ((Value.float x).alike_literal h))
  | text s => exact .texts (hbehind (by simp) ((Value.text s).alike_literal h))
  | bytes data => exact .texts (hbehind (by simp) ((Value.bytes data).alike_literal h))
  | foreign label => exact .texts (hbehind (by simp) ((Value.foreign label).alike_literal h))
termination_by structural v

theorem sameMasked_conditionEntryTexts {key : String} (hkey : e.Sealed key)
    (entries : List (Value × Value)) (h : EntriesSealed e entries) :
    SameMasked e (conditionEntryTexts key entries)
      (conditionEntryTexts key (entryForms entries)) := by
  cases entries with
  | nil => exact .texts .nil
  | cons entry entries =>
    obtain ⟨name, v⟩ := entry
    rw [EntriesSealed] at h
    have hpath : e.Sealed (key ++ "." ++ name.display) :=
      (hkey.append (.of_not_mem (by simp))).append h.1
    exact .shown name ((sameMasked_conditionTexts hpath v h.2.1).append
      (sameMasked_conditionEntryTexts hkey entries h.2.2))
termination_by structural entries

end

/-! ## Entries -/

/-- The kinds of clauses to which a mapping under a variable gives properties. -/
def takesProperties : Kind → Bool
  | .pattern | .optionalPattern | .creation | .uniqueCreation | .merge | .assignment => true
  | _ => false

/-- Whether a clause writes the value of an entry as a literal, or its members as literals. Labels
and expressions are no literals. -/
def writesLiteral (kind : Kind) : Value → Bool
  | .map _ => kind = .condition || takesProperties kind
  | .list _ | .tuple _ => kind = .condition || kind = .unwind
  | _ => kind = .condition

/-- The entries with the texts at their literal positions emptied. -/
def formOf (kind : Kind) (entries : List (Value × Value)) : List (Value × Value) :=
  entries.map fun entry => (entry.1, if writesLiteral kind entry.2 then entry.2.form else entry.2)

/-- Nothing that is written as it stands leaves a token open: neither in a literal, nor where an
entry has none. -/
def EntrySealed (e : Escapes) (kind : Kind) (replace : Bool) (entry : Value × Value) : Prop :=
  if writesLiteral kind entry.2 then e.Sealed entry.1.display ∧ entry.2.Sealed e
  else ∀ texts, entryTexts kind replace entry.1.display entry.2 = .ok texts →
    ∀ text ∈ texts, e.Sealed text

theorem writesLiteral_cases {kind : Kind} {v : Value} (h : writesLiteral kind v) :
    kind = .condition ∨ (takesProperties kind ∧ ∃ entries, v = .map entries) ∨
      kind = .unwind ∧ ∃ items, v = .list items ∨ v = .tuple items := by
  cases v with
  | map entries =>
    simp only [writesLiteral, Bool.or_eq_true, decide_eq_true_eq] at h
    exact h.imp_right fun h => .inl ⟨h, _, rfl⟩
  | list items =>
    simp only [writesLiteral, Bool.or_eq_true, decide_eq_true_eq] at h
    exact h.imp_right fun h => .inr ⟨h, _, .inl rfl⟩
  | tuple items =>
    simp only [writesLiteral, Bool.or_eq_true, decide_eq_true_eq] at h
    exact h.imp_right fun h => .inr ⟨h, _, .inr rfl⟩
  | _ => exact .inl (of_decide_eq_true h)

theorem alike_nodeText {key : String} (hkey : e.Sealed key) (entries : List (Value × Value))
    (h : EntriesSealed e entries) : e.Alike (NodePattern.text ⟨key, [], entries⟩)
      (NodePattern.text ⟨key, [], entryForms entries⟩) := by
  have hname : e.Alike ("(" ++ key ++ "") ("(" ++ key ++ "") :=
    (Escapes.Alike.refl hkey).between (by simp) (by simp)
  have hclose : e.Alike ")" ")" := .of_not_mem (by simp)
  cases entries with
  | nil => exact (hname.append (.of_not_mem (by simp))).append hclose
  | cons entry entries =>
    have hmap := (Escapes.Alike.of_not_mem (s := " ") (by simp)).append (alike_propertyMap _ h)
    exact (hname.append hmap).append hclose

theorem alike_assignmentTexts {key : String} (hkey : e.Sealed key)
    (entries : List (Value × Value)) (h : EntriesSealed e entries) :
    List.Forall₂ e.Alike
      (entries.map fun entry => key ++ "." ++ entry.1.display ++ " = " ++ entry.2.literal)
      ((entryForms entries).map fun entry =>
        key ++ "." ++ entry.1.display ++ " = " ++ entry.2.literal) := by
  induction entries with
  | nil => exact .nil
  | cons entry entries ih =>
    obtain ⟨name, v⟩ := entry
    rw [EntriesSealed] at h
    have hpath : e.Sealed (key ++ "." ++ name.display ++ " = ") :=
      ((hkey.append (.of_not_mem (by simp))).append h.1).append (.of_not_mem (by simp))
    exact .cons ((Escapes.Alike.refl hpath).append (v.alike_literal h.2.1)) (ih h.2.2)

/-- Where a value is written as a literal, the entry gives texts that tell its form. -/
theorem sameMasked_entryTexts {kind : Kind} (replace : Bool) {key : String} {v : Value}
    (hv : writesLiteral kind v) (hkey : e.Sealed key) (h : v.Sealed e) :
    SameMasked e (entryTexts kind replace key v) (entryTexts kind replace key v.form) := by
  have halias {s t : String} (hst : e.Alike s t) :
      List.Forall₂ e.Alike [s ++ " AS " ++ key] [t ++ " AS " ++ key] :=
    .cons ((hst.append (.of_not_mem (by simp))).append (.refl hkey)) .nil
  rcases writesLiteral_cases hv with rfl | ⟨hkind, entries, rfl⟩ | ⟨rfl, items, rfl | rfl⟩
  · exact sameMasked_conditionTexts hkey v h
  · have hforms := (Value.map entries).isWritable_form
    have hproperties {front : String} (hfront : '"' ∉ front.toList) :
        e.Alike (key ++ front ++ propertyMap entries)
          (key ++ front ++ propertyMap (entryForms entries)) :=
      ((Escapes.Alike.refl hkey).append (.of_not_mem hfront)).append (alike_propertyMap entries h)
    cases kind with
    | assignment =>
      cases replace with
      | true => exact .written hforms (.cons (hproperties (by simp)) .nil)
      | false => exact .written hforms (alike_assignmentTexts hkey entries h)
    | pattern | optionalPattern | creation | uniqueCreation | merge =>
      simp only [entryTexts, nodeTexts, Value.form, NodePattern.build, Value.map_written]
      exact .written hforms (.cons (alike_nodeText hkey entries h) .nil)
    | _ => cases hkind
  · exact .written (Value.list items).isWritable_form
      (halias ((Value.list items).alike_literal h))
  · exact .written (Value.list items).isWritable_form
      (halias ((Value.list items).alike_literal h))

theorem writesLiteral_form (kind : Kind) (v : Value) :
    writesLiteral kind v.form = writesLiteral kind v := by
  cases v <;> rfl

theorem entrySealed_form {kind : Kind} {replace : Bool} {key v : Value}
    (hv : writesLiteral kind v) :
    EntrySealed e kind replace (key, v.form) ↔ EntrySealed e kind replace (key, v) := by
  rw [EntrySealed, EntrySealed, writesLiteral_form, if_pos hv, if_pos hv, v.sealed_form]

/-- Which entries leave a token open can be told from the form. -/
theorem entrySealed_formOf {kind : Kind} {replace : Bool} {entries : List (Value × Value)} :
    (∀ entry ∈ formOf kind entries, EntrySealed e kind replace entry) ↔
      ∀ entry ∈ entries, EntrySealed e kind replace entry := by
  rw [formOf, List.forall_mem_map]
  refine forall₂_congr fun entry _ => ?_
  split
  · next hv => exact entrySealed_form hv
  · exact Iff.rfl

theorem sameMasked_entriesTexts {kind : Kind} {replace : Bool} {entries : List (Value × Value)}
    (h : ∀ entry ∈ entries, EntrySealed e kind replace entry) :
    SameMasked e (entriesTexts kind replace entries)
      (entriesTexts kind replace (formOf kind entries)) := by
  induction entries with
  | nil => exact .texts .nil
  | cons entry entries ih =>
    obtain ⟨key, v⟩ := entry
    obtain ⟨hsealed, hrest⟩ := List.forall_mem_cons.1 h
    have hentry : SameMasked e (entryTexts kind replace key.display v)
        (entryTexts kind replace key.display (if writesLiteral kind v then v.form else v)) := by
      rw [EntrySealed] at hsealed
      by_cases hv : writesLiteral kind v
      · rw [if_pos hv] at hsealed ⊢
        exact sameMasked_entryTexts replace hv hsealed.1 hsealed.2
      · rw [if_neg hv] at hsealed ⊢
        cases htexts : entryTexts kind replace key.display v with
        | error fault => exact .fault fault
        | ok texts =>
          exact .texts (List.forall₂_same.2 fun text ht => .refl (hsealed texts htexts text ht))
    rw [formOf, List.map_cons, ← formOf]
    exact .shown key (hentry.append (ih hrest))

/-! ## Clauses -/

/-- What is left of the clause of a mapping, as it stands in a query, when the tokens in it are
emptied. -/
def residue (e : Escapes) (kind : Kind) (replace : Bool) (entries : List (Value × Value)) :
    Except Fault (Option String) :=
  (ofArguments kind replace [.map entries]).map fun clauses =>
    (groupText? clauses kind).map e.masked

theorem ofArguments_map (kind : Kind) (replace : Bool) {entries : List (Value × Value)}
    (h : entries ≠ []) : ofArguments kind replace [.map entries] =
      (entriesTexts kind replace entries).map fun texts => [⟨kind, texts⟩] := by
  have hargs : (flattenAll [.map entries]).filter hasContent = [.map entries] := by
    simp [flattenAll, flatten, hasContent, h]
  rw [ofArguments, hargs, ofEach, ofArgument, argumentTexts]
  cases entriesTexts kind replace entries <;> rfl

theorem residue_eq_map {kind : Kind} (replace : Bool) {entries : List (Value × Value)}
    (hkind : kind.lastOnly = false) (hentries : entries ≠ []) :
    residue e kind replace entries = (entriesTexts kind replace entries).map fun texts =>
      some (e.masked (kind.keyword ++ " " ++ Text.join kind.separator texts)) := by
  have hgroup (texts : List String) : groupText? [⟨kind, texts⟩] kind =
      some (kind.keyword ++ " " ++ Text.join kind.separator texts) := by
    simp [groupText?, valueText, hkind]
  rw [residue, ofArguments_map kind replace hentries]
  cases entriesTexts kind replace entries with
  | error fault => rfl
  | ok texts => simp only [Except.map, hgroup, Option.map_some]

theorem not_mem_keyword (kind : Kind) : '"' ∉ kind.keyword.toList := by
  cases kind <;> simp [Kind.keyword]

theorem not_mem_separator (kind : Kind) : '"' ∉ kind.separator.toList := by
  cases kind <;> simp [Kind.separator]

theorem formOf_of_lastOnly {kind : Kind} (h : kind.lastOnly) (entries : List (Value × Value)) :
    formOf kind entries = entries := by
  have hraw (v : Value) : writesLiteral kind v = false := by
    cases kind with
    | limit | skip => cases v <;> rfl
    | _ => cases h
  simp [formOf, hraw]

/-- The form of a mapping decides what is left of its clause. -/
theorem residue_formOf {kind : Kind} {replace : Bool} {entries : List (Value × Value)}
    (h : ∀ entry ∈ entries, EntrySealed e kind replace entry) :
    residue e kind replace entries = residue e kind replace (formOf kind entries) := by
  by_cases hlast : kind.lastOnly
  · rw [formOf_of_lastOnly hlast]
  by_cases hnil : entries = []
  · rw [hnil, formOf, List.map_nil]
  have hform : formOf kind entries ≠ [] := by simpa [formOf] using hnil
  rw [residue_eq_map replace (by simpa using hlast) hnil,
    residue_eq_map replace (by simpa using hlast) hform]
  refine (sameMasked_entriesTexts h).map_eq fun hall => ?_
  have hhead : e.Alike (kind.keyword ++ " ") (kind.keyword ++ " ") :=
    .of_not_mem (by simp [not_mem_keyword])
  have hbody := Escapes.Alike.join (.of_not_mem (not_mem_separator kind)) hall
  rw [(hhead.append hbody).masked_eq]

/-- Where values are written as literals, they are taken, and only an integer of too many digits
keeps them from being written. -/
theorem entryTexts_of_writesLiteral {kind : Kind} {v : Value} (hv : writesLiteral kind v)
    (replace : Bool) (key : String) :
    Decided (writes kind v) .tooManyDigits (entryTexts kind replace key v) := by
  rcases writesLiteral_cases hv with rfl | ⟨hkind, entries, rfl⟩ | ⟨rfl, items, rfl | rfl⟩
  · exact conditionTexts_decided key v
  · cases kind with
    | assignment => exact .written _ _
    | pattern | optionalPattern | creation | uniqueCreation | merge =>
      simp only [entryTexts, nodeTexts, NodePattern.build, Value.map_written]
      exact .written _ _
    | _ => cases hkind
  · exact .written _ _
  · exact .written _ _

theorem entriesTexts_of_writesLiteral {kind : Kind} (replace : Bool)
    {entries : List (Value × Value)} (h : ∀ entry ∈ entries, writesLiteral kind entry.2) :
    Decided (entries.all fun entry => entry.1.isWritable && writes kind entry.2) .tooManyDigits
      (entriesTexts kind replace entries) := by
  induction entries with
  | nil => exact .ok _
  | cons entry entries ih =>
    obtain ⟨hentry, hentries⟩ := List.forall_mem_cons.1 h
    rw [List.all_cons, Bool.and_assoc, entriesTexts]
    exact ((entryTexts_of_writesLiteral hentry replace entry.1.display).append
      (ih hentries)).shown

/-- A value beside a text in a list to unwind. -/
theorem residue_unwind (v name : Value) (s : String) :
    residue e .unwind false [(name, .list [v, .text s])] =
      if name.isWritable && v.isWritable then .ok (some (e.masked ("UNWIND [" ++
        (v.literal ++ ", " ++ textLiteral s ++ ("]" ++ " AS " ++ name.display)))))
      else .error .tooManyDigits := by
  have htexts : entriesTexts .unwind false [(name, .list [v, .text s])] =
      if name.isWritable && v.isWritable then
        .ok ["[" ++ (v.literal ++ ", " ++ textLiteral s) ++ "]" ++ " AS " ++ name.display]
      else .error .tooManyDigits := by
    cases hname : name.isWritable <;> cases hv : v.isWritable <;>
      simp [entriesTexts, Value.shown, Value.written, hname, hv, bind, Except.bind, entryTexts,
        Value.isWritable, areWritable, Value.literal, literals, Text.join, pure, Except.pure]
  rw [residue_eq_map _ rfl (List.cons_ne_nil _ _), htexts]
  split
  · simp only [Except.map]
    congr 3
    simp [← String.toList_inj, Kind.keyword, Text.join]
  · rfl

theorem sealed_literal_iff {v name : Value} (hname : e.Sealed name.display) :
    (name.isWritable → v.isWritable → e.Sealed v.literal) ↔
      ∀ s t, residue e .unwind false [(name, .list [v, .text s])] =
        residue e .unwind false [(name, .list [v, .text t])] := by
  cases hwritten : name.isWritable && v.isWritable with
  | false =>
    have hnot : ¬ (name.isWritable ∧ v.isWritable) := by simpa using hwritten
    simp only [residue_unwind, hwritten, Bool.false_eq_true, if_false, implies_true, iff_true]
    exact fun h h' => absurd ⟨h, h'⟩ hnot
  | true =>
    obtain ⟨hn, hv⟩ := Bool.and_eq_true_iff.1 hwritten
    refine ⟨fun h s t => ?_, fun h _ _ => by_contra fun hopen => ?_⟩
    · have hcomma : e.Alike ", " ", " := .of_not_mem (by simp)
      have hvalue := (Escapes.Alike.refl (h hn hv)).append hcomma
      have htail : e.Alike ("]" ++ " AS " ++ name.display) ("]" ++ " AS " ++ name.display) :=
        (Escapes.Alike.of_not_mem (by simp)).append (.refl hname)
      have hfront : e.Alike "UNWIND [" "UNWIND [" := .of_not_mem (by simp)
      have hlist := (hvalue.append (.textLiteral e s t)).append htail
      rw [residue_unwind, residue_unwind, (hfront.append hlist).masked_eq]
    · have heq := h "x" "y"
      simp only [residue_unwind, hwritten, if_true] at heq
      exact e.masked_ne_of_not_sealed hopen (by simp) _ (Option.some.inj (Except.ok.inj heq))

/-- Clauses of mappings that differ only in the contents of texts and patterns at literal positions
differ only in what their tokens say, as long as nothing that is written as it stands leaves a token
open. Values of the kinds that have a literal never do, and a mapping that has only literal
positions is never rejected, unless an integer in it has too many digits. A value that is written
and leaves a token open lets the text behind it out. -/
theorem residue_eq_of_formOf_eq (e : Escapes) :
    (∀ (kind : Kind) (replace : Bool) (entries others : List (Value × Value)),
      (∀ entry ∈ entries, EntrySealed e kind replace entry) →
      formOf kind entries = formOf kind others →
        residue e kind replace entries = residue e kind replace others) ∧
    (∀ (kind : Kind) (replace : Bool) (entry : Value × Value), writesLiteral kind entry.2 →
      '"' ∉ entry.1.display.toList → entry.2.isLiteral → EntrySealed e kind replace entry) ∧
    (∀ (kind : Kind) (replace : Bool) (entries : List (Value × Value)),
      (∀ entry ∈ entries, writesLiteral kind entry.2) →
        (∃ clauses, ofArguments kind replace [.map entries] = .ok clauses) ∨
          ofArguments kind replace [.map entries] = .error .tooManyDigits ∧
            (Value.map entries).isWritable = false) ∧
    ∀ v name : Value, e.Sealed name.display →
      ((name.isWritable → v.isWritable → e.Sealed v.literal) ↔ ∀ s t,
        residue e .unwind false [(name, .list [v, .text s])] =
          residue e .unwind false [(name, .list [v, .text t])]) := by
  refine ⟨fun kind replace entries others h hform => ?_, fun kind replace entry hv hkey hvalue => ?_,
    fun kind replace entries h => ?_, fun v name => sealed_literal_iff⟩
  · have hothers : ∀ entry ∈ others, EntrySealed e kind replace entry := by
      rw [← entrySealed_formOf, ← hform, entrySealed_formOf]
      exact h
    rw [residue_formOf h, hform, ← residue_formOf hothers]
  · rw [EntrySealed, if_pos hv]
    exact ⟨.of_not_mem hkey, entry.2.sealed_of_isLiteral hvalue⟩
  · by_cases hnil : entries = []
    · rw [hnil]
      exact .inl ⟨[], rfl⟩
    rw [ofArguments_map kind replace hnil]
    have hdecided := entriesTexts_of_writesLiteral replace h
    cases hall : entries.all fun entry => entry.1.isWritable && writes kind entry.2 with
    | true =>
      obtain ⟨texts, htexts⟩ := hdecided.texts hall
      exact .inl ⟨[⟨kind, texts⟩], by rw [htexts]; rfl⟩
    | false =>
      refine .inr ⟨by rw [hdecided.fault hall]; rfl, Bool.eq_false_iff.2 fun hw => ?_⟩
      rw [List.all_eq_true.2 fun entry he =>
        Bool.and_eq_true_iff.2 (writes_of_areWritableEntries kind hw entry he)] at hall
      cases hall

/-- A condition on a text, a pattern and texts in a list. -/
def condition (name pattern tag : String) : List (Value × Value) :=
  [(.text "n", .map [(.text "name", .text name), (.text "title", .regex pattern),
    (.text "tags", .list [.text tag, .null])])]

theorem residue_condition :
    residue default .condition false (condition "a\" OR n.age = 1 OR \"" "\\" "\", \"") =
      residue default .condition false (condition "Ann" "A.*" "b") ∧
    (∃ clauses, ofArguments .condition false [.map (condition "a\"" "\\" "\\\"")] =
      .ok clauses) ∧
    residue default .unwind false [(.text "n", .list [.int 1, .text "\\\""])] =
      residue default .unwind false [(.text "n", .list [.int 1, .text "b"])] := by
  obtain ⟨hform, hsealed, hok, hliteral⟩ := residue_eq_of_formOf_eq default
  refine ⟨hform _ _ _ _ (fun entry h => ?_) rfl,
    (hok _ _ _ fun entry h => ?_).resolve_right fun h => absurd h.2 (by decide),
    (hliteral _ _ (.of_not_mem (by decide))).1 (fun _ _ => .of_not_mem (by decide)) _ _⟩
  · obtain rfl := List.mem_singleton.1 h
    exact hsealed _ _ _ rfl (by decide) rfl
  · obtain rfl := List.mem_singleton.1 h
    rfl

/-- A text in a list behind an object that is shown with a double quote. -/
def shadowed (s : String) : List (Value × Value) :=
  [(.text "n", .list [.foreign "a\"b", .text s])]

/-- A text among properties behind a label with a double quote. -/
def labelled (s : String) : List (Value × Value) :=
  [(.text "n", .text "a\"b"), (.text "m", .map [(.text "tags", .list [.null, .text s])])]

theorem residue_labelled (s : String) : residue e .pattern false (labelled s) =
    .ok (some (e.masked ("MATCH (n:" ++
      ("a\"b), (m \x7btags: [null" ++ ", " ++ textLiteral s ++ "]\x7d)")))) := by
  have hnode : NodePattern.text ⟨"m", [], [(.text "tags", .list [.null, .text s])]⟩ =
      "(m \x7btags: [null, " ++ textLiteral s ++ "]\x7d)" := by
    simp [NodePattern.text, NodePattern.labelText, propertyMap, propertyTexts, Value.literal,
      literals, Value.display, Text.join, ← String.toList_inj]
  have htexts : entriesTexts .pattern false (labelled s) =
      .ok ["(n:a\"b)", "(m \x7btags: [null, " ++ textLiteral s ++ "]\x7d)"] := by
    rw [← hnode]
    rfl
  have hentries : labelled s ≠ [] := List.cons_ne_nil _ _
  rw [residue_eq_map _ rfl hentries, htexts]
  simp only [Except.map]
  congr 3

theorem not_masked_behind_quote :
    (formOf .unwind (shadowed "x") = formOf .unwind (shadowed "y") ∧
      residue default .unwind false (shadowed "x") ≠
        residue default .unwind false (shadowed "y")) ∧
    formOf .pattern (labelled "x") = formOf .pattern (labelled "y") ∧
      residue default .pattern false (labelled "x") ≠
        residue default .pattern false (labelled "y") := by
  have hopen (back : String) (hquote : '"' ∉ back.toList) (hbackslash : '\\' ∉ back.toList) :
      ¬ Escapes.Sealed default ("a\"" ++ back) := by
    have hchars : String.ofList (['a'] ++ '"' :: back.toList) = "a\"" ++ back := by
      simp [← String.toList_inj]
    rw [← hchars]
    exact Escapes.not_sealed_of_quote (by simp) hquote hbackslash
  refine ⟨⟨rfl, fun h => ?_⟩, rfl, fun h => ?_⟩
  · rw [shadowed, residue_unwind, shadowed, residue_unwind] at h
    have hvalue := hopen "b" (by simp) (by simp)
    exact Escapes.masked_ne_of_not_sealed default hvalue (by simp) _
      (Option.some.inj (Except.ok.inj h))
  · rw [residue_labelled, residue_labelled] at h
    have hlabel := hopen "b), (m \x7btags: [null" (by simp) (by simp)
    exact Escapes.masked_ne_of_not_sealed default hlabel (by simp) _
      (Option.some.inj (Except.ok.inj h))

end GraphQuery.Clause
