import GraphQuery.Proofs.Decimal.Integer
import GraphQuery.Proofs.Query.Calls

/-!
# Hollow arguments

An argument is hollow when it gives no text: an empty text, an empty mapping, or a mapping whose
entries give nothing for the kind of clause it is meant for. Empty texts and empty mappings are
passed over. Any other hollow mapping makes a clause without values, which is found in the text
only where no clause of its kind in its part has one: there the keyword stands alone.
-/
namespace GraphQuery

/-! ## Values that give nothing -/

mutual

/-- A mapping that holds only mappings of this sort. -/
def Value.isLeafless : Value → Bool
  | .map entries => leaflessEntries entries
  | _ => false
termination_by structural v => v

def leaflessEntries : List (Value × Value) → Bool
  | [] => true
  | (_, v) :: entries => v.isLeafless && leaflessEntries entries
termination_by structural entries => entries

end

mutual

/-- An empty mapping, or a list of nothing else. -/
def Value.ordersNothing : Value → Bool
  | .map entries => entries.isEmpty
  | .list items => orderNothing items
  | .tuple items => orderNothing items
  | _ => false
termination_by structural v => v

def orderNothing : List Value → Bool
  | [] => true
  | v :: vs => v.ordersNothing && orderNothing vs
termination_by structural vs => vs

end

def Value.isEmptyMap : Value → Bool
  | .map entries => entries.isEmpty
  | _ => false

def Value.isEmptyList : Value → Bool
  | .list items | .tuple items => items.isEmpty
  | _ => false

namespace Clause

/-- Whether an entry of a mapping gives no text to a clause. -/
def givesNothing (kind : Kind) (replace : Bool) (v : Value) : Bool :=
  match kind with
  | .condition => v.isLeafless
  | .assignment => !replace && v.isEmptyMap
  | .removal | .result => v.isEmptyList
  | .order => v.ordersNothing
  | _ => false

/-- Whether an argument gives no text to a clause. -/
def isHollow (kind : Kind) (replace : Bool) : Value → Bool
  | .text s => s == ""
  | .map entries => entries.all fun entry => givesNothing kind replace entry.2
  | _ => false

/-! ## Texts of entries -/

/-- There is no text exactly if nothing is given, and no text is empty. -/
def Gives (nothing : Bool) (texts : List String) : Prop := (texts = [] ↔ nothing) ∧ "" ∉ texts

theorem Gives.append {nothing nothing' : Bool} {texts texts' : List String}
    (h : Gives nothing texts) (h' : Gives nothing' texts') :
    Gives (nothing && nothing') (texts ++ texts') := by
  rw [Gives, List.append_eq_nil_iff, Bool.and_eq_true, h.1, h'.1, List.mem_append, not_or]
  exact ⟨Iff.rfl, h.2, h'.2⟩

theorem Gives.single {s : String} (h : s ≠ "") : Gives false [s] := by
  simpa [Gives] using h.symm

theorem rangeText_ne_empty (key : String) (p : Progression) : rangeText key p ≠ "" := by
  rw [rangeText]
  split <;> simp [String.append_eq_empty_iff]

mutual

theorem conditionTexts_spec (key : String) (v : Value) {texts : List String}
    (h : conditionTexts key v = .ok texts) : Gives v.isLeafless texts := by
  cases v with
  | map entries => exact conditionEntryTexts_spec key entries h
  | range p =>
    obtain ⟨text, htext, rfl⟩ := map_eq_ok.1 h
    obtain ⟨-, rfl⟩ := rangeCondition_eq_ok.1 htext
    exact .single (rangeText_ne_empty key p)
  | list | tuple | int =>
    obtain ⟨-, rfl⟩ := Value.written_eq_ok.1 h
    exact .single (by simp [String.append_eq_empty_iff])
  | _ =>
    cases h
    exact .single (by simp [String.append_eq_empty_iff])
termination_by structural v

theorem conditionEntryTexts_spec (key : String) (entries : List (Value × Value))
    {texts : List String} (h : conditionEntryTexts key entries = .ok texts) :
    Gives (leaflessEntries entries) texts := by
  cases entries with
  | nil =>
    cases h
    simp [Gives, leaflessEntries]
  | cons entry entries =>
    obtain ⟨name, v⟩ := entry
    obtain ⟨-, first, hfirst, rest, hrest, rfl⟩ := conditionEntryTexts_cons_eq_ok.1 h
    exact (conditionTexts_spec _ v hfirst).append (conditionEntryTexts_spec key entries hrest)
termination_by structural entries

end

mutual

theorem orderTexts_spec (key : String) (v : Value) {texts : List String}
    (h : orderTexts key v = .ok texts) : Gives v.ordersNothing texts := by
  cases v with
  | text name =>
    cases h
    exact .single (by simp [String.append_eq_empty_iff])
  | map entries =>
    obtain ⟨-, rfl⟩ := Value.written_eq_ok.1 h
    simp [Gives, Value.ordersNothing, String.append_eq_empty_iff]
  | list items => exact orderItemTexts_spec key items h
  | tuple items => exact orderItemTexts_spec key items h
  | _ => cases h
termination_by structural v

theorem orderItemTexts_spec (key : String) (items : List Value) {texts : List String}
    (h : orderItemTexts key items = .ok texts) : Gives (orderNothing items) texts := by
  cases items with
  | nil =>
    cases h
    simp [Gives, orderNothing]
  | cons item items =>
    obtain ⟨first, hfirst, rest, hrest, rfl⟩ := orderItemTexts_cons_eq_ok.1 h
    exact (orderTexts_spec key item hfirst).append (orderItemTexts_spec key items hrest)
termination_by structural items

end

theorem exists_pattern_of_nodeTexts {kind : Kind} {key : String} {v : Value}
    {texts : List String} (h : nodeTexts kind key v = .ok texts) :
    ∃ p : NodePattern, texts = [p.text] := by
  rw [nodeTexts.eq_def] at h
  split at h
  · cases h
    exact ⟨_, rfl⟩
  · split at h <;> cases h
    exact ⟨_, rfl⟩
  · split at h <;> cases h
    exact ⟨_, rfl⟩
  · obtain ⟨text, htext, rfl⟩ := map_eq_ok.1 h
    obtain ⟨-, rfl⟩ := Value.written_eq_ok.1 htext
    exact ⟨_, rfl⟩
  · cases h

theorem nodeTexts_spec {kind : Kind} {key : String} {v : Value} {texts : List String}
    (h : nodeTexts kind key v = .ok texts) : Gives false texts := by
  obtain ⟨p, rfl⟩ := exists_pattern_of_nodeTexts h
  exact .single (by simp [NodePattern.text, String.append_eq_empty_iff])

theorem assignmentTexts_spec {replace : Bool} {key : String} {v : Value} {texts : List String}
    (h : assignmentTexts replace key v = .ok texts) :
    Gives (!replace && v.isEmptyMap) texts := by
  cases v with
  | text label =>
    cases h
    simp [Gives, Value.isEmptyMap, String.append_eq_empty_iff]
  | map entries =>
    obtain ⟨-, rfl⟩ := Value.written_eq_ok.1 h
    cases replace <;>
      simp [Gives, Value.isEmptyMap, String.append_eq_empty_iff]
  | _ => cases h

theorem propertyNames_spec {kind : Kind} {key : String} {v : Value} {texts : List String}
    (h : propertyNames kind key v = .ok texts) : Gives v.isEmptyList texts := by
  cases v with
  | text =>
    cases h
    exact .single (by simp [String.append_eq_empty_iff])
  | list | tuple =>
    obtain ⟨-, rfl⟩ := Value.written_eq_ok.1 h
    simp [Gives, Value.isEmptyList, String.append_eq_empty_iff]
  | _ => cases h

/-- An entry gives texts that are not empty, and none at all exactly if it gives nothing. -/
theorem entryTexts_spec {kind : Kind} {replace : Bool} {key : String} {v : Value}
    {texts : List String} (h : entryTexts kind replace key v = .ok texts) :
    Gives (givesNothing kind replace v) texts := by
  cases kind with
  | condition => exact conditionTexts_spec key v h
  | order => exact orderTexts_spec key v h
  | assignment => exact assignmentTexts_spec h
  | removal | result => exact propertyNames_spec h
  | pattern | optionalPattern | creation | uniqueCreation | merge => exact nodeTexts_spec h
  | hint | deletion | limit | skip => cases h
  | start | carry =>
    cases v with
    | text s =>
      cases h
      exact .single (by simp [String.append_eq_empty_iff])
    | _ => cases h
  | unwind =>
    cases v with
    | text =>
      cases h
      exact .single (by simp [String.append_eq_empty_iff])
    | list | tuple =>
      obtain ⟨-, rfl⟩ := Value.written_eq_ok.1 h
      exact .single (by simp [String.append_eq_empty_iff])
    | _ => cases h

/-! ## Texts of arguments -/

theorem hasContent_of_not_isHollow {kind : Kind} {replace : Bool} {v : Value}
    (h : isHollow kind replace v = false) : hasContent v := by
  cases v with
  | text s => simpa [isHollow, hasContent] using h
  | map entries =>
    cases entries with
    | nil => simp [isHollow] at h
    | cons => rfl
  | _ => rfl

theorem entriesTexts_spec {kind : Kind} {replace : Bool} {entries : List (Value × Value)}
    {texts : List String} (h : entriesTexts kind replace entries = .ok texts) :
    Gives (isHollow kind replace (.map entries)) texts := by
  induction entries generalizing texts with
  | nil =>
    cases h
    simp [Gives, isHollow]
  | cons entry entries ih =>
    obtain ⟨-, first, hfirst, rest, hrest, rfl⟩ := entriesTexts_cons_eq_ok.1 h
    exact (entryTexts_spec hfirst).append (ih hrest)

theorem argumentTexts_spec {kind : Kind} {replace : Bool} {v : Value} {texts : List String}
    (hcontent : hasContent v) (h : argumentTexts kind replace v = .ok texts) :
    Gives (isHollow kind replace v) texts := by
  cases v with
  | text s =>
    cases h
    have hs : s ≠ "" := by simpa [hasContent] using hcontent
    exact ⟨by simp [isHollow, hs], by simpa using hs.symm⟩
  | int n =>
    rw [argumentTexts] at h
    split at h
    · obtain ⟨-, rfl⟩ := Value.written_eq_ok.1 h
      exact .single (Decimal.intText_ne_empty n)
    · cases h
  | map entries => exact entriesTexts_spec h
  | _ => cases h

/-- The clause of an argument has values, none of them empty, unless the argument is hollow. -/
theorem values_of_ofArgument {kind : Kind} {replace : Bool} {v : Value} {c : Clause}
    (hcontent : hasContent v) (h : ofArgument kind replace v = .ok c) :
    Gives (isHollow kind replace v) c.values := by
  obtain ⟨texts, htexts, rfl⟩ := map_eq_ok.1 h
  exact argumentTexts_spec hcontent htexts

/-! ## Arguments that are left out -/

def hasValues (c : Clause) : Bool := !c.values.isEmpty

/-- Without the hollow arguments the clauses are those that have values. -/
theorem ofEach_filter {kind : Kind} {replace : Bool} {args : List Value} {clauses : List Clause}
    (hcontent : ∀ v ∈ args, hasContent v) (h : ofEach kind replace args = .ok clauses) :
    ofEach kind replace (args.filter fun v => !isHollow kind replace v) =
      .ok (clauses.filter hasValues) := by
  rw [ofEach_eq_ok_iff] at h ⊢
  induction h with
  | nil => exact .nil
  | @cons v c args clauses hmade _ ih =>
    obtain ⟨hv, hargs⟩ := List.forall_mem_cons.1 hcontent
    obtain ⟨hnil, -⟩ := values_of_ofArgument hv hmade
    by_cases hhollow : isHollow kind replace v
    · have hc : hasValues c = false := by simp [hasValues, hnil.2 hhollow]
      rw [List.filter_cons_of_neg (by simp [hhollow]), List.filter_cons_of_neg (by simp [hc])]
      exact ih hargs
    · have hc : hasValues c = true := by
        simpa [hasValues, List.isEmpty_iff, hnil] using hhollow
      rw [List.filter_cons_of_pos (by simp [hhollow]), List.filter_cons_of_pos hc]
      exact .cons hmade (ih hargs)

mutual

theorem flatten_of_mem_flatten {v w : Value} (h : w ∈ flatten v) : flatten w = [w] := by
  cases v with
  | list items | tuple items => exact flatten_of_mem_flattenAll h
  | _ =>
    rw [List.mem_singleton.1 h]
    rfl
termination_by structural v

theorem flatten_of_mem_flattenAll {vs : List Value} {w : Value} (h : w ∈ flattenAll vs) :
    flatten w = [w] := by
  cases vs with
  | nil => cases h
  | cons v vs =>
    rw [flattenAll, List.mem_append] at h
    rcases h with h | h
    · exact flatten_of_mem_flatten h
    · exact flatten_of_mem_flattenAll h
termination_by structural vs

end

/-- What is flat already stays as it is. -/
theorem flattenAll_eq_self {vs : List Value} (h : ∀ v ∈ vs, flatten v = [v]) :
    flattenAll vs = vs := by
  induction vs with
  | nil => rfl
  | cons v vs ih =>
    rw [flattenAll, h v (by simp), ih fun w hw => h w (List.mem_cons_of_mem _ hw),
      List.singleton_append]

/-- The arguments that give some text, without the lists around them. -/
def contributing (kind : Kind) (replace : Bool) (args : List Value) : List Value :=
  (flattenAll args).filter fun v => !isHollow kind replace v

theorem ofArguments_contributing {kind : Kind} {replace : Bool} {args : List Value}
    {clauses : List Clause} (h : ofArguments kind replace args = .ok clauses) :
    ofArguments kind replace (contributing kind replace args) =
      .ok (clauses.filter hasValues) := by
  have hflat : flattenAll (contributing kind replace args) = contributing kind replace args :=
    flattenAll_eq_self fun v hv => flatten_of_mem_flattenAll (List.mem_filter.1 hv).1
  have hargs := ofEach_filter (fun _ hv => (List.mem_filter.1 hv).2) h
  rw [ofArguments, hflat, ← hargs]
  congr 1
  -- an argument without content is hollow
  rw [contributing, List.filter_filter, List.filter_filter]
  refine List.filter_congr fun v _ => ?_
  cases hv : isHollow kind replace v with
  | true => simp
  | false => simp [hasContent_of_not_isHollow hv]

theorem values_of_ofArguments {kind : Kind} {replace : Bool} {args : List Value}
    {clauses : List Clause} (h : ofArguments kind replace args = .ok clauses) {c : Clause}
    (hc : c ∈ clauses) : ∃ v ∈ (flattenAll args).filter hasContent,
      Gives (isHollow kind replace v) c.values := by
  obtain ⟨v, hv, hmade⟩ := exists_argument_of_mem h hc
  exact ⟨v, hv, values_of_ofArgument (List.mem_filter.1 hv).2 hmade⟩

/-- Kinds for which every entry gives some text. -/
def Kind.alwaysGives : Kind → Bool
  | .condition | .assignment | .removal | .result | .order => false
  | _ => true

theorem isHollow_of_alwaysGives {kind : Kind} (hkind : kind.alwaysGives) {replace : Bool} {v : Value}
    (hv : hasContent v) : isHollow kind replace v = false := by
  cases v with
  | text s => simpa [isHollow, hasContent] using hv
  | map entries =>
    cases entries with
    | nil => cases hv
    | cons => cases kind <;> cases hkind <;> rfl
  | _ => rfl

end Clause

end GraphQuery
