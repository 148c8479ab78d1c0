import GraphQuery.Proofs.Query.Segments

/-!
# Accepted arguments

A clause is made of a text, of an integer where rows are counted, or of a mapping whose values all
fit the kind, and the shape of a value decides whether it fits. A call adds one clause for each
argument that has content, or fails with the first one of another shape.
-/
namespace GraphQuery

/-! ## Shapes of values -/

namespace Value

def isText : Value → Bool
  | .text _ => true
  | _ => false

def isMap : Value → Bool
  | .map _ => true
  | _ => false

def isSequence : Value → Bool
  | .list _ | .tuple _ => true
  | _ => false

/-- A list or tuple of nothing but texts. -/
def isTextSequence : Value → Bool
  | .list items | .tuple items => items.all isText
  | _ => false

end Value

mutual

/-- A text, a mapping, or a list or tuple of nothing but values of this sort. -/
def Value.isOrdering : Value → Bool
  | .text _ => true
  | .map _ => true
  | .list items => areOrderings items
  | .tuple items => areOrderings items
  | _ => false
termination_by structural v => v

def areOrderings : List Value → Bool
  | [] => true
  | v :: vs => v.isOrdering && areOrderings vs
termination_by structural vs => vs

end

mutual

/-- The first part that keeps a value from being written as an ordering, at any depth of its lists:
one that is no ordering, or a mapping that cannot be written. -/
def Value.flaw? : Value → Option Value
  | .text _ => none
  | .map entries => if areWritableEntries entries then none else some (.map entries)
  | .list items => firstFlaw? items
  | .tuple items => firstFlaw? items
  | v => some v
termination_by structural v => v

def firstFlaw? : List Value → Option Value
  | [] => none
  | v :: vs => v.flaw?.or (firstFlaw? vs)
termination_by structural vs => vs

end

mutual

theorem flaw?_eq_none_iff (v : Value) : v.flaw? = none ↔ v.isOrdering ∧ v.isWritable := by
  cases v with
  | text => simp [Value.flaw?, Value.isOrdering]
  | map entries => simp [Value.flaw?, Value.isOrdering, Value.isWritable]
  | list items => exact firstFlaw?_eq_none_iff items
  | tuple items => exact firstFlaw?_eq_none_iff items
  | _ => simp [Value.flaw?, Value.isOrdering]
termination_by structural v

theorem firstFlaw?_eq_none_iff (items : List Value) :
    firstFlaw? items = none ↔ areOrderings items ∧ areWritable items := by
  cases items with
  | nil => simp [firstFlaw?, areOrderings, areWritable]
  | cons item items =>
    rw [firstFlaw?, Option.or_eq_none_iff, flaw?_eq_none_iff item, firstFlaw?_eq_none_iff items,
      areOrderings, areWritable, Bool.and_eq_true, Bool.and_eq_true]
    exact and_and_and_comm
termination_by structural items

end

mutual

/-- Of a value that can be written a flaw can be too, and of an ordering it cannot. -/
theorem isWritable_flaw {v w : Value} (h : v.flaw? = some w) :
    (v.isWritable → w.isWritable) ∧ (v.isOrdering → w.isWritable = false) := by
  cases v with
  | text => cases h
  | map entries =>
    obtain ⟨hentries, rfl⟩ : areWritableEntries entries = false ∧ Value.map entries = w := by
      simpa [Value.flaw?] using h
    exact ⟨id, fun _ => hentries⟩
  | list items => exact areWritable_firstFlaw h
  | tuple items => exact areWritable_firstFlaw h
  | _ =>
    cases h
    exact ⟨id, fun hordering => absurd hordering (by simp [Value.isOrdering])⟩
termination_by structural v

theorem areWritable_firstFlaw {items : List Value} {w : Value} (h : firstFlaw? items = some w) :
    (areWritable items → w.isWritable) ∧ (areOrderings items → w.isWritable = false) := by
  cases items with
  | nil => cases h
  | cons item items =>
    rw [areWritable, areOrderings, Bool.and_eq_true, Bool.and_eq_true]
    rw [firstFlaw?, Option.or_eq_some_iff] at h
    rcases h with h | ⟨-, h⟩
    · exact (isWritable_flaw h).imp (fun hw hwritable => hw hwritable.1)
        fun hw hordering => hw hordering.1
    · exact (areWritable_firstFlaw h).imp (fun hw hwritable => hw hwritable.2)
        fun hw hordering => hw hordering.2
termination_by structural items

end

namespace Clause

/-- Whether a clause of the kind takes the value under a variable. -/
def fits (kind : Kind) (v : Value) : Bool :=
  match kind with
  | .pattern | .optionalPattern | .creation | .uniqueCreation | .merge =>
    v.isText || v.isTextSequence || v.isMap
  | .start | .carry => v.isText
  | .condition => true
  | .assignment => v.isText || v.isMap
  | .removal | .result | .unwind => v.isText || v.isSequence
  | .order => v.isOrdering
  | .hint | .deletion | .limit | .skip => false

/-- Whether clauses of the kind are made of arguments of this shape. -/
def hasShape (kind : Kind) : Value → Bool
  | .text _ => true
  | .int _ => kind = .limit || kind = .skip
  | .map entries => entries.all fun entry => fits kind entry.2
  | _ => false

/-- Whether a clause of the kind can be made with the entry, written as it is. -/
def takes (kind : Kind) (entry : Value × Value) : Bool :=
  entry.1.isWritable && fits kind entry.2 && writes kind entry.2

/-- Whether a clause of the kind can be made of the argument. -/
def accepts (kind : Kind) : Value → Bool
  | .text _ => true
  | .int n => (kind = .limit || kind = .skip) && writable n
  | .map entries => entries.all (takes kind)
  | _ => false

/-- The part of a value that its failure shows: for ORDER BY the first one at fault. -/
def blamed (kind : Kind) (v : Value) : Value := if kind = .order then v.flaw?.getD v else v

/-- What the failure of an entry shows. A key that cannot be written stays as it is, so that there
is no failure that shows it. -/
def entryOffence (kind : Kind) (entry : Value × Value) : Value :=
  .map [(if entry.1.isWritable then .text entry.1.display else entry.1, blamed kind entry.2)]

/-- What the failure of an argument that is not accepted shows: the argument itself, or the first
entry of a mapping that is not taken. -/
def offence (kind : Kind) : Value → Value
  | .map entries =>
    match entries.find? fun entry => !takes kind entry with
    | some entry => entryOffence kind entry
    | none => .map entries
  | v => v

/-- The arguments that have content, without the lists around them. -/
def given (args : List Value) : List Value := (flattenAll args).filter hasContent

theorem flattenAll_append (args more : List Value) :
    flattenAll (args ++ more) = flattenAll args ++ flattenAll more := by
  induction args with
  | nil => rfl
  | cons v args ih => rw [List.cons_append, flattenAll, flattenAll, ih, List.append_assoc]

theorem given_append (args more : List Value) :
    given (args ++ more) = given args ++ given more := by
  rw [given, flattenAll_append, List.filter_append, given, given]

/-! ## Texts of accepted arguments -/

theorem isSome_labels? (items : List Value) : (labels? items).isSome = items.all Value.isText := by
  induction items with
  | nil => rfl
  | cons item items ih =>
    cases item with
    | text label => simpa [labels?, Value.isText] using ih
    | _ => rfl

theorem isWritable_of_isText {v : Value} (h : v.isText) : v.isWritable := by
  cases v with
  | text => rfl
  | _ => cases h

theorem areWritable_of_isText {items : List Value} (h : items.all Value.isText) :
    areWritable items :=
  areWritable_iff.2 fun item hitem => isWritable_of_isText (List.all_eq_true.1 h item hitem)

theorem rejection_of_not_isWritable (kind : Kind) {v : Value} (h : v.isWritable = false) :
    rejection kind v = .tooManyDigits := by
  rw [rejection, h]
  rfl

theorem entryRejection_of_not_isWritable (kind : Kind) (key : String) {v : Value}
    (h : v.isWritable = false) : entryRejection kind key v = .tooManyDigits := by
  have hentry : (Value.map [(.text key, v)]).isWritable = false := by
    simp [Value.isWritable, areWritableEntries, h]
  exact rejection_of_not_isWritable kind hentry

/-- Only what has an integer of too many digits is rejected for that. -/
theorem Decided.rejected {fine : Bool} {outcome : Except Fault (List String)}
    (h : Decided fine .tooManyDigits outcome) (kind : Kind) (key : String) {v : Value}
    (hv : v.isWritable → fine) : Decided fine (entryRejection kind key v) outcome where
  texts := h.texts
  fault := by
    intro hfine
    have hnot : v.isWritable = false := by
      rw [← Bool.not_eq_true]
      exact fun hwritable => by rw [hv hwritable] at hfine; cases hfine
    rw [h.fault hfine, entryRejection_of_not_isWritable kind key hnot]

theorem written_decided (kind : Kind) (key : String) (v : Value) (texts : List String) :
    Decided v.isWritable (entryRejection kind key v) (v.written texts) :=
  (Decided.written v texts).rejected kind key id

theorem nodeTexts_decided (kind : Kind) (key : String) (v : Value) :
    Decided ((v.isText || v.isTextSequence || v.isMap) && v.isWritable) (entryRejection kind key v)
      (nodeTexts kind key v) := by
  cases v with
  | text => exact .ok _
  | map entries =>
    rw [nodeTexts, NodePattern.build, Value.map_written]
    exact written_decided kind key _ _
  | list items | tuple items =>
    simp only [Value.isText, Value.isTextSequence, Value.isMap, Bool.false_or, Bool.or_false,
      Value.isWritable, nodeTexts]
    have hlabels := isSome_labels? items
    cases hl : labels? items with
    | none =>
      rw [hl] at hlabels
      rw [← hlabels]
      exact .error
    | some labels =>
      rw [hl] at hlabels
      rw [← hlabels, areWritable_of_isText hlabels.symm]
      exact .ok _
  | _ => exact .error

theorem assignmentTexts_decided (replace : Bool) (key : String) (v : Value) :
    Decided ((v.isText || v.isMap) && v.isWritable) (entryRejection .assignment key v)
      (assignmentTexts replace key v) := by
  cases v with
  | text => exact .ok _
  | map entries => exact written_decided .assignment key _ _
  | _ => exact .error

theorem propertyNames_decided (kind : Kind) (key : String) (v : Value) :
    Decided ((v.isText || v.isSequence) && v.isWritable) (entryRejection kind key v)
      (propertyNames kind key v) := by
  cases v with
  | text => exact .ok _
  | list items | tuple items => exact (Decided.written (.list items) _).rejected kind key id
  | _ => exact .error

mutual

/-- A value without a flaw is written, and of any other value the first flaw is rejected. -/
theorem orderTexts_cases (key : String) (v : Value) :
    (v.flaw? = none ∧ ∃ texts, orderTexts key v = .ok texts) ∨
      ∃ w, v.flaw? = some w ∧ orderTexts key v = .error (entryRejection .order key w) := by
  cases v with
  | text => exact .inl ⟨rfl, _, rfl⟩
  | map entries =>
    rw [Value.flaw?, orderTexts]
    cases hentries : areWritableEntries entries with
    | true => exact .inl ⟨rfl, _, Value.written_of_isWritable hentries⟩
    | false =>
      have hmap : (Value.map entries).isWritable = false := hentries
      rw [Value.written_of_not_isWritable hmap]
      exact .inr ⟨_, rfl, by rw [entryRejection_of_not_isWritable .order key hmap]⟩
  | list items => exact orderItemTexts_cases key items
  | tuple items => exact orderItemTexts_cases key items
  | _ => exact .inr ⟨_, rfl, rfl⟩
termination_by structural v

theorem orderItemTexts_cases (key : String) (items : List Value) :
    (firstFlaw? items = none ∧ ∃ texts, orderItemTexts key items = .ok texts) ∨
      ∃ w, firstFlaw? items = some w ∧
        orderItemTexts key items = .error (entryRejection .order key w) := by
  cases items with
  | nil => exact .inl ⟨rfl, _, rfl⟩
  | cons item items =>
    rw [firstFlaw?, orderItemTexts]
    rcases orderTexts_cases key item with ⟨hnone, texts, htexts⟩ | ⟨w, hw, hfail⟩
    · rw [hnone, htexts]
      rcases orderItemTexts_cases key items with ⟨hnone, rest, hrest⟩ | ⟨w, hw, hfail⟩
      · exact .inl ⟨hnone, texts ++ rest, by rw [hrest]⟩
      · exact .inr ⟨w, hw, by rw [hfail]⟩
    · rw [hw, hfail]
      exact .inr ⟨w, rfl, rfl⟩
termination_by structural items

end

theorem orderTexts_decided (key : String) (v : Value) :
    Decided (v.isOrdering && v.isWritable) (entryRejection .order key (v.flaw?.getD v))
      (orderTexts key v) := by
  have hiff := flaw?_eq_none_iff v
  rw [← Bool.and_eq_true] at hiff
  rcases orderTexts_cases key v with ⟨hnone, texts, htexts⟩ | ⟨w, hw, hfail⟩
  · rw [hiff.1 hnone, htexts]
    exact .ok texts
  · rw [hw] at hiff ⊢
    rw [Bool.eq_false_iff.2 (mt hiff.2 (Option.some_ne_none w)), hfail]
    exact .error

theorem entryTexts_decided (kind : Kind) (replace : Bool) (key : String) (v : Value) :
    Decided (fits kind v && writes kind v) (entryRejection kind key (blamed kind v))
      (entryTexts kind replace key v) := by
  cases kind with
  | pattern => exact nodeTexts_decided .pattern key v
  | optionalPattern => exact nodeTexts_decided .optionalPattern key v
  | creation => exact nodeTexts_decided .creation key v
  | uniqueCreation => exact nodeTexts_decided .uniqueCreation key v
  | merge => exact nodeTexts_decided .merge key v
  | condition =>
    exact (conditionTexts_decided key v).rejected .condition key (isAskable_of_isWritable v)
  | assignment => exact assignmentTexts_decided replace key v
  | removal => exact propertyNames_decided .removal key v
  | result => exact propertyNames_decided .result key v
  | order => exact orderTexts_decided key v
  | start | carry =>
    cases v with
    | text => exact .ok _
    | _ => exact .error
  | unwind =>
    cases v with
    | text => exact .ok _
    | list items | tuple items => exact (Decided.written (.list items) _).rejected .unwind key id
    | _ => exact .error
  | hint | deletion | limit | skip => exact .error

theorem entriesTexts_of_takes {kind : Kind} {entries : List (Value × Value)}
    (h : ∀ entry ∈ entries, takes kind entry) (replace : Bool) :
    ∃ texts, entriesTexts kind replace entries = .ok texts := by
  induction entries with
  | nil => exact ⟨[], rfl⟩
  | cons entry entries ih =>
    obtain ⟨hentry, hentries⟩ := List.forall_mem_cons.1 h
    rw [takes, Bool.and_assoc, Bool.and_eq_true] at hentry
    obtain ⟨texts, htexts⟩ :=
      (entryTexts_decided kind replace entry.1.display entry.2).texts hentry.2
    obtain ⟨rest, hrest⟩ := ih hentries
    exact ⟨texts ++ rest,
      entriesTexts_cons_eq_ok.2 ⟨hentry.1, texts, htexts, rest, hrest, rfl⟩⟩

/-- The first entry that is not taken decides the fault. -/
theorem entriesTexts_of_not_takes {kind : Kind} {front back : List (Value × Value)}
    {entry : Value × Value} (hfront : ∀ e ∈ front, takes kind e) (hentry : takes kind entry = false)
    (replace : Bool) : entriesTexts kind replace (front ++ entry :: back) =
      .error (rejection kind (entryOffence kind entry)) := by
  induction front with
  | nil =>
    obtain ⟨key, v⟩ := entry
    rw [List.nil_append, entriesTexts, entryOffence, Value.shown, Value.written]
    cases hkey : key.isWritable with
    | false =>
      have hnot : (Value.map [(key, blamed kind v)]).isWritable = false := by
        simp [Value.isWritable, areWritableEntries, hkey]
      simp only [Bool.false_eq_true, if_false, rejection, hnot]
      rfl
    | true =>
      rw [takes, hkey, Bool.true_and] at hentry
      have hfail := (entryTexts_decided kind replace key.display v).fault hentry
      simp only [if_pos, bind, Except.bind, hfail, entryRejection]
  | cons e front ih =>
    obtain ⟨he, hfront⟩ := List.forall_mem_cons.1 hfront
    rw [takes, Bool.and_assoc, Bool.and_eq_true] at he
    obtain ⟨texts, htexts⟩ := (entryTexts_decided kind replace e.1.display e.2).texts he.2
    rw [List.cons_append, entriesTexts, Value.shown, Value.written_of_isWritable he.1]
    simp only [bind, Except.bind, htexts, ih hfront]

theorem entriesTexts_decided (kind : Kind) (replace : Bool) (entries : List (Value × Value)) :
    Decided (accepts kind (.map entries)) (rejection kind (offence kind (.map entries)))
      (entriesTexts kind replace entries) := by
  constructor
  · intro h
    exact entriesTexts_of_takes (List.all_eq_true.1 h) replace
  · intro h
    cases hfind : entries.find? fun entry => !takes kind entry with
    | none =>
      have hall : accepts kind (.map entries) = true :=
        List.all_eq_true.2 (by simpa using List.find?_eq_none.1 hfind)
      rw [hall] at h
      cases h
    | some entry =>
      obtain ⟨hv, front, back, rfl, hfront⟩ := List.find?_eq_some_iff_append.1 hfind
      rw [offence, hfind, entriesTexts_of_not_takes (by simpa using hfront) (by simpa using hv)]

theorem argumentTexts_decided (kind : Kind) (replace : Bool) (v : Value) :
    Decided (accepts kind v) (rejection kind (offence kind v)) (argumentTexts kind replace v) := by
  cases v with
  | text => exact .ok _
  | int n =>
    cases hn : writable n with
    | false =>
      have hnot : (Value.int n).isWritable = false := hn
      have hfail : argumentTexts kind replace (.int n) = .error (rejection kind (.int n)) := by
        rw [argumentTexts, Value.written_of_not_isWritable hnot,
          rejection_of_not_isWritable kind hnot, ite_self]
      rw [hfail, accepts, hn, Bool.and_false]
      exact .error
    | true =>
      have hint : (Value.int n).isWritable := hn
      rw [argumentTexts, Value.written_of_isWritable hint, accepts, hn, Bool.and_true]
      cases kind <;> first | exact .ok _ | exact .error
  | map entries => exact entriesTexts_decided kind replace entries
  | _ => exact .error

/-! ## Arguments that are not accepted -/

theorem fits_of_takes {kind : Kind} {entry : Value × Value} (h : takes kind entry) :
    fits kind entry.2 := by
  rw [takes, Bool.and_eq_true, Bool.and_eq_true] at h
  exact h.1.2

theorem hasShape_of_accepts {kind : Kind} {v : Value} (h : accepts kind v) : hasShape kind v := by
  cases v with
  | int n => exact (Bool.and_eq_true_iff.1 h).1
  | map entries =>
    have hall := List.all_eq_true.1 h
    exact List.all_eq_true.2 fun entry hentry => fits_of_takes (hall entry hentry)
  | _ => exact h

/-- An argument of the shape whose integers can all be written is accepted. -/
theorem accepts_of_isWritable {kind : Kind} {v : Value} (h : v.isWritable)
    (hshape : hasShape kind v) : accepts kind v := by
  cases v with
  | int n => exact Bool.and_eq_true_iff.2 ⟨hshape, h⟩
  | map entries =>
    refine List.all_eq_true.2 fun entry hentry => ?_
    obtain ⟨hkey, hwrites⟩ := writes_of_areWritableEntries kind h entry hentry
    rw [takes, hkey, hwrites, List.all_eq_true.1 hshape entry hentry]
    rfl
  | _ => exact hshape

theorem isWritable_blamed (kind : Kind) {v : Value} (h : v.isWritable) :
    (blamed kind v).isWritable := by
  rw [blamed]
  split
  · cases hw : v.flaw? with
    | none => exact h
    | some w => exact (isWritable_flaw hw).1 h
  · exact h

/-- What an ordering is blamed for cannot be written. -/
theorem fits_of_isWritable_blamed {kind : Kind} {v : Value}
    (h : (fits kind v && writes kind v) = false) (hblamed : (blamed kind v).isWritable) :
    fits kind v = false := by
  by_cases horder : kind = .order
  · subst horder
    rw [blamed, if_pos rfl] at hblamed
    cases hw : v.flaw? with
    | none =>
      obtain ⟨hordering, hwritable⟩ := (flaw?_eq_none_iff v).1 hw
      have hfits : fits .order v = true := hordering
      rw [hfits, writes_of_isWritable .order hwritable] at h
      cases h
    | some w =>
      rw [hw, Option.getD_some] at hblamed
      refine Bool.eq_false_iff.2 fun hordering => ?_
      rw [(isWritable_flaw hw).2 hordering] at hblamed
      cases hblamed
  · rw [blamed, if_neg horder] at hblamed
    rwa [writes_of_isWritable kind hblamed, Bool.and_true] at h

/-- Either what is shown of an entry that is not taken can be written, and then the value does not
fit, or something in the entry cannot. -/
theorem entryOffence_cases {kind : Kind} {entry : Value × Value} (h : takes kind entry = false) :
    ((entryOffence kind entry).isWritable = true ∧ fits kind entry.2 = false) ∨
      ((entryOffence kind entry).isWritable = false ∧
        ¬ (entry.1.isWritable ∧ entry.2.isWritable)) := by
  obtain ⟨key, v⟩ := entry
  simp only [entryOffence, Value.isWritable, areWritableEntries, Bool.and_true]
  cases hkey : key.isWritable with
  | false => exact .inr ⟨by simp [hkey], by simp⟩
  | true =>
    rw [takes, hkey, Bool.true_and] at h
    simp only [if_true, Value.isWritable_text, Bool.true_and, true_and]
    cases hblamed : (blamed kind v).isWritable with
    | true => exact .inl ⟨rfl, fits_of_isWritable_blamed h hblamed⟩
    | false =>
      refine .inr ⟨rfl, fun hv => ?_⟩
      rw [isWritable_blamed kind hv] at hblamed
      cases hblamed

theorem offence_cases {kind : Kind} {v : Value} (h : accepts kind v = false) :
    ((offence kind v).isWritable = true ∧ hasShape kind v = false) ∨
      ((offence kind v).isWritable = false ∧ v.isWritable = false) := by
  have hself (hoffence : offence kind v = v) (hshape : v.isWritable → hasShape kind v = false) :
      ((offence kind v).isWritable = true ∧ hasShape kind v = false) ∨
        ((offence kind v).isWritable = false ∧ v.isWritable = false) := by
    rw [hoffence]
    cases hv : v.isWritable with
    | false => exact .inr ⟨rfl, rfl⟩
    | true => exact .inl ⟨rfl, hshape hv⟩
  cases v with
  | text => cases h
  | int n =>
    refine hself rfl fun hn => ?_
    have hwritable : writable n = true := hn
    rwa [accepts, hwritable, Bool.and_true] at h
  | map entries =>
    obtain ⟨entry, hmem, hentry⟩ := List.all_eq_false.1 h
    cases hfind : entries.find? fun entry => !takes kind entry with
    | none => exact absurd (List.find?_eq_none.1 hfind entry hmem) (by simpa using hentry)
    | some entry =>
      have hmem := List.mem_of_find?_eq_some hfind
      have hentry : takes kind entry = false := by simpa using List.find?_some hfind
      rw [offence, hfind]
      refine (entryOffence_cases hentry).imp (fun ⟨hshown, hmisfit⟩ => ⟨hshown, ?_⟩)
        fun ⟨hshown, hlong⟩ => ⟨hshown, ?_⟩
      · exact List.all_eq_false.2 ⟨entry, hmem, by simp [hmisfit]⟩
      · exact Bool.eq_false_iff.2 fun hall => hlong (areWritableEntries_iff.1 hall entry hmem)
  | _ => exact hself rfl fun _ => rfl

/-! ## Clauses of accepted arguments -/

theorem ofArgument_of_accepts {kind : Kind} {v : Value} (h : accepts kind v) (replace : Bool) :
    ∃ c, ofArgument kind replace v = .ok c := by
  obtain ⟨texts, htexts⟩ := (argumentTexts_decided kind replace v).texts h
  exact ⟨⟨kind, texts⟩, by rw [ofArgument, htexts]; rfl⟩

theorem ofArgument_of_not_accepts {kind : Kind} {v : Value} (h : accepts kind v = false)
    (replace : Bool) : ofArgument kind replace v = .error (rejection kind (offence kind v)) := by
  rw [ofArgument, (argumentTexts_decided kind replace v).fault h]
  rfl

theorem kind_of_ofArgument {kind : Kind} {replace : Bool} {v : Value} {c : Clause}
    (h : ofArgument kind replace v = .ok c) : c.kind = kind := by
  rw [ofArgument] at h
  cases htexts : argumentTexts kind replace v with
  | error f => rw [htexts] at h; cases h
  | ok texts => rw [htexts] at h; cases h; rfl

/-- Every accepted argument gives one clause. -/
theorem ofEach_of_accepts {kind : Kind} {args : List Value} (h : ∀ v ∈ args, accepts kind v)
    (replace : Bool) : ∃ clauses, ofEach kind replace args = .ok clauses ∧
      List.Forall₂ (fun v c => ofArgument kind replace v = .ok c) args clauses := by
  induction args with
  | nil => exact ⟨[], rfl, .nil⟩
  | cons v args ih =>
    obtain ⟨hv, hargs⟩ := List.forall_mem_cons.1 h
    obtain ⟨c, hc⟩ := ofArgument_of_accepts hv replace
    obtain ⟨clauses, hclauses, hall⟩ := ih hargs
    exact ⟨c :: clauses, by rw [ofEach, hc, hclauses], .cons hc hall⟩

/-- The first argument that is not accepted decides the failure. -/
theorem ofEach_of_rejected {kind : Kind} {front back : List Value} {v : Value}
    (hfront : ∀ w ∈ front, accepts kind w) (hv : accepts kind v = false) (replace : Bool) :
    ofEach kind replace (front ++ v :: back) = .error (rejection kind (offence kind v)) := by
  induction front with
  | nil => rw [List.nil_append, ofEach, ofArgument_of_not_accepts hv]
  | cons w front ih =>
    obtain ⟨hw, hfront⟩ := List.forall_mem_cons.1 hfront
    obtain ⟨c, hc⟩ := ofArgument_of_accepts hw replace
    rw [List.cons_append, ofEach, hc, ih hfront]

/-- Either all arguments are accepted or one is the first that is not. -/
theorem accepts_all_or_first (kind : Kind) (args : List Value) :
    (∀ v ∈ args, accepts kind v) ∨ ∃ front v back, args = front ++ v :: back ∧
      (∀ w ∈ front, accepts kind w) ∧ accepts kind v = false := by
  cases hfind : args.find? fun v => !accepts kind v with
  | none => exact .inl (by simpa using List.find?_eq_none.1 hfind)
  | some v =>
    obtain ⟨hv, front, back, hargs, hfront⟩ := List.find?_eq_some_iff_append.1 hfind
    exact .inr ⟨front, v, back, hargs, by simpa using hfront, by simpa using hv⟩

end Clause

/-- A failure that names the clause and shows the value. -/
def Failure.Names (f : Failure) (kind : Clause.Kind) (shown : Value) : Prop :=
  f.kind = .unknownArgument shown ∧
  f.message = "Invalid argument for " ++ kind.keyword ++ ": " ++ shown.inspect ∧
  f.details.specifics =
    .argument ⟨some kind.keyword, some shown.inspect, some kind.title, none⟩

namespace Query

open Clause (given accepts hasShape offence)

theorem derive_of_accepts {kind : Clause.Kind} {args : List Value}
    (h : ∀ v ∈ given args, accepts kind v) (q : Query) (replace : Bool) :
    ∃ clauses, (Step.derive (some kind) args replace).apply q =
        .ok (q.append (opening kind ++ clauses.map some)) ∧
      List.Forall₂ (fun v c => Clause.ofArgument kind replace v = .ok c) (given args) clauses := by
  obtain ⟨clauses, hclauses, hall⟩ := Clause.ofEach_of_accepts h replace
  have hargs : Clause.ofArguments kind replace args = .ok clauses := hclauses
  exact ⟨clauses, by rw [Step.apply, add, hargs]; rfl, hall⟩

theorem derive_of_rejected {kind : Clause.Kind} {args front back : List Value} {v : Value}
    (hargs : given args = front ++ v :: back) (hfront : ∀ w ∈ front, accepts kind w)
    (hv : accepts kind v = false) (q : Query) (replace : Bool) :
    (Step.derive (some kind) args replace).apply q =
      .error (Clause.rejection kind (offence kind v)) := by
  have hfail : Clause.ofArguments kind replace args =
      .error (Clause.rejection kind (offence kind v)) := by
    rw [Clause.ofArguments, ← given, hargs, Clause.ofEach_of_rejected hfront hv]
  rw [Step.apply, add, hfail]
  rfl

/-- The derivation of a query fails exactly if some argument with content is not accepted, which for
an argument whose integers can all be written means that it is of a shape that the kind does not
take. The first such argument decides the fault. It is a failure that names the clause if what it
shows can be written, and then the argument is of another shape; otherwise an integer of the
argument has too many digits. If all arguments are accepted, one clause for each of them comes
behind the log, and for WITH a break in front of them. -/
theorem derive_fails_iff_not_accepted (q : Query) (args : List Value) (replace : Bool) :
    (Step.derive none args replace).apply q = .ok (q.append [none]) ∧
    ∀ kind : Clause.Kind,
      ((∃ fault, (Step.derive (some kind) args replace).apply q = .error fault) ↔
        ∃ v ∈ given args, accepts kind v = false) ∧
      (∀ v : Value, (accepts kind v → hasShape kind v) ∧
        (v.isWritable → hasShape kind v → accepts kind v)) ∧
      (∀ front v back, given args = front ++ v :: back → (∀ w ∈ front, accepts kind w) →
        accepts kind v = false →
          ((offence kind v).isWritable = true ∧ hasShape kind v = false ∧
            ∃ f, (Step.derive (some kind) args replace).apply q = .error (.failure f) ∧
              Clause.ofArgument kind replace v = .error (.failure f) ∧
              f.Names kind (offence kind v)) ∨
          ((offence kind v).isWritable = false ∧ v.isWritable = false ∧
            (Step.derive (some kind) args replace).apply q = .error .tooManyDigits ∧
            Clause.ofArgument kind replace v = .error .tooManyDigits)) ∧
      ((∀ v ∈ given args, accepts kind v) →
        ∃ clauses, (Step.derive (some kind) args replace).apply q =
            .ok (q.append ((if kind = .carry then [none] else []) ++ clauses.map some)) ∧
          List.Forall₂ (fun v c => c.kind = kind ∧ Clause.ofArgument kind replace v = .ok c)
            (given args) clauses) := by
  refine ⟨rfl, fun kind => ⟨⟨?_, ?_⟩, fun v =>
    ⟨Clause.hasShape_of_accepts, Clause.accepts_of_isWritable⟩, ?_, ?_⟩⟩
  · rintro ⟨fault, hfault⟩
    rcases Clause.accepts_all_or_first kind (given args) with hall | ⟨front, v, back, hargs, -, hv⟩
    · obtain ⟨clauses, hok, -⟩ := derive_of_accepts hall q replace
      rw [hok] at hfault
      cases hfault
    · exact ⟨v, by simp [hargs], hv⟩
  · rintro ⟨w, hw, hnot⟩
    rcases Clause.accepts_all_or_first kind (given args) with
      hall | ⟨front, v, back, hargs, hfront, hv⟩
    · rw [hall w hw] at hnot
      cases hnot
    · exact ⟨_, derive_of_rejected hargs hfront hv q replace⟩
  · intro front v back hargs hfront hv
    have happly := derive_of_rejected hargs hfront hv q replace
    have hmade := Clause.ofArgument_of_not_accepts hv replace
    rcases Clause.offence_cases hv with ⟨hshown, hshape⟩ | ⟨hnot, hlong⟩
    · rw [Clause.rejection, if_pos hshown] at happly hmade
      exact .inl ⟨hshown, hshape, _, happly, hmade, rfl, rfl, rfl⟩
    · rw [Clause.rejection_of_not_isWritable kind hnot] at happly hmade
      exact .inr ⟨hnot, hlong, happly, hmade⟩
  · intro hall
    obtain ⟨clauses, hok, hmade⟩ := derive_of_accepts hall q replace
    exact ⟨clauses, hok, hmade.imp fun _ _ hc => ⟨Clause.kind_of_ofArgument hc, hc⟩⟩

/-- An ordering with a number at some depth, behind an argument without content. -/
def strayOrdering : List Value :=
  [.text "", .list [.text "n.age", .tuple [.map [(.text "m", .list [.text "x", .list [.int 3]])]],
    .bool true]]

/-- What is carried over, in a list. -/
def carriedNames : List Value := [.list [.text "n", .map [(.text "m", .text "n.age")]]]

theorem strayOrdering_rejected :
    (∃ f, (Step.derive (some .order) strayOrdering false).apply carried = .error (.failure f) ∧
      f.message = "Invalid argument for ORDER BY: \x7b'm': 3\x7d") ∧
    ∃ clauses : List Clause, (Step.derive (some .carry) carriedNames false).apply carried =
      .ok (carried.append (none :: clauses.map some)) ∧ clauses.length = 2 := by
  constructor
  · have hfirst := ((derive_fails_iff_not_accepted carried strayOrdering false).2 .order).2.2.1
      [.text "n.age"] _ [.bool true] rfl (List.forall_mem_singleton.2 rfl) rfl
    rcases hfirst with ⟨-, -, f, happly, -, -, hmessage, -⟩ | ⟨hnot, -⟩
    · exact ⟨f, happly, hmessage.trans rfl⟩
    · cases hnot
  · obtain ⟨clauses, happly, hmade⟩ :=
      ((derive_fails_iff_not_accepted carried carriedNames false).2 .carry).2.2.2
        (List.all_eq_true.1 rfl)
    exact ⟨clauses, happly, hmade.length_eq.symm⟩

/-- A limit of too many digits is of the right shape and is not written, and such a number in place
of a pattern is of another shape and is not shown. -/
theorem tooLong_not_written :
    hasShape .limit (.int tooLong) = true ∧
    (Step.derive (some .limit) [.int tooLong] false).apply carried = .error .tooManyDigits ∧
    hasShape .pattern (.int tooLong) = false ∧
    (Step.derive (some .pattern) [.int tooLong] false).apply carried = .error .tooManyDigits := by
  have hlong : (Value.int tooLong).isWritable = false := not_writable_tooLong
  have hfail (kind : Clause.Kind) (hnot : accepts kind (.int tooLong) = false) :
      (Step.derive (some kind) [.int tooLong] false).apply carried = .error .tooManyDigits := by
    have hgiven : given [.int tooLong] = [] ++ .int tooLong :: [] := rfl
    have hfault : Clause.rejection kind (offence kind (.int tooLong)) = .tooManyDigits :=
      Clause.rejection_of_not_isWritable kind hlong
    rw [derive_of_rejected hgiven (by simp) hnot, hfault]
  refine ⟨rfl, hfail .limit ?_, rfl, hfail .pattern rfl⟩
  rw [accepts, not_writable_tooLong, Bool.and_false]

end Query
end GraphQuery
