import GraphQuery.Proofs.Block.Opposite
import GraphQuery.Proofs.Decimal.Numeral
import GraphQuery.Proofs.Text.Token

/-!
# The shape of a filter

A filter is written between parentheses at every node of its tree, with the mark of a negation in
front of them. As long as nothing that is compared has blanks or parentheses in its text, the text
of a filter determines the tree: the operators, the negations and the texts of the sides.
-/
namespace GraphQuery.Block

/-! ## Words -/

/-- The characters that end a side of a comparison. No identifier has one of them. -/
def wordEnds : List Char := [' ', '(', ')']

def isWord (s : String) : Bool := s.toList.all fun c => !wordEnds.contains c

theorem isWord_append (s t : String) : isWord (s ++ t) = (isWord s && isWord t) := by
  rw [isWord, String.toList_append, List.all_append]
  rfl

theorem isWord_intText (n : Int) : isWord (Decimal.intText n) := by
  refine List.all_eq_true.2 fun c hc => ?_
  have hnumeral := Decimal.isNumeral_of_mem_intText hc
  by_contra hend
  have hmem : c ∈ wordEnds := by simpa using hend
  simp only [wordEnds, List.mem_cons, List.not_mem_nil, or_false] at hmem
  rcases hmem with rfl | rfl | rfl
  all_goals exact absurd hnumeral (by decide)

/-- Where two words end, the same characters are left. -/
theorem word_cancel {v w : String} (hv : isWord v) (hw : isWord w) {c d : Char} (hc : c ∈ wordEnds)
    (hd : d ∈ wordEnds) {x y : List Char} (h : v.toList ++ c :: x = w.toList ++ d :: y) :
    v = w ∧ c = d ∧ x = y := by
  have hend {c : Char} (hc : c ∈ wordEnds) (rest : List Char) :
      ∀ e ∈ (c :: rest).head?, (!wordEnds.contains e) = false := by simp [hc]
  obtain ⟨hwords, hrest⟩ := Text.append_inj_of_head (List.all_eq_true.1 hv)
    (List.all_eq_true.1 hw) (hend hc x) (hend hd y) h
  exact ⟨String.toList_inj.1 hwords, List.cons.inj hrest⟩

theorem isWord_operator (operator : Operator) : isWord operator.text := by
  cases operator <;> rfl

theorem Operator.text_inj {operator operator' : Operator} (h : operator.text = operator'.text) :
    operator = operator' := by
  cases operator <;> cases operator' <;> first | rfl | exact absurd h (by decide)

theorem operator_cancel {operator operator' : Operator} {x y : List Char}
    (h : operator.text.toList ++ ' ' :: x = operator'.text.toList ++ ' ' :: y) :
    operator = operator' ∧ x = y := by
  obtain ⟨htext, -, hrest⟩ := word_cancel (isWord_operator operator) (isWord_operator operator')
    (by decide) (by decide) h
  exact ⟨Operator.text_inj htext, hrest⟩

/-! ## Phrases -/

section Phrases

variable {negated negated' : Bool} {left left' right right' : String}
  {operator operator' : Operator} {x y : List Char}

theorem phrase_append (negated : Bool) (left : String) (operator : Operator) (right : String)
    (x : List Char) : (phrase negated left operator right).toList ++ x =
      (if negated then ['n', 'o', 't', ' '] else []) ++
        '(' :: (left.toList ++ ' ' :: (operator.text.toList ++ ' ' ::
          (right.toList ++ ')' :: x))) := by
  cases negated <;> simp [phrase]

/-- The mark of a negation is no parenthesis, so it is in front of both phrases or of none. -/
theorem phrase_cancel (h : (phrase negated left operator right).toList ++ x =
      (phrase negated' left' operator' right').toList ++ y) :
    negated = negated' ∧
      left.toList ++ ' ' :: (operator.text.toList ++ ' ' :: (right.toList ++ ')' :: x)) =
        left'.toList ++ ' ' :: (operator'.text.toList ++ ' ' :: (right'.toList ++ ')' :: y)) := by
  rw [phrase_append, phrase_append] at h
  cases negated <;> cases negated' <;> simp_all

/-- No word with an operator behind it begins as a phrase does. -/
theorem word_ne_phrase {w : String} (hw : isWord w) (operator : Operator) :
    w.toList ++ ' ' :: (operator.text.toList ++ x) ≠
      (phrase negated left operator' right).toList ++ y := by
  intro h
  rw [phrase_append] at h
  cases negated with
  | true =>
    -- the word is the mark of the negation, and the operator would have to open the phrase
    have hmark : isWord "not" := rfl
    obtain ⟨-, -, hrest⟩ := word_cancel hw hmark (by decide) (by decide) h
    cases operator <;> cases hrest
  | false =>
    have hempty : isWord "" := rfl
    obtain ⟨-, hblank, -⟩ := word_cancel hw hempty (by decide) (by decide) h
    exact absurd hblank (by decide)

end Phrases

/-! ## Trees -/

/-- Null, truth values and integers. -/
def isBare : Value → Bool
  | .null | .bool _ | .int _ => true
  | _ => false

def isWordKey : Operand → Bool
  | .value (.text key) => isWord key
  | _ => false

/-- What is compared: properties whose variables and keys are words, and bare values. -/
def Operand.isSide (s : Scope) : Operand → Bool
  | .property slot key => isWord (s.name slot).display && isWordKey key
  | .value v => isBare v
  | _ => false

mutual

/-- Whatever a side or a filter takes for its text can be written. -/
def Operand.isWritable (s : Scope) : Operand → Bool
  | .value v => v.isWritable
  | .property slot _ => (s.name slot).isWritable
  | .fragment _ content => Content.isWritable s content
  | _ => true
termination_by structural operand => operand

def Content.isWritable (s : Scope) : Content → Bool
  | .filter left right _ _ => Operand.isWritable s left && Operand.isWritable s right
  | _ => true
termination_by structural content => content

end

variable {s : Scope}

mutual

theorem Operand.isWritable_of_write {m : Manner} (o : Operand) {v : Value}
    (h : o.write s m = .ok v) : o.isWritable s := by
  cases o with
  | value u =>
    rw [Operand.write] at h
    exact (Value.written_eq_ok.1 h).1
  | property slot key =>
    rw [Operand.write] at h
    obtain ⟨name, hname, -⟩ := bind_eq_ok.1 h
    exact (Value.shown_eq_ok.1 hname).1
  | fragment serial content =>
    rw [Operand.write] at h
    rw [Operand.isWritable]
    exact content.isWritable_of_write h
  | _ => rfl
termination_by structural o

theorem Content.isWritable_of_write {m : Manner} (c : Content) {v : Value}
    (h : c.write s m = .ok v) : c.isWritable s := by
  cases c with
  | filter left right operator negated =>
    rw [Content.write] at h
    obtain ⟨written, hright, h⟩ := bind_eq_ok.1 h
    obtain ⟨l, hleft, -⟩ := bind_eq_ok.1 h
    rw [Content.isWritable, left.isWritable_of_write hleft, right.isWritable_of_write hright]
    rfl
  | _ => rfl
termination_by structural c

end

theorem isWritable_filter {serial : Nat} {left right : Operand} {operator : Operator}
    {negated : Bool} :
    (Operand.fragment serial (.filter left right operator negated)).isWritable s ↔
      left.isWritable s ∧ right.isWritable s := by
  rw [Operand.isWritable, Content.isWritable, Bool.and_eq_true]

theorem Operand.isPattern_of_isSide {o : Operand} (h : o.isSide s) : o.isPattern = false := by
  cases o with
  | value v =>
    cases v with
    | regex => cases h
    | _ => rfl
  | _ => rfl

theorem isWord_writeValue {v : Value} (h : isBare v) (m : Manner) : isWord (writeValue m v) := by
  cases v with
  | null => cases m <;> rfl
  | bool b => cases b <;> cases m <;> rfl
  | int n => cases m <;> exact isWord_intText n
  | _ => cases h

theorem exists_text_of_isWordKey {key : Operand} (h : isWordKey key) :
    ∃ text, key = .value (.text text) ∧ isWord text := by
  cases key with
  | value v =>
    cases v with
    | text text => exact ⟨text, rfl, h⟩
    | _ => cases h
  | _ => cases h

/-- A side is written as a word, if it can be written. -/
theorem Operand.exists_write_of_isSide {o : Operand} (h : o.isSide s) (hw : o.isWritable s)
    {m : Manner} (hm : m ≠ .shown) : ∃ text, o.write s m = .ok (.text text) ∧ isWord text := by
  cases o with
  | value v =>
    rw [Operand.write]
    exact ⟨_, Value.written_of_isWritable hw, isWord_writeValue h m⟩
  | property slot key =>
    obtain ⟨hname, hkey⟩ := Bool.and_eq_true_iff.1 h
    obtain ⟨text, rfl, htext⟩ := exists_text_of_isWordKey hkey
    refine ⟨(s.name slot).display ++ "." ++ text, ?_, ?_⟩
    · have hshown : (s.name slot).shown = .ok (s.name slot).display :=
        Value.written_of_isWritable hw
      rw [Operand.write, Operand.write, hshown]
      cases m with
      | shown => exact absurd rfl hm
      | _ => rfl
    · have hpoint : isWord "." := rfl
      rw [isWord_append, isWord_append, hname, hpoint, htext]
      rfl
  | _ => cases h

/-- A filter that is made of comparisons of sides. -/
inductive Sided (s : Scope) : Operand → Prop where
  | comparison {left right : Operand} {operator : Operator} (serial : Nat) (negated : Bool)
      (compares : operator.connective? = none) (hl : left.isSide s) (hr : right.isSide s) :
      Sided s (.fragment serial (.filter left right operator negated))
  | combination {left right : Operand} {operator : Operator} (serial : Nat) (negated : Bool)
      (connects : operator.connective?.isSome) (hl : Sided s left) (hr : Sided s right) :
      Sided s (.fragment serial (.filter left right operator negated))

theorem Sided.isFilter {e : Operand} (h : Sided s e) : e.isFilter := by
  cases h <;> rfl

theorem Sided.isPattern {e : Operand} (h : Sided s e) : e.isPattern = false := by
  cases h <;> rfl

/-- A filter that is made of comparisons of words, and its text. -/
inductive Tree (s : Scope) : Operand → String → Prop where
  | comparison {left right : Operand} {operator : Operator} {l r : String} (serial : Nat)
      (negated : Bool) (compares : operator.connective? = none) (plain : right.isPattern = false)
      (hl : left.write s .literal = .ok (.text l)) (wl : isWord l)
      (hr : right.write s (rightManner operator) = .ok (.text r)) (wr : isWord r) :
      Tree s (.fragment serial (.filter left right operator negated))
        (phrase negated l operator (rightSide operator right r))
  | combination {left right : Operand} {operator : Operator} {l r : String} (serial : Nat)
      (negated : Bool) (connects : operator.connective?.isSome) (hl : Tree s left l)
      (hr : Tree s right r) :
      Tree s (.fragment serial (.filter left right operator negated))
        (phrase negated l operator r)

/-- Two filters have the same operators and the same signs at every node, and what they compare is
written alike in their scopes. -/
inductive Alike (s t : Scope) : Operand → Operand → Prop where
  | comparison {left left' right right' : Operand} {operator : Operator} (serial serial' : Nat)
      (negated : Bool) (compares : operator.connective? = none)
      (hl : left.write s .literal = left'.write t .literal)
      (hr : right.write s (rightManner operator) = right'.write t (rightManner operator)) :
      Alike s t (.fragment serial (.filter left right operator negated))
        (.fragment serial' (.filter left' right' operator negated))
  | combination {left left' right right' : Operand} {operator : Operator} (serial serial' : Nat)
      (negated : Bool) (connects : operator.connective?.isSome) (hl : Alike s t left left')
      (hr : Alike s t right right') :
      Alike s t (.fragment serial (.filter left right operator negated))
        (.fragment serial' (.filter left' right' operator negated))

section Sides

variable {right right' : Operand} {operator : Operator} {r r' : String}

theorem rightSide_eq_of_plain (h : right.isPattern = false) (operator : Operator) (r : String) :
    rightSide operator right r = if operator = .matching then "/" ++ r ++ "/" else r := by
  rw [rightSide.eq_def]
  split
  · cases h
  · rfl

theorem isWord_rightSide (h : right.isPattern = false) (hr : isWord r) :
    isWord (rightSide operator right r) := by
  rw [rightSide_eq_of_plain h]
  split
  · have hslash : isWord "/" := rfl
    rw [isWord_append, isWord_append, hr, hslash]
    rfl
  · exact hr

theorem rightSide_inj (h : right.isPattern = false) (h' : right'.isPattern = false)
    (hside : rightSide operator right r = rightSide operator right' r') : r = r' := by
  rw [rightSide_eq_of_plain h, rightSide_eq_of_plain h'] at hside
  split at hside
  · simpa [← String.toList_inj] using hside
  · exact hside

end Sides

/-- What is made of sides is made of words, if it can be written. -/
theorem Sided.exists_tree {e : Operand} (h : Sided s e) (hw : e.isWritable s) :
    ∃ a, Tree s e a := by
  induction h with
  | @comparison left right operator serial negated compares hl hr =>
    obtain ⟨hwl, hwr⟩ := isWritable_filter.1 hw
    have hliteral : Manner.literal ≠ .shown := by decide
    have hright : rightManner operator ≠ .shown := by
      rw [rightManner]
      split <;> decide
    obtain ⟨l, tl, wl⟩ := Operand.exists_write_of_isSide hl hwl hliteral
    obtain ⟨r, tr, wr⟩ := Operand.exists_write_of_isSide hr hwr hright
    exact ⟨_, .comparison serial negated compares (Operand.isPattern_of_isSide hr) tl wl tr wr⟩
  | combination serial negated connects hl hr ihl ihr =>
    obtain ⟨hwl, hwr⟩ := isWritable_filter.1 hw
    obtain ⟨l, tl⟩ := ihl hwl
    obtain ⟨r, tr⟩ := ihr hwr
    exact ⟨_, .combination serial negated connects tl tr⟩

namespace Tree

variable {e e' left right : Operand} {a a' : String} {operator : Operator}

theorem isPattern (h : Tree s e a) : e.isPattern = false := by
  cases h <;> rfl

theorem write (h : Tree s e a) {m : Manner} (hm : m ≠ .shown) : e.write s m = .ok (.text a) := by
  induction h generalizing m with
  | comparison serial negated compares plain hl wl hr wr =>
    rw [Operand.write, write_filter_eq, writtenSides_of_write hl rfl hr rfl, Except.map,
      writeText_of_ne hm]
    rfl
  | @combination left right operator l r serial negated connects tl tr ihl ihr =>
    obtain ⟨combination, hop⟩ := Option.isSome_iff_exists.1 connects
    have hne := Operator.ne_matching hop
    have hr : right.write s (rightManner operator) = .ok (.text r) := by
      rw [rightManner, if_neg hne]
      exact ihr (by decide)
    rw [Operand.write, write_filter_eq, writtenSides_of_write (ihl (by decide)) rfl hr rfl,
      Except.map, writeText_of_ne hm, rightSide_plain tr.isPattern hne]
    rfl

theorem exists_phrase (h : Tree s e a) :
    ∃ negated l operator r, a = phrase negated l operator r := by
  cases h <;> exact ⟨_, _, _, _, rfl⟩

/-- The text of a tree ends where the tree does, so nothing behind it can be taken for a part of
it. -/
theorem text_append_inj {t : Scope} {x y : List Char} (h : Tree s e a) (h' : Tree t e' a')
    (htext : a.toList ++ x = a'.toList ++ y) : a = a' ∧ x = y ∧ Alike s t e e' := by
  induction h generalizing e' a' x y with
  | comparison serial negated compares plain hl wl hr wr =>
    cases h' with
    | comparison serial' negated' compares' plain' hl' wl' hr' wr' =>
      obtain ⟨rfl, hleft⟩ := phrase_cancel htext
      obtain ⟨rfl, -, hbehind⟩ := word_cancel wl wl' (by decide) (by decide) hleft
      obtain ⟨rfl, hright⟩ := operator_cancel hbehind
      obtain ⟨hside, -, hrest⟩ := word_cancel (isWord_rightSide plain wr)
        (isWord_rightSide plain' wr') (by decide) (by decide) hright
      obtain rfl := rightSide_inj plain plain' hside
      exact ⟨by rw [hside], hrest, .comparison serial serial' negated compares
        (hl.trans hl'.symm) (hr.trans hr'.symm)⟩
    | combination serial' negated' connects' tl' tr' =>
      obtain ⟨rfl, hleft⟩ := phrase_cancel htext
      obtain ⟨_, _, _, _, rfl⟩ := tl'.exists_phrase
      exact absurd hleft (word_ne_phrase wl _)
  | combination serial negated connects tl tr ihl ihr =>
    cases h' with
    | comparison serial' negated' compares' plain' hl' wl' hr' wr' =>
      obtain ⟨rfl, hleft⟩ := phrase_cancel htext
      obtain ⟨_, _, _, _, rfl⟩ := tl.exists_phrase
      exact absurd hleft.symm (word_ne_phrase wl' _)
    | combination serial' negated' connects' tl' tr' =>
      obtain ⟨rfl, hleft⟩ := phrase_cancel htext
      obtain ⟨rfl, hbehind, halike⟩ := ihl tl' hleft
      obtain ⟨rfl, hright⟩ := operator_cancel (List.cons.inj hbehind).2
      obtain ⟨rfl, hrest, halike'⟩ := ihr tr' hright
      exact ⟨rfl, (List.cons.inj hrest).2,
        .combination serial serial' negated connects halike halike'⟩

end Tree

/-- What is alike is written alike. -/
theorem Alike.text_eq {t : Scope} {e e' : Operand} {a a' : String} (halike : Alike s t e e')
    (h : Tree s e a) (h' : Tree t e' a') : a = a' := by
  induction halike generalizing a a' with
  | comparison serial serial' negated compares hl hr =>
    cases h with
    | combination _ _ connects => rw [compares] at connects; cases connects
    | comparison _ _ _ plain tl _ tr _ =>
      cases h' with
      | combination _ _ connects => rw [compares] at connects; cases connects
      | comparison _ _ _ plain' tl' _ tr' _ =>
        rw [tl, tl'] at hl
        rw [tr, tr'] at hr
        cases hl
        cases hr
        rw [rightSide_eq_of_plain plain, rightSide_eq_of_plain plain']
  | combination serial serial' negated connects hl hr ihl ihr =>
    cases h with
    | comparison _ _ compares => rw [compares] at connects; cases connects
    | combination _ _ _ tl tr =>
      cases h' with
      | comparison _ _ compares => rw [compares] at connects; cases connects
      | combination _ _ _ tl' tr' => rw [ihl tl tl', ihr tr tr']

/-! ## Filters that are built by calls -/

/-- A filter that calls have built of sides: by comparing two, by combining two such filters or by
negating one. The calls may be made on any blocks. -/
inductive Built (s : Scope) : Operand → Prop where
  | compared {b : Block} {operator : Operator} {left right : Operand} {serial : Nat}
      {content : Content} (compares : operator.connective? = none) (hl : left.isSide s)
      (hr : right.isSide s)
      (made : (b.compare operator left right).1 = .ok (.fragment serial content)) :
      Built s (.fragment serial content)
  | matched {b : Block} {left right e : Operand} (hl : left.isSide s) (hr : right.isSide s)
      (made : (b.matching left right).1 = .ok e) : Built s e
  | combined {b : Block} {operator : Operator} {left right e : Operand}
      (connects : operator.connective?.isSome) (hl : Built s left) (hr : Built s right)
      (made : (b.combine operator left right).1 = .ok e) : Built s e
  | negated {b : Block} {negation : Negation} {operand e : Operand} (h : Built s operand)
      (made : (b.negate negation operand).1 = .ok e) : Built s e

theorem sided_composed {left right : Operand} {operator : Operator}
    (compares : operator.connective? = none) (hl : left.isSide s) (hr : right.isSide s) {b : Block}
    {e : Operand} (made : (b.composed left right operator).1 = .ok e) : Sided s e := by
  rw [composed_plain (Operand.isPattern_of_isSide hr)] at made
  cases made
  exact .comparison b.serials false compares hl hr

theorem connective?_exchanged (operator : Operator) :
    operator.exchanged.connective? = operator.connective? := by
  cases operator <;> rfl

theorem ordered_ne_fragment (operator : Operator) (left right : Operand) (b : Block) (serial : Nat)
    (content : Content) : (b.ordered operator left right).1 ≠ .ok (.fragment serial content) := by
  rw [ordered.eq_def]
  split
  · split <;> simp [give, fail]
  · simp [fail]

theorem negate_plain {right : Operand} (h : right.isPattern = false) (b : Block)
    (negation : Negation) (serial : Nat) (left : Operand) (operator : Operator) (negated : Bool) :
    (b.negate negation (.fragment serial (.filter left right operator negated))).1 =
      .ok (.fragment b.serials (.filter left right operator true)) := by
  have hfilter := filterOf_plain h left operator true
  rw [← hfilter]
  rfl

theorem Built.sided {e : Operand} (h : Built s e) : Sided s e := by
  induction h with
  | @compared b operator left right serial content compares hl hr made =>
    rw [compare.eq_def] at made
    split at made
    · exact sided_composed compares hl hr made
    · exact sided_composed (by rw [connective?_exchanged, compares]) hr hl made
    · split at made
      · cases made
      · cases made
      · exact absurd made (ordered_ne_fragment _ left right b serial content)
  | @matched b left right e hl hr made =>
    rw [matching.eq_def] at made
    split at made
    · exact sided_composed rfl hl hr made
    · cases made
  | @combined b operator left right e connects _ _ made sl sr =>
    rw [combine_of_isFilter sl.isFilter, composed_plain sr.isPattern] at made
    cases made
    exact .combination b.serials false connects sl sr
  | @negated b negation operand e _ made sided =>
    cases sided with
    | comparison serial negated compares hl hr =>
      rw [negate_plain (Operand.isPattern_of_isSide hr)] at made
      cases made
      exact .comparison b.serials true compares hl hr
    | combination serial negated connects sl sr =>
      rw [negate_plain sr.isPattern] at made
      cases made
      exact .combination b.serials true connects sl sr

theorem Tree.display_eq {e : Operand} {a : String} (h : Tree s e a) : e.display s = .ok a := by
  have hplain : Manner.plain ≠ .shown := by decide
  rw [Operand.display, h.write hplain]
  rfl

/-- A filter that is built of sides has a text exactly if all of them can be written. -/
theorem Built.isWritable_iff {e : Operand} (h : Built s e) :
    e.isWritable s ↔ ∃ a, e.display s = .ok a := by
  constructor
  · intro hw
    obtain ⟨a, tree⟩ := h.sided.exists_tree hw
    exact ⟨a, tree.display_eq⟩
  · rintro ⟨a, ha⟩
    obtain ⟨v, hv, -⟩ := map_eq_ok.1 ha
    exact e.isWritable_of_write hv

/-- Filters that are built of sides have texts exactly if what stands in them can be written. Two
texts of such filters, in whatever scopes, are the same exactly if the filters are alike. -/
theorem display_eq_iff_alike {s t : Scope} {e e' : Operand} (h : Built s e) (h' : Built t e') :
    (e.isWritable s ↔ ∃ a, e.display s = .ok a) ∧
      (e'.isWritable t ↔ ∃ a, e'.display t = .ok a) ∧
      ∀ a a', e.display s = .ok a → e'.display t = .ok a' → (a = a' ↔ Alike s t e e') := by
  refine ⟨h.isWritable_iff, h'.isWritable_iff, fun a a' ha ha' => ?_⟩
  obtain ⟨text, tree⟩ := h.sided.exists_tree (h.isWritable_iff.2 ⟨a, ha⟩)
  obtain ⟨text', tree'⟩ := h'.sided.exists_tree (h'.isWritable_iff.2 ⟨a', ha'⟩)
  obtain rfl : text = a := Except.ok.inj (tree.display_eq.symm.trans ha)
  obtain rfl : text' = a' := Except.ok.inj (tree'.display_eq.symm.trans ha')
  refine ⟨fun htext => ?_, fun halike => halike.text_eq tree tree'⟩
  subst htext
  exact (tree.text_append_inj (x := []) (y := []) tree' rfl).2.2

/-- A property that is below a bound. -/
def below (serial : Nat) (n : Int) : Operand :=
  .fragment serial (.filter (.property 0 (.value (.text "age"))) (.value (.int n)) .less false)

def joined (serial : Nat) (operator : Operator) (left right : Operand) : Operand :=
  .fragment serial (.filter left right operator false)

theorem built_below (serial : Nat) (n : Int) (h : isWord (s.name 0).display) :
    Built s (below serial n) := by
  have hl : (Operand.property 0 (.value (.text "age"))).isSide s := Bool.and_eq_true_iff.2 ⟨h, rfl⟩
  have hr : (Operand.value (.int n)).isSide s := rfl
  have made : (compare .less (.property 0 (.value (.text "age"))) (.value (.int n))
      { Block.empty with serials := serial }).1 = .ok (below serial n) := rfl
  exact .compared rfl hl hr made

theorem built_joined (serial : Nat) (operator : Operator) (h : operator.connective?.isSome)
    {left right : Operand} (hl : Built s left) (hr : Built s right) :
    Built s (joined serial operator left right) := by
  refine .combined (b := { Block.empty with serials := serial }) h hl hr ?_
  rw [combine_of_isFilter hl.sided.isFilter, composed_plain hr.sided.isPattern]
  rfl

/-- A scope with one variable. -/
def oneVariable : Scope := (Block.empty.openSlot (.text "n")).scope

/-- The same bounds, joined by the same operators in the same order, but grouped in two ways. -/
theorem groupings_not_alike : ¬ Alike oneVariable oneVariable
    (joined 4 .disjunction (joined 3 .conjunction (below 0 1) (below 1 2)) (below 2 3))
    (joined 4 .conjunction (below 0 1) (joined 3 .disjunction (below 1 2) (below 2 3))) := by
  intro halike
  have hname : isWord (oneVariable.name 0).display := rfl
  have hleft := built_joined 4 .disjunction rfl
    (built_joined 3 .conjunction rfl (built_below 0 1 hname) (built_below 1 2 hname))
    (built_below 2 3 hname)
  have hright := built_joined 4 .conjunction rfl (built_below 0 1 hname)
    (built_joined 3 .disjunction rfl (built_below 1 2 hname) (built_below 2 3 hname))
  obtain ⟨hl, hr, hiff⟩ := display_eq_iff_alike hleft hright
  obtain ⟨a, ha⟩ := hl.1 rfl
  obtain ⟨a', ha'⟩ := hr.1 rfl
  have htext := (hiff a a' ha ha').2 halike
  cases ha
  cases ha'
  exact absurd htext (by decide)

end GraphQuery.Block
