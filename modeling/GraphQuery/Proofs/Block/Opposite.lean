import GraphQuery.Proofs.Block.Condition

/-!
# Opposite comparisons

To ask a property to differ says the opposite of asking it to be equal, alone and in any combination
that is otherwise made alike. Compared with a pattern a property is always matched with it, so there
all comparisons say the same.
-/
namespace GraphQuery.Block

/-- Whatever two sides differ are not equal, and the other way round. -/
def Truth.Opposed (t : Truth) : Prop :=
  ∀ left right, t.comparison left .notEqual right = !t.comparison left .equal right

/-! ## Frames -/

/-- A condition with holes in it. -/
inductive Frame where
  | hole
  | closed (c : Condition)
  | both (f g : Frame)
  | either (f g : Frame)
  | negation (f : Frame)

namespace Frame

def fill (c : Condition) : Frame → Condition
  | .hole => c
  | .closed d => d
  | .both f g => .both (f.fill c) (g.fill c)
  | .either f g => .either (f.fill c) (g.fill c)
  | .negation f => .negation (f.fill c)

def signed (negated : Bool) (f : Frame) : Frame := if negated then .negation f else f

@[simp] theorem fill_signed (negated : Bool) (f : Frame) (c : Condition) :
    (f.signed negated).fill c = (f.fill c).signed negated := by
  cases negated <;> rfl

/-- Only the truth of what is filled in counts. -/
theorem holds_fill {t : Truth} {c d : Condition} (h : c.holds t = d.holds t) (f : Frame) :
    (f.fill c).holds t = (f.fill d).holds t := by
  induction f with
  | hole => exact h
  | closed e => rfl
  | both f g ihf ihg => rw [fill, fill, Condition.holds, Condition.holds, ihf, ihg]
  | either f g ihf ihg => rw [fill, fill, Condition.holds, Condition.holds, ihf, ihg]
  | negation f ih => rw [fill, fill, Condition.holds, Condition.holds, ih]

end Frame

theorem Operator.exists_frame {operator : Operator}
    {combination : Condition → Condition → Condition}
    (h : operator.connective? = some combination) (f g : Frame) :
    ∃ frame : Frame, ∀ c, frame.fill c = combination (f.fill c) (g.fill c) := by
  cases operator with
  | conjunction =>
    cases h
    exact ⟨.both f g, fun _ => rfl⟩
  | disjunction =>
    cases h
    exact ⟨.either f g, fun _ => rfl⟩
  | _ => cases h

/-- The same failure, or conditions that differ in what a frame is filled with. -/
def Framed (c c' : Condition) (x x' : Except Fault Condition) : Prop :=
  (∃ fault, x = .error fault ∧ x' = .error fault) ∨
    ∃ frame : Frame, x = .ok (frame.fill c) ∧ x' = .ok (frame.fill c')

theorem Framed.refl (c c' : Condition) (x : Except Fault Condition) : Framed c c' x x := by
  cases x with
  | error fault => exact .inl ⟨fault, rfl, rfl⟩
  | ok d => exact .inr ⟨.closed d, rfl, rfl⟩

/-! ## Operands that differ in one comparison -/

def Operand.isPattern : Operand → Bool
  | .value (.regex _) => true
  | _ => false

theorem filterOf_plain {right : Operand} (h : right.isPattern = false) (left : Operand)
    (operator : Operator) (negated : Bool) :
    filterOf left right operator negated = .filter left right operator negated := by
  rw [filterOf, effectiveOperator.eq_def]
  split
  · cases h
  · rfl

theorem rightCondition_plain {right : Operand} (h : right.isPattern = false) (c : Condition) :
    rightCondition right c = c := by
  rw [rightCondition.eq_def]
  split
  · cases h
  · rfl

theorem rightSide_plain {right : Operand} (h : right.isPattern = false) {operator : Operator}
    (hop : operator ≠ .matching) (written : String) :
    rightSide operator right written = written := by
  rw [rightSide.eq_def]
  split
  · cases h
  · exact if_neg hop

theorem writtenSides_plain {right : Operand} (h : right.isPattern = false) {operator : Operator}
    (hop : operator ≠ .matching) (s : Scope) (left : Operand) :
    writtenSides s left operator right = (do
      let written ← right.write s .literal
      let left ← (← left.write s .literal).shown
      return (left, ← written.shown)) := by
  rw [writtenSides, rightManner, if_neg hop]
  simp only [rightSide_plain h hop]

theorem composed_plain {right : Operand} (h : right.isPattern = false) (b : Block) (left : Operand)
    (operator : Operator) : (b.composed left right operator).1 =
      .ok (.fragment b.serials (.filter left right operator false)) := by
  rw [← filterOf_plain h]
  rfl

theorem combine_of_isFilter {left : Operand} (h : left.isFilter) (b : Block) (operator : Operator)
    (right : Operand) : b.combine operator left right = b.composed left right operator := by
  cases left with
  | fragment serial content =>
    cases content with
    | filter => rfl
    | _ => cases h
  | _ => cases h

/-- Nothing but filters and values can be combined with something. -/
theorem combine_cases {left : Operand} (h : left.isFilter = false) (operator : Operator)
    (right : Operand) : (∃ u w, left = .value u ∧ right = .value w) ∨
      ∀ b : Block, b.combine operator left right = b.fail .wrongType := by
  cases left with
  | fragment serial content =>
    cases content with
    | filter => cases h
    | _ => exact .inr fun b => rfl
  | value u =>
    cases right with
    | value w => exact .inl ⟨u, w, rfl, rfl⟩
    | _ => exact .inr fun b => rfl
  | _ => exact .inr fun b => rfl

/-- A comparison of a property. -/
def comparisonOf (serial slot : Nat) (key v : Operand) (operator : Operator) (negated : Bool) :
    Operand :=
  .fragment serial (.filter (.property slot key) v operator negated)

section Swapped

variable (slot : Nat) (key v : Operand)

/-- Operands that differ in serial numbers, and in comparisons of a property with an operand, which
ask for equality in the first and for difference in the second. -/
inductive Swapped : Operand → Operand → Prop where
  | same (o : Operand) : Swapped o o
  | copy (serial serial' : Nat) (content : Content) :
      Swapped (.fragment serial content) (.fragment serial' content)
  | comparison (serial serial' : Nat) (negated : Bool) :
      Swapped (comparisonOf serial slot key v .equal negated)
        (comparisonOf serial' slot key v .notEqual negated)
  | combination (serial serial' : Nat) {left left' right right' : Operand} {operator : Operator}
      (negated : Bool) (connects : operator.connective?.isSome) (plain : right.isPattern = false)
      (onLeft : Swapped left left') (onRight : Swapped right right') :
      Swapped (.fragment serial (.filter left right operator negated))
        (.fragment serial' (.filter left' right' operator negated))

variable {slot key v}

theorem Swapped.isPattern_eq {o o' : Operand} (h : Swapped slot key v o o') :
    o'.isPattern = o.isPattern := by
  cases h <;> rfl

theorem Swapped.isFilter_eq {o o' : Operand} (h : Swapped slot key v o o') :
    o'.isFilter = o.isFilter := by
  cases h with
  | copy serial serial' content => cases content <;> rfl
  | _ => rfl

/-- Values are no comparisons. -/
theorem Swapped.value_iff {o o' : Operand} (h : Swapped slot key v o o') (u : Value) :
    o = .value u ↔ o' = .value u := by
  cases h with
  | same => exact Iff.rfl
  | _ => exact iff_of_false (by simp [comparisonOf]) (by simp [comparisonOf])

/-- What a call gives for two such operands: the same failure, or two such operands again. -/
def SwappedResults (slot : Nat) (key v : Operand) (x x' : Except Fault Operand) : Prop :=
  (∃ fault, x = .error fault ∧ x' = .error fault) ∨
    ∃ u u', x = .ok u ∧ x' = .ok u' ∧ Swapped slot key v u u' ∧ u.isPattern = false

/-- Values that are combined give a truth value or an integer. -/
theorem isPattern_combined {operator : Operator} {u w x : Value}
    (h : combined? operator u w = some x) : (Operand.value x).isPattern = false := by
  rw [combined?, Value.both?.eq_def, Value.either?.eq_def] at h
  split at h
  all_goals
    split at h
    · cases h
      rfl
    · split at h
      · cases h
        rfl
      · cases h

theorem swappedResults_combine_values (operator : Operator) (u w : Value) (b b' : Block) :
    SwappedResults slot key v (b.combine operator (.value u) (.value w)).1
      (b'.combine operator (.value u) (.value w)).1 := by
  rw [combine, combine]
  cases hx : combined? operator u w with
  | none => exact .inl ⟨_, rfl, rfl⟩
  | some x => exact .inr ⟨_, _, rfl, rfl, .same _, isPattern_combined hx⟩

theorem Swapped.combine {operator : Operator} {left left' right right' : Operand}
    (connects : operator.connective?.isSome) (plain : right.isPattern = false)
    (onLeft : Swapped slot key v left left') (onRight : Swapped slot key v right right')
    (b b' : Block) : SwappedResults slot key v (b.combine operator left right).1
      (b'.combine operator left' right').1 := by
  cases hfilter : left.isFilter with
  | true =>
    have hfilter' : left'.isFilter := onLeft.isFilter_eq.trans hfilter
    rw [combine_of_isFilter hfilter, combine_of_isFilter hfilter', composed_plain plain,
      composed_plain (onRight.isPattern_eq.trans plain)]
    exact .inr ⟨_, _, rfl, rfl, .combination _ _ false connects plain onLeft onRight, rfl⟩
  | false =>
    have hfilter' : left'.isFilter = false := onLeft.isFilter_eq.trans hfilter
    rcases combine_cases hfilter operator right with ⟨u, w, rfl, rfl⟩ | hfail
    · rw [(onLeft.value_iff u).1 rfl, (onRight.value_iff w).1 rfl]
      exact swappedResults_combine_values operator u w b b'
    · rcases combine_cases hfilter' operator right' with ⟨u, w, rfl, rfl⟩ | hfail'
      · rw [(onLeft.value_iff u).2 rfl, (onRight.value_iff w).2 rfl]
        exact swappedResults_combine_values operator u w b b'
      · rw [hfail, hfail']
        exact .inl ⟨_, rfl, rfl⟩

theorem Swapped.negate {o o' : Operand} (hv : v.isPattern = false) (h : Swapped slot key v o o')
    (negation : Negation) (b b' : Block) :
    SwappedResults slot key v (b.negate negation o).1 (b'.negate negation o').1 := by
  have hcopy (serial serial' : Nat) (content : Content) :
      SwappedResults slot key v (b.negate negation (.fragment serial content)).1
        (b'.negate negation (.fragment serial' content)).1 := by
    cases content with
    | filter => exact .inr ⟨_, _, rfl, rfl, .copy _ _ _, rfl⟩
    | _ => exact .inl ⟨_, rfl, rfl⟩
  cases h with
  | same =>
    cases o with
    | fragment serial content => exact hcopy serial serial content
    | value u =>
      rw [Block.negate, Block.negate]
      split
      · exact .inr ⟨_, _, rfl, rfl, .same _, rfl⟩
      · exact .inl ⟨_, rfl, rfl⟩
    | _ => exact .inl ⟨_, rfl, rfl⟩
  | copy serial serial' content => exact hcopy serial serial' content
  | comparison serial serial' negated =>
    refine .inr ⟨_, _, rfl, rfl, ?_, rfl⟩
    rw [filterOf_plain hv, filterOf_plain hv]
    exact .comparison _ _ true
  | combination serial serial' negated connects plain onLeft onRight =>
    refine .inr ⟨_, _, rfl, rfl, ?_, rfl⟩
    rw [filterOf_plain plain, filterOf_plain (onRight.isPattern_eq.trans plain)]
    exact .combination _ _ true connects plain onLeft onRight

/-! ## What they say -/

/-- If they say what a frame tells apart, they are written or fail alike. -/
theorem Swapped.written {s : Scope} {c c' : Condition} {o o' : Operand}
    (h : Swapped slot key v o o') (hframed : Framed c c' (o.meaning s) (o'.meaning s)) :
    (∃ fault, o.write s .literal = .error fault ∧ o'.write s .literal = .error fault) ∨
      ∃ w w', o.write s .literal = .ok w ∧ o'.write s .literal = .ok w' := by
  have hsame (x : Except Fault Value) :
      (∃ fault, x = .error fault ∧ x = .error fault) ∨ ∃ w w', x = .ok w ∧ x = .ok w' := by
    cases x with
    | error fault => exact .inl ⟨fault, rfl, rfl⟩
    | ok w => exact .inr ⟨w, w, rfl, rfl⟩
  have hfilters (hfilter : o.isFilter) (hfilter' : o'.isFilter) :
      (∃ fault, o.write s .literal = .error fault ∧ o'.write s .literal = .error fault) ∨
        ∃ w w', o.write s .literal = .ok w ∧ o'.write s .literal = .ok w' := by
    rw [Operand.write_of_isFilter hfilter (by decide),
      Operand.write_of_isFilter hfilter' (by decide)]
    rcases hframed with ⟨fault, hm, hm'⟩ | ⟨frame, hm, hm'⟩
    · rw [hm, hm']
      exact .inl ⟨fault, rfl, rfl⟩
    · rw [hm, hm']
      exact .inr ⟨_, _, rfl, rfl⟩
  cases h with
  | same => exact hsame _
  | copy serial serial' content =>
    rw [Operand.write, Operand.write]
    exact hsame _
  | comparison | combination => exact hfilters rfl rfl

/-- If the two comparisons say what a frame tells apart, so do the operands. -/
theorem Swapped.framed {s : Scope} {c c' : Condition}
    (hcompared : ∀ serial serial' negated, Framed c c'
      ((comparisonOf serial slot key v .equal negated).meaning s)
      ((comparisonOf serial' slot key v .notEqual negated).meaning s))
    {o o' : Operand} (h : Swapped slot key v o o') : Framed c c' (o.meaning s) (o'.meaning s) := by
  induction h with
  | same o => exact .refl _ _ _
  | copy serial serial' content =>
    rw [Operand.meaning, Operand.meaning]
    exact .refl _ _ _
  | comparison serial serial' negated => exact hcompared serial serial' negated
  | @combination serial serial' left left' right right' operator negated connects plain onLeft
      onRight ihl ihr =>
    obtain ⟨combination, hop⟩ := Option.isSome_iff_exists.1 connects
    rw [Operand.meaning, Operand.meaning, meaning_combination s hop, meaning_combination s hop]
    have plain' := onRight.isPattern_eq.trans plain
    rcases onRight.written ihr with ⟨fault, hw, hw'⟩ | ⟨w, w', hw, hw'⟩
    · rw [hw, hw']
      exact .inl ⟨fault, rfl, rfl⟩
    · rcases ihl with ⟨fault, hl, hl'⟩ | ⟨f, hl, hl'⟩
      · rw [hw, hw', hl, hl']
        exact .inl ⟨fault, rfl, rfl⟩
      · rcases ihr with ⟨fault, hr, hr'⟩ | ⟨g, hr, hr'⟩
        · rw [hw, hw', hl, hl', hr, hr']
          exact .inl ⟨fault, rfl, rfl⟩
        · obtain ⟨frame, hframe⟩ := Operator.exists_frame hop f g
          refine .inr ⟨frame.signed negated, ?_, ?_⟩
          · rw [hw, hl, hr, Frame.fill_signed, hframe]
            exact congrArg (fun d => Except.ok ((combination (f.fill c) d).signed negated))
              (rightCondition_plain plain _)
          · rw [hw', hl', hr', Frame.fill_signed, hframe]
            exact congrArg (fun d => Except.ok ((combination (f.fill c') d).signed negated))
              (rightCondition_plain plain' _)

end Swapped

/-! ## Recipes -/

/-- How filters are combined and negated, with holes for one operand. No other operand is a
pattern. -/
inductive Recipe where
  | hole
  | given (o : Operand) (plain : o.isPattern = false)
  | combine (operator : Operator) (connects : operator.connective?.isSome) (left right : Recipe)
  | negate (negation : Negation) (recipe : Recipe)

/-- Goes on with what a call gives, unless it fails. -/
def andThen (outcome : Outcome) (next : Operand → Block → Outcome) : Outcome :=
  match outcome with
  | (.error fault, b) => b.fail fault
  | (.ok o, b) => next o b

/-- The calls of a recipe, one after the other. -/
def Recipe.follow (x : Operand) : Recipe → Block → Outcome
  | .hole, b => b.give x
  | .given o _, b => b.give o
  | .combine operator _ left right, b =>
    andThen (left.follow x b) fun l b => andThen (right.follow x b) fun r b =>
      b.combine operator l r
  | .negate negation recipe, b => andThen (recipe.follow x b) fun o b => b.negate negation o

theorem SwappedResults.andThen {slot : Nat} {key v : Operand} {outcome outcome' : Outcome}
    {next next' : Operand → Block → Outcome}
    (h : SwappedResults slot key v outcome.1 outcome'.1)
    (hnext : ∀ u u', Swapped slot key v u u' → u.isPattern = false → ∀ b b' : Block,
      SwappedResults slot key v (next u b).1 (next' u' b').1) :
    SwappedResults slot key v (andThen outcome next).1 (andThen outcome' next').1 := by
  obtain ⟨x, b⟩ := outcome
  obtain ⟨x', b'⟩ := outcome'
  rcases h with ⟨fault, rfl, rfl⟩ | ⟨u, u', rfl, rfl, hswapped, plain⟩
  · exact .inl ⟨fault, rfl, rfl⟩
  · exact hnext u u' hswapped plain b b'

theorem Recipe.swapped {slot : Nat} {key v : Operand} (hv : v.isPattern = false)
    (serial serial' : Nat) (recipe : Recipe) (b b' : Block) :
    SwappedResults slot key v
      (recipe.follow (comparisonOf serial slot key v .equal false) b).1
      (recipe.follow (comparisonOf serial' slot key v .notEqual false) b').1 := by
  induction recipe generalizing b b' with
  | hole => exact .inr ⟨_, _, rfl, rfl, .comparison _ _ false, rfl⟩
  | given o plain => exact .inr ⟨_, _, rfl, rfl, .same o, plain⟩
  | combine operator connects left right ihl ihr =>
    refine (ihl b b').andThen fun l l' hl _ b b' => ?_
    exact (ihr b b').andThen fun r r' hr plain b b' => hl.combine connects plain hr b b'
  | negate negation recipe ih =>
    exact (ih b b').andThen fun o o' ho _ b b' => ho.negate hv negation b b'

/-! ## Opposites -/

/-- What the sides of a comparison are does not depend on the operator, unless it is a match. -/
theorem meaning_comparisonOf {v : Operand} (hv : v.isPattern = false) (s : Scope) (slot : Nat)
    (key : Operand) :
    (∃ fault, ∀ serial operator negated, operator = .equal ∨ operator = .notEqual →
      (comparisonOf serial slot key v operator negated).meaning s = .error fault) ∨
    ∃ left right, ∀ serial operator negated, operator = .equal ∨ operator = .notEqual →
      (comparisonOf serial slot key v operator negated).meaning s =
        .ok ((Condition.comparison left operator right).signed negated) := by
  have hsides (serial : Nat) {operator : Operator} (negated : Bool)
      (hop : operator = .equal ∨ operator = .notEqual) :
      (comparisonOf serial slot key v operator negated).meaning s =
        (writtenSides s (.property slot key) .equal v).map fun sides =>
          (Condition.comparison sides.1 operator sides.2).signed negated := by
    have hne : operator ≠ .matching := by
      rcases hop with rfl | rfl <;> decide
    have hnone : operator.connective? = none := by
      rcases hop with rfl | rfl <;> rfl
    have hequal : Operator.equal ≠ .matching := by decide
    rw [comparisonOf, Operand.meaning, meaning_comparison s hnone, writtenSides_plain hv hne,
      writtenSides_plain hv hequal]
  cases hwritten : writtenSides s (.property slot key) .equal v with
  | error fault => exact .inl ⟨fault, fun serial operator negated hop => by
      rw [hsides serial negated hop, hwritten]; rfl⟩
  | ok sides => exact .inr ⟨_, _, fun serial operator negated hop => by
      rw [hsides serial negated hop, hwritten]; rfl⟩

theorem exists_framed {v : Operand} (hv : v.isPattern = false) (s : Scope) (slot : Nat)
    (key : Operand) : ∃ left right, ∀ serial serial' negated,
      Framed (.comparison left .equal right) (.comparison left .notEqual right)
        ((comparisonOf serial slot key v .equal negated).meaning s)
        ((comparisonOf serial' slot key v .notEqual negated).meaning s) := by
  rcases meaning_comparisonOf hv s slot key with ⟨fault, hall⟩ | ⟨left, right, hall⟩
  · -- there is nothing that a frame could be filled with
    refine ⟨"", "", fun serial serial' negated => .inl ⟨fault, ?_⟩⟩
    exact ⟨hall _ _ _ (.inl rfl), hall _ _ _ (.inr rfl)⟩
  · refine ⟨left, right, fun serial serial' negated => .inr ⟨Frame.hole.signed negated, ?_⟩⟩
    rw [Frame.fill_signed, Frame.fill_signed]
    exact ⟨hall _ _ _ (.inl rfl), hall _ _ _ (.inr rfl)⟩

/-- Whatever a property is compared with but a pattern, the comparison is made, and to differ says
the opposite of being equal: by itself, and wherever the one stands in combinations and negations
that are otherwise made alike. These are made or fail alike, they are written or fail alike, and the
one says what the other would if equality were negated in it. With a pattern a property is matched,
whatever comparison is asked for. -/
theorem notEqual_opposes_equal (slot : Nat) (key v : Operand) :
    (v.isPattern = false →
      (∀ (b : Block) (operator : Operator), (b.compare operator (.property slot key) v).1 =
        .ok (comparisonOf b.serials slot key v operator false)) ∧
      (∀ (serial serial' : Nat) (s : Scope),
        (∃ fault, (comparisonOf serial slot key v .equal false).meaning s = .error fault ∧
          (comparisonOf serial' slot key v .notEqual false).meaning s = .error fault) ∨
        ∃ c c' : Condition, (comparisonOf serial slot key v .equal false).Says s c ∧
          (comparisonOf serial' slot key v .notEqual false).Says s c' ∧
          ∀ t : Truth, t.Opposed → c'.holds t = !c.holds t) ∧
      ∀ (serial serial' : Nat) (recipe : Recipe) (b b' : Block),
        (∃ fault,
          (recipe.follow (comparisonOf serial slot key v .equal false) b).1 = .error fault ∧
          (recipe.follow (comparisonOf serial' slot key v .notEqual false) b').1 =
            .error fault) ∨
        ∃ o o', (recipe.follow (comparisonOf serial slot key v .equal false) b).1 = .ok o ∧
          (recipe.follow (comparisonOf serial' slot key v .notEqual false) b').1 = .ok o' ∧
          ∀ s : Scope, (∃ fault, o.meaning s = .error fault ∧ o'.meaning s = .error fault) ∨
            ∃ (left right : String) (frame : Frame),
              o.Says s (frame.fill (.comparison left .equal right)) ∧
              o'.Says s (frame.fill (.comparison left .notEqual right)) ∧
              ∀ t : Truth, t.Opposed →
                (frame.fill (.comparison left .notEqual right)).holds t =
                  (frame.fill (.negation (.comparison left .equal right))).holds t) ∧
    ∀ (b : Block) (operator : Operator) (pattern : String),
      b.compare operator (.property slot key) (.value (.regex pattern)) =
        b.matching (.property slot key) (.value (.regex pattern)) := by
  refine ⟨fun hv => ⟨fun b operator => composed_plain hv b _ operator,
    fun serial serial' s => ?_, fun serial serial' recipe b b' => ?_⟩,
    fun b operator pattern => rfl⟩
  · rcases meaning_comparisonOf hv s slot key with ⟨fault, hall⟩ | ⟨left, right, hall⟩
    · exact .inl ⟨fault, hall _ _ _ (.inl rfl), hall _ _ _ (.inr rfl)⟩
    · exact .inr ⟨_, _, Operand.says_of_meaning (hall _ _ _ (.inl rfl)),
        Operand.says_of_meaning (hall _ _ _ (.inr rfl)), fun t ht => ht left right⟩
  · refine (recipe.swapped hv serial serial' b b').imp_right ?_
    rintro ⟨o, o', ho, ho', hswapped, -⟩
    refine ⟨o, o', ho, ho', fun s => ?_⟩
    obtain ⟨left, right, hcompared⟩ := exists_framed hv s slot key
    refine (hswapped.framed hcompared).imp_right ?_
    rintro ⟨frame, hc, hc'⟩
    refine ⟨left, right, frame, Operand.says_of_meaning hc, Operand.says_of_meaning hc',
      fun t ht => Frame.holds_fill ?_ frame⟩
    exact ht left right

/-- Whatever is compared is equal. -/
def allEqual : Truth := ⟨fun _ => true, fun _ operator _ => operator = .equal⟩

theorem opposed_allEqual : allEqual.Opposed := fun _ _ => rfl

/-- A comparison of the name of a node. -/
def comparedWithAnn (operator : Operator) : Operand :=
  comparisonOf 2 0 (.value (.text "name")) (.value (.text "Ann")) operator false

/-- Not both of something and being below an age. -/
def unlessYoung : Recipe := .negate .complement (.combine .conjunction rfl .hole
  (.given (comparisonOf 1 0 (.value (.text "age")) (.value (.int 3)) .less false) rfl))

theorem unlessYoung_opposes : ∃ (o o' : Operand) (left right : String) (frame : Frame),
    (unlessYoung.follow (comparedWithAnn .equal) Block.empty).1 = .ok o ∧
    (unlessYoung.follow (comparedWithAnn .notEqual) Block.empty).1 = .ok o' ∧
    o.Says Block.empty.scope (frame.fill (.comparison left .equal right)) ∧
    o'.Says Block.empty.scope (frame.fill (.comparison left .notEqual right)) ∧
    (frame.fill (.comparison left .notEqual right)).holds allEqual =
      (frame.fill (.negation (.comparison left .equal right))).holds allEqual := by
  obtain ⟨-, -, hrecipe⟩ :=
    (notEqual_opposes_equal 0 (.value (.text "name")) (.value (.text "Ann"))).1 rfl
  rcases hrecipe 2 2 unlessYoung Block.empty Block.empty with
    ⟨fault, hfault, -⟩ | ⟨o, o', ho, ho', hall⟩
  · cases hfault
  · rcases hall Block.empty.scope with ⟨fault, hfault, -⟩ | ⟨left, right, frame, hc, hc', heq⟩
    · cases ho
      cases hfault
    · exact ⟨o, o', left, right, frame, ho, ho', hc, hc', heq allEqual opposed_allEqual⟩

/-- A property compared with a pattern. -/
def comparedWithPattern (operator : Operator) : List Step :=
  [⟨.node, none, [.value (.int 1)]⟩,
   ⟨.property, some 0, [.value (.text "name")]⟩,
   ⟨.compare operator, some 1, [.value (.regex "A.*")]⟩]

theorem patterns_not_opposed :
    (finish (comparedWithPattern .equal) (.value .null)).text =
      .ok "START n0=node(1) WHERE (n0.name =~ /A.*/)" ∧
    (finish (comparedWithPattern .notEqual) (.value .null)).text =
      .ok "START n0=node(1) WHERE (n0.name =~ /A.*/)" ∧
    ∃ e e' c, (run (comparedWithPattern .equal)).results[2]? = some e ∧
      (run (comparedWithPattern .notEqual)).results[2]? = some e' ∧
      e.meaning (run (comparedWithPattern .equal)).block.scope = .ok c ∧
      e'.meaning (run (comparedWithPattern .notEqual)).block.scope = .ok c ∧
      ¬ ∀ t : Truth, t.Opposed → c.holds t = !c.holds t := by
  refine ⟨rfl, rfl, _, _, _, rfl, rfl, rfl, rfl, fun h => ?_⟩
  exact absurd (h allEqual opposed_allEqual) (by decide)

end GraphQuery.Block
