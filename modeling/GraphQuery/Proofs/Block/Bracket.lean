import GraphQuery.Proofs.Block.Growth
import GraphQuery.Proofs.Block.Naming
import GraphQuery.Proofs.Value.Written

/-!
# Relationship variables and their brackets

The text between the brackets of a relationship variable binds the identifier that it begins with.
Everywhere else the variable is mentioned by its name, which is made of the leading letters of
that text at first, and of whatever it is renamed to later. So the two are the same for a
variable that is never renamed exactly if the identifier consists of letters.
-/
namespace GraphQuery

theorem Text.isLetter_of_isDigit {c : Char} (h : c.isDigit) : Text.isLetter c = false := by
  have hlow : ∀ r ∈ Text.letterRanges, 58 ≤ r.1 := by decide +kernel
  have hc : c.toNat ≤ 57 := by
    simp only [Char.isDigit, Bool.and_eq_true, decide_eq_true_eq] at h
    exact h.2
  refine List.any_eq_false.2 fun r hr => ?_
  have := hlow r hr
  simp only [Bool.and_eq_true, decide_eq_true_eq, not_and]
  omega

namespace Block

/-! ## Identifiers -/

def isNameStart (c : Char) : Bool := Text.isLetter c || c == '_'

def isNamePart (c : Char) : Bool := isNameStart c || c.isDigit

/-- The variable that a text between brackets binds: the identifier that it begins with. -/
def boundName? (expr : String) : Option String :=
  if expr.toList.head?.any isNameStart then
    some (String.ofList (expr.toList.takeWhile isNamePart))
  else none

/-- All characters are letters. -/
def IsAlphabetic (word : String) : Prop := ∀ c ∈ word.toList, Text.isLetter c = true

section Identifiers

variable {expr word : String}

theorem isNamePart_of_isNameStart {c : Char} (h : isNameStart c = true) : isNamePart c = true := by
  rw [isNamePart, h, Bool.true_or]

theorem isNamePart_of_isLetter {c : Char} (h : Text.isLetter c = true) : isNamePart c = true :=
  isNamePart_of_isNameStart (by rw [isNameStart, h, Bool.true_or])

theorem toList_of_boundName? (h : boundName? expr = some word) :
    word.toList = expr.toList.takeWhile isNamePart := by
  rw [boundName?] at h
  split at h
  · cases h
    exact String.toList_ofList
  · cases h

/-- An identifier begins with a letter or an underscore. -/
theorem exists_head_of_boundName? (h : boundName? expr = some word) :
    ∃ c cs, word.toList = c :: cs ∧ isNameStart c = true := by
  have hword := toList_of_boundName? h
  rw [boundName?] at h
  split at h
  · next hstart =>
    cases hexpr : expr.toList with
    | nil => simp [hexpr] at hstart
    | cons c cs =>
      have hc : isNameStart c = true := by simpa [hexpr] using hstart
      rw [hexpr, List.takeWhile_cons, if_pos (isNamePart_of_isNameStart hc)] at hword
      exact ⟨c, _, hword, hc⟩
  · cases h

theorem toList_leadingLetters (expr : String) :
    (leadingLetters expr).toList = expr.toList.takeWhile Text.isLetter := String.toList_ofList

/-- The letters that a text begins with are those that its identifier begins with. -/
theorem leadingLetters_of_boundName? (h : boundName? expr = some word) :
    leadingLetters word = leadingLetters expr := by
  rw [leadingLetters, toList_of_boundName? h, List.takeWhile_takeWhile, leadingLetters]
  congr 2
  funext c
  cases hc : Text.isLetter c with
  | false => simp
  | true => simp [isNamePart_of_isLetter hc]

theorem leadingLetters_eq_self_iff : leadingLetters word = word ↔ IsAlphabetic word := by
  rw [← String.toList_inj, toList_leadingLetters, List.takeWhile_eq_self_iff]
  rfl

theorem isAlphabetic_leadingLetters (expr : String) : IsAlphabetic (leadingLetters expr) := by
  intro c hc
  rw [toList_leadingLetters] at hc
  exact List.mem_takeWhile_imp hc

/-- A numbered name is not made of letters alone. -/
theorem numberedName_ne_of_isAlphabetic (initial : String) (n : Nat) (h : IsAlphabetic word) :
    numberedName initial n ≠ .text word := by
  intro hname
  have htext : initial ++ Decimal.intText n = word := Value.text.inj hname
  obtain ⟨c, cs, hchars, hc, hsign⟩ := Decimal.exists_head_intText n
  have hdigit : c.isDigit := hc.resolve_left fun hminus => by
    have := hsign.2 hminus
    omega
  have hmem : c ∈ word.toList := by simp [← htext, String.toList_append, hchars]
  have hletter := h c hmem
  rw [Text.isLetter_of_isDigit hdigit] at hletter
  cases hletter

end Identifiers

/-! ## Names that are given -/

/-- The name that a step gives to the variable of a slot, if it is a renaming of it. -/
def Run.given? (r : Run) (slot : Nat) (s : Step) : Option Value :=
  match resolveItems r.results s.args with
  | [.value name] => if r.renamed? s = some slot then some name else none
  | _ => none

/-- The names that further steps give to the variable of a slot, in order. -/
def givenNames (slot : Nat) : Run → List Step → List Value
  | _, [] => []
  | r, s :: steps => (r.given? slot s).toList ++ givenNames slot (r.step s) steps

theorem Run.renaming {r : Run} {slot : Nat} {s : Step} (h : r.renamed? s = some slot) :
    ∃ name, resolveItems r.results s.args = [.value name] ∧
      (r.outcome s).2.names = r.block.names.set slot name := by
  rw [renamed?] at h
  split at h
  · next hkeyed =>
    rw [outcome_eq, if_pos hkeyed]
    rw [Block.renamed?.eq_def] at h
    split at h
    · next name hverb hargs =>
      refine ⟨name, hargs, ?_⟩
      rw [hverb, hargs]
      simp only [perform, renamed, h]
      rfl
    · cases h
  · cases h

/-- A step renames a variable to the name that it gives, and leaves it its name if it gives none. -/
theorem Run.step_names {r : Run} {slot : Nat} {name : Value}
    (h : r.block.names[slot]? = some name) (s : Step) :
    (r.step s).block.names[slot]? = some ((r.given? slot s).getD name) := by
  have hslot := (List.getElem?_eq_some_iff.1 h).1
  change (r.outcome s).2.names[slot]? = _
  by_cases hrenamed : r.renamed? s = some slot
  · obtain ⟨given, hargs, hnames⟩ := r.renaming hrenamed
    have hgiven : r.given? slot s = some given := by rw [given?, hargs]; exact if_pos hrenamed
    rw [hnames, hgiven, List.getElem?_set_self hslot, Option.getD_some]
  · have hgiven : r.given? slot s = none := by
      rw [given?]
      split
      · exact if_neg hrenamed
      · rfl
    rw [(r.outcome_naming s).getElem?_names hslot hrenamed, h, hgiven, Option.getD_none]

theorem names_after {r : Run} {slot : Nat} {name : Value}
    (h : r.block.names[slot]? = some name) (steps : List Step) :
    (steps.foldl Run.step r).block.names[slot]? =
      some (((givenNames slot r steps).getLast?).getD name) := by
  induction steps generalizing r name with
  | nil => exact h
  | cons s steps ih =>
    rw [List.foldl_cons, ih (r.step_names h s), givenNames, List.getLast?_append, Option.getD_or]
    cases r.given? slot s <;> rfl

/-! ## Relationship variables -/

/-- A call of a script that makes a relationship variable, with the text for its brackets. -/
structure RelationshipVariable (script : List Step) where
  past : List Step
  call : Step
  later : List Step
  script_eq : past ++ [call] ++ later = script
  slot : Nat
  expr : String
  asked : call.verb = .relationship
  made : ((run past).outcome call).1 = .ok (.relationship slot expr)

namespace RelationshipVariable

variable {script : List Step}

/-- The names that it is given later. -/
def names (v : RelationshipVariable script) : List Value :=
  givenNames v.slot (run (v.past ++ [v.call])) v.later

def bound? (v : RelationshipVariable script) : Option String := boundName? v.expr

/-- The name that it is made with. -/
def origin (v : RelationshipVariable script) : Value :=
  relationshipName v.expr ((run v.past).block.unbound.length + 1)

end RelationshipVariable

theorem relationship_made {args : List Operand} {b : Block} {slot : Nat} {expr : String}
    (h : (b.relationship args).1 = .ok (.relationship slot expr)) :
    b.relationship args = b.bindRelationship expr ∧ slot = b.names.length := by
  rw [Block.relationship.eq_def] at h ⊢
  split at h
  · cases h
  · cases h
    exact ⟨rfl, rfl⟩
  · cases h

namespace RelationshipVariable

variable {script : List Step}

theorem outcome_eq (v : RelationshipVariable script) :
    (run v.past).outcome v.call = (run v.past).block.bindRelationship v.expr ∧
      v.slot = (run v.past).block.names.length := by
  have hmade := v.made
  rw [Run.outcome_eq] at hmade ⊢
  split at hmade
  · next hkeyed =>
    rw [v.asked] at hmade ⊢
    rw [if_pos hkeyed]
    exact relationship_made hmade
  · cases hmade

theorem slot_eq (v : RelationshipVariable script) : v.slot = (run v.past).block.names.length :=
  v.outcome_eq.2

/-- The block that it is made in, right behind its call. -/
theorem block_made (v : RelationshipVariable script) :
    (run (v.past ++ [v.call])).block = ((run v.past).block.bindRelationship v.expr).2 := by
  rw [block_run_snoc, v.outcome_eq.1]

theorem names_eq (v : RelationshipVariable script) (result : Term) :
    nameAt (finish script result).names v.slot = (v.names.getLast?).getD v.origin := by
  have hopened : (run (v.past ++ [v.call])).block.names[v.slot]? = some v.origin := by
    rw [v.block_made, v.slot_eq]
    exact List.getElem?_concat_length
  have hrun : run script = v.later.foldl Run.step (run (v.past ++ [v.call])) := by
    conv_lhs => rw [← v.script_eq, run, List.foldl_append]
    rfl
  rw [nameAt, names_finish, hrun, names_after hopened, Option.getD_some]
  rfl

end RelationshipVariable

/-! ## Brackets -/

section Given

variable {verb : Verb} {receiver : Operand} {args : List Operand} {b : Block} {slot : Nat}
  {expr : String}

theorem link_ne_relationship {l : Link} {other : Operand} :
    (b.link l receiver other).1 ≠ .ok (.relationship slot expr) := by
  intro h
  rcases link_cases l receiver other b with
    ⟨_, _, hlink⟩ | ⟨_, _, _, _, _, _, _, _, _, _, hlink⟩ | ⟨_, hlink⟩ <;>
  · rw [hlink] at h
    cases h

theorem compare_ne_relationship {operator : Operator} {left right : Operand} :
    (b.compare operator left right).1 ≠ .ok (.relationship slot expr) := by
  intro h
  rw [Block.compare.eq_def] at h
  split at h
  · cases h
  · cases h
  · split at h
    · cases h
    · cases h
    · rw [Block.ordered.eq_def] at h
      split at h
      · split at h <;> cases h
      · cases h

theorem negate_ne_relationship {negation : Negation} :
    (b.negate negation receiver).1 ≠ .ok (.relationship slot expr) := by
  intro h
  rw [Block.negate.eq_def] at h
  split at h
  · cases h
  · split at h <;> cases h
  · cases h

theorem lookup_ne_relationship {r : Resolver} {key value : Operand} :
    (b.lookup r key value).1 ≠ .ok (.relationship slot expr) := by
  intro h
  rw [Block.lookup] at h
  split at h
  · cases h
  · simp only at h
    split at h
    · split at h <;> cases h
    · cases h

/-- Only its own call makes a relationship variable; others give it back when they are called on
it. -/
theorem perform_relationship
    (h : (b.perform verb receiver args).1 = .ok (.relationship slot expr)) :
    verb = .relationship ∨ receiver = .relationship slot expr := by
  rw [perform.eq_def] at h
  split at h
  · rw [Block.node.eq_def] at h
    split at h
    · cases h
    · cases h
    · split at h <;> cases h
  · exact .inl rfl
  · rw [Block.search] at h
    split at h <;> cases h
  · rw [Block.search] at h
    split at h <;> cases h
  · exact absurd h lookup_ne_relationship
  · cases h
  · cases h
  · rw [Block.condition.eq_def] at h
    split at h <;> cases h
  · simp only [Block.ret, Block.give, Except.ok.injEq] at h
    cases hlast : (b.registerItems args).registry.getLast? <;> rw [hlast] at h <;> cases h
  · exact absurd h link_ne_relationship
  · rw [Block.property] at h
    split at h <;> cases h
  · rw [renamed.eq_def] at h
    split at h
    · exact .inr (Except.ok.inj h)
    · cases h
    · cases h
  · exact absurd h compare_ne_relationship
  · rw [Block.matching.eq_def] at h
    split at h <;> cases h
  · rw [Block.combine.eq_def] at h
    split at h
    · cases h
    · split at h <;> cases h
    · cases h
  · exact absurd h negate_ne_relationship
  · rw [Block.shortestPath.eq_def] at h
    split at h <;> cases h
  · rw [Block.custom.eq_def] at h
    split at h <;> cases h
  · exact .inr (Except.ok.inj h)
  · cases h

end Given

theorem resolve_relationship {results : List Operand} {t : Term} {slot : Nat} {expr : String}
    (h : t.resolve results = .relationship slot expr) : .relationship slot expr ∈ results := by
  cases t with
  | result step =>
    rw [Term.resolve] at h
    cases hs : results[step]? with
    | none => rw [hs] at h; cases h
    | some o =>
      rw [hs] at h
      cases h
      exact List.mem_of_getElem? hs
  | _ => simp [Term.resolve] at h

theorem Run.receiver_relationship {r : Run} {s : Step} {slot : Nat} {expr : String}
    (h : r.receiver s = .relationship slot expr) : .relationship slot expr ∈ r.results := by
  rw [receiver] at h
  cases hs : s.receiver with
  | none => rw [hs] at h; cases h
  | some step =>
    rw [hs] at h
    exact resolve_relationship h

namespace RelationshipVariable

variable {script past : List Step}

theorem performs (v : RelationshipVariable script) : Performs script v.past v.call :=
  ⟨v.later, v.script_eq⟩

theorem exists_of_isPrefix (h : past <+: script) (v : RelationshipVariable past) :
    ∃ v' : RelationshipVariable script, v'.slot = v.slot ∧ v'.expr = v.expr := by
  obtain ⟨rest, hrest⟩ := h
  have hscript : v.past ++ [v.call] ++ (v.later ++ rest) = script := by
    rw [← List.append_assoc, v.script_eq, hrest]
  exact ⟨⟨v.past, v.call, v.later ++ rest, hscript, v.slot, v.expr, v.asked, v.made⟩, rfl, rfl⟩

theorem length_names (v : RelationshipVariable script) :
    (run (v.past ++ [v.call])).block.names.length = v.slot + 1 := by
  rw [v.block_made, v.slot_eq]
  exact List.length_append

/-- A slot belongs to one variable, which has one text for its brackets. -/
theorem expr_eq_of_slot_eq (v v' : RelationshipVariable script) (h : v.slot = v'.slot) :
    v.expr = v'.expr := by
  -- of two calls one comes first, and a later one finds the slot taken
  wlog hprefix : v.past ++ [v.call] <+: v'.past ++ [v'.call] generalizing v v'
  · have hother := (List.prefix_or_prefix_of_prefix v.performs v'.performs).resolve_left hprefix
    exact (this v' v h.symm hother).symm
  rcases List.prefix_concat_iff.1 hprefix with heq | hbefore
  · obtain ⟨hpast, hcall⟩ := List.append_inj' heq rfl
    have hmade := v.made
    rw [hpast, (List.cons.inj hcall).1, v'.made] at hmade
    exact (Operand.relationship.inj (Except.ok.inj hmade)).2.symm
  · have hmono := length_names_mono hbefore
    have hlength := v.length_names
    have hslot := v'.slot_eq
    omega

/-- The relationship variables among the results of calls are those that a call has made. -/
theorem exists_of_mem_results {slot : Nat} {expr : String}
    (h : .relationship slot expr ∈ (run script).results) :
    ∃ v : RelationshipVariable script, v.slot = slot ∧ v.expr = expr := by
  induction script using List.reverseRecOn with
  | nil => cases h
  | append_singleton script s ih =>
    have hpast (h : .relationship slot expr ∈ (run script).results) :
        ∃ v : RelationshipVariable (script ++ [s]), v.slot = slot ∧ v.expr = expr := by
      obtain ⟨v, hslot, hexpr⟩ := ih h
      obtain ⟨v', hslot', hexpr'⟩ := exists_of_isPrefix (List.prefix_append script [s]) v
      exact ⟨v', hslot'.trans hslot, hexpr'.trans hexpr⟩
    rw [run_snoc] at h
    rcases List.mem_append.1 h with h | h
    · exact hpast h
    · have hresult := List.mem_singleton.1 h
      cases hmade : ((run script).outcome s).1 with
      | error fault => rw [hmade] at hresult; cases hresult
      | ok o =>
        rw [hmade] at hresult
        obtain rfl : .relationship slot expr = o := hresult
        have hperform := hmade
        rw [Run.outcome_eq] at hperform
        split at hperform
        · rcases perform_relationship hperform with hverb | hreceiver
          · exact ⟨⟨script, s, [], List.append_nil _, slot, expr, hverb, hmade⟩, rfl, rfl⟩
          · exact hpast (Run.receiver_relationship hreceiver)
        · cases hperform

end RelationshipVariable

/-- What a call on a path is given was resolved from the results before it. -/
theorem exists_right_of_mem_pathCalls {chain : Nat} {script : List Step} {call : PathCall}
    (h : call ∈ pathCalls chain script) : ∃ past, past <+: script ∧
      ∃ t : Term, t.resolve (run past).results = call.right := by
  induction script using List.reverseRecOn with
  | nil => cases h
  | append_singleton script s ih =>
    rw [pathCalls_snoc] at h
    rcases List.mem_append.1 h with h | h
    · obtain ⟨past, hpast, ht⟩ := ih h
      exact ⟨past, hpast.trans (List.prefix_append _ _), ht⟩
    · refine ⟨script, List.prefix_append _ _, ?_⟩
      have hcall := Option.mem_toList.1 h
      rw [Run.pathCall?] at hcall
      split at hcall
      · next hargs _ =>
        split at hcall
        · cases hcall
          obtain ⟨t, -, ht⟩ := mem_resolveItems (hargs ▸ List.mem_singleton_self _)
          exact ⟨t, ht.symm⟩
        · cases hcall
      · cases hcall

/-- Wherever a relationship variable stands in a path, it stands with the text it was made with. -/
theorem RelationshipVariable.expr_eq_of_right {script : List Step}
    (v : RelationshipVariable script) {chain : Nat} {c : Chain} {segment : Segment} {expr : String}
    (hc : (run script).block.chains[chain]? = some c) (hsegment : segment ∈ c.segments)
    (hright : segment.right = .relationship v.slot expr) : expr = v.expr := by
  have hmade := ((run_grown script).1 chain c hc).made
  obtain ⟨i, hi, hget⟩ := List.mem_iff_getElem.1 hsegment
  have hi' : i < (pathCalls chain script).length := hmade.length_eq ▸ hi
  have hcall := hmade.get hi hi'
  obtain ⟨past, hpast, t, ht⟩ := exists_right_of_mem_pathCalls (List.getElem_mem hi')
  have hresolve : t.resolve (run past).results = .relationship v.slot expr := by
    rw [ht, ← hright, ← hget]
    exact hcall.right.symm
  obtain ⟨u, hslot, hexpr⟩ := exists_of_mem_results (resolve_relationship hresolve)
  obtain ⟨u', hslot', hexpr'⟩ := exists_of_isPrefix hpast u
  rw [← hexpr, ← hexpr']
  exact u'.expr_eq_of_slot_eq v (hslot'.trans hslot)

/-! ## Names and brackets -/

/-- What RETURN, filters and properties write for a variable of the given name, a property only if
the name can be written. -/
structure WrittenAs (s : Scope) (slot : Nat) (expr : String) (name : Value) : Prop where
  returned : (Content.item (.relationship slot expr)).render s = .ok name
  compared : (Operand.relationship slot expr).write s .literal = .ok name
  property : ∀ key text m, key.write s .plain = .ok text → m ≠ .shown →
    (Operand.property slot key).write s m =
      name.written (.text (name.display ++ "." ++ text.display))

theorem writtenAs (s : Scope) (slot : Nat) (expr : String) :
    WrittenAs s slot expr (s.name slot) where
  returned := rfl
  compared := rfl
  property := by
    intro key text m hkey hm
    rw [Operand.write, hkey]
    cases m with
    | shown => exact absurd rfl hm
    | _ => exact Value.shown_bind fun name => Value.text (name ++ "." ++ text.display)

theorem ne_empty_of_boundName? {expr word : String} (h : boundName? expr = some word) :
    expr ≠ "" := by
  rintro rfl
  cases h

/-- A relationship is named by the identifier that its text binds exactly if that consists of
letters. -/
theorem relationshipName_eq_iff {expr word : String} (h : boundName? expr = some word) (n : Nat) :
    relationshipName expr n = .text word ↔ IsAlphabetic word := by
  rw [← leadingLetters_eq_self_iff, leadingLetters_of_boundName? h, relationshipName]
  split
  · next hempty =>
    obtain ⟨c, cs, hword, -⟩ := exists_head_of_boundName? h
    rw [hempty]
    refine iff_of_false (fun hname => ?_) fun hself => ?_
    · -- a numbered name begins with a letter, and this identifier does not
      have hv : "v" ++ Decimal.intText n = word := Value.text.inj hname
      have hletters := toList_leadingLetters word
      rw [leadingLetters_of_boundName? h, hempty, ← hv, String.toList_append] at hletters
      have hletter : Text.isLetter 'v' = true := by decide
      simp [hletter] at hletters
    · rw [← hself] at hword
      cases hword
  · rw [Value.text.injEq]

/-- Two relationships that are named after their texts have one name exactly if the same letters,
and at least one, lead their texts. -/
theorem relationshipName_inj {expr expr' : String} {m n : Nat} (hmn : m ≠ n) :
    relationshipName expr m = relationshipName expr' n ↔
      leadingLetters expr = leadingLetters expr' ∧ leadingLetters expr ≠ "" := by
  simp only [relationshipName]
  split
  · next hempty =>
    refine iff_of_false (fun hname => ?_) fun h => h.2 hempty
    split at hname
    · exact hmn ((numberedName_inj rfl).1 hname).2
    · exact numberedName_ne_of_isAlphabetic "v" m (isAlphabetic_leadingLetters expr') hname
  · next hletters =>
    split
    · next hempty' =>
      refine iff_of_false (fun hname => ?_) fun h => hletters (h.1.trans hempty')
      exact numberedName_ne_of_isAlphabetic "v" n (isAlphabetic_leadingLetters expr) hname.symm
    · rw [Value.text.injEq]
      exact (and_iff_left hletters).symm

namespace RelationshipVariable

variable {script : List Step}

/-- The name under which it is mentioned in the end. -/
def name (v : RelationshipVariable script) (result : Term) : Value :=
  nameAt (finish script result).names v.slot

theorem name_eq_origin (v : RelationshipVariable script) (h : v.names = []) (result : Term) :
    v.name result = v.origin := by
  rw [name, v.names_eq, h, List.getLast?_nil, Option.getD_none]

theorem count_ne {v v' : RelationshipVariable script} (h : v.slot < v'.slot) :
    (run v.past).block.unbound.length + 1 ≠ (run v'.past).block.unbound.length + 1 := by
  have hprefix : v.past ++ [v.call] <+: v'.past := by
    refine v.performs.isPrefix v'.performs ?_
    rw [← v.slot_eq, ← v'.slot_eq]
    exact h
  have hmono := length_unbound_mono hprefix
  have hgrown : (run (v.past ++ [v.call])).block.unbound.length =
      (run v.past).block.unbound.length + 1 := by
    rw [v.block_made]
    exact List.length_append
  omega

theorem origin_eq_iff {v v' : RelationshipVariable script} (h : v.slot ≠ v'.slot) :
    v.origin = v'.origin ↔
      leadingLetters v.expr = leadingLetters v'.expr ∧ leadingLetters v.expr ≠ "" := by
  refine relationshipName_inj ?_
  rcases Nat.lt_or_gt_of_ne h with hlt | hlt
  · exact count_ne hlt
  · exact (count_ne hlt).symm

/-- The brackets of a relationship variable hold the text that it was made with, whatever it is
renamed to, and everything else mentions it by its name: the last one that it was given, or else
the letters that its text begins with, or a number. So the name is the variable that the brackets
bind exactly if that was the last one given, or none was and it consists of letters. Two variables
that are never renamed have one name exactly if the same letters lead their identifiers. -/
theorem brackets_and_name (v : RelationshipVariable script) {w : String} (hw : v.bound? = some w)
    (result : Term) :
    (∀ c ∈ (finish script result).chains, ∀ segment ∈ c.segments, ∀ expr,
      segment.right = .relationship v.slot expr → segment.style = .entry →
        localText (finish script result).scope segment =
          .ok (segment.connector ++ "[" ++ v.expr ++ "]")) ∧
    WrittenAs (finish script result).scope v.slot v.expr (v.name result) ∧
    v.name result = (v.names.getLast?).getD v.origin ∧
    (v.name result = .text w ↔
      match v.names.getLast? with
      | some name => name = .text w
      | none => IsAlphabetic w) ∧
    ∀ (v' : RelationshipVariable script) (w' : String), v'.bound? = some w' → v.slot ≠ v'.slot →
      v.names = [] → v'.names = [] →
      (v.name result = v'.name result ↔
        leadingLetters w = leadingLetters w' ∧ leadingLetters w ≠ "") := by
  refine ⟨?_, writtenAs _ _ _, v.names_eq result, ?_, ?_⟩
  · intro c hc segment hsegment expr hright hstyle
    obtain ⟨chain, hchain⟩ := List.mem_iff_getElem?.1 hc
    rw [chains_finish] at hchain
    obtain rfl := v.expr_eq_of_right hchain hsegment hright
    rw [localText, hstyle]
    simp only [hright, rightText, if_neg (ne_empty_of_boundName? hw)]
    rfl
  · rw [name, v.names_eq result]
    cases v.names.getLast? with
    | some name => rfl
    | none => exact relationshipName_eq_iff hw _
  · intro v' w' hw' hslot hstay hstay'
    rw [v.name_eq_origin hstay, v'.name_eq_origin hstay', leadingLetters_of_boundName? hw,
      leadingLetters_of_boundName? hw']
    exact origin_eq_iff hslot

end RelationshipVariable

/-- Two relationships with a letter and a number each, and one that is renamed. -/
def acquaintances : List Step :=
  [⟨.relationship, none, [.value (.text "r1")]⟩,
   ⟨.relationship, none, [.value (.text "r2:knows")]⟩,
   ⟨.relationship, none, [.value (.text "k:knows")]⟩,
   ⟨.rename, some 2, [.value (.text "x")]⟩]

namespace acquaintances

def first : RelationshipVariable acquaintances where
  past := []
  call := acquaintances[0]
  later := acquaintances.drop 1
  script_eq := rfl
  slot := 0
  expr := "r1"
  asked := rfl
  made := rfl

def second : RelationshipVariable acquaintances where
  past := acquaintances.take 1
  call := acquaintances[1]
  later := acquaintances.drop 2
  script_eq := rfl
  slot := 1
  expr := "r2:knows"
  asked := rfl
  made := rfl

def third : RelationshipVariable acquaintances where
  past := acquaintances.take 2
  call := acquaintances[2]
  later := acquaintances.drop 3
  script_eq := rfl
  slot := 2
  expr := "k:knows"
  asked := rfl
  made := rfl

theorem bound :
    first.bound? = some "r1" ∧ second.bound? = some "r2" ∧ third.bound? = some "k" := by
  decide +kernel

/-- The third is mentioned by its new name, the first two by the letter that they begin with. -/
theorem named (result : Term) : third.name result = .text "x" ∧
    first.name result = second.name result := by
  refine ⟨third.names_eq result, ?_⟩
  rw [first.name_eq_origin rfl, second.name_eq_origin rfl,
    RelationshipVariable.origin_eq_iff (by decide)]
  decide +kernel

/-- The brackets go on to bind the identifier of the text. -/
theorem brackets_and_name_third : third.bound? = some "k" ∧
    third.name (.value .null) ≠ .text "k" ∧
    WrittenAs (finish acquaintances (.value .null)).scope 2 "k:knows" (.text "x") := by
  obtain ⟨-, hwritten, -, hiff, -⟩ := third.brackets_and_name bound.2.2 (.value .null)
  have hname := (named (.value .null)).1
  refine ⟨bound.2.2, fun h => ?_, hname ▸ hwritten⟩
  have hlast : Value.text "x" = .text "k" := hiff.1 h
  exact absurd (Value.text.inj hlast) (by decide)

end acquaintances

/-- Every name is the variable that the brackets bind. -/
def NamesBound (script : List Step) : Prop :=
  ∀ (v : RelationshipVariable script) (w : String), v.bound? = some w →
    ∀ result, v.name result = .text w

/-- Different identifiers give different names. -/
def BoundNamesApart (script : List Step) : Prop :=
  ∀ (v v' : RelationshipVariable script) (w w' : String), v.bound? = some w → v'.bound? = some w' →
    w ≠ w' → v.names = [] → v'.names = [] → ∀ result, v.name result ≠ v'.name result

theorem not_namesBound : ¬ NamesBound acquaintances ∧ ¬ BoundNamesApart acquaintances := by
  obtain ⟨hfirst, hsecond, hthird⟩ := acquaintances.bound
  obtain ⟨hrenamed, hsame⟩ := acquaintances.named (.value .null)
  refine ⟨fun h => ?_, fun h => ?_⟩
  · have hname := h acquaintances.third "k" hthird (.value .null)
    rw [hrenamed] at hname
    exact absurd (Value.text.inj hname) (by decide)
  · exact h acquaintances.first acquaintances.second "r1" "r2" hfirst hsecond (by decide) rfl rfl
      (.value .null) hsame

end Block
end GraphQuery
