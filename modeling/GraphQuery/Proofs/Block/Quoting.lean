import GraphQuery.Proofs.Block.Condition
import GraphQuery.Proofs.Text.Token

/-!
# Texts as literals

A text that is compared with a property, or looked up in an index, is enclosed in double quotes as
it is. So it reads back from the query exactly if it has nothing to be escaped; the first double
quote in any other ends the literal, and what is behind it becomes a part of the query.
-/
namespace GraphQuery.Block

open Text (Escapes enclosed)

/-! ## Comparisons -/

/-- The filter that compares a property with a text. -/
def textFilter (slot : Nat) (key : Operand) (operator : Operator) (text : String)
    (negated : Bool) : Content :=
  .filter (.property slot key) (.value (.text text)) operator negated

theorem compare_text (b : Block) (slot : Nat) (key : Operand) (operator : Operator)
    (text : String) : (b.compare operator (.property slot key) (.value (.text text))).1 =
      .ok (.fragment b.serials (textFilter slot key operator text false)) := rfl

theorem compare_text_left (b : Block) (slot : Nat) (key : Operand) (operator : Operator)
    (text : String) : (b.compare operator (.value (.text text)) (.property slot key)).1 =
      .ok (.fragment b.serials (textFilter slot key operator.exchanged text false)) := rfl

theorem negate_text (b : Block) (negation : Negation) (serial slot : Nat) (key : Operand)
    (operator : Operator) (text : String) (negated : Bool) :
    (b.negate negation (.fragment serial (textFilter slot key operator text negated))).1 =
      .ok (.fragment b.serials (textFilter slot key operator text true)) := rfl

/-- A property is written in any manner as a text. -/
theorem isWritable_of_write_property {s : Scope} {m : Manner} {slot : Nat} {key : Operand}
    {v : Value} (h : (Operand.property slot key).write s m = .ok v) : v.isWritable := by
  rw [Operand.write, bind_eq_ok] at h
  obtain ⟨name, -, h⟩ := h
  obtain ⟨text, -, hv⟩ := bind_eq_ok.1 h
  cases hv
  cases m <;> rfl

theorem write_textFilter {s : Scope} {m : Manner} (hm : m ≠ .shown) {slot : Nat} {key : Operand}
    {operator : Operator} (hoperator : operator ≠ .matching) (text : String) (negated : Bool)
    {left : Value} (hleft : (Operand.property slot key).write s .literal = .ok left) :
    (textFilter slot key operator text negated).write s m =
      .ok (.text (phrase negated left.display operator (enclosed text))) := by
  have hside : rightSide operator (.value (.text text)) (Value.text (enclosed text)).display =
      enclosed text := if_neg hoperator
  have hright : (Operand.value (.text text)).write s (rightManner operator) =
      .ok (.text (enclosed text)) := by
    rw [rightManner, if_neg hoperator]
    rfl
  rw [textFilter, write_filter_eq, writtenSides_of_write hleft
    (isWritable_of_write_property hleft) hright rfl, Except.map, writeText_of_ne hm,
    hside]

/-! ## Look-ups -/

/-- A look-up of a text encloses it behind the key. -/
theorem lookup_text {b : Block} {r : Resolver} {key o : Operand} {text : String}
    (h : (b.lookup r key (.value (.text text))).1 = .ok o) :
    ∃ index name, o = .fragment b.serials
      (.start b.names.length (.lookup (some index) (name ++ "=" ++ enclosed text))) := by
  rw [lookup] at h
  split at h
  · cases h
  · simp only at h
    split at h
    · split at h
      · next index query htarget =>
        rw [lookupTarget] at htarget
        obtain ⟨found, -, htarget⟩ := bind_eq_ok.1 htarget
        obtain ⟨name, -, htarget⟩ := bind_eq_ok.1 htarget
        obtain ⟨value, hvalue, htarget⟩ := bind_eq_ok.1 htarget
        cases hvalue
        cases htarget
        cases h
        have hquery : name ++ "=\"" ++ text ++ "\"" = name ++ "=" ++ enclosed text := by
          simp only [enclosed, String.append_assoc]
          rfl
        exact ⟨index, name, congrArg (fun query => Operand.fragment b.serials
          (.start b.names.length (.lookup (some index) query))) hquery⟩
      · cases h
    · cases h

theorem write_lookup (s : Scope) (slot : Nat) (index query : String) :
    (Content.start slot (.lookup (some index) query)).write s .plain = (s.name slot).written
      (.text ((s.name slot).display ++ "=" ++ ("node:" ++ index ++ "(" ++ query ++ ")"))) := by
  rw [Content.write, if_neg (by decide)]
  exact Value.shown_bind fun name =>
    Value.text (name ++ "=" ++ ("node:" ++ index ++ "(" ++ query ++ ")"))

/-! ## Reading back -/

/-- A text given as a literal is written as it is between double quotes: as an operand of a
comparison with a property, whichever side it stands on and if the comparison is negated or not,
and as the value of a look-up. Wherever this token stands, it reads back as the text exactly if the
text has no double quote and no backslash, where the token of a literal in a clause always does. At
a double quote it is over, and the query goes on with what the text has behind it. -/
theorem literal_reads_iff (text : String) :
    (∀ (b : Block) (slot : Nat) (key : Operand) (operator : Operator),
      (b.compare operator (.property slot key) (.value (.text text))).1 =
        .ok (.fragment b.serials (textFilter slot key operator text false)) ∧
      (b.compare operator (.value (.text text)) (.property slot key)).1 =
        .ok (.fragment b.serials (textFilter slot key operator.exchanged text false)) ∧
      ∀ (negation : Negation) (serial : Nat) (negated : Bool),
        (b.negate negation (.fragment serial (textFilter slot key operator text negated))).1 =
          .ok (.fragment b.serials (textFilter slot key operator text true))) ∧
    (∀ (s : Scope) (m : Manner) (slot : Nat) (key : Operand) (operator : Operator) (negated : Bool)
      (left : Value), m ≠ .shown → operator ≠ .matching →
      (Operand.property slot key).write s .literal = .ok left →
        (textFilter slot key operator text negated).write s m =
          .ok (.text (phrase negated left.display operator (enclosed text)))) ∧
    (∀ (b : Block) (r : Resolver) (key o : Operand),
      (b.lookup r key (.value (.text text))).1 = .ok o →
        ∃ index name, o = .fragment b.serials
          (.start b.names.length (.lookup (some index) (name ++ "=" ++ enclosed text))) ∧
        ∀ s : Scope, o.write s .plain = (s.name b.names.length).written
          (.text ((s.name b.names.length).display ++ "=" ++
            ("node:" ++ index ++ "(" ++ (name ++ "=" ++ enclosed text) ++ ")")))) ∧
    ∀ (e : Escapes) (rest : String),
      e.read (textLiteral text ++ rest).toList = some (text.toList, rest.toList) ∧
      (e.read (enclosed text ++ rest).toList = some (text.toList, rest.toList) ↔
        '"' ∉ text.toList ∧ '\\' ∉ text.toList) ∧
      ∀ front back, text = front ++ "\"" ++ back → '"' ∉ front.toList → '\\' ∉ front.toList →
        e.read (enclosed text ++ rest).toList =
          some (front.toList, (back ++ "\"" ++ rest).toList) := by
  refine ⟨fun b slot key operator => ⟨?_, ?_, ?_⟩, ?_, fun b r key o h => ?_, fun e rest => ?_⟩
  · exact compare_text b slot key operator text
  · exact compare_text_left b slot key operator text
  · intro negation serial negated
    exact negate_text b negation serial slot key operator text negated
  · exact fun s m slot key operator negated left hm hoperator hleft =>
      write_textFilter hm hoperator text negated hleft
  · obtain ⟨index, name, rfl⟩ := lookup_text h
    exact ⟨index, name, rfl, fun s => write_lookup s _ index _⟩
  · refine ⟨?_, e.read_enclosed_iff text rest, fun front back hs hquote hbackslash => ?_⟩
    · rw [String.toList_append, e.read_textLiteral]
    · exact e.read_enclosed_of_quote hs hquote hbackslash rest

/-- People are found by their names. -/
def people : Resolver := ⟨"Person", [(.text "name", .text "exact")], none⟩

theorem plainLiteral_reads :
    (∃ index name, (empty.lookup people (.value (.text "name")) (.value (.text "Ann"))).1 =
      .ok (.fragment 0 (.start 0 (.lookup (some index) (name ++ "=" ++ enclosed "Ann"))))) ∧
    (textFilter 0 (.value (.text "name")) .equal "Ann" true).write
      (Block.scope ⟨[.text "n0"], [], [], [], 0⟩) .plain =
        .ok (.text ("not (n0.name = " ++ enclosed "Ann" ++ ")")) ∧
    ∀ e : Escapes, e.read (enclosed "Ann" ++ ")").toList = some ("Ann".toList, ")".toList) := by
  obtain ⟨-, hfilter, hlookup, hread⟩ := literal_reads_iff "Ann"
  refine ⟨?_, ?_, fun e => (hread e ")").2.1.2 (by decide)⟩
  · obtain ⟨index, name, ho, -⟩ := hlookup empty people (.value (.text "name")) _ rfl
    exact ⟨index, name, congrArg Except.ok ho⟩
  · exact hfilter _ .plain 0 _ .equal true (.text "n0.name") (by decide) (by decide) rfl

/-- A property compared with a text that has a double quote in it. -/
def brokenLiteral : List Step :=
  [⟨.node, none, [.value (.int 1)]⟩,
   ⟨.property, some 0, [.value (.text "name")]⟩,
   ⟨.compare .equal, some 1, [.value (.text "a\"b")]⟩]

theorem brokenLiteral_not_read :
    (finish brokenLiteral (.value .null)).text =
      .ok ("START n0=node(1) WHERE (n0.name = " ++ (enclosed "a\"b" ++ ")")) ∧
    ∀ e : Escapes, e.read (enclosed "a\"b" ++ ")").toList ≠ some ("a\"b".toList, ")".toList) := by
  refine ⟨rfl, fun e => ?_⟩
  rw [Ne, e.read_enclosed_iff]
  decide

end GraphQuery.Block
