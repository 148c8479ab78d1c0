import GraphQuery.Proofs.Query.Acceptance

/-!
# Regrouped arguments

A clause method does the same whether its arguments come at once, with lists and tuples around them,
or one by one, and a mapping says the same as one mapping for each of its entries. Named arguments
are one more mapping, but none of them can be called as the query itself is among the parameters.
-/
namespace GraphQuery

/-! ## Lists around arguments -/

/-- An argument with lists and tuples around it and others, at any depth. -/
inductive Nesting where
  | bare (v : Value)
  | list (items : List Nesting)
  | tuple (items : List Nesting)

mutual

def Nesting.value : Nesting → Value
  | .bare v => v
  | .list items => .list (nestedValues items)
  | .tuple items => .tuple (nestedValues items)
termination_by structural n => n

def nestedValues : List Nesting → List Value
  | [] => []
  | n :: ns => n.value :: nestedValues ns
termination_by structural ns => ns

end

mutual

/-- The arguments without the lists and tuples around them. -/
def Nesting.arguments : Nesting → List Value
  | .bare v => [v]
  | .list items => nestedArguments items
  | .tuple items => nestedArguments items
termination_by structural n => n

def nestedArguments : List Nesting → List Value
  | [] => []
  | n :: ns => n.arguments ++ nestedArguments ns
termination_by structural ns => ns

end

namespace Clause

theorem flattenAll_singleton (v : Value) : flattenAll [v] = flatten v := List.append_nil _

mutual

theorem flatten_value (n : Nesting) : flatten n.value = flattenAll n.arguments := by
  cases n with
  | bare v => exact (flattenAll_singleton v).symm
  | list items => exact flattenAll_nestedValues items
  | tuple items => exact flattenAll_nestedValues items
termination_by structural n

theorem flattenAll_nestedValues (ns : List Nesting) :
    flattenAll (nestedValues ns) = flattenAll (nestedArguments ns) := by
  cases ns with
  | nil => rfl
  | cons n ns =>
    rw [nestedValues, nestedArguments, flattenAll, flattenAll_append, flatten_value n,
      flattenAll_nestedValues ns]
termination_by structural ns

end

theorem given_nestedValues (ns : List Nesting) :
    given (nestedValues ns) = given (nestedArguments ns) := by
  rw [given, given, flattenAll_nestedValues]

/-! ## Arguments one by one -/

theorem ofEach_append (kind : Kind) (replace : Bool) (args more : List Value) :
    ofEach kind replace (args ++ more) = (ofEach kind replace args).bind fun clauses =>
      (ofEach kind replace more).map (clauses ++ ·) := by
  induction args with
  | nil =>
    rw [List.nil_append, ofEach]
    cases ofEach kind replace more <;> rfl
  | cons v args ih =>
    rw [List.cons_append, ofEach, ofEach, ih]
    cases ofArgument kind replace v with
    | error f => rfl
    | ok c =>
      cases ofEach kind replace args with
      | error f => rfl
      | ok clauses => cases ofEach kind replace more <;> rfl

theorem ofArguments_append (kind : Kind) (replace : Bool) (args more : List Value) :
    ofArguments kind replace (args ++ more) =
      (ofArguments kind replace args).bind fun clauses =>
        (ofArguments kind replace more).map (clauses ++ ·) := by
  rw [ofArguments, ← given, given_append, ofEach_append]
  rfl

/-! ## Mappings entry by entry -/

/-- One mapping for each entry. -/
def eachEntry (entries : List (Value × Value)) : List Value := entries.map fun e => .map [e]

theorem eachEntry_cons (e : Value × Value) (entries : List (Value × Value)) :
    eachEntry (e :: entries) = .map [e] :: eachEntry entries := rfl

theorem given_eachEntry (entries : List (Value × Value)) :
    given (eachEntry entries) = eachEntry entries := by
  induction entries with
  | nil => rfl
  | cons e entries ih =>
    rw [eachEntry_cons, ← List.singleton_append, given_append, ih]
    rfl

theorem given_map {entries : List (Value × Value)} (h : entries ≠ []) :
    given [.map entries] = [.map entries] := by
  simp [given, flattenAll, flatten, hasContent, h]

/-- The texts of a single entry, behind its key. -/
def textsOf (kind : Kind) (replace : Bool) (e : Value × Value) : Except Fault (List String) :=
  e.1.shown.bind fun name => entryTexts kind replace name e.2

theorem entriesTexts_cons (kind : Kind) (replace : Bool) (e : Value × Value)
    (entries : List (Value × Value)) : entriesTexts kind replace (e :: entries) =
      (textsOf kind replace e).bind fun texts =>
        (entriesTexts kind replace entries).map (texts ++ ·) := by
  rw [entriesTexts, textsOf]
  cases e.1.shown with
  | error f => rfl
  | ok name =>
    simp only [bind, Except.bind]
    cases entryTexts kind replace name e.2 <;> rfl

theorem ofArgument_entry (kind : Kind) (replace : Bool) (e : Value × Value) :
    ofArgument kind replace (.map [e]) = (textsOf kind replace e).map (Clause.mk kind) := by
  rw [ofArgument, argumentTexts, entriesTexts_cons]
  cases textsOf kind replace e with
  | error f => rfl
  | ok texts => simp [entriesTexts, Except.bind, Except.map]

/-- The clauses of the entries have the texts of the mapping among them. -/
theorem entriesTexts_eq_eachEntry (kind : Kind) (replace : Bool) (entries : List (Value × Value)) :
    entriesTexts kind replace entries =
      (ofEach kind replace (eachEntry entries)).map fun clauses => clauses.flatMap (·.values) := by
  induction entries with
  | nil => rfl
  | cons e entries ih =>
    rw [entriesTexts_cons, ih, eachEntry_cons, ofEach, ofArgument_entry]
    cases textsOf kind replace e with
    | error f => rfl
    | ok texts => cases ofEach kind replace (eachEntry entries) <;> rfl

/-- No mapping with an entry counts rows. -/
theorem not_lastOnly_of_entriesTexts {kind : Kind} {replace : Bool}
    {entries : List (Value × Value)} {texts : List String} (hne : entries ≠ [])
    (h : entriesTexts kind replace entries = .ok texts) : kind.lastOnly = false := by
  obtain ⟨e, entries, rfl⟩ := List.exists_cons_of_ne_nil hne
  obtain ⟨-, first, hfirst, -⟩ := entriesTexts_cons_eq_ok.1 h
  cases kind with
  | limit | skip => cases hfirst
  | _ => rfl

/-- A clause may be split into several that have its values among them. -/
theorem groupText?_split {kind : Kind} (hkind : kind.lastOnly = false) {c : Clause}
    (hc : c.kind = kind) {others : List Clause} (hothers : ∀ d ∈ others, d.kind = kind)
    (hne : others ≠ []) (hvalues : others.flatMap (·.values) = c.values)
    (front back : List Clause) (k : Kind) :
    groupText? (front ++ c :: back) k = groupText? (front ++ others ++ back) k := by
  by_cases hk : kind = k
  · subst hk
    have hown : others.filter (·.kind = kind) = others := by rw [filter_of_kind hothers, if_pos rfl]
    have hcons : (c :: back).filter (·.kind = kind) = c :: back.filter (·.kind = kind) :=
      List.filter_cons_of_pos (by simpa using hc)
    simp only [groupText?, List.filter_append, hcons, hown]
    rw [if_neg (by simp), if_neg (by simp [hne])]
    simp [valueText, hkind, hvalues]
  · have hnone : others.filter (·.kind = k) = [] := by rw [filter_of_kind hothers, if_neg hk]
    simp only [groupText?, List.filter_append, hnone, List.append_nil]
    rw [List.filter_cons_of_neg (by simpa [hc] using hk)]

theorem partText_split {kind : Kind} (hkind : kind.lastOnly = false) {c : Clause}
    (hc : c.kind = kind) {others : List Clause} (hothers : ∀ d ∈ others, d.kind = kind)
    (hne : others ≠ []) (hvalues : others.flatMap (·.values) = c.values)
    (front back : List Clause) :
    partText (front ++ c :: back) = partText (front ++ others ++ back) := by
  have hgroup : groupText? (front ++ c :: back) = groupText? (front ++ others ++ back) :=
    funext (groupText?_split hkind hc hothers hne hvalues front back)
  rw [partText, partText, hgroup]

/-- A mapping and its entries are rejected alike or make clauses that are written alike. -/
theorem ofArguments_map_cases (kind : Kind) (replace : Bool) (entries : List (Value × Value)) :
    (∃ f, ofArguments kind replace [.map entries] = .error f ∧
      ofArguments kind replace (eachEntry entries) = .error f) ∨
    ∃ clauses others, ofArguments kind replace [.map entries] = .ok clauses ∧
      ofArguments kind replace (eachEntry entries) = .ok others ∧
      (clauses = [] ↔ others = []) ∧
      ∀ front back, partText (front ++ clauses ++ back) = partText (front ++ others ++ back) := by
  by_cases hne : entries = []
  · subst hne
    exact .inr ⟨[], [], rfl, rfl, .rfl, fun _ _ => rfl⟩
  have hmap : ofArguments kind replace [.map entries] =
      (entriesTexts kind replace entries).map fun texts => [⟨kind, texts⟩] := by
    rw [ofArguments, ← given, given_map hne, ofEach, ofArgument, argumentTexts]
    cases entriesTexts kind replace entries <;> rfl
  have heach : ofArguments kind replace (eachEntry entries) =
      ofEach kind replace (eachEntry entries) := by
    rw [ofArguments, ← given, given_eachEntry]
  have htexts := entriesTexts_eq_eachEntry kind replace entries
  cases hothers : ofEach kind replace (eachEntry entries) with
  | error f =>
    rw [hothers] at htexts
    exact .inl ⟨f, by rw [hmap, htexts]; rfl, by rw [heach, hothers]⟩
  | ok others =>
    rw [hothers] at htexts
    have hothersNe : others ≠ [] := by
      rintro rfl
      rw [ofEach_eq_ok_iff, List.forall₂_nil_right_iff, eachEntry, List.map_eq_nil_iff] at hothers
      exact hne hothers
    have hkinds : ∀ d ∈ others, d.kind = kind := fun d hd =>
      (ofArguments_spec (heach.trans hothers) d hd).1
    refine .inr ⟨_, others, by rw [hmap, htexts]; rfl, heach.trans hothers,
      by simp [hothersNe], fun front back => ?_⟩
    rw [List.append_assoc front]
    exact partText_split (not_lastOnly_of_entriesTexts hne htexts) rfl hkinds hothersNe rfl
      front back

end Clause

namespace Query

/-! ## Adding in several ways -/

/-- Only the arguments that count are added. -/
theorem add_congr {args others : List Value} (h : Clause.given args = Clause.given others)
    (q : Query) (kind : Clause.Kind) (replace : Bool) :
    q.add kind args replace = q.add kind others replace := by
  rw [add, add, Clause.ofArguments, Clause.ofArguments, ← Clause.given, ← Clause.given, h]

theorem given_collect (args : List Value) (named : List (String × Value)) :
    Clause.given (collect args named) = Clause.given args ++ Clause.given (collect [] named) := by
  rw [collect, collect]
  split
  · exact (List.append_nil _).symm
  · exact Clause.given_append _ _

theorem opening_of_ne {kind : Clause.Kind} (h : kind ≠ .carry) : opening kind = [] := if_neg h

theorem add_append {kind : Clause.Kind} (hkind : kind ≠ .carry) (q : Query) (replace : Bool)
    (args more : List Value) : q.add kind (args ++ more) replace =
      (q.add kind args replace).bind fun r => r.add kind more replace := by
  simp only [add, Clause.ofArguments_append, opening_of_ne hkind, List.nil_append]
  cases Clause.ofArguments kind replace args with
  | error f => rfl
  | ok clauses =>
    cases Clause.ofArguments kind replace more with
    | error f => rfl
    | ok others => simp [Except.map, Except.bind]

/-- The call of a clause method with a single argument. -/
def Call.single (kind : Clause.Kind) (replace : Bool) (v : Value) : Call :=
  ⟨.clause kind replace, ⟨[v], []⟩⟩

/-- Arguments may be given one by one, but to WITH. -/
theorem add_eq_calls {kind : Clause.Kind} (hkind : kind ≠ .carry) (q : Query) (replace : Bool)
    (args : List Value) : q.add kind args replace =
      q.calls (args.map (Call.single kind replace)) := by
  induction args generalizing q with
  | nil =>
    rw [add, opening_of_ne hkind]
    simp [Clause.ofArguments, Clause.flattenAll, Clause.ofEach, Except.map, calls, append]
  | cons v args ih =>
    rw [← List.singleton_append, add_append hkind, List.singleton_append, List.map_cons, calls,
      Call.single, call_clause]
    cases q.add kind [v] replace with
    | error f => rfl
    | ok r => exact ih r

/-- A mapping among the arguments may be split into its entries. -/
theorem text_add_eachEntry (q : Query) (kind : Clause.Kind) (replace : Bool)
    (front back : List Value) (entries : List (Value × Value)) :
    (q.add kind (front ++ .map entries :: back) replace).map text =
      (q.add kind (front ++ Clause.eachEntry entries ++ back) replace).map text := by
  rw [add, add, ← List.singleton_append, List.append_assoc front, Clause.ofArguments_append,
    Clause.ofArguments_append, Clause.ofArguments_append, Clause.ofArguments_append]
  cases Clause.ofArguments kind replace front with
  | error f => rfl
  | ok before =>
    rcases Clause.ofArguments_map_cases kind replace entries with
      ⟨f, hmap, heach⟩ | ⟨clauses, others, hmap, heach, hnil, htext⟩
    · rw [hmap, heach]
    · rw [hmap, heach]
      cases Clause.ofArguments kind replace back with
      | error f => rfl
      | ok after =>
        have hpart : ∀ front, Clause.partText (front ++ (before ++ (clauses ++ after))) =
            Clause.partText (front ++ (before ++ (others ++ after))) := by
          intro front
          simpa only [List.append_assoc] using htext (front ++ before) after
        have hquery := text_append_congr_of_partText (q.append (opening kind))
          (by simp [hnil]) hpart
        rw [append_append, append_append] at hquery
        exact congrArg Except.ok hquery

/-! ## Named arguments -/

section Named

variable {kind : Clause.Kind} {replace : Bool}

theorem takesName_clause (name : String) :
    (Method.clause kind replace).signature.any (·.takesName name) = ("self" == name) := by
  simp [Method.signature, Method.parameters, Parameter.takesName]

/-- All named arguments go into the mapping, unless one has the name of the query itself. -/
theorem distribute_clause {unfilled : Signature}
    (hunfilled : ∀ name, unfilled.any (·.takesName name) = false) (named : List (String × Value)) :
    Signature.distribute (Method.clause kind replace).signature unfilled named =
      if "self" ∈ named.map Prod.fst then none else some ([], named) := by
  induction named with
  | nil => rfl
  | cons entry named ih =>
    have hdestination : Signature.destination (Method.clause kind replace).signature unfilled
        entry.1 = if "self" = entry.1 then .nowhere else .rest := by
      rw [Signature.destination, hunfilled, takesName_clause]
      by_cases hname : "self" = entry.1
      · simp [hname]
      · simp [hname, Method.signature, Method.parameters]
    rw [Signature.distribute, hdestination, ih, List.map_cons]
    by_cases hname : "self" = entry.1
    · simp [hname]
    · by_cases hmem : "self" ∈ named.map Prod.fst <;> simp [hname, hmem]

/-- A clause method takes any named arguments but one for the query itself. -/
theorem bindAll_clause (args : List Value) (named : List (String × Value)) :
    (Method.clause kind replace).signature.bindAll ⟨.null :: args, named⟩ = none ↔
      "self" ∈ named.map Prod.fst := by
  obtain ⟨rest, unfilled, hfill, hunfilled⟩ : ∃ rest unfilled,
      Signature.fill (Method.clause kind replace).signature (.null :: args) =
        some (("self", .null) :: rest, unfilled) ∧
      ∀ name, unfilled.any (·.takesName name) = false := by
    cases args with
    | nil => exact ⟨_, _, rfl, fun name => by simp [Method.parameters, Parameter.takesName]⟩
    | cons v args => exact ⟨_, _, rfl, fun name => by simp [Parameter.takesName]⟩
  rw [Signature.bindAll, Signature.bindSome, hfill]
  simp only [distribute_clause hunfilled]
  by_cases hself : "self" ∈ named.map Prod.fst
  · simp [hself]
  · have hcomplete (bound : Bindings) : Signature.Complete (Method.clause kind replace).signature
        (("self", .null) :: bound) := by
      simp [Signature.Complete, Method.signature, Method.parameters, Parameter.required]
    simp [hself, hcomplete]

theorem namedMisfit_clause (names all : List String) :
    Signature.namedMisfit? (Method.clause kind replace).signature [⟨"self", .either, false⟩] all
      names = if "self" ∈ names then some (.repeated "self") else none := by
  induction names with
  | nil => rfl
  | cons name names ih =>
    have hrest : (Method.clause kind replace).signature.any (·.passing == .restOfNamed) = true :=
      rfl
    rw [Signature.namedMisfit?, hrest, ih]
    by_cases hname : "self" = name
    · simp [Parameter.takesName, ← hname]
    · simp [Parameter.takesName, hname]

theorem call_of_self {named : List (String × Value)} (h : "self" ∈ named.map Prod.fst) (q : Query)
    (args : List Value) : q.call (.clause kind replace) ⟨args, named⟩ =
      .error (.misfit (Method.clause kind replace).name (.repeated "self")) := by
  have hmisfit : (Method.clause kind replace).signature.misfit ⟨.null :: args, named⟩ =
      .repeated "self" := by
    have hplaces : (Method.clause kind replace).signature.filter Parameter.takesPosition =
        [⟨"self", .either, false⟩] := rfl
    simp only [Signature.misfit, hplaces, List.length_cons, List.take_succ_cons, List.take_nil,
      namedMisfit_clause, if_pos h]
  simp only [call, (bindAll_clause args named).2 h, hmisfit]

theorem call_of_not_self {named : List (String × Value)} (h : "self" ∉ named.map Prod.fst)
    (q : Query) (args : List Value) : q.call (.clause kind replace) ⟨args, named⟩ =
      q.add kind (collect args named) replace := by
  simp only [call]
  split
  · next hbind => exact absurd ((bindAll_clause args named).1 hbind) h
  · rfl

end Named

/-! ## Calls in several ways -/

/-- However the arguments of a clause method are grouped, the outcome is the same: with lists and
tuples around them, as single calls but for WITH, and with the named ones as a mapping behind the
others. A mapping among them may also be split into its entries, which leaves the text as it was.
A named argument cannot have the name of the query itself. -/
theorem regrouped_calls_agree (q : Query) (kind : Clause.Kind) (replace : Bool)
    (args : List Value) (named : List (String × Value)) :
    (∀ ns, nestedArguments ns = args →
      q.call (.clause kind replace) ⟨nestedValues ns, named⟩ =
        q.call (.clause kind replace) ⟨args, named⟩) ∧
    ("self" ∈ named.map Prod.fst → q.call (.clause kind replace) ⟨args, named⟩ =
      .error (.misfit (Method.clause kind replace).name (.repeated "self"))) ∧
    ("self" ∉ named.map Prod.fst →
      (∀ ns, nestedArguments ns = collect args named →
        q.call (.clause kind replace) ⟨nestedValues ns, []⟩ =
          q.call (.clause kind replace) ⟨args, named⟩) ∧
      (kind ≠ .carry → q.calls ((collect args named).map (Call.single kind replace)) =
        q.call (.clause kind replace) ⟨args, named⟩) ∧
      ∀ ns front entries back, nestedValues ns = collect args named →
        nestedArguments ns = front ++ .map entries :: back →
          ∀ ms, nestedArguments ms = front ++ Clause.eachEntry entries ++ back →
            (q.call (.clause kind replace) ⟨nestedValues ms, []⟩).map text =
              (q.call (.clause kind replace) ⟨args, named⟩).map text) := by
  refine ⟨fun ns hargs => ?_, fun hself => call_of_self hself q args,
    fun hself => ⟨fun ns hns => ?_, fun hkind => ?_, ?_⟩⟩
  · by_cases hself : "self" ∈ named.map Prod.fst
    · rw [call_of_self hself, call_of_self hself]
    · have hgiven : Clause.given (collect (nestedValues ns) named) =
          Clause.given (collect args named) := by
        rw [given_collect, given_collect args, Clause.given_nestedValues, hargs]
      rw [call_of_not_self hself, call_of_not_self hself, add_congr hgiven]
  · rw [call_clause, call_of_not_self hself, add_congr (Clause.given_nestedValues ns), hns]
  · rw [call_of_not_self hself, add_eq_calls hkind]
  · intro ns front entries back hvalues harguments ms hms
    rw [call_clause, call_of_not_self hself, ← hvalues, add_congr (Clause.given_nestedValues ms),
      add_congr (Clause.given_nestedValues ns), hms, harguments, text_add_eachEntry]

/-- Nodes to be created. -/
def places : List Value :=
  [.text "", .text "(a)",
    .map [(.text "b", .text "Person"), (.text "c", .list [.text "City", .text "Place"])]]

/-- The same nodes, with a tuple and lists around them. -/
def nestedPlaces : List Nesting :=
  [.tuple [.bare (.text ""), .list [.bare (.text "(a)"), .tuple []]],
    .list [.bare (.map [(.text "b", .text "Person"),
      (.text "c", .list [.text "City", .text "Place"])])]]

/-- The same nodes and another one, each in a mapping of its own. -/
def listedPlaces : List Nesting :=
  [.bare (.text ""), .bare (.text "(a)"), .bare (.map [(.text "b", .text "Person")]),
    .bare (.map [(.text "c", .list [.text "City", .text "Place"])]),
    .bare (.map [(.text "d", .text "Day")])]

theorem places_agree :
    carried.call (.clause .creation false) ⟨nestedValues nestedPlaces, [("d", .text "Day")]⟩ =
      carried.call (.clause .creation false) ⟨places, [("d", .text "Day")]⟩ ∧
    carried.calls ((collect places [("d", .text "Day")]).map (Call.single .creation false)) =
      carried.call (.clause .creation false) ⟨places, [("d", .text "Day")]⟩ ∧
    (carried.call (.clause .creation false) ⟨nestedValues listedPlaces, []⟩).map text =
      .ok "MATCH (a) WITH a CREATE (a), (b:Person), (c:City:Place), (d:Day)" := by
  have hagree := regrouped_calls_agree carried .creation false places [("d", .text "Day")]
  obtain ⟨-, hcalls, hsplit⟩ := hagree.2.2 (by decide)
  exact ⟨hagree.1 nestedPlaces rfl, hcalls (by decide),
    (hsplit ((collect places [("d", .text "Day")]).map .bare) (places.take 2) _
      [.map [(.text "d", .text "Day")]] rfl rfl listedPlaces rfl).trans rfl⟩

/-- A mapping that names a node like the query can only be given as an argument. -/
theorem named_self_not_regrouped :
    (Query.mk none []).call (.clause .pattern false) ⟨[], [("self", .text "Person")]⟩ =
      .error (.misfit "Query.match" (.repeated "self")) ∧
    ((Query.mk none []).calls ((collect [] [("self", .text "Person")]).map
      (Call.single .pattern false))).map text = .ok "MATCH (self:Person)" :=
  ⟨rfl, rfl⟩

end Query
end GraphQuery
