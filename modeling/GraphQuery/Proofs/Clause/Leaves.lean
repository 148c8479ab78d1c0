import GraphQuery.Proofs.Clause.Conditions
import GraphQuery.Proofs.Query.Regrouping
import Mathlib.Data.List.Lex

/-!
# Leaves of mappings

A leaf of a mapping is a value at some depth that is no mapping itself, and is known by the places
of the entries that lead to it. A mapping asks one condition of each leaf, in the order of their
places, under the keys on the way with dots between them. A mapping within another one asks there
what it asks on its own, with the keys that lead to it in front.
-/
namespace GraphQuery

/-! ## Leaves -/

/-- What the places lead to, each of them counted from the front of a mapping, and the keys on the
way, from the outermost on. -/
def Value.follow? : Value → List Nat → Option (List Value × Value)
  | v, [] => some ([], v)
  | .map entries, i :: place =>
    entries[i]?.bind fun e => (e.2.follow? place).map fun found => (e.1 :: found.1, found.2)
  | _, _ :: _ => none

structure Leaf where
  place : List Nat
  path : List Value
  value : Value

namespace Leaf

/-- The leaf of a value as one of a mapping that has the value under the key. -/
def under (i : Nat) (key : Value) (l : Leaf) : Leaf := ⟨i :: l.place, key :: l.path, l.value⟩

/-- The leaf of a value to which the places lead. -/
def behind (place : List Nat) (path : List Value) (l : Leaf) : Leaf :=
  ⟨place ++ l.place, path ++ l.path, l.value⟩

end Leaf

mutual

/-- The leaves of the mappings among the entries and of those within them, depth first. -/
def Value.leaves : Value → List Leaf
  | .map entries => leavesFrom 0 entries
  | v => [⟨[], [], v⟩]
termination_by structural v => v

/-- The leaves of entries, the first of which is at the given place. -/
def leavesFrom (i : Nat) : List (Value × Value) → List Leaf
  | [] => []
  | (key, v) :: entries => v.leaves.map (Leaf.under i key) ++ leavesFrom (i + 1) entries
termination_by structural entries => entries

end

theorem leaves_of_not_isMap {v : Value} (h : v.isMap = false) : v.leaves = [⟨[], [], v⟩] := by
  cases v with
  | map entries => cases h
  | _ => rfl

theorem exists_place_of_mem_leavesFrom {i : Nat} {entries : List (Value × Value)} {l : Leaf}
    (h : l ∈ leavesFrom i entries) :
    ∃ j place key path, i ≤ j ∧ l.place = j :: place ∧ l.path = key :: path := by
  induction entries generalizing i with
  | nil => cases h
  | cons entry entries ih =>
    obtain ⟨key, v⟩ := entry
    rw [leavesFrom, List.mem_append] at h
    rcases h with h | h
    · obtain ⟨m, -, rfl⟩ := List.mem_map.1 h
      exact ⟨i, m.place, key, m.path, le_rfl, rfl, rfl⟩
    · obtain ⟨j, place, key, path, hj, hplace, hpath⟩ := ih h
      exact ⟨j, place, key, path, by omega, hplace, hpath⟩

mutual

/-- The places of the leaves ascend. -/
theorem pairwise_leaves (v : Value) : v.leaves.Pairwise fun l m => l.place < m.place := by
  cases v with
  | map entries => exact pairwise_leavesFrom 0 entries
  | _ => exact List.pairwise_singleton _ _
termination_by structural v

theorem pairwise_leavesFrom (i : Nat) (entries : List (Value × Value)) :
    (leavesFrom i entries).Pairwise fun l m => l.place < m.place := by
  cases entries with
  | nil => exact .nil
  | cons entry entries =>
    obtain ⟨key, v⟩ := entry
    rw [leavesFrom, List.pairwise_append, List.pairwise_map]
    refine ⟨(pairwise_leaves v).imp fun h => List.cons_lt_cons_iff.2 (.inr ⟨rfl, h⟩),
      pairwise_leavesFrom (i + 1) entries, fun l hl m hm => ?_⟩
    obtain ⟨l, -, rfl⟩ := List.mem_map.1 hl
    obtain ⟨j, place, -, -, hj, hplace, -⟩ := exists_place_of_mem_leavesFrom hm
    rw [hplace]
    exact List.cons_lt_cons_iff.2 (.inl (by omega))
termination_by structural entries

end

mutual

/-- The places of a leaf lead to it, and it is no mapping. -/
theorem follow?_of_mem_leaves (v : Value) {l : Leaf} (h : l ∈ v.leaves) :
    v.follow? l.place = some (l.path, l.value) ∧ l.value.isMap = false := by
  cases v with
  | map entries =>
    obtain ⟨j, place, hplace, hfound, hleaf⟩ := follow?_of_mem_leavesFrom 0 entries h
    rw [hplace, Nat.zero_add]
    exact ⟨hfound, hleaf⟩
  | _ =>
    rw [List.mem_singleton.1 h]
    exact ⟨rfl, rfl⟩
termination_by structural v

theorem follow?_of_mem_leavesFrom (i : Nat) (entries : List (Value × Value)) {l : Leaf}
    (h : l ∈ leavesFrom i entries) : ∃ j place, l.place = (i + j) :: place ∧
      (Value.map entries).follow? (j :: place) = some (l.path, l.value) ∧
      l.value.isMap = false := by
  cases entries with
  | nil => cases h
  | cons entry entries =>
    obtain ⟨key, v⟩ := entry
    rw [leavesFrom, List.mem_append] at h
    rcases h with h | h
    · obtain ⟨m, hm, rfl⟩ := List.mem_map.1 h
      obtain ⟨hfound, hleaf⟩ := follow?_of_mem_leaves v hm
      refine ⟨0, m.place, rfl, ?_, hleaf⟩
      simp [Value.follow?, hfound, Leaf.under]
    · obtain ⟨j, place, hplace, hfound, hleaf⟩ := follow?_of_mem_leavesFrom (i + 1) entries h
      refine ⟨j + 1, place, by rw [hplace, Nat.add_right_comm]; rfl, ?_, hleaf⟩
      simpa [Value.follow?] using hfound
termination_by structural entries

end

/-- The leaves at places that begin with a given one and go on from it are those of the entry
there. -/
theorem filter_leavesFrom {entries : List (Value × Value)} {j : Nat} {e : Value × Value}
    (h : entries[j]? = some e) (place : List Nat) (i : Nat) :
    (leavesFrom i entries).filter (fun l => (i + j) :: place <+: l.place) =
      (e.2.leaves.filter fun m => place <+: m.place).map (Leaf.under (i + j) e.1) := by
  induction entries generalizing i j with
  | nil => cases h
  | cons entry entries ih =>
    obtain ⟨key, v⟩ := entry
    rw [leavesFrom, List.filter_append, List.filter_map]
    -- only the entry at the place itself has leaves behind it
    cases j with
    | zero =>
      obtain rfl : (key, v) = e := Option.some.inj h
      have hrest : (leavesFrom (i + 1) entries).filter (fun l => (i + 0) :: place <+: l.place) =
          [] := by
        refine List.filter_eq_nil_iff.2 fun l hl => ?_
        obtain ⟨k, rest, -, -, hk, hplace, -⟩ := exists_place_of_mem_leavesFrom hl
        have hne : i ≠ k := by omega
        simp [hplace, List.cons_prefix_cons, hne]
      rw [hrest, List.append_nil]
      congr 1
      refine List.filter_congr fun m _ => ?_
      simp [Leaf.under, List.cons_prefix_cons]
    | succ j =>
      have hfirst : v.leaves.filter
          ((fun l => decide ((i + (j + 1)) :: place <+: l.place)) ∘ Leaf.under i key) = [] := by
        refine List.filter_eq_nil_iff.2 fun m _ => ?_
        simp [Leaf.under, List.cons_prefix_cons]
      rw [hfirst, List.map_nil, List.nil_append]
      have hrest := ih (j := j) h (i + 1)
      rwa [Nat.add_right_comm i 1 j] at hrest

/-- The leaves of a value within another one are those of the other one whose places go on from
it. -/
theorem filter_leaves {v w : Value} {place : List Nat} {path : List Value}
    (h : v.follow? place = some (path, w)) :
    v.leaves.filter (fun l => place <+: l.place) = w.leaves.map (Leaf.behind place path) := by
  induction place generalizing v path with
  | nil =>
    rw [Value.follow?.eq_def] at h
    cases h
    have hself : Leaf.behind [] [] = id := rfl
    simp [hself]
  | cons i place ih =>
    cases v with
    | map entries =>
      simp only [Value.follow?, Option.bind_eq_some_iff, Option.map_eq_some_iff] at h
      obtain ⟨e, he, found, hfound, heq⟩ := h
      cases heq
      have hentry := filter_leavesFrom he place 0
      rw [Nat.zero_add] at hentry
      rw [Value.leaves, hentry, ih hfound, List.map_map]
      rfl
    | _ => cases h

/-- The leaves are all that places lead to and that is no mapping. -/
theorem mem_leaves_iff {v : Value} {l : Leaf} :
    l ∈ v.leaves ↔ v.follow? l.place = some (l.path, l.value) ∧ l.value.isMap = false := by
  refine ⟨fun h => follow?_of_mem_leaves v h, fun ⟨hfound, hleaf⟩ => ?_⟩
  have hwithin := filter_leaves hfound
  rw [leaves_of_not_isMap hleaf, List.map_singleton] at hwithin
  have hmem : l ∈ v.leaves.filter fun m => l.place <+: m.place := by
    rw [hwithin, Leaf.behind, List.append_nil, List.append_nil]
    exact List.mem_singleton_self l
  exact (List.mem_filter.1 hmem).1

/-! ## Conditions of leaves -/

/-- The keys with dots between them. -/
def dotted (path : List Value) : String := Text.join "." (path.map Value.display)

theorem dotted_append {path more : List Value} (h : path ≠ []) (h' : more ≠ []) :
    dotted (path ++ more) = dotted path ++ "." ++ dotted more := by
  rw [dotted, List.map_append, Text.join_append (by simpa using h) (by simpa using h')]
  rfl

/-- What a value that is no mapping asks of the key in front of it. -/
def Value.demand : Value → String
  | .list items | .tuple items => " IN " ++ Value.literal (.list items)
  | .null => " IS NULL"
  | .regex pattern => " =~ " ++ textLiteral pattern
  | .range p => Clause.rangeText "" p
  | v => " = " ++ v.literal

/-- What a mapping asks of a leaf. -/
def Leaf.condition (l : Leaf) : String := dotted l.path ++ l.value.demand

namespace Clause

theorem rangeText_eq_append (key : String) (p : Progression) :
    rangeText key p = key ++ rangeText "" p := by
  rw [rangeText, rangeText]
  split
  · simp
  · simp only [String.append_assoc, String.empty_append]

theorem texts_of_not_isMap {v : Value} (h : v.isMap = false) {key : String} {texts : List String}
    (hok : conditionTexts key v = .ok texts) : texts = [key ++ v.demand] := by
  cases v with
  | map entries => cases h
  | range p =>
    obtain ⟨text, htext, rfl⟩ := map_eq_ok.1 hok
    obtain ⟨-, rfl⟩ := rangeCondition_eq_ok.1 htext
    exact congrArg (fun text => [text]) (rangeText_eq_append key p)
  | list | tuple | int =>
    obtain ⟨-, rfl⟩ := Value.written_eq_ok.1 hok
    simp [Value.demand, String.append_assoc]
  | _ =>
    cases hok
    simp [Value.demand, String.append_assoc]

/-- The keys that lead on from a key. -/
def extended (key : String) (path : List Value) : String :=
  Text.join "." (key :: path.map Value.display)

theorem extended_cons (key : String) (name : Value) (path : List Value) :
    extended key (name :: path) = extended (key ++ "." ++ name.display) path := by
  rw [extended, extended, List.map_cons]
  cases path <;> simp [Text.join, String.append_assoc]

mutual

theorem texts_of_conditionTexts {key : String} (v : Value) {texts : List String}
    (h : conditionTexts key v = .ok texts) :
    texts = v.leaves.map fun l => extended key l.path ++ l.value.demand := by
  cases v with
  | map entries => exact texts_of_conditionEntryTexts 0 entries h
  | _ => exact texts_of_not_isMap rfl h
termination_by structural v

theorem texts_of_conditionEntryTexts {key : String} (i : Nat) (entries : List (Value × Value))
    {texts : List String} (h : conditionEntryTexts key entries = .ok texts) :
    texts = (leavesFrom i entries).map fun l => extended key l.path ++ l.value.demand := by
  cases entries with
  | nil =>
    cases h
    rfl
  | cons entry entries =>
    obtain ⟨name, v⟩ := entry
    obtain ⟨-, first, hfirst, rest, hrest, rfl⟩ := conditionEntryTexts_cons_eq_ok.1 h
    rw [texts_of_conditionTexts v hfirst, texts_of_conditionEntryTexts (i + 1) entries hrest,
      leavesFrom, List.map_append, List.map_map]
    congr 1
    exact List.map_congr_left fun l _ =>
      congrArg (· ++ l.value.demand) (extended_cons key name l.path).symm
termination_by structural entries

end

theorem texts_of_entriesTexts {replace : Bool} (i : Nat) {entries : List (Value × Value)}
    {texts : List String} (h : entriesTexts .condition replace entries = .ok texts) :
    texts = (leavesFrom i entries).map Leaf.condition := by
  induction entries generalizing i texts with
  | nil =>
    cases h
    rfl
  | cons entry entries ih =>
    obtain ⟨key, v⟩ := entry
    obtain ⟨-, first, hfirst, rest, hrest, rfl⟩ := entriesTexts_cons_eq_ok.1 h
    rw [ih (i + 1) hrest, texts_of_conditionTexts v hfirst, leavesFrom, List.map_append,
      List.map_map]
    rfl

/-- WHERE takes a text or a mapping if the conditions on it can be written. -/
theorem accepts_condition {v : Value} (h : hasShape .condition v) :
    accepts .condition v = v.isAskable := by
  cases v with
  | text => rfl
  | map entries =>
    rw [accepts, Value.isAskable]
    clear h
    induction entries with
    | nil => rfl
    | cons entry entries ih =>
      rw [List.all_cons, ih, areAskable, takes, fits, Bool.and_true]
      rfl
  | _ => cases h

/-- A mapping whose conditions can be written asks those of its leaves, at any depth and in
order. -/
theorem argumentTexts_eq_conditions (replace : Bool) {entries : List (Value × Value)}
    (h : areAskable entries) : argumentTexts .condition replace (.map entries) =
      .ok ((Value.map entries).leaves.map Leaf.condition) := by
  have hshape : hasShape .condition (.map entries) := List.all_eq_true.2 fun _ _ => rfl
  obtain ⟨texts, htexts⟩ := (argumentTexts_decided .condition replace (.map entries)).texts
    ((accepts_condition hshape).trans h)
  rw [htexts, texts_of_entriesTexts 0 htexts]
  rfl

theorem path_ne_nil_of_mem_leaves {entries : List (Value × Value)} {l : Leaf}
    (h : l ∈ (Value.map entries).leaves) : l.path ≠ [] := by
  obtain ⟨-, -, key, path, -, -, hpath⟩ := exists_place_of_mem_leavesFrom h
  rw [hpath]
  exact List.cons_ne_nil key path

/-- The conditions of a mapping within another one, behind the keys that lead to it. -/
theorem conditions_within {v : Value} {place : List Nat} {path : List Value}
    {sub : List (Value × Value)} (h : v.follow? place = some (path, .map sub)) (hpath : path ≠ []) :
    (v.leaves.filter fun l => place <+: l.place).map Leaf.condition =
      ((Value.map sub).leaves.map Leaf.condition).map (dotted path ++ "." ++ ·) := by
  rw [filter_leaves h, List.map_map, List.map_map]
  refine List.map_congr_left fun l hl => ?_
  have hkeys := dotted_append hpath (path_ne_nil_of_mem_leaves hl)
  simp only [Function.comp_apply, Leaf.condition, Leaf.behind, hkeys, String.append_assoc]

end Clause

theorem Value.path_ne_nil_of_follow? {v w : Value} {place : List Nat} {path : List Value}
    (h : v.follow? place = some (path, w)) (hplace : place ≠ []) : path ≠ [] := by
  cases place with
  | nil => exact absurd rfl hplace
  | cons i place =>
    cases v with
    | map entries =>
      simp only [Value.follow?, Option.bind_eq_some_iff, Option.map_eq_some_iff] at h
      obtain ⟨e, -, found, -, heq⟩ := h
      cases heq
      exact List.cons_ne_nil _ _
    | _ => cases h

theorem Value.isAskable_of_follow? {v w : Value} {place : List Nat} {path : List Value}
    (h : v.isAskable) (hfound : v.follow? place = some (path, w)) : w.isAskable := by
  induction place generalizing v path with
  | nil =>
    rw [Value.follow?.eq_def] at hfound
    cases hfound
    exact h
  | cons i place ih =>
    cases v with
    | map entries =>
      simp only [Value.follow?, Option.bind_eq_some_iff, Option.map_eq_some_iff] at hfound
      obtain ⟨e, he, found, hfound, heq⟩ := hfound
      cases heq
      exact ih (areAskable_iff.1 h e (List.mem_of_getElem? he)).2 hfound
    | _ => cases hfound

/-! ## Mappings given to WHERE -/

/-- The texts are one condition for each leaf of the mapping, in the order of their places, which
are all that lead to something other than a mapping. Those of a mapping within it are what that one
gives on its own, behind the keys that lead to it. -/
structure AsksLeaves (entries : List (Value × Value)) (texts : List String) : Prop where
  conditions : texts = (Value.map entries).leaves.map Leaf.condition
  ascending : (Value.map entries).leaves.Pairwise fun l m => l.place < m.place
  complete : ∀ l : Leaf, l ∈ (Value.map entries).leaves ↔
    (Value.map entries).follow? l.place = some (l.path, l.value) ∧ l.value.isMap = false
  within : ∀ place path sub, place ≠ [] →
    (Value.map entries).follow? place = some (path, .map sub) →
      ∃ own, Clause.argumentTexts .condition false (.map sub) = .ok own ∧
        ((Value.map entries).leaves.filter fun l => place <+: l.place).map Leaf.condition =
          own.map (dotted path ++ "." ++ ·)

theorem asksLeaves {entries : List (Value × Value)} (h : areAskable entries) :
    AsksLeaves entries ((Value.map entries).leaves.map Leaf.condition) where
  conditions := rfl
  ascending := pairwise_leaves _
  complete := fun _ => mem_leaves_iff
  within := fun _ _ _ hplace hfound =>
    have hmap : (Value.map entries).isAskable := h
    ⟨_, Clause.argumentTexts_eq_conditions false (Value.isAskable_of_follow? hmap hfound),
      Clause.conditions_within hfound (Value.path_ne_nil_of_follow? hfound hplace)⟩

namespace Query

open Clause (given accepts hasShape)

/-- A call of WHERE with texts and mappings succeeds if the conditions on all of them can be
written. -/
theorem call_condition (q : Query) {args : List Value} {named : List (String × Value)}
    (hself : "self" ∉ named.map Prod.fst)
    (hargs : ∀ v ∈ given (collect args named), hasShape .condition v)
    (haskable : ∀ v ∈ given (collect args named), v.isAskable) :
    ∃ clauses, q.call (.clause .condition false) ⟨args, named⟩ =
        .ok (q.append (clauses.map some)) ∧
      List.Forall₂ (fun v c => ∀ entries, v = .map entries → areAskable entries ∧
        c = ⟨.condition, (Value.map entries).leaves.map Leaf.condition⟩)
        (given (collect args named)) clauses := by
  have haccepts : ∀ v ∈ given (collect args named), accepts .condition v := fun v hv =>
    (Clause.accepts_condition (hargs v hv)).trans (haskable v hv)
  obtain ⟨clauses, happly, hmade⟩ := derive_of_accepts haccepts q false
  refine ⟨clauses, (call_of_not_self hself q args).trans happly, ?_⟩
  refine ((List.forall₂_and_left _ _).2 ⟨haskable, hmade⟩).imp fun v c ⟨hentries, hc⟩ => ?_
  rintro entries rfl
  rw [Clause.ofArgument, Clause.argumentTexts_eq_conditions false hentries] at hc
  exact ⟨hentries, (Except.ok.inj hc).symm⟩

/-- A call of WHERE with texts and mappings fails if the conditions on one of them cannot be
written. -/
theorem call_condition_fails (q : Query) {args : List Value} {named : List (String × Value)}
    (hself : "self" ∉ named.map Prod.fst)
    (hargs : ∀ v ∈ given (collect args named), hasShape .condition v)
    (hlong : ∃ v ∈ given (collect args named), v.isAskable = false) :
    q.call (.clause .condition false) ⟨args, named⟩ = .error .tooManyDigits := by
  obtain ⟨w, hw, hwlong⟩ := hlong
  rcases Clause.accepts_all_or_first .condition (given (collect args named)) with
    hall | ⟨front, v, back, hgiven, hfront, hv⟩
  · rw [← Clause.accepts_condition (hargs w hw), hall w hw] at hwlong
    cases hwlong
  · have happly := derive_of_rejected hgiven hfront hv q false
    rcases Clause.offence_cases hv with ⟨-, hmisshapen⟩ | ⟨hoffence, -⟩
    · rw [hargs v (by simp [hgiven])] at hmisshapen
      cases hmisshapen
    · rw [Clause.rejection_of_not_isWritable .condition hoffence] at happly
      exact (call_of_not_self hself q args).trans happly

/-- A call of WHERE with texts and mappings, given in lists and tuples or by name, adds one clause
for each of them that has content, and the clause of a mapping asks the conditions of its leaves.
The call fails if one of the conditions has an integer of too many digits. -/
theorem where_asks_leaves (q : Query) {args : List Value} {named : List (String × Value)}
    (hself : "self" ∉ named.map Prod.fst)
    (hargs : ∀ v ∈ given (collect args named), hasShape .condition v) :
    ((∀ v ∈ given (collect args named), v.isAskable) →
      ∃ clauses, q.call (.clause .condition false) ⟨args, named⟩ =
          .ok (q.append (clauses.map some)) ∧
        List.Forall₂ (fun v c => ∀ entries, v = .map entries →
          c.kind = .condition ∧ AsksLeaves entries c.values)
          (given (collect args named)) clauses) ∧
    ((∃ v ∈ given (collect args named), v.isAskable = false) →
      q.call (.clause .condition false) ⟨args, named⟩ = .error .tooManyDigits) := by
  refine ⟨fun haskable => ?_, call_condition_fails q hself hargs⟩
  obtain ⟨clauses, hcall, hmade⟩ := call_condition q hself hargs haskable
  refine ⟨clauses, hcall, hmade.imp fun v c hc entries hv => ?_⟩
  obtain ⟨hentries, rfl⟩ := hc entries hv
  exact ⟨rfl, asksLeaves hentries⟩

/-- A node with a home whose place is asked at two depths, and a city without content. -/
def resident : List (Value × Value) :=
  [(.text "name", .list [.text "Ann", .text "Bob"]),
   (.text "home", .map [(.text "city", .map []), (.int 1, .null),
     (.text "at", .map [(.text "x", .bool true), (.text "y", .range ⟨0, 10, 3⟩)])]),
   (.text "age", .int 30)]

theorem resident_asked : ∃ first c,
    carried.call (.clause .condition false)
        ⟨[.text "", .tuple [.text "n.vip"]], [("n", .map resident)]⟩ =
      .ok (carried.append [some first, some c]) ∧
    c.values = ["n.name IN [\"Ann\", \"Bob\"]", "n.home.1 IS NULL", "n.home.at.x = true",
      "n.home.at.y IN RANGE(0, 9, 3)", "n.age = 30"] := by
  have hself : "self" ∉ [("n", Value.map resident)].map Prod.fst := by decide
  have hargs : ∀ v ∈ given (collect [.text "", .tuple [.text "n.vip"]] [("n", .map resident)]),
      hasShape .condition v := List.all_eq_true.1 rfl
  obtain ⟨clauses, hcall, hall⟩ :=
    (where_asks_leaves carried hself hargs).1 (List.all_eq_true.1 rfl)
  cases hall with
  | @cons _ first _ _ _ hrest =>
    cases hrest with
    | @cons _ c _ _ hc hnone =>
      cases hnone
      exact ⟨first, c, hcall, (hc _ rfl).2.conditions.trans rfl⟩

end Query
end GraphQuery
