import GraphQuery.Misfit
import Mathlib.Data.List.Nodup
import Mathlib.Data.List.Pairwise
import Mathlib.Data.List.Zip

/-!
# What binding gives a parameter

Which arguments a parameter gets, said without the order in which they are handed out: the one at
its place, the one under its name, or those that are left over. Binding succeeds exactly if the
arguments fit, and then finds under each name what reaches the parameter of that name.
-/
namespace GraphQuery

def Passing.rank : Passing → Nat
  | .byPosition => 0
  | .either => 1
  | .restOfPositional => 2
  | .byName => 3
  | .restOfNamed => 4

/-- The order in which parameters stand. There is one parameter at most for each sort of rest. -/
def Passing.Before (p q : Passing) : Prop :=
  p.rank < q.rank ∨ p = q ∧ p ≠ .restOfPositional ∧ p ≠ .restOfNamed

instance (p q : Passing) : Decidable (p.Before q) := inferInstanceAs (Decidable (_ ∨ _))

theorem Passing.Before.rank_le {p q : Passing} (h : p.Before q) : p.rank ≤ q.rank := by
  rcases h with h | ⟨rfl, -⟩
  · exact Nat.le_of_lt h
  · exact Nat.le_refl _

theorem Parameter.takesPosition_iff {p : Parameter} :
    p.takesPosition = true ↔ p.passing.rank < 2 := by
  cases h : p.passing <;> simp [takesPosition, Passing.rank, h]

namespace Signature

/-- What every operation keeps to in its parameters. -/
structure WellFormed (s : Signature) : Prop where
  names : (s.map (·.name)).Nodup
  order : s.Pairwise fun p q => p.passing.Before q.passing

/-- The parameters that positional arguments fill, in turn. -/
def places (s : Signature) : Signature := s.filter Parameter.takesPosition

/-- The positional arguments behind those that fill a parameter. -/
def surplus (s : Signature) (a : Arguments) : List Value := a.positional.drop s.places.length

/-- The named arguments whose name no parameter takes. -/
def leftover (s : Signature) (a : Arguments) : Bindings :=
  a.named.filter fun entry => !s.any (·.takesName entry.1)

/-- Every argument has a parameter to go to, and none goes to a parameter that is filled. -/
structure Fits (s : Signature) (a : Arguments) : Prop where
  surplus : s.surplus a ≠ [] → ∃ p ∈ s, p.passing = .restOfPositional
  leftover : s.leftover a ≠ [] → ∃ p ∈ s, p.passing = .restOfNamed
  once : ∀ p ∈ s.places.take a.positional.length, ∀ entry ∈ a.named, p.takesName entry.1 = false

/-- The value that arguments give a parameter. -/
inductive Reaches (s : Signature) (a : Arguments) (p : Parameter) : Value → Prop where
  | position (i : Nat) {v : Value} (place : s.places[i]? = some p)
      (given : a.positional[i]? = some v) : Reaches s a p v
  | name {v : Value} (takes : p.takesName p.name) (given : (p.name, v) ∈ a.named) : Reaches s a p v
  | surplus (rest : p.passing = .restOfPositional) (given : s.surplus a ≠ []) :
      Reaches s a p (.tuple (s.surplus a))
  | leftover (rest : p.passing = .restOfNamed) (given : s.leftover a ≠ []) :
      Reaches s a p (.map ((s.leftover a).map fun entry => (.text entry.1, entry.2)))

/-! ## Positional arguments -/

theorem fill_nil (s : Signature) : fill s [] = some ([], s) := by
  cases s <;> rfl

theorem fill_cons {p : Parameter} (h : p.takesPosition = true) (s : Signature) (v : Value)
    (values : List Value) : fill (p :: s) (v :: values) =
      (fill s values).map fun rest => ((p.name, v) :: rest.1, rest.2) := by
  have hp : p.passing = .byPosition ∨ p.passing = .either := by
    simpa [Parameter.takesPosition] using h
  rcases hp with hp | hp <;> simp only [fill, hp] <;> cases fill s values <;> rfl

theorem fill_append {before : Signature} (h : ∀ p ∈ before, p.takesPosition = true)
    (behind : Signature) (values : List Value) : fill (before ++ behind) values =
      (fill behind (values.drop before.length)).map fun rest =>
        ((before.map (·.name)).zip values ++ rest.1, before.drop values.length ++ rest.2) := by
  induction before generalizing values with
  | nil => simp
  | cons p before ih =>
    cases values with
    | nil => simp [fill_nil]
    | cons v values =>
      rw [List.cons_append, fill_cons (h p (by simp)), ih fun q hq => h q (by simp [hq]),
        Option.map_map]
      rfl

/-- Behind the places stand a parameter for surplus arguments, if there is one, and others that
no positional argument reaches. -/
theorem fill_of_not_takesPosition {s : Signature} (h : ∀ p ∈ s, p.takesPosition = false)
    (horder : s.Pairwise fun p q => p.passing.Before q.passing) (v : Value) (values : List Value) :
    fill s (v :: values) = (s.find? (·.passing == .restOfPositional)).map fun p =>
      ([(p.name, .tuple (v :: values))], s.filter (·.passing != .restOfPositional)) := by
  cases s with
  | nil => rfl
  | cons p s =>
    have hlater (hrank : 2 ≤ p.passing.rank) : ∀ q ∈ s, q.passing ≠ .restOfPositional := by
      intro q hq hrest
      rcases (List.pairwise_cons.1 horder).1 q hq with hlt | ⟨heq, hne, -⟩
      · rw [hrest] at hlt
        exact absurd hlt (Nat.not_lt.2 hrank)
      · exact hne (heq.trans hrest)
    have hp := h p (by simp)
    cases hpassing : p.passing with
    | byPosition | either => simp [Parameter.takesPosition, hpassing] at hp
    | restOfPositional =>
      have hothers : s.filter (·.passing != .restOfPositional) = s :=
        List.filter_eq_self.2 fun q hq => by
          simpa using hlater (by rw [hpassing]; decide) q hq
      simp [fill, hpassing, hothers]
    | byName | restOfNamed =>
      have hnone : s.find? (·.passing == .restOfPositional) = none :=
        List.find?_eq_none.2 fun q hq => by
          simpa using hlater (by rw [hpassing]; decide) q hq
      simp [fill, hpassing, hnone]

namespace WellFormed

variable {s : Signature} {p q : Parameter}

theorem eq_of_name (h : s.WellFormed) (hp : p ∈ s) (hq : q ∈ s) (hname : p.name = q.name) :
    p = q := List.inj_on_of_nodup_map h.names hp hq hname

/-- There is one parameter at most for the rest of the arguments of a sort. -/
theorem eq_of_rest (h : s.WellFormed) (hp : p ∈ s) (hq : q ∈ s) (hpq : p.passing = q.passing)
    (hrest : p.passing = .restOfPositional ∨ p.passing = .restOfNamed) : p = q := by
  by_contra hne
  let Apart (p q : Parameter) : Prop := p.passing = q.passing →
    ¬ (p.passing = .restOfPositional ∨ p.passing = .restOfNamed)
  have : Std.Symm Apart := ⟨fun p q hpq heq => heq ▸ hpq heq.symm⟩
  have hpairs : s.Pairwise Apart := h.order.imp fun {p q} hbefore heq hrest => by
    rcases hbefore with hlt | ⟨-, hfirst, hsecond⟩
    · exact absurd hlt (by rw [heq]; exact Nat.lt_irrefl _)
    · exact hrest.elim hfirst hsecond
  exact hpairs.forall hp hq hne hpq hrest

theorem nodup_places (h : s.WellFormed) : s.places.Nodup :=
  (List.Nodup.of_map _ h.names).sublist List.filter_sublist

/-- The places stand in front of all other parameters. -/
theorem eq_append (h : s.WellFormed) : s = s.places ++ s.filter (!·.takesPosition) := by
  have horder := h.order
  clear h
  induction s with
  | nil => rfl
  | cons p s ih =>
    obtain ⟨hlater, hrest⟩ := List.pairwise_cons.1 horder
    cases hp : p.takesPosition with
    | true => simpa [places, hp] using ih hrest
    | false =>
      have hnone : ∀ q ∈ s, ¬ q.takesPosition = true := by
        intro q hq hplace
        rw [Parameter.takesPosition_iff] at hplace
        rw [← Bool.not_eq_true, Parameter.takesPosition_iff] at hp
        have := (hlater q hq).rank_le
        omega
      have hplaces : s.filter Parameter.takesPosition = [] := List.filter_eq_nil_iff.2 hnone
      have hothers : s.filter (!·.takesPosition) = s :=
        List.filter_eq_self.2 fun q hq => by simpa using hnone q hq
      simp [places, hp, hplaces, hothers]

end WellFormed

/-- How the positional arguments are handed out when they can be. -/
theorem fill_eq {s : Signature} (h : s.WellFormed) (values : List Value) : fill s values =
    match values.drop s.places.length with
    | [] => some ((s.places.map (·.name)).zip values,
        s.places.drop values.length ++ s.filter (!·.takesPosition))
    | v :: vs => (s.find? (·.passing == .restOfPositional)).map fun p =>
        ((s.places.map (·.name)).zip values ++ [(p.name, .tuple (v :: vs))],
          s.places.drop values.length ++
            (s.filter (!·.takesPosition)).filter (·.passing != .restOfPositional)) := by
  have hplaces : ∀ p ∈ s.places, p.takesPosition = true := fun p hp => (List.mem_filter.1 hp).2
  have hothers : ∀ p ∈ s.filter (!·.takesPosition), p.takesPosition = false := fun p hp => by
    simpa using (List.mem_filter.1 hp).2
  have hfind : (s.filter (!·.takesPosition)).find? (·.passing == .restOfPositional) =
      s.find? (·.passing == .restOfPositional) := by
    rw [List.find?_filter]
    congr 1
    funext p
    cases hp : p.passing <;> simp [Parameter.takesPosition, hp]
  conv_lhs => rw [h.eq_append, fill_append hplaces]
  cases values.drop s.places.length with
  | nil => simp [fill_nil]
  | cons v vs =>
    rw [fill_of_not_takesPosition hothers (h.order.sublist List.filter_sublist), hfind,
      Option.map_map]
    rfl

section Filled

variable {s : Signature} {values : List Value} {filled : Bindings} {unfilled : Signature}

/-- What is bound by position: the places in turn, and the surplus as a whole. -/
theorem mem_filled (h : s.WellFormed) (hfill : fill s values = some (filled, unfilled))
    {name : String} {v : Value} : (name, v) ∈ filled ↔
      (∃ (i : Nat) (p : Parameter), s.places[i]? = some p ∧ p.name = name ∧ values[i]? = some v) ∨
        ∃ p ∈ s, p.passing = .restOfPositional ∧ p.name = name ∧
          values.drop s.places.length ≠ [] ∧ v = .tuple (values.drop s.places.length) := by
  have hzip : (name, v) ∈ (s.places.map (·.name)).zip values ↔ ∃ (i : Nat) (p : Parameter),
      s.places[i]? = some p ∧ p.name = name ∧ values[i]? = some v := by
    simp only [List.mem_iff_getElem?, List.getElem?_zip_eq_some, List.getElem?_map,
      Option.map_eq_some_iff]
    constructor
    · rintro ⟨i, ⟨p, hp, hname⟩, hv⟩
      exact ⟨i, p, hp, hname, hv⟩
    · rintro ⟨i, p, hp, hname, hv⟩
      exact ⟨i, ⟨p, hp, hname⟩, hv⟩
  rw [fill_eq h] at hfill
  split at hfill
  · next hdrop =>
    cases hfill
    rw [hzip, hdrop]
    simp
  · next v' vs hdrop =>
    obtain ⟨p, hfind, hfilled⟩ := Option.map_eq_some_iff.1 hfill
    cases hfilled
    have hp := List.mem_of_find?_eq_some hfind
    have hpassing : p.passing = .restOfPositional := by simpa using List.find?_some hfind
    rw [List.mem_append, hzip, hdrop, List.mem_singleton, Prod.mk.injEq]
    refine or_congr_right ⟨?_, ?_⟩
    · rintro ⟨rfl, rfl⟩
      exact ⟨p, hp, hpassing, rfl, by simp, rfl⟩
    · rintro ⟨q, hq, hrest, rfl, -, rfl⟩
      rw [h.eq_of_rest hq hp (hrest.trans hpassing.symm) (.inl hrest)]
      exact ⟨rfl, rfl⟩

/-- Positional arguments can be handed out unless some are left without a parameter for them. -/
theorem exists_fill_iff (h : s.WellFormed) : (∃ r, fill s values = some r) ↔
    (values.drop s.places.length ≠ [] → ∃ p ∈ s, p.passing = .restOfPositional) := by
  rw [fill_eq h]
  split
  · next hdrop => simp [hdrop]
  · next v vs hdrop =>
    rw [hdrop]
    simp only [Option.map_eq_some_iff]
    constructor
    · rintro ⟨-, p, hp, -⟩ -
      exact ⟨p, List.mem_of_find?_eq_some hp, by simpa using List.find?_some hp⟩
    · intro h
      obtain ⟨p, hp, hrest⟩ := h (List.cons_ne_nil v vs)
      have hsome : (s.find? (·.passing == .restOfPositional)).isSome :=
        List.find?_isSome.2 ⟨p, hp, by simpa using hrest⟩
      obtain ⟨q, hq⟩ := Option.isSome_iff_exists.1 hsome
      exact ⟨_, q, hq, rfl⟩

/-- The names that are taken then are those of the parameters that no positional argument has
filled. -/
theorem any_unfilled (h : s.WellFormed) (hfill : fill s values = some (filled, unfilled))
    (name : String) : unfilled.any (·.takesName name) = true ↔
      ∃ p ∈ s, p.takesName name ∧ p ∉ s.places.take values.length := by
  have hdrop {p : Parameter} : p ∈ s.places.drop values.length ↔
      p ∈ s.places ∧ p ∉ s.places.take values.length := by
    have hsplit := List.take_append_drop values.length s.places
    have hdisjoint := List.disjoint_of_nodup_append (hsplit.symm ▸ h.nodup_places)
    constructor
    · intro hp
      exact ⟨List.mem_of_mem_drop hp, fun htake => hdisjoint htake hp⟩
    · rintro ⟨hp, hno⟩
      rw [← hsplit, List.mem_append] at hp
      exact hp.resolve_left hno
  have hmem {p : Parameter} (hname : p.takesName name) : p ∈ unfilled ↔
      p ∈ s ∧ p ∉ s.places.take values.length := by
    have hrest : p.passing ≠ .restOfPositional := by
      rintro hrest
      simp [Parameter.takesName, hrest] at hname
    have hbehind : p ∉ s.places → p ∉ s.places.take values.length := mt List.mem_of_mem_take
    have hunfilled : p ∈ unfilled ↔
        p ∈ s.places.drop values.length ∨ p ∈ s ∧ p.takesPosition = false := by
      rw [fill_eq h] at hfill
      split at hfill
      · cases hfill
        simp
      · obtain ⟨q, -, hfilled⟩ := Option.map_eq_some_iff.1 hfill
        cases hfilled
        simp [hrest]
    rw [hunfilled, hdrop]
    have hplaces : p ∈ s.places ↔ p ∈ s ∧ p.takesPosition = true := List.mem_filter
    cases hp : p.takesPosition <;> simp_all
  simp only [List.any_eq_true]
  constructor
  · rintro ⟨p, hp, hname⟩
    exact ⟨p, ((hmem hname).1 hp).1, hname, ((hmem hname).1 hp).2⟩
  · rintro ⟨p, hp, hname, hno⟩
    exact ⟨p, (hmem hname).2 ⟨hp, hno⟩, hname⟩

end Filled

/-! ## Named arguments -/

section Named

variable {s unfilled : Signature}

/-- A named argument has a parameter to go to, of its name or for the rest. -/
def arrives (s unfilled : Signature) (name : String) : Bool :=
  unfilled.any (·.takesName name) ||
    (!s.any (·.takesName name) && s.any (·.passing == .restOfNamed))

/-- Named arguments are handed out if each of them has a parameter to go to. -/
theorem distribute_eq (named : List (String × Value)) : distribute s unfilled named =
    if named.all (fun entry => arrives s unfilled entry.1) then
      some (named.filter (fun entry => unfilled.any (·.takesName entry.1)),
        named.filter (fun entry => !unfilled.any (·.takesName entry.1)))
    else none := by
  induction named with
  | nil => rfl
  | cons entry named ih =>
    rw [distribute, ih, destination, List.all_cons, List.filter_cons, List.filter_cons, arrives]
    cases unfilled.any (·.takesName entry.1) <;> cases s.any (·.takesName entry.1) <;>
      cases s.any (·.passing == .restOfNamed) <;>
        cases named.all (fun entry => arrives s unfilled entry.1) <;> simp

end Named

/-! ## All arguments -/

section Bound

variable {s : Signature} {a : Arguments} {p q : Parameter} {v w : Value}

theorem mem_places : p ∈ s.places ↔ p ∈ s ∧ p.takesPosition = true := List.mem_filter

/-- What fits reaches each parameter in one way, with one value. -/
theorem Reaches.unique (h : s.WellFormed) (ha : (a.named.map Prod.fst).Nodup) (hfits : s.Fits a)
    (hv : s.Reaches a p v) (hw : s.Reaches a p w) : v = w := by
  have hposition {i : Nat} (hp : s.places[i]? = some p) :
      p.passing = .byPosition ∨ p.passing = .either := by
    simpa [Parameter.takesPosition] using (mem_places.1 (List.mem_of_getElem? hp)).2
  have hname (hp : p.takesName p.name = true) : p.passing = .byName ∨ p.passing = .either := by
    simpa [Parameter.takesName] using hp
  -- a filled place has no named argument
  have honce {i : Nat} {v w : Value} (hp : s.places[i]? = some p) (hv : a.positional[i]? = some v)
      (htakes : p.takesName p.name = true) (hw : (p.name, w) ∈ a.named) : False := by
    have hlt := (List.getElem?_eq_some_iff.1 hv).1
    have hmem : p ∈ s.places.take a.positional.length :=
      List.mem_of_getElem? ((List.getElem?_take_of_lt hlt).trans hp)
    rw [hfits.once p hmem _ hw] at htakes
    cases htakes
  cases hv with
  | position i hp hv =>
    have hpassing := hposition hp
    cases hw with
    | position j hq hw =>
      have hij : i = j := (List.getElem?_inj (List.getElem?_eq_some_iff.1 hp).1 h.nodup_places).1
        (hp.trans hq.symm)
      exact Option.some.inj (hv.symm.trans (hij ▸ hw))
    | name htakes hw => exact (honce hp hv htakes hw).elim
    | surplus rest | leftover rest => simp [rest] at hpassing
  | name htakes hv =>
    have hpassing := hname htakes
    cases hw with
    | position j hq hw => exact (honce hq hw htakes hv).elim
    | name _ hw => exact congrArg Prod.snd (List.inj_on_of_nodup_map ha hv hw rfl)
    | surplus rest | leftover rest => simp [rest] at hpassing
  | surplus rest given =>
    cases hw with
    | position j hq hw =>
      have hpassing := hposition hq
      simp [rest] at hpassing
    | name htakes hw =>
      have hpassing := hname htakes
      simp [rest] at hpassing
    | surplus => rfl
    | leftover rest' => simp [rest] at rest'
  | leftover rest given =>
    cases hw with
    | position j hq hw =>
      have hpassing := hposition hq
      simp [rest] at hpassing
    | name htakes hw =>
      have hpassing := hname htakes
      simp [rest] at hpassing
    | surplus rest' => simp [rest] at rest'
    | leftover => rfl

theorem eq_of_takesName (h : s.WellFormed) (hp : p ∈ s) (hq : q ∈ s) {name : String}
    (htakes : p.takesName name = true) (htakes' : q.takesName name = true) : p = q := by
  simp only [Parameter.takesName, Bool.and_eq_true, beq_iff_eq] at htakes htakes'
  exact h.eq_of_name hp hq (htakes.1.trans htakes'.1.symm)

section Unfilled

variable {filled : Bindings} {unfilled : Signature}

theorem any_of_any_unfilled (h : s.WellFormed)
    (hfill : fill s a.positional = some (filled, unfilled)) {name : String}
    (hname : unfilled.any (·.takesName name) = true) : s.any (·.takesName name) = true := by
  obtain ⟨p, hp, htakes, -⟩ := (any_unfilled h hfill name).1 hname
  exact List.any_eq_true.2 ⟨p, hp, htakes⟩

/-- Each named argument has a parameter to go to exactly if no filled place has its name, and
what no parameter takes can be gathered. -/
theorem all_arrives_iff (h : s.WellFormed)
    (hfill : fill s a.positional = some (filled, unfilled)) :
    a.named.all (fun entry => arrives s unfilled entry.1) = true ↔
      (s.leftover a ≠ [] → ∃ p ∈ s, p.passing = .restOfNamed) ∧
      ∀ p ∈ s.places.take a.positional.length, ∀ entry ∈ a.named,
        p.takesName entry.1 = false := by
  have hrest : s.any (·.passing == .restOfNamed) = true ↔ ∃ p ∈ s, p.passing = .restOfNamed := by
    simp
  simp only [List.all_eq_true, arrives, Bool.or_eq_true, Bool.and_eq_true, Bool.not_eq_true', hrest]
  constructor
  · intro harrive
    refine ⟨fun hleft => ?_, fun p hp entry hentry => ?_⟩
    · obtain ⟨entry, hentry⟩ := List.exists_mem_of_ne_nil _ hleft
      obtain ⟨hentry, hno⟩ := List.mem_filter.1 hentry
      rcases harrive entry hentry with hyes | ⟨-, hgathers⟩
      · simp [any_of_any_unfilled h hfill hyes] at hno
      · exact hgathers
    · by_contra htakes
      rw [Bool.not_eq_false] at htakes
      have hps := (mem_places.1 (List.mem_of_mem_take hp)).1
      rcases harrive entry hentry with hyes | ⟨hno, -⟩
      · obtain ⟨q, hq, htakes', hout⟩ := (any_unfilled h hfill entry.1).1 hyes
        exact hout (eq_of_takesName h hps hq htakes htakes' ▸ hp)
      · exact absurd htakes (by simpa using List.any_eq_false.1 hno p hps)
  · rintro ⟨hgathers, honce⟩ entry hentry
    cases hyes : unfilled.any (·.takesName entry.1) with
    | true => exact .inl rfl
    | false =>
      refine .inr ?_
      cases hall : s.any (·.takesName entry.1) with
      | false =>
        have hleft : entry ∈ s.leftover a := List.mem_filter.2 ⟨hentry, by rw [hall]; rfl⟩
        exact ⟨rfl, hgathers (List.ne_nil_of_mem hleft)⟩
      | true =>
        obtain ⟨p, hp, htakes⟩ := List.any_eq_true.1 hall
        have hin : p ∈ s.places.take a.positional.length := by
          by_contra hout
          rw [(any_unfilled h hfill entry.1).2 ⟨p, hp, htakes, hout⟩] at hyes
          cases hyes
        rw [honce p hin entry hentry] at htakes
        cases htakes

/-- What is bound: the filled places, the arguments whose names are taken, and the gathered rest. -/
theorem bindSome_eq (h : s.WellFormed) (hfill : fill s a.positional = some (filled, unfilled)) :
    s.bindSome a = if a.named.all (fun entry => arrives s unfilled entry.1) then
      some (filled ++ a.named.filter (fun entry => s.any (·.takesName entry.1)) ++
        gathered s (s.leftover a))
    else none := by
  rw [bindSome, hfill]
  simp only [distribute_eq]
  cases hall : a.named.all (fun entry => arrives s unfilled entry.1) with
  | false => rfl
  | true =>
    have hsame : ∀ entry ∈ a.named, unfilled.any (·.takesName entry.1) =
        s.any (·.takesName entry.1) := by
      intro entry hentry
      have harrives := List.all_eq_true.1 hall entry hentry
      rw [arrives] at harrives
      cases hyes : unfilled.any (·.takesName entry.1) with
      | true => exact (any_of_any_unfilled h hfill hyes).symm
      | false => simp_all
    have hbound : a.named.filter (fun entry => unfilled.any (·.takesName entry.1)) =
        a.named.filter fun entry => s.any (·.takesName entry.1) := List.filter_congr hsame
    have hrest : a.named.filter (fun entry => !unfilled.any (·.takesName entry.1)) =
        s.leftover a := List.filter_congr fun entry hentry => by rw [hsame entry hentry]
    simp only [hbound, hrest, if_true]

end Unfilled

/-- Arguments are bound exactly if they fit. -/
theorem exists_bindSome_iff (h : s.WellFormed) :
    (∃ bound, s.bindSome a = some bound) ↔ s.Fits a := by
  cases hfill : fill s a.positional with
  | none =>
    refine iff_of_false (by simp [bindSome, hfill]) fun hfits => ?_
    obtain ⟨r, hr⟩ := (exists_fill_iff h).2 hfits.surplus
    rw [hfill] at hr
    cases hr
  | some r =>
    have hsurplus := (exists_fill_iff h).1 ⟨_, hfill⟩
    have hnamed := all_arrives_iff h hfill
    rw [bindSome_eq h hfill]
    split
    · next hall =>
      obtain ⟨hleft, honce⟩ := hnamed.1 hall
      exact iff_of_true ⟨_, rfl⟩ ⟨hsurplus, hleft, honce⟩
    · next hall =>
      exact iff_of_false (by simp) fun hfits => hall (hnamed.2 ⟨hfits.leftover, hfits.once⟩)

theorem mem_gathered (h : s.WellFormed) (rest : Bindings) {name : String} :
    (name, v) ∈ gathered s rest ↔ ∃ p ∈ s, p.passing = .restOfNamed ∧ p.name = name ∧
      rest ≠ [] ∧ v = .map (rest.map fun entry => (.text entry.1, entry.2)) := by
  rw [gathered]
  cases rest with
  | nil => simp
  | cons entry rest =>
    rw [List.isEmpty_cons, if_neg Bool.false_ne_true]
    split
    · next p hfind =>
      have hp := List.mem_of_find?_eq_some hfind
      have hpassing : p.passing = .restOfNamed := by simpa using List.find?_some hfind
      rw [List.mem_singleton, Prod.mk.injEq]
      constructor
      · rintro ⟨rfl, rfl⟩
        exact ⟨p, hp, hpassing, rfl, by simp, rfl⟩
      · rintro ⟨q, hq, hrest, rfl, -, rfl⟩
        rw [h.eq_of_rest hq hp (hrest.trans hpassing.symm) (.inr hrest)]
        exact ⟨rfl, rfl⟩
    · next hfind =>
      refine iff_of_false List.not_mem_nil ?_
      rintro ⟨p, hp, hrest, -⟩
      exact List.find?_eq_none.1 hfind p hp (by simp [hrest])

/-- What is bound under a name is what reaches the parameter of that name. -/
theorem mem_bindSome (h : s.WellFormed) {bound : Bindings} (hbind : s.bindSome a = some bound)
    {name : String} : (name, v) ∈ bound ↔ ∃ p ∈ s, p.name = name ∧ s.Reaches a p v := by
  obtain ⟨⟨filled, unfilled⟩, hfill⟩ : ∃ r, fill s a.positional = some r :=
    (exists_fill_iff h).2 ((exists_bindSome_iff h).1 ⟨_, hbind⟩).surplus
  rw [bindSome_eq h hfill] at hbind
  split at hbind
  · cases hbind
    rw [List.mem_append, List.mem_append, mem_filled h hfill, mem_gathered h, List.mem_filter]
    constructor
    · rintro ((hfilled | ⟨hmem, htaken⟩) | ⟨p, hp, hrest, rfl, hne, rfl⟩)
      · obtain ⟨i, p, hp, rfl, hv⟩ | ⟨p, hp, hrest, rfl, hne, rfl⟩ := hfilled
        · exact ⟨p, (mem_places.1 (List.mem_of_getElem? hp)).1, rfl, .position i hp hv⟩
        · exact ⟨p, hp, rfl, .surplus hrest hne⟩
      · obtain ⟨p, hp, htakes⟩ := List.any_eq_true.1 htaken
        obtain ⟨hname, -⟩ := Bool.and_eq_true_iff.1 htakes
        obtain rfl := beq_iff_eq.1 hname
        exact ⟨p, hp, rfl, .name htakes hmem⟩
      · exact ⟨p, hp, rfl, .leftover hrest hne⟩
    · rintro ⟨p, hp, rfl, hreach⟩
      cases hreach with
      | position i hp hv => exact .inl (.inl (.inl ⟨i, p, hp, rfl, hv⟩))
      | name htakes hmem => exact .inl (.inr ⟨hmem, List.any_eq_true.2 ⟨p, hp, htakes⟩⟩)
      | surplus hrest hne => exact .inl (.inl (.inr ⟨p, hp, hrest, rfl, hne, rfl⟩))
      | leftover hrest hne => exact .inr ⟨p, hp, hrest, rfl, hne, rfl⟩
  · cases hbind

/-- The value that is found under a name. -/
theorem lookup_bindSome_iff (h : s.WellFormed) (ha : (a.named.map Prod.fst).Nodup) (name : String) :
    (s.bindSome a).bind (·.lookup name) = some v ↔
      s.Fits a ∧ ∃ p ∈ s, p.name = name ∧ s.Reaches a p v := by
  rw [Option.bind_eq_some_iff]
  constructor
  · rintro ⟨bound, hbind, hlookup⟩
    obtain ⟨before, behind, rfl, -⟩ := List.lookup_eq_some_iff.1 hlookup
    have hmem : (name, v) ∈ before ++ (name, v) :: behind := by simp
    exact ⟨(exists_bindSome_iff h).1 ⟨_, hbind⟩, (mem_bindSome h hbind).1 hmem⟩
  · rintro ⟨hfits, p, hp, rfl, hreach⟩
    obtain ⟨bound, hbind⟩ := (exists_bindSome_iff h).2 hfits
    have hmem := (mem_bindSome h hbind).2 ⟨p, hp, rfl, hreach⟩
    refine ⟨bound, hbind, ?_⟩
    cases hlookup : bound.lookup p.name with
    | none =>
      have hne := List.lookup_eq_none_iff.1 hlookup _ hmem
      simp at hne
    | some w =>
      obtain ⟨before, behind, rfl, -⟩ := List.lookup_eq_some_iff.1 hlookup
      obtain ⟨q, hq, hname, hw⟩ := (mem_bindSome h hbind).1 (List.mem_append_right before
        (List.mem_cons_self (a := (p.name, w))))
      rw [h.eq_of_name hq hp hname] at hw
      rw [Reaches.unique h ha hfits hreach hw]

end Bound

/-! ## The same argument by place and by name -/

section Moved

variable {s : Signature} {p : Parameter} {before : List Value}
  {named behind : List (String × Value)}

/-- The last positional argument may as well be given under the name of its parameter. -/
theorem fits_moved_iff (h : s.WellFormed) (hplace : s.places[before.length]? = some p)
    (heither : p.passing = .either) (hnamed : ∀ entry ∈ named ++ behind, entry.1 ≠ p.name)
    (v : Value) : s.Fits ⟨before ++ [v], named ++ behind⟩ ↔
      s.Fits ⟨before, named ++ (p.name, v) :: behind⟩ := by
  have hlt : before.length < s.places.length := (List.getElem?_eq_some_iff.1 hplace).1
  have hp : p ∈ s := (mem_places.1 (List.mem_of_getElem? hplace)).1
  have htakes : p.takesName p.name = true := by simp [Parameter.takesName, heither]
  have hsurplus : s.surplus ⟨before ++ [v], named ++ behind⟩ = [] :=
    List.drop_eq_nil_of_le (by simpa [Nat.succ_le_iff] using hlt)
  have hsurplus' : s.surplus ⟨before, named ++ (p.name, v) :: behind⟩ = [] :=
    List.drop_eq_nil_of_le (Nat.le_of_lt hlt)
  have hleftover : s.leftover ⟨before, named ++ (p.name, v) :: behind⟩ =
      s.leftover ⟨before ++ [v], named ++ behind⟩ := by
    have hany : s.any (·.takesName p.name) = true := List.any_eq_true.2 ⟨p, hp, htakes⟩
    simp [leftover, List.filter_append, hany]
  have htake : s.places.take (before ++ [v]).length = s.places.take before.length ++ [p] := by
    rw [List.length_append, List.length_singleton, List.take_add_one, hplace]
    rfl
  have hother : ∀ q ∈ s.places.take before.length, q.takesName p.name = false := by
    intro q hq
    by_contra hname
    rw [Bool.not_eq_false] at hname
    obtain rfl := eq_of_takesName h (mem_places.1 (List.mem_of_mem_take hq)).1 hp hname htakes
    obtain ⟨i, hi⟩ := List.mem_iff_getElem?.1 hq
    have hlen : i < before.length := by
      have := (List.getElem?_eq_some_iff.1 hi).1
      rw [List.length_take] at this
      omega
    rw [List.getElem?_take_of_lt hlen] at hi
    have heq := (List.getElem?_inj (List.getElem?_eq_some_iff.1 hi).1 h.nodup_places).1
      (hi.trans hplace.symm)
    omega
  constructor
  · rintro ⟨-, hleft, honce⟩
    refine ⟨by simp [hsurplus'], by rwa [hleftover], fun q hq entry hentry => ?_⟩
    rw [htake] at honce
    rw [List.mem_append, List.mem_cons] at hentry
    rcases hentry with hentry | rfl | hentry
    · exact honce q (by simp [hq]) entry (by simp [hentry])
    · exact hother q hq
    · exact honce q (by simp [hq]) entry (by simp [hentry])
  · rintro ⟨-, hleft, honce⟩
    refine ⟨by simp [hsurplus], by rwa [← hleftover], fun q hq entry hentry => ?_⟩
    rw [htake, List.mem_append, List.mem_singleton] at hq
    rcases hq with hq | rfl
    · refine honce q hq entry ?_
      rw [List.mem_append] at hentry
      rcases hentry with hentry | hentry <;> simp [hentry]
    · have hne := hnamed entry hentry
      simp [Parameter.takesName, hne.symm]

theorem lookup_moved (h : s.WellFormed) (hplace : s.places[before.length]? = some p)
    (heither : p.passing = .either) (hnamed : ∀ entry ∈ named ++ behind, entry.1 ≠ p.name)
    (ha : ((named ++ behind).map Prod.fst).Nodup) (v : Value) :
    (s.bindSome ⟨before ++ [v], named ++ behind⟩).bind (·.lookup p.name) =
      (s.bindSome ⟨before, named ++ (p.name, v) :: behind⟩).bind (·.lookup p.name) := by
  have hp : p ∈ s := (mem_places.1 (List.mem_of_getElem? hplace)).1
  have ha' : ((named ++ (p.name, v) :: behind).map Prod.fst).Nodup := by
    rw [(List.perm_middle.map Prod.fst).nodup_iff, List.map_cons, List.nodup_cons]
    refine ⟨fun hmem => ?_, ha⟩
    obtain ⟨entry, hentry, hname⟩ := List.mem_map.1 hmem
    exact hnamed entry hentry hname
  have hpos : s.Reaches ⟨before ++ [v], named ++ behind⟩ p v := .position _ hplace (by simp)
  have hname : s.Reaches ⟨before, named ++ (p.name, v) :: behind⟩ p v :=
    .name (by simp [Parameter.takesName, heither]) (by simp)
  ext w
  rw [lookup_bindSome_iff h ha, lookup_bindSome_iff h ha', fits_moved_iff h hplace heither hnamed]
  refine and_congr_right fun hfits => ⟨?_, ?_⟩
  · rintro ⟨q, hq, heq, hw⟩
    obtain rfl := h.eq_of_name hq hp heq
    rw [hw.unique h ha ((fits_moved_iff h hplace heither hnamed v).2 hfits) hpos]
    exact ⟨q, hq, rfl, hname⟩
  · rintro ⟨q, hq, heq, hw⟩
    obtain rfl := h.eq_of_name hq hp heq
    rw [hw.unique h ha' hfits hname]
    exact ⟨q, hq, rfl, hpos⟩

end Moved
end Signature
end GraphQuery
