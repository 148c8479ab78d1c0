import GraphQuery.Proofs.Clause.Written
import GraphQuery.Proofs.Query.Parts
import GraphQuery.Query.Method
import Mathlib.Data.List.Forall2

/-!
# Calls on queries

Whatever a method is called with, it either fails or puts entries behind the log, and which entries
these are does not depend on the query. Only breaks and WITH add break markers, and every clause of
LIMIT or SKIP has a value. What holds of one call so holds of every sequence of calls.
-/
namespace GraphQuery

/-! ## Clauses of arguments -/

namespace Clause

/-- A clause of LIMIT or SKIP has a value to be written. -/
def Valued (c : Clause) : Prop := c.kind.lastOnly → c.values ≠ []

theorem argumentTexts_ne_nil {kind : Kind} {replace : Bool} {v : Value} {texts : List String}
    (hkind : kind.lastOnly) (hcontent : hasContent v)
    (h : argumentTexts kind replace v = .ok texts) : texts ≠ [] := by
  cases v with
  | text s =>
    cases h
    exact List.cons_ne_nil _ _
  | int n =>
    rw [argumentTexts, if_pos hkind] at h
    obtain ⟨-, rfl⟩ := Value.written_eq_ok.1 h
    exact List.cons_ne_nil _ _
  | map entries =>
    -- a mapping with an entry is rejected, and one without has no content
    cases entries with
    | nil => cases hcontent
    | cons entry entries =>
      obtain ⟨-, first, hfirst, -⟩ := entriesTexts_cons_eq_ok.1 h
      cases kind <;> cases hkind <;> cases hfirst
  | _ => cases h

theorem ofArgument_spec {kind : Kind} {replace : Bool} {v : Value} {c : Clause}
    (hcontent : hasContent v) (h : ofArgument kind replace v = .ok c) :
    c.kind = kind ∧ c.Valued := by
  rw [ofArgument] at h
  obtain ⟨texts, ht, rfl⟩ := map_eq_ok.1 h
  exact ⟨rfl, fun hkind => argumentTexts_ne_nil hkind hcontent ht⟩

/-- The clauses of a list of arguments are those of each of them. -/
theorem ofEach_eq_ok_iff {kind : Kind} {replace : Bool} {args : List Value}
    {clauses : List Clause} : ofEach kind replace args = .ok clauses ↔
      List.Forall₂ (fun v c => ofArgument kind replace v = .ok c) args clauses := by
  induction args generalizing clauses with
  | nil => simp [ofEach, eq_comm]
  | cons v args ih =>
    rw [ofEach, List.forall₂_cons_left_iff]
    simp only [← ih]
    cases ofArgument kind replace v <;> cases ofEach kind replace args <;> simp [eq_comm]

theorem exists_argument_of_mem {kind : Kind} {replace : Bool} {args : List Value}
    {clauses : List Clause} (h : ofEach kind replace args = .ok clauses) {c : Clause}
    (hc : c ∈ clauses) : ∃ v ∈ args, ofArgument kind replace v = .ok c := by
  rw [ofEach_eq_ok_iff] at h
  induction h with
  | nil => cases hc
  | @cons v first args clauses hfirst _ ih =>
    rcases List.mem_cons.1 hc with rfl | hc
    · exact ⟨v, List.mem_cons_self, hfirst⟩
    · obtain ⟨w, hw, hmade⟩ := ih hc
      exact ⟨w, List.mem_cons_of_mem _ hw, hmade⟩

theorem ofArguments_spec {kind : Kind} {replace : Bool} {args : List Value}
    {clauses : List Clause} (h : ofArguments kind replace args = .ok clauses) :
    ∀ c ∈ clauses, c.kind = kind ∧ c.Valued := by
  intro c hc
  obtain ⟨v, hv, hmade⟩ := exists_argument_of_mem h hc
  exact ofArgument_spec (List.mem_filter.1 hv).2 hmade

/-- Clauses of one kind are all of it. -/
theorem filter_of_kind {own : Kind} {clauses : List Clause} (h : ∀ c ∈ clauses, c.kind = own)
    (kind : Kind) : clauses.filter (·.kind = kind) = if own = kind then clauses else [] := by
  split
  · next hk => exact List.filter_eq_self.2 fun c hc => by simpa [h c hc] using hk
  · next hk => exact List.filter_eq_nil_iff.2 fun c hc => by simpa [h c hc] using hk

end Clause

namespace Query

/-! ## What an operation adds -/

@[simp] theorem append_append (q : Query) (l m : List (Option Clause)) :
    (q.append l).append m = q.append (l ++ m) := by
  simp [append]

/-- An operation on queries that adds the given entries to the log, or fails, whatever the query
is. One that does not split adds no break. -/
structure Adds (splits : Bool) (f : Query → Except Fault Query)
    (added : Except Fault (List (Option Clause))) : Prop where
  eq : ∀ q, f q = added.map q.append
  valued : ∀ entries, added = .ok entries → ∀ c, some c ∈ entries → c.Valued
  unbroken : splits = false → ∀ entries, added = .ok entries → none ∉ entries

namespace Adds

variable {splits : Bool} {f g : Query → Except Fault Query}
  {added more : Except Fault (List (Option Clause))}

theorem fail (fault : Fault) : Adds splits (fun _ => .error fault) (.error fault) where
  eq := fun _ => rfl
  valued := by rintro _ ⟨⟩
  unbroken := by rintro _ _ ⟨⟩

theorem nothing : Adds splits .ok (.ok []) where
  eq := fun q => by simp [Except.map, append]
  valued := by rintro _ ⟨⟩; simp
  unbroken := by rintro _ _ ⟨⟩; simp

theorem split : Adds true (fun q => .ok q.split) (.ok [none]) where
  eq := fun q => rfl
  valued := by rintro _ ⟨⟩; simp
  unbroken := by rintro ⟨⟩

theorem clauses (kind : Clause.Kind) (args : List Value) (replace : Bool) :
    Adds (decide (kind = .carry)) (fun q => q.add kind args replace)
      ((Clause.ofArguments kind replace args).map fun clauses =>
        opening kind ++ clauses.map some) := by
  constructor
  · intro q
    rw [Query.add]
    cases Clause.ofArguments kind replace args <;> rfl
  · intro entries h c hc
    obtain ⟨clauses, hargs, rfl⟩ := map_eq_ok.1 h
    rcases List.mem_append.1 hc with hc | hc
    · rw [opening] at hc
      split at hc <;> simp at hc
    · have hmem : c ∈ clauses := by simpa using hc
      exact (Clause.ofArguments_spec hargs c hmem).2
  · intro hkind entries h
    obtain ⟨clauses, -, rfl⟩ := map_eq_ok.1 h
    simp [opening, of_decide_eq_false hkind]

/-- The entries of two operations in a row are those of the one and then those of the other. -/
theorem exists_of_bind {entries : List (Option Clause)}
    (h : (added.bind fun l => more.map (l ++ ·)) = .ok entries) :
    ∃ l m, added = .ok l ∧ more = .ok m ∧ entries = l ++ m := by
  cases added with
  | error fault => cases h
  | ok l =>
    cases more with
    | error fault => cases h
    | ok m =>
      cases h
      exact ⟨l, m, rfl, rfl, rfl⟩

theorem bind (hf : Adds splits f added) (hg : Adds splits g more) :
    Adds splits (fun q => f q >>= g) (added.bind fun l => more.map (l ++ ·)) := by
  constructor
  · intro q
    rw [hf.eq q]
    cases added with
    | error e => rfl
    | ok l =>
      change g (q.append l) = _
      rw [hg.eq]
      cases more with
      | error e => rfl
      | ok m => simp [Except.map, Except.bind]
  · intro entries h c hc
    obtain ⟨l, m, hl, hm, rfl⟩ := exists_of_bind h
    rcases List.mem_append.1 hc with hc | hc
    · exact hf.valued l hl c hc
    · exact hg.valued m hm c hc
  · intro hs entries h
    obtain ⟨l, m, hl, hm, rfl⟩ := exists_of_bind h
    rw [List.mem_append, not_or]
    exact ⟨hf.unbroken hs l hl, hg.unbroken hs m hm⟩

/-- An operation that first computes something from its arguments. -/
theorem of_except {α : Type} (x : Except Fault α) {f : α → Query → Except Fault Query}
    (h : ∀ a, ∃ added, Adds splits (f a) added) :
    ∃ added, Adds splits (fun q => x >>= fun a => f a q) added := by
  cases x with
  | error fault => exact ⟨_, fail fault⟩
  | ok a => exact h a

/-! ## The shortcuts -/

/-- Clauses of any kind but WITH. -/
theorem unsplit {kind : Clause.Kind} (hkind : kind ≠ .carry) (args : List Value) :
    ∃ added, Adds false (fun q => q.add kind args) added := by
  have h := clauses kind args false
  rw [decide_eq_false hkind] at h
  exact ⟨_, h⟩

theorem matchNode (label name : Value) (properties : List (Value × Value)) :
    ∃ added, Adds false (fun q => q.matchNode label name properties) added :=
  of_except _ fun _ => of_except _ fun _ => of_except _ fun _ => unsplit (by decide) _

theorem expand (source target types depth : Value) (optional : Bool) :
    ∃ added, Adds false (fun q => q.expand source target types depth optional) added := by
  refine of_except _ fun types => of_except _ fun hops => of_except _ fun source =>
    of_except _ fun target => ?_
  cases optional
  · exact unsplit (by decide) _
  · exact unsplit (by decide) _

theorem paginate (page size : Value) :
    ∃ added, Adds false (fun q => q.paginate page size) added := by
  refine of_except _ fun before => ?_
  obtain ⟨limited, hlimit⟩ := @unsplit .limit (by decide) [size]
  cases hp : before.isPositive with
  | false => exact ⟨limited, hlimit⟩
  | true =>
    obtain ⟨skipped, hskip⟩ := @unsplit .skip (by decide) [before.value]
    exact ⟨_, hskip.bind hlimit⟩

theorem count (name : Value) (distinct : Bool) :
    ∃ added, Adds false (fun q => q.count name distinct) added :=
  of_except _ fun _ => unsplit (by decide) _

end Adds

/-! ## Calls -/

/-- The methods that begin a new part. -/
def Method.splits : Method → Bool
  | .split => true
  | .clause kind _ => decide (kind = .carry)
  | _ => false

/-- A call of a method on a query. -/
structure Call where
  method : Method
  arguments : Arguments
deriving Inhabited

/-- The query after a sequence of calls, of which none may fail. -/
def calls (q : Query) : List Call → Except Fault Query
  | [] => .ok q
  | c :: cs => (q.call c.method c.arguments).bind fun r => calls r cs

/-- Every call has an outcome that does not depend on the query. -/
theorem exists_adds (c : Call) :
    ∃ added, Adds c.method.splits (fun q => q.call c.method c.arguments) added := by
  simp only [call]
  split
  · exact ⟨_, Adds.fail _⟩
  · next bound _ =>
    obtain ⟨method, arguments⟩ := c
    cases method with
    | clause kind replace => exact ⟨_, Adds.clauses kind _ replace⟩
    | split => exact ⟨_, Adds.split⟩
    | matchNode => exact Adds.matchNode _ _ _
    | expand => exact Adds.expand _ _ _ _ _
    | paginate => exact Adds.paginate _ _
    | count => exact Adds.count _ _

/-- What a call adds, as the empty query shows it. -/
def Call.entries (c : Call) : Except Fault (List (Option Clause)) :=
  ((Query.mk none []).call c.method c.arguments).map (·.log)

theorem Call.adds (c : Call) :
    Adds c.method.splits (fun q => q.call c.method c.arguments) c.entries := by
  obtain ⟨added, h⟩ := exists_adds c
  have hentries : c.entries = added := by
    have hempty := h.eq ⟨none, []⟩
    rw [Call.entries, hempty]
    cases added <;> simp [Except.map, append]
  rwa [hentries]

/-- A sequence of calls adds to every query what it adds to the empty one. -/
theorem calls_eq_append (q : Query) (cs : List Call) :
    q.calls cs = ((Query.mk none []).calls cs).map fun r => q.append r.log := by
  induction cs generalizing q with
  | nil => simp [calls, Except.map, append]
  | cons c cs ih =>
    rw [calls, calls, c.adds.eq q, c.adds.eq ⟨none, []⟩]
    cases c.entries with
    | error fault => rfl
    | ok entries =>
      simp only [Except.map, Except.bind]
      rw [ih (q.append entries), ih ((Query.mk none []).append entries)]
      cases (Query.mk none []).calls cs <;> simp [Except.map, append]

/-- The entries of a call that succeeds. -/
def Call.log (c : Call) : List (Option Clause) := c.entries.toOption.getD []

theorem Call.entries_of_calls {q r : Query} {cs : List Call} (h : q.calls cs = .ok r) :
    ∀ c ∈ cs, c.entries = .ok c.log := by
  induction cs generalizing q with
  | nil => simp
  | cons c cs ih =>
    rw [calls, c.adds.eq q] at h
    cases hentries : c.entries with
    | error fault => rw [hentries] at h; cases h
    | ok log =>
      rw [hentries] at h
      have hc : c.entries = .ok c.log := by rw [Call.log, hentries]; rfl
      exact List.forall_mem_cons.2 ⟨hc, ih h⟩

theorem calls_of_entries {cs : List Call} (h : ∀ c ∈ cs, c.entries = .ok c.log) (q : Query) :
    q.calls cs = .ok (q.append (cs.flatMap Call.log)) := by
  induction cs generalizing q with
  | nil => simp [calls, append]
  | cons c cs ih =>
    obtain ⟨hc, hcs⟩ := List.forall_mem_cons.1 h
    rw [calls, c.adds.eq q, hc]
    change (q.append c.log).calls cs = _
    rw [ih hcs, append_append, List.flatMap_cons]

theorem log_of_calls {q r : Query} {cs : List Call} (h : q.calls cs = .ok r) :
    r = q.append (cs.flatMap Call.log) := by
  rw [calls_of_entries (Call.entries_of_calls h) q] at h
  exact (Except.ok.inj h).symm

theorem Call.valued_of_mem_log {call : Call} {c : Clause} (h : some c ∈ call.log) : c.Valued := by
  rw [Call.log] at h
  cases hentries : call.entries with
  | error fault => rw [hentries] at h; cases h
  | ok entries =>
    rw [hentries] at h
    exact call.adds.valued entries hentries c h

theorem Call.none_not_mem_log {call : Call} (h : call.method.splits = false) :
    none ∉ call.log := by
  rw [Call.log]
  cases hentries : call.entries with
  | error fault => simp [Except.toOption]
  | ok entries => exact call.adds.unbroken h entries hentries

/-- Every clause of a call is one that the call adds to the empty query. -/
theorem Call.exists_of_mem_log {call : Call} {c : Clause} (h : some c ∈ call.log) :
    ∃ r, (Query.mk none []).call call.method call.arguments = .ok r ∧ some c ∈ r.log := by
  rw [Call.log, Call.entries] at h
  cases hcall : (Query.mk none []).call call.method call.arguments with
  | error fault => simp [hcall, Except.map, Except.toOption] at h
  | ok r => exact ⟨r, rfl, by simpa [hcall, Except.map, Except.toOption] using h⟩

/-! ## Clause methods -/

/-- A clause method takes any arguments. -/
theorem call_clause (q : Query) (kind : Clause.Kind) (replace : Bool) (args : List Value) :
    q.call (.clause kind replace) ⟨args, []⟩ = q.add kind args replace := by
  cases args <;> rfl

theorem exists_clauses_of_add {q r : Query} {kind : Clause.Kind} {replace : Bool}
    {args : List Value} (h : q.add kind args replace = .ok r) :
    ∃ clauses, Clause.ofArguments kind replace args = .ok clauses ∧
      r = q.append (opening kind ++ clauses.map some) := by
  obtain ⟨clauses, hclauses, hr⟩ := map_eq_ok.1 h
  exact ⟨clauses, hclauses, hr.symm⟩

theorem exists_clauses_of_call {q r : Query} {kind : Clause.Kind} {replace : Bool}
    {arguments : Arguments} (h : q.call (.clause kind replace) arguments = .ok r) :
    ∃ clauses, Clause.ofArguments kind replace (collect arguments.positional arguments.named) =
      .ok clauses ∧ r = q.append (opening kind ++ clauses.map some) := by
  simp only [call] at h
  split at h
  · cases h
  · exact exists_clauses_of_add h

theorem mem_log_append_opening {q : Query} {kind : Clause.Kind} {clauses : List Clause}
    {c : Clause} : some c ∈ (q.append (opening kind ++ clauses.map some)).log ↔
      some c ∈ q.log ∨ c ∈ clauses := by
  have hopening : some c ∉ opening kind := by
    rw [opening]
    split <;> simp
  simp [append, hopening]

end Query
end GraphQuery
