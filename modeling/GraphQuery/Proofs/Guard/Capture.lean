import GraphQuery.Guard.Context
import GraphQuery.Proofs.Signature.Binding

/-!
# The query text in a context

The context of an error shows the text that reached the parameter named `query`, and no other
object: nothing when the parameter was left out, when it gathers the rest of the arguments, or when
the arguments did not fit.
-/
namespace GraphQuery.Guard

open Signature

/-- Of what is found under the name, only a text is shown. -/
theorem queryArgument_eq_some_iff (f : Function) (a : Arguments) (text : String) :
    queryArgument f a = some text ↔
      (f.signature.bindSome a).bind (·.lookup "query") = some (.text text) := by
  rw [queryArgument]
  split
  · next query hfound => rw [hfound, Option.some.injEq, Option.some.injEq, Value.text.injEq]
  · next hother => exact iff_of_false (by simp) (hother text)

/-- A context shows a text exactly if the arguments fit and that text reaches the parameter named
`query`, and nothing if they do not fit. When the parameter may be filled in either way, it makes
no difference in which way it is. -/
theorem captured_query_iff (f : Function) (hf : f.signature.WellFormed) (e : Incident)
    (trace : Nat) :
    (∀ a : Arguments, (a.named.map Prod.fst).Nodup → ∀ text,
      (Context.capture e f a trace).query = some text ↔ f.signature.Fits a ∧
        ∃ p ∈ f.signature, p.name = "query" ∧ f.signature.Reaches a p (.text text)) ∧
    (∀ a : Arguments, ¬ f.signature.Fits a → (Context.capture e f a trace).query = none) ∧
    ∀ p : Parameter, p.name = "query" → p.passing = .either → ∀ before : List Value,
      f.signature.places[before.length]? = some p → ∀ named behind : List (String × Value),
      ((named ++ behind).map Prod.fst).Nodup → (∀ entry ∈ named ++ behind, entry.1 ≠ "query") →
      ∀ v : Value, (Context.capture e f ⟨before ++ [v], named ++ behind⟩ trace).query =
        (Context.capture e f ⟨before, named ++ ("query", v) :: behind⟩ trace).query := by
  refine ⟨fun a ha text => ?_, fun a hmisfit => ?_, ?_⟩
  · exact (queryArgument_eq_some_iff f a text).trans (lookup_bindSome_iff hf ha "query")
  · have hnone : f.signature.bindSome a = none := by
      cases hbind : f.signature.bindSome a with
      | none => rfl
      | some bound => exact absurd ((exists_bindSome_iff hf).1 ⟨bound, hbind⟩) hmisfit
    change queryArgument f a = none
    rw [queryArgument, hnone]
    rfl
  · intro p hquery heither before hplace named behind ha hnamed v
    ext text
    change queryArgument f _ = _ ↔ queryArgument f _ = _
    rw [queryArgument_eq_some_iff, queryArgument_eq_some_iff, ← hquery,
      lookup_moved hf hplace heither (by rwa [hquery]) ha v]

/-- A parameter of each sort, the one for the query among them. -/
def search : Function where
  name := "search"
  signature := [⟨"client", .byPosition, false⟩, ⟨"query", .either, false⟩,
    ⟨"more", .restOfPositional, false⟩, ⟨"limit", .byName, true⟩, ⟨"options", .restOfNamed, false⟩]

theorem search_wellFormed : search.signature.WellFormed := ⟨by decide, by decide⟩

def notFound : Incident := .outside ⟨"KeyError", "'n'", .ordinary⟩

/-- The query by its place, with more behind it; the query given twice; and the query under its
name instead. -/
theorem search_captured : search.signature.WellFormed ∧
    (Context.capture notFound search ⟨[.null, .text "RETURN 1", .int 2], [("client", .int 3)]⟩
      0).query = some "RETURN 1" ∧
    (Context.capture notFound search ⟨[.null, .text "RETURN 1"], [("query", .text "RETURN 2")]⟩
      0).query = none ∧
    (Context.capture notFound search ⟨[.null, .text "RETURN 1"], [("limit", .int 2)]⟩ 0).query =
      (Context.capture notFound search
        ⟨[.null], [("limit", .int 2), ("query", .text "RETURN 1")]⟩ 0).query := by
  obtain ⟨hshown, hmisfit, hmoved⟩ := captured_query_iff search search_wellFormed notFound 0
  refine ⟨search_wellFormed, (hshown _ (by decide) _).2 ⟨?_, ?_⟩, hmisfit _ fun hfits => ?_, ?_⟩
  · exact ⟨fun _ => ⟨⟨"more", .restOfPositional, false⟩, by decide, rfl⟩,
      fun _ => ⟨⟨"options", .restOfNamed, false⟩, by decide, rfl⟩, by decide⟩
  · exact ⟨⟨"query", .either, false⟩, by decide, rfl, .position 1 rfl rfl⟩
  · have hfree := hfits.once ⟨"query", .either, false⟩ (by decide) ("query", .text "RETURN 2")
      (by simp)
    exact absurd hfree (by decide)
  · exact hmoved ⟨"query", .either, false⟩ rfl rfl [.null] rfl [("limit", .int 2)] [] (by decide)
      (by decide) (.text "RETURN 1")

end GraphQuery.Guard
