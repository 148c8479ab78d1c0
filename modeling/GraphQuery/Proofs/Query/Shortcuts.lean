import GraphQuery.Proofs.Query.Hollow

/-!
# Clauses of shortcuts

The shortcuts add clauses whose values are made from texts and numbers. Whatever they are called
with, every clause that they add has a value, and none of them begins a new part.
-/
namespace GraphQuery.Query

/-! ## What the shortcuts come down to -/

theorem add_of_matchNode {q r : Query} {label name : Value} {properties : List (Value × Value)}
    (h : q.matchNode label name properties = .ok r) :
    ∃ text, q.add .pattern [.text text] = .ok r := by
  simp only [matchNode, bind_eq_ok] at h
  obtain ⟨-, -, -, -, text, -, h⟩ := h
  exact ⟨text, h⟩

theorem add_of_expand {q r : Query} {source target types depth : Value} {optional : Bool}
    (h : q.expand source target types depth optional = .ok r) :
    ∃ text, q.add (if optional then .optionalPattern else .pattern) [.text text] = .ok r := by
  simp only [expand, bind_eq_ok] at h
  obtain ⟨types, -, hops, -, source, -, target, -, h⟩ := h
  exact ⟨_, h⟩

theorem add_of_count {q r : Query} {name : Value} {distinct : Bool}
    (h : q.count name distinct = .ok r) : ∃ text, q.add .result [.text text] = .ok r := by
  simp only [count, bind_eq_ok] at h
  obtain ⟨name, -, h⟩ := h
  exact ⟨_, h⟩

/-- The rows before a page are skipped if there are any, and then the size is the limit. -/
theorem add_of_paginate {q r : Query} {page size : Value} (h : q.paginate page size = .ok r) :
    ∃ before s, offset page size = .ok before ∧
      (if before.isPositive then q.add .skip [before.value] = .ok s else s = q) ∧
      s.add .limit [size] = .ok r := by
  simp only [paginate, bind_eq_ok] at h
  obtain ⟨before, hoffset, h⟩ := h
  refine ⟨before, ?_⟩
  cases hp : before.isPositive with
  | false =>
    rw [hp] at h
    exact ⟨q, hoffset, rfl, h⟩
  | true =>
    rw [hp, if_pos rfl] at h
    obtain ⟨s, hskip, hlimit⟩ := bind_eq_ok.1 h
    exact ⟨s, hoffset, hskip, hlimit⟩

/-! ## What they add -/

/-- A query that has grown by clauses with values, of which none is empty, and by none of WITH. -/
def Enriches (q r : Query) : Prop :=
  ∀ c, some c ∈ r.log → some c ∈ q.log ∨ (c.hasValues ∧ "" ∉ c.values) ∧ c.kind ≠ .carry

theorem enriches_of_add {q r : Query} {kind : Clause.Kind} {args : List Value}
    (hkind : kind ≠ .carry) (h : q.add kind args = .ok r)
    (hargs : ∀ v ∈ Clause.flattenAll args, Clause.hasContent v →
      Clause.isHollow kind false v = false) : Enriches q r := by
  obtain ⟨clauses, hclauses, rfl⟩ := exists_clauses_of_add h
  intro c hc
  rcases mem_log_append_opening.1 hc with hc | hc
  · exact .inl hc
  · obtain ⟨v, hv, hnil, hempty⟩ := Clause.values_of_ofArguments hclauses hc
    obtain ⟨hmem, hcontent⟩ := List.mem_filter.1 hv
    have hown : c.kind = kind := (Clause.ofArguments_spec hclauses c hc).1
    exact .inr ⟨⟨by simp [Clause.hasValues, hnil, hargs v hmem hcontent], hempty⟩, hown ▸ hkind⟩

namespace Enriches

variable {q r t : Query}

theorem trans (h : Enriches q r) (h' : Enriches r t) : Enriches q t := by
  intro c hc
  rcases h' c hc with hc | hc
  · exact h c hc
  · exact .inr hc

theorem of_alwaysGives {kind : Clause.Kind} (hkind : kind.alwaysGives) (hcarry : kind ≠ .carry)
    {args : List Value} (h : q.add kind args = .ok r) : Enriches q r :=
  enriches_of_add hcarry h fun _ _ hv => Clause.isHollow_of_alwaysGives hkind hv

theorem matchNode {label name : Value} {properties : List (Value × Value)}
    (h : q.matchNode label name properties = .ok r) : Enriches q r := by
  obtain ⟨text, hadd⟩ := add_of_matchNode h
  exact of_alwaysGives rfl (by decide) hadd

theorem expand {source target types depth : Value} {optional : Bool}
    (h : q.expand source target types depth optional = .ok r) : Enriches q r := by
  obtain ⟨text, hadd⟩ := add_of_expand h
  cases optional
  · exact of_alwaysGives rfl (by decide) hadd
  · exact of_alwaysGives rfl (by decide) hadd

theorem paginate {page size : Value} (h : q.paginate page size = .ok r) : Enriches q r := by
  obtain ⟨before, s, -, hskip, hlimit⟩ := add_of_paginate h
  have hlimited : Enriches s r := of_alwaysGives rfl (by decide) hlimit
  split at hskip
  · exact (of_alwaysGives rfl (by decide) hskip).trans hlimited
  · subst hskip
    exact hlimited

theorem count {name : Value} {distinct : Bool} (h : q.count name distinct = .ok r) :
    Enriches q r := by
  obtain ⟨text, hadd⟩ := add_of_count h
  refine enriches_of_add (by decide) hadd fun v hv hcontent => ?_
  rw [List.mem_singleton.1 hv] at hcontent ⊢
  simpa [Clause.isHollow, Clause.hasContent] using hcontent

end Enriches

/-- Only clause methods add clauses without values, or clauses of WITH. -/
theorem enriches_of_call {q r : Query} {m : Method} {arguments : Arguments}
    (hm : ¬ ∃ kind replace, m = .clause kind replace) (h : q.call m arguments = .ok r) :
    Enriches q r := by
  simp only [call] at h
  split at h
  · cases h
  · cases m with
    | clause kind replace => exact absurd ⟨kind, replace, rfl⟩ hm
    | split =>
      cases h
      intro c hc
      exact .inl (by simpa [Query.split, append] using hc)
    | matchNode => exact Enriches.matchNode h
    | expand => exact Enriches.expand h
    | paginate => exact Enriches.paginate h
    | count => exact Enriches.count h

end GraphQuery.Query
