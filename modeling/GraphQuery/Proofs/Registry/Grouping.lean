import GraphQuery.Registry.Basic
import Mathlib.Data.List.Basic

/-!
# Grouped registries

A registry is grouped when no kind comes back behind another. Insertion, removal and overwriting
by a fragment of the same kind keep a registry grouped, and then the fragments of a kind form one
contiguous run.
-/
namespace GraphQuery.Registry
open Clause (Kind)

variable {α : Type}

@[simp] theorem kinds_nil : kinds ([] : Registry α) = [] := rfl

@[simp] theorem kinds_cons (g : Fragment α) (r : Registry α) :
    kinds (g :: r) = g.kind :: kinds r := rfl

/-- No kind comes back behind another. -/
def Grouped (r : Registry α) : Prop :=
  ∀ k l : Kind, [k, l, k].Sublist r.kinds → l = k

theorem grouped_nil : Grouped ([] : Registry α) := by
  intro k l h
  simp at h

theorem Grouped.of_kinds_sublist {r s : Registry α} (hr : Grouped r)
    (h : s.kinds.Sublist r.kinds) : Grouped s :=
  fun k l hk => hr k l (hk.trans h)

/-- The fragment in front either starts a run of its own or continues the one behind it. -/
theorem grouped_cons {g : Fragment α} {r : Registry α} :
    Grouped (g :: r) ↔ Grouped r ∧ (g.kind ∈ r.kinds → r.kinds.head? = some g.kind) := by
  constructor
  · intro h
    refine ⟨h.of_kinds_sublist (List.sublist_cons_self _ _), fun hg => ?_⟩
    cases r with
    | nil => simp at hg
    | cons f r =>
      by_cases hf : f.kind = g.kind
      · simp [hf]
      · have hback : [g.kind].Sublist (kinds r) := by
          simpa [Ne.symm hf] using hg
        have := h g.kind f.kind ((hback.cons_cons f.kind).cons_cons g.kind)
        exact absurd this hf
  · rintro ⟨hr, hhead⟩ k l h
    rw [kinds_cons] at h
    cases h with
    | cons _ h => exact hr k l h
    | cons_cons _ h =>
      have hmem : g.kind ∈ r.kinds := h.subset (by simp)
      cases r with
      | nil => simp at hmem
      | cons f r =>
        have hf : f.kind = g.kind := by simpa using hhead hmem
        rw [kinds_cons, hf] at h
        cases h with
        | cons_cons => rfl
        | cons _ h =>
          refine hr g.kind l ?_
          rw [kinds_cons, hf]
          exact h.cons_cons g.kind

/-! ## The operations -/

theorem mem_kinds {k : Kind} {r : Registry α} : k ∈ r.kinds ↔ ∃ f ∈ r, f.kind = k := by
  simp [kinds]

@[simp] theorem mem_kinds_insert {k : Kind} {f : Fragment α} {r : Registry α} :
    k ∈ kinds (insert f r) ↔ k = f.kind ∨ k ∈ r.kinds := by
  simp only [mem_kinds, mem_insert]
  constructor
  · rintro ⟨g, rfl | hg, rfl⟩
    · exact .inl rfl
    · exact .inr ⟨g, hg, rfl⟩
  · rintro (rfl | ⟨g, hg, rfl⟩)
    · exact ⟨f, .inl rfl, rfl⟩
    · exact ⟨g, .inr hg, rfl⟩

theorem sublist_insert (f : Fragment α) (r : Registry α) : r.Sublist (insert f r) := by
  induction r with
  | nil => simp
  | cons g r ih =>
    rw [insert]
    split
    · exact (List.sublist_cons_self f r).cons_cons g
    · exact ih.cons_cons g

theorem kinds_sublist_insert (f : Fragment α) (r : Registry α) :
    r.kinds.Sublist (kinds (insert f r)) :=
  (sublist_insert f r).map _

theorem remove_sublist (serial : Nat) (r : Registry α) : (remove serial r).Sublist r :=
  List.eraseP_sublist

theorem kinds_remove_sublist (serial : Nat) (r : Registry α) :
    (kinds (remove serial r)).Sublist r.kinds :=
  (remove_sublist serial r).map _

theorem head?_kinds_insert {f : Fragment α} {r : Registry α} (h : r ≠ []) :
    (kinds (insert f r)).head? = r.kinds.head? := by
  cases r with
  | nil => exact absurd rfl h
  | cons g r =>
    rw [insert]
    split <;> rfl

theorem Grouped.insert (f : Fragment α) {r : Registry α} (h : Grouped r) :
    Grouped (insert f r) := by
  induction r with
  | nil => exact grouped_cons.2 ⟨grouped_nil, by simp⟩
  | cons g r ih =>
    obtain ⟨hr, hhead⟩ := grouped_cons.1 h
    rw [Registry.insert]
    split
    · next hf =>
      refine grouped_cons.2 ⟨grouped_cons.2 ⟨hr, fun hmem => absurd hmem hf.2⟩, fun _ => ?_⟩
      simp [hf.1]
    · next hf =>
      refine grouped_cons.2 ⟨ih hr, fun hmem => ?_⟩
      -- a fragment of the kind in front stands behind it already, else `f` had stopped here
      have hg : g.kind ∈ kinds r := by
        rcases mem_kinds_insert.1 hmem with hk | hk
        · rw [hk]
          by_contra hnot
          exact hf ⟨hk, hnot⟩
        · exact hk
      have hne : r ≠ [] := by rintro rfl; simp at hg
      rw [head?_kinds_insert hne]
      exact hhead hg

theorem Grouped.remove (serial : Nat) {r : Registry α} (h : Grouped r) :
    Grouped (remove serial r) :=
  h.of_kinds_sublist (kinds_remove_sublist serial r)

theorem kinds_overwrite {old : Nat} {new : Fragment α} {r : Registry α}
    (h : ∀ g ∈ r, g.serial = old → g.kind = new.kind) :
    kinds (overwrite old new r) = r.kinds := by
  induction r with
  | nil => rfl
  | cons g r ih =>
    rw [overwrite]
    split
    · next hg => simp [h g (by simp) hg]
    · rw [kinds_cons, kinds_cons, ih fun f hf => h f (by simp [hf])]

/-! ## Runs -/

theorem ofKind_cons_self (g : Fragment α) (r : Registry α) :
    ofKind g.kind (g :: r) = g :: ofKind g.kind r := by
  simp [ofKind]

theorem ofKind_cons_ne {g : Fragment α} {k : Kind} (h : g.kind ≠ k) (r : Registry α) :
    ofKind k (g :: r) = ofKind k r := by
  simp [ofKind, h]

/-- Whatever kind stands in front, its run is the front of the registry. -/
theorem ofKind_isPrefix {k : Kind} {r : Registry α} (h : Grouped r)
    (hk : r.kinds.head? = some k) : ofKind k r <+: r := by
  induction r with
  | nil => simp at hk
  | cons g r ih =>
    obtain ⟨hr, hhead⟩ := grouped_cons.1 h
    have hg : g.kind = k := by simpa using hk
    subst hg
    rw [ofKind_cons_self]
    by_cases hmem : g.kind ∈ kinds r
    · exact List.prefix_cons_inj g |>.2 (ih hr (hhead hmem))
    · rw [ofKind_eq_nil hmem]
      simp

/-- The fragments of a kind form one contiguous run. -/
theorem Grouped.ofKind_isInfix {r : Registry α} (h : Grouped r) (k : Kind) :
    ofKind k r <:+: r := by
  induction r with
  | nil => exact List.infix_refl _
  | cons g r ih =>
    by_cases hg : g.kind = k
    · exact (ofKind_isPrefix h (by simp [hg])).isInfix
    · rw [ofKind_cons_ne hg]
      exact (ih (grouped_cons.1 h).1).trans (List.infix_cons (List.infix_refl r))

/-! ## The kinds that are present -/

/-- The kinds of a registry, each of them once, in the order of their first members. -/
def present : Registry α → List Kind
  | [] => []
  | f :: r => f.kind :: (present r).filter (· ≠ f.kind)

@[simp] theorem mem_present {k : Kind} {r : Registry α} : k ∈ present r ↔ k ∈ r.kinds := by
  induction r with
  | nil => simp [present]
  | cons f r ih =>
    rw [present, kinds_cons, List.mem_cons, List.mem_cons, List.mem_filter, ih]
    by_cases hk : k = f.kind <;> simp [hk]

theorem nodup_present (r : Registry α) : (present r).Nodup := by
  induction r with
  | nil => exact List.nodup_nil
  | cons f r ih =>
    rw [present, List.nodup_cons]
    exact ⟨by simp, ih.filter _⟩

theorem head?_present (r : Registry α) : (present r).head? = r.kinds.head? := by
  cases r with
  | nil => rfl
  | cons f r => rfl

/-- A grouped registry is its runs, one behind the other. -/
theorem Grouped.eq_flatMap {r : Registry α} (h : Grouped r) :
    r = (present r).flatMap fun k => ofKind k r := by
  induction r with
  | nil => rfl
  | cons g r ih =>
    obtain ⟨hr, hhead⟩ := grouped_cons.1 h
    have hothers {ks : List Kind} (hks : g.kind ∉ ks) :
        (ks.flatMap fun k => ofKind k (g :: r)) = ks.flatMap fun k => ofKind k r := by
      refine List.flatMap_congr fun k hk => ?_
      exact ofKind_cons_ne (fun hg => hks (hg ▸ hk)) r
    have hnot : g.kind ∉ (present r).filter (· ≠ g.kind) := by simp
    rw [present, List.flatMap_cons, ofKind_cons_self, hothers hnot, List.cons_append]
    congr 1
    by_cases hmem : g.kind ∈ kinds r
    · -- the run in front goes on, and its kind stands first among the kinds behind it
      obtain ⟨ks, hks⟩ : ∃ ks, present r = g.kind :: ks := by
        have hfirst := (head?_present r).trans (hhead hmem)
        exact ⟨(present r).tail, List.eq_cons_of_mem_head? hfirst⟩
      have hnodup : g.kind ∉ ks := by
        have := nodup_present r
        rw [hks, List.nodup_cons] at this
        exact this.1
      have hfilter : (present r).filter (· ≠ g.kind) = ks := by
        rw [hks, List.filter_cons_of_neg (by simp)]
        exact List.filter_eq_self.2 fun k hk => by
          simpa using fun hg : k = g.kind => hnodup (hg ▸ hk)
      have := ih hr
      rw [hks, List.flatMap_cons] at this
      rw [hfilter]
      exact this
    · have hfilter : (present r).filter (· ≠ g.kind) = present r :=
        List.filter_eq_self.2 fun k hk => by
          simpa using fun hg : k = g.kind => hmem (hg ▸ mem_present.1 hk)
      rw [ofKind_eq_nil hmem, hfilter, List.nil_append]
      exact ih hr

end GraphQuery.Registry
