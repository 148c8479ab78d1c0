import GraphQuery.Proofs.Registry.Serial
import Mathlib.Data.List.Basic

/-!
# The order of runs

In a grouped registry the run of one kind stands before the run of another when its first member
does. Fragments that only come in, or only go, leave the runs that stay in their order. A fragment
that goes first and comes back as another one may lose its place when it was the last of its kind.
-/
namespace GraphQuery.Registry
open Clause (Kind)

variable {α : Type} {r s t : Registry α} {k l : Kind}

/-- The first fragment of one kind stands before the first fragment of another. -/
def Precedes (k l : Kind) (r : Registry α) : Prop := r.kinds.idxOf k < r.kinds.idxOf l

/-- The kinds that two registries have in common come in the same order. -/
def KeepsOrder (r s : Registry α) : Prop :=
  ∀ k l, k ∈ r.kinds → k ∈ s.kinds → l ∈ r.kinds → l ∈ s.kinds →
    (Precedes k l r ↔ Precedes k l s)

theorem not_precedes_self (k : Kind) (r : Registry α) : ¬ Precedes k k r := Nat.lt_irrefl _

theorem Precedes.asymm (h : Precedes k l r) : ¬ Precedes l k r := Nat.lt_asymm h

theorem precedes_or_precedes (hk : k ∈ r.kinds) (hne : k ≠ l) : Precedes k l r ∨ Precedes l k r := by
  rcases Nat.lt_trichotomy (r.kinds.idxOf k) (r.kinds.idxOf l) with h | h | h
  · exact .inl h
  · exact absurd ((List.idxOf_inj hk).1 h) hne
  · exact .inr h

/-- Of two runs the first one is that of which a member stands before one of the other. -/
theorem Grouped.precedes_iff (h : Grouped r) (hk : k ∈ r.kinds) (hl : l ∈ r.kinds) (hne : k ≠ l) :
    Precedes k l r ↔ [k, l].Sublist r.kinds := by
  induction r with
  | nil => simp at hk
  | cons g r ih =>
    obtain ⟨hr, -⟩ := grouped_cons.1 h
    rw [kinds_cons] at hk hl
    rw [Precedes, kinds_cons]
    by_cases hgk : g.kind = k
    · have hmem : l ∈ kinds r := (List.mem_cons.1 hl).resolve_left fun he => hne (he ▸ hgk ▸ rfl)
      have hsub : [k, l].Sublist (k :: kinds r) := (List.singleton_sublist.2 hmem).cons_cons k
      rw [hgk, List.idxOf_cons_self, List.idxOf_cons_ne _ hne]
      simp [hsub]
    · by_cases hgl : g.kind = l
      · rw [hgl, List.idxOf_cons_self]
        constructor
        · intro hlt
          omega
        · intro hsub
          cases hsub with
          | cons _ hsub =>
            refine absurd (h l k ?_) hne
            rw [kinds_cons, hgl]
            exact hsub.cons_cons l
          | cons_cons => exact absurd rfl hne
      · have hk' : k ∈ kinds r := (List.mem_cons.1 hk).resolve_left (Ne.symm hgk)
        have hl' : l ∈ kinds r := (List.mem_cons.1 hl).resolve_left (Ne.symm hgl)
        rw [List.idxOf_cons_ne _ hgk, List.idxOf_cons_ne _ hgl]
        have hrest := ih hr hk' hl'
        rw [Precedes] at hrest
        constructor
        · intro hlt
          exact .cons _ (hrest.1 (by omega))
        · intro hsub
          cases hsub with
          | cons _ hsub => exact Nat.succ_lt_succ (hrest.2 hsub)
          | cons_cons => exact absurd rfl hgk

/-! ## What comes in or goes -/

theorem KeepsOrder.refl (r : Registry α) : KeepsOrder r r := fun _ _ _ _ _ _ => Iff.rfl

theorem KeepsOrder.symm (h : KeepsOrder r s) : KeepsOrder s r :=
  fun k l hk hk' hl hl' => (h k l hk' hk hl' hl).symm

/-- A way through a registry that has all kinds that its ends have in common. -/
theorem KeepsOrder.trans (hrs : KeepsOrder r s) (hst : KeepsOrder s t)
    (hmid : ∀ k ∈ r.kinds, k ∈ t.kinds → k ∈ s.kinds) : KeepsOrder r t := by
  intro k l hk hk' hl hl'
  have hks := hmid k hk hk'
  have hls := hmid l hl hl'
  exact (hrs k l hk hks hl hls).trans (hst k l hks hk' hls hl')

/-- Fragments that go leave the other runs in their order. -/
theorem KeepsOrder.of_sublist (h : Grouped s) (hsub : r.kinds.Sublist s.kinds) :
    KeepsOrder r s := by
  have hgrouped := h.of_kinds_sublist hsub
  have hmono {k l : Kind} (hk : k ∈ r.kinds) (hl : l ∈ r.kinds) (hp : Precedes k l r) :
      Precedes k l s := by
    have hne : k ≠ l := by
      rintro rfl
      exact not_precedes_self k r hp
    rw [h.precedes_iff (hsub.subset hk) (hsub.subset hl) hne]
    exact ((hgrouped.precedes_iff hk hl hne).1 hp).trans hsub
  intro k l hk _ hl _
  refine ⟨hmono hk hl, fun hp => ?_⟩
  have hne : k ≠ l := by
    rintro rfl
    exact not_precedes_self k s hp
  rcases precedes_or_precedes hk hne with hp' | hp'
  · exact hp'
  · exact absurd hp (hmono hl hk hp').asymm

theorem KeepsOrder.of_kinds_eq (h : s.kinds = r.kinds) : KeepsOrder r s := by
  intro k l _ _ _ _
  rw [Precedes, Precedes, h]

/-! ## What goes and comes back -/

/-- A fragment of a new kind goes to the end. -/
theorem insert_eq_append {f : Fragment α} (h : f.kind ∉ r.kinds) : insert f r = r ++ [f] := by
  induction r with
  | nil => rfl
  | cons g r ih =>
    rw [kinds_cons, List.mem_cons, not_or] at h
    rw [insert, if_neg fun hg => h.1 hg.1.symm, ih h.2, List.cons_append]

/-- Where a new fragment goes: behind the last one of its kind. -/
theorem exists_insert_eq {f : Fragment α} (h : f.kind ∈ r.kinds) :
    ∃ before behind : Registry α, r = before ++ behind ∧
      before.kinds.getLast? = some f.kind ∧ f.kind ∉ behind.kinds ∧
      insert f r = before ++ f :: behind := by
  induction r with
  | nil => simp at h
  | cons g r ih =>
    rw [insert]
    split
    · next hg => exact ⟨[g], r, rfl, congrArg some hg.1, hg.2, rfl⟩
    · next hg =>
      have hr : f.kind ∈ kinds r := by
        rcases List.mem_cons.1 h with hk | hk
        · by_contra hnot
          exact hg ⟨hk.symm, hnot⟩
        · exact hk
      obtain ⟨before, behind, rfl, hlast, hbehind, hinsert⟩ := ih hr
      refine ⟨g :: before, behind, rfl, ?_, hbehind, congrArg (g :: ·) hinsert⟩
      rw [kinds_cons, List.getLast?_cons, hlast, Option.getD_some]

theorem mem_kinds_remove {serial : Nat} (h : r.serials.Nodup) :
    k ∈ kinds (remove serial r) ↔ ∃ f ∈ r, f.kind = k ∧ f.serial ≠ serial := by
  rw [mem_kinds]
  constructor
  · rintro ⟨f, hf, hk⟩
    obtain ⟨hf, hs⟩ := (mem_remove h).1 hf
    exact ⟨f, hf, hk, hs⟩
  · rintro ⟨f, hf, hk, hs⟩
    exact ⟨f, (mem_remove h).2 ⟨hf, hs⟩, hk⟩

/-- A kind that goes with one fragment has no other one. -/
theorem ofKind_eq_singleton {f : Fragment α} (h : r.serials.Nodup) (hf : f ∈ r)
    (hout : f.kind ∉ kinds (remove f.serial r)) : ofKind f.kind r = [f] := by
  have hmem : f ∈ ofKind f.kind r := List.mem_filter.2 ⟨hf, by simp⟩
  have hall : ∀ g ∈ ofKind f.kind r, g = f := by
    intro g hg
    obtain ⟨hg, hgk⟩ := List.mem_filter.1 hg
    by_contra hne
    refine hout ((mem_kinds_remove h).2 ⟨g, hg, by simpa using hgk, fun hs => hne ?_⟩)
    exact eq_of_serial_eq h hg hf hs
  have hnodup : (ofKind f.kind r).Nodup := (List.Nodup.of_map _ h).filter _
  cases hrun : ofKind f.kind r with
  | nil => rw [hrun] at hmem; cases hmem
  | cons g rest =>
    rw [hrun] at hall hnodup
    cases rest with
    | nil => rw [hall g (by simp)]
    | cons g' rest =>
      have heq : g = g' := (hall g (by simp)).trans (hall g' (by simp)).symm
      simp [heq] at hnodup

/-- What takes the place of one of several fragments of its kind, or of none, moves no run. -/
theorem keepsOrder_insert_remove {new : Fragment α} {serial : Nat} (h : Grouped r)
    (hstay : new.kind ∈ r.kinds → new.kind ∈ kinds (remove serial r)) :
    KeepsOrder r (insert new (remove serial r)) := by
  have hbefore := (KeepsOrder.of_sublist h (kinds_remove_sublist serial r)).symm
  have hafter := KeepsOrder.of_sublist ((h.remove serial).insert new)
    (kinds_sublist_insert new (remove serial r))
  refine hbefore.trans hafter fun k hk hk' => ?_
  rcases mem_kinds_insert.1 hk' with rfl | hk'
  · exact hstay hk
  · exact hk'

/-- When the only fragment of a kind goes and another one comes, the run keeps its place exactly
if it was the last one. -/
theorem keepsOrder_insert_remove_only {new f : Fragment α} (h : Grouped r) (hn : r.serials.Nodup)
    (hkind : new.kind = f.kind) (honly : ofKind f.kind r = [f]) :
    KeepsOrder r (insert new (remove f.serial r)) ↔ r.getLast? = some f := by
  have hf : f ∈ r := by
    have hmem : f ∈ ofKind f.kind r := by simp [honly]
    exact (List.mem_filter.1 hmem).1
  have hrest {g : Fragment α} (hg : g ∈ remove f.serial r) : g.kind ≠ f.kind := by
    intro hgk
    obtain ⟨hg, hne⟩ := (mem_remove hn).1 hg
    have hmem : g ∈ ofKind f.kind r := List.mem_filter.2 ⟨hg, by simpa using hgk⟩
    rw [honly, List.mem_singleton] at hmem
    exact hne (hmem ▸ rfl)
  have hout : new.kind ∉ kinds (remove f.serial r) := by
    intro hmem
    obtain ⟨g, hg, hgk⟩ := mem_kinds.1 hmem
    exact hrest hg (hgk.trans hkind)
  have hgrouped := (h.remove f.serial).insert new
  rw [insert_eq_append hout] at hgrouped ⊢
  obtain ⟨before, behind, rfl⟩ := List.append_of_mem hf
  rw [remove_append_cons hn] at hrest hgrouped ⊢
  rcases List.eq_nil_or_concat' behind with rfl | ⟨front, g, rfl⟩
  · have hkinds : kinds (before ++ [] ++ [new]) = kinds (before ++ [f]) := by
      simp [kinds, hkind]
    simp only [List.getLast?_concat, iff_true]
    exact KeepsOrder.of_kinds_eq hkinds
  · have hne : g.kind ≠ f.kind := hrest (by simp)
    have hlast : (before ++ f :: (front ++ [g])).getLast? = some g := by
      rw [← List.cons_append, ← List.append_assoc, List.getLast?_concat]
    -- before the call the run stands before that of the last fragment, and behind it afterwards
    have hfront : Precedes f.kind g.kind (before ++ f :: (front ++ [g])) := by
      rw [h.precedes_iff (by simp [kinds]) (by simp [kinds]) hne.symm]
      have hsub : [f, g].Sublist (before ++ f :: (front ++ [g])) :=
        ((List.sublist_append_right front [g]).cons_cons f).trans (List.sublist_append_right _ _)
      exact hsub.map (·.kind)
    have hback : Precedes g.kind f.kind (before ++ (front ++ [g]) ++ [new]) := by
      rw [hgrouped.precedes_iff (by simp [kinds]) (by simp [kinds, hkind]) hne, ← hkind]
      have hsub : [g, new].Sublist (before ++ (front ++ [g]) ++ [new]) :=
        (List.singleton_sublist.2 (by simp)).append (List.Sublist.refl [new])
      exact hsub.map (·.kind)
    rw [hlast]
    constructor
    · intro hkeeps
      have hboth := hkeeps f.kind g.kind (by simp [kinds]) (by simp [kinds, hkind])
        (by simp [kinds]) (by simp [kinds])
      exact absurd (hboth.1 hfront) hback.asymm
    · intro hgf
      exact absurd (congrArg (·.kind) (Option.some.inj hgf)) hne

/-- A fragment that goes while another one comes moves the run of the new one exactly if it was
the only one of that kind, and not the last of all. -/
theorem keepsOrder_insert_remove_iff (new : Fragment α) {serial : Nat} (h : Grouped r)
    (hn : r.serials.Nodup) : KeepsOrder r (insert new (remove serial r)) ↔
      ∀ f, ofKind new.kind r = [f] → f.serial = serial → r.getLast? = some f := by
  constructor
  · rintro hkeeps f honly rfl
    have hf : f ∈ ofKind new.kind r := by simp [honly]
    have hkind : f.kind = new.kind := by simpa using (List.mem_filter.1 hf).2
    rw [← hkind] at honly
    exact (keepsOrder_insert_remove_only h hn hkind.symm honly).1 hkeeps
  · intro hlast
    by_cases hstay : new.kind ∈ r.kinds → new.kind ∈ kinds (remove serial r)
    · exact keepsOrder_insert_remove h hstay
    · obtain ⟨hin, hout⟩ := Classical.not_imp.1 hstay
      obtain ⟨f, hf, hkind⟩ := mem_kinds.1 hin
      have hserial : f.serial = serial := by
        by_contra hne
        exact hout ((mem_kinds_remove hn).2 ⟨f, hf, hkind, hne⟩)
      subst hserial
      have honly := ofKind_eq_singleton hn hf (hkind ▸ hout)
      refine (keepsOrder_insert_remove_only h hn hkind.symm honly).2 (hlast f ?_ rfl)
      rw [← hkind, honly]

end GraphQuery.Registry
