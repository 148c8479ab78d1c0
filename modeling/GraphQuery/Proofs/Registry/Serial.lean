import GraphQuery.Proofs.Registry.Grouping
import Mathlib.Data.List.Nodup

/-!
# Serial numbers in a registry

As long as no fragment is registered twice, removal and overwriting are determined by serial
numbers alone, and a fragment that is inserted and removed again leaves no trace.
-/
namespace GraphQuery.Registry

variable {α : Type}

def serials (r : Registry α) : List Nat := r.map (·.serial)

@[simp] theorem serials_nil : serials ([] : Registry α) = [] := rfl

@[simp] theorem serials_cons (g : Fragment α) (r : Registry α) :
    serials (g :: r) = g.serial :: serials r := rfl

theorem serials_append (r t : Registry α) : serials (r ++ t) = r.serials ++ t.serials :=
  List.map_append

theorem mem_serials {serial : Nat} {r : Registry α} :
    serial ∈ r.serials ↔ ∃ f ∈ r, f.serial = serial := by
  simp [serials]

theorem has_iff {r : Registry α} {serial : Nat} : r.has serial = true ↔ serial ∈ r.serials := by
  simp [has, serials]

/-- Two registered fragments of one serial number are one. -/
theorem eq_of_serial_eq {r : Registry α} (h : r.serials.Nodup) {f g : Fragment α}
    (hf : f ∈ r) (hg : g ∈ r) (hs : f.serial = g.serial) : f = g :=
  List.inj_on_of_nodup_map h hf hg hs

theorem not_mem_serials_of_nodup {f : Fragment α} {before behind : Registry α}
    (h : (serials (before ++ f :: behind)).Nodup) :
    f.serial ∉ before.serials ∧ f.serial ∉ behind.serials := by
  rw [serials_append, serials_cons, List.nodup_middle, List.nodup_cons, List.mem_append,
    not_or] at h
  exact h.1

/-! ## Insertion -/

theorem insert_perm (f : Fragment α) (r : Registry α) : (insert f r).Perm (f :: r) := by
  induction r with
  | nil => exact List.Perm.refl _
  | cons g r ih =>
    rw [insert]
    split
    · exact List.Perm.swap f g r
    · exact (ih.cons g).trans (List.Perm.swap f g r)

@[simp] theorem mem_serials_insert {serial : Nat} {f : Fragment α} {r : Registry α} :
    serial ∈ serials (insert f r) ↔ serial = f.serial ∨ serial ∈ r.serials := by
  have h := ((insert_perm f r).map (·.serial)).mem_iff (a := serial)
  simpa [serials] using h

theorem nodup_serials_insert {f : Fragment α} {r : Registry α} :
    (serials (insert f r)).Nodup ↔ f.serial ∉ r.serials ∧ r.serials.Nodup := by
  have h := ((insert_perm f r).map (·.serial)).nodup_iff
  simpa [serials] using h

/-! ## Removal -/

theorem remove_eq_self {serial : Nat} {r : Registry α} (h : serial ∉ r.serials) :
    remove serial r = r := by
  apply List.eraseP_of_forall_not
  intro f hf hs
  exact h (mem_serials.2 ⟨f, hf, by simpa using hs⟩)

theorem remove_eq_filter {serial : Nat} {r : Registry α} (h : r.serials.Nodup) :
    remove serial r = r.filter (·.serial ≠ serial) := by
  induction r with
  | nil => rfl
  | cons g r ih =>
    rw [serials_cons, List.nodup_cons] at h
    by_cases hg : g.serial = serial
    · have hrest : r.filter (fun f => decide (f.serial ≠ serial)) = r := by
        apply List.filter_eq_self.2
        intro f hf
        have : f.serial ≠ serial := fun hs => h.1 (mem_serials.2 ⟨f, hf, hs.trans hg.symm⟩)
        simpa using this
      rw [List.filter_cons_of_neg (by simpa using hg), hrest, remove,
        List.eraseP_cons_of_pos (by simpa using hg)]
    · rw [List.filter_cons_of_pos (by simpa using hg), ← ih h.2, remove,
        List.eraseP_cons_of_neg (by simpa using hg), remove]

theorem remove_append_cons {f : Fragment α} {before behind : Registry α}
    (h : (serials (before ++ f :: behind)).Nodup) :
    remove f.serial (before ++ f :: behind) = before ++ behind := by
  have hbefore : ∀ g ∈ before, ¬ (g.serial == f.serial) = true := by
    intro g hg hs
    exact (not_mem_serials_of_nodup h).1 (mem_serials.2 ⟨g, hg, by simpa using hs⟩)
  rw [remove, List.eraseP_append_right _ hbefore, List.eraseP_cons_of_pos (by simp)]

theorem mem_remove {serial : Nat} {r : Registry α} (h : r.serials.Nodup) {f : Fragment α} :
    f ∈ remove serial r ↔ f ∈ r ∧ f.serial ≠ serial := by
  rw [remove_eq_filter h]
  simp

theorem remove_insert {f : Fragment α} {r : Registry α} (h : f.serial ∉ r.serials) :
    remove f.serial (insert f r) = r := by
  induction r with
  | nil => simp [insert, remove]
  | cons g r ih =>
    rw [serials_cons, List.mem_cons, not_or] at h
    have hg : ¬ g.serial = f.serial := Ne.symm h.1
    rw [insert]
    split
    · simp [remove, hg]
    · have ih := ih h.2
      rw [remove] at ih ⊢
      simp [hg, ih]

/-! ## Overwriting -/

theorem overwrite_eq_self {old : Nat} {new : Fragment α} {r : Registry α}
    (h : old ∉ r.serials) : overwrite old new r = r := by
  induction r with
  | nil => rfl
  | cons g r ih =>
    rw [serials_cons, List.mem_cons, not_or] at h
    rw [overwrite, if_neg (Ne.symm h.1), ih h.2]

/-- The new fragment stands at the position of the old one, and nothing else moves. -/
theorem overwrite_eq_set {f new : Fragment α} {r : Registry α} (h : r.serials.Nodup) {i : Nat}
    (hi : r[i]? = some f) : overwrite f.serial new r = r.set i new := by
  induction r generalizing i with
  | nil => simp at hi
  | cons g r ih =>
    rw [serials_cons, List.nodup_cons] at h
    cases i with
    | zero =>
      obtain rfl : g = f := by simpa using hi
      rw [overwrite, if_pos rfl, List.set_cons_zero]
    | succ i =>
      rw [List.getElem?_cons_succ] at hi
      have hne : g.serial ≠ f.serial := by
        intro hs
        exact h.1 (mem_serials.2 ⟨f, List.mem_of_getElem? hi, hs.symm⟩)
      rw [overwrite, if_neg hne, ih h.2 hi, List.set_cons_succ]

theorem mem_overwrite {old : Nat} {new : Fragment α} {r : Registry α} (h : r.serials.Nodup)
    {f : Fragment α} :
    f ∈ overwrite old new r ↔ f = new ∧ old ∈ r.serials ∨ f ∈ r ∧ f.serial ≠ old := by
  induction r with
  | nil => simp [overwrite]
  | cons g r ih =>
    rw [serials_cons, List.nodup_cons] at h
    rw [overwrite]
    split
    · next hg =>
      subst hg
      have hrest (hf : f ∈ r) : f.serial ≠ g.serial := fun hs => h.1 (mem_serials.2 ⟨f, hf, hs⟩)
      constructor
      · intro hf
        rcases List.mem_cons.1 hf with rfl | hf
        · exact .inl ⟨rfl, by simp⟩
        · exact .inr ⟨List.mem_cons_of_mem _ hf, hrest hf⟩
      · rintro (⟨rfl, -⟩ | ⟨hf, hs⟩)
        · simp
        · rcases List.mem_cons.1 hf with rfl | hf
          · exact absurd rfl hs
          · exact List.mem_cons_of_mem _ hf
    · next hg =>
      rw [List.mem_cons, ih h.2, serials_cons]
      constructor
      · rintro (rfl | ⟨rfl, ho⟩ | ⟨hf, hs⟩)
        · exact .inr ⟨by simp, hg⟩
        · exact .inl ⟨rfl, List.mem_cons_of_mem _ ho⟩
        · exact .inr ⟨List.mem_cons_of_mem _ hf, hs⟩
      · rintro (⟨rfl, ho⟩ | ⟨hf, hs⟩)
        · rcases List.mem_cons.1 ho with rfl | ho
          · exact absurd rfl hg
          · exact .inr (.inl ⟨rfl, ho⟩)
        · rcases List.mem_cons.1 hf with rfl | hf
          · exact .inl rfl
          · exact .inr (.inr ⟨hf, hs⟩)

theorem serials_overwrite (old : Nat) (new : Fragment α) {r : Registry α} (h : r.serials.Nodup) :
    serials (overwrite old new r) = r.serials.map fun s => if s = old then new.serial else s := by
  induction r with
  | nil => rfl
  | cons g r ih =>
    rw [serials_cons, List.nodup_cons] at h
    rw [overwrite]
    split
    · next hg =>
      subst hg
      have hrest : (serials r).map (fun s => if s = g.serial then new.serial else s) =
          serials r := by
        refine (List.map_congr_left fun s hs => ?_).trans (List.map_id _)
        have : s ≠ g.serial := fun he => h.1 (he ▸ hs)
        simp [this]
      simp [hrest]
    · next hg => simp [hg, ih h.2]

theorem nodup_serials_overwrite {old : Nat} {new : Fragment α} {r : Registry α}
    (h : r.serials.Nodup) (hnew : new.serial ∉ r.serials) :
    (serials (overwrite old new r)).Nodup := by
  rw [serials_overwrite old new h]
  refine h.map_on fun s hs t ht heq => ?_
  have hsn : s ≠ new.serial := fun he => hnew (he ▸ hs)
  have htn : t ≠ new.serial := fun he => hnew (he ▸ ht)
  grind

end GraphQuery.Registry
