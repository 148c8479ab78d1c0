import GraphQuery.Proofs.Registry.Order

/-!
# The place of a replacement

The place of a fragment is told by the others that stand before it. A replacement leaves these in
their order, and gives the new fragment the place of the old one, whether the new one stands before
it, behind it or nowhere. Only a fragment that is to replace itself is gone when its place is looked
for. It is inserted again, and keeps its place only if an insertion leads there.
-/
namespace GraphQuery.Registry

variable {α : Type} {f old new : Fragment α} {r before behind front back : Registry α}

/-! ## Places -/

/-- The first entry of one fragment stands before that of another. -/
def StandsBefore (s t : Nat) (r : Registry α) : Prop := r.serials.idxOf s < r.serials.idxOf t

instance (s t : Nat) (r : Registry α) : Decidable (StandsBefore s t r) := Nat.decLt _ _

/-- The fragments other than two, in their order. -/
def others (s t : Nat) (r : Registry α) : Registry α :=
  r.filter fun f => f.serial ≠ s ∧ f.serial ≠ t

/-- A fragment stands among the others as another one stood before. -/
def TakesPlace (old new : Nat) (r after : Registry α) : Prop :=
  ∀ s ∈ serials (others old new r), StandsBefore s new after ↔ StandsBefore s old r

theorem not_mem_of_not_mem_serials (h : f.serial ∉ r.serials) : f ∉ r :=
  fun hf => h (mem_serials.2 ⟨f, hf, rfl⟩)

theorem standsBefore_append_cons (h : f.serial ∉ before.serials) {s : Nat} :
    StandsBefore s f.serial (before ++ f :: behind) ↔ s ∈ before.serials := by
  rw [StandsBefore, serials_append, serials_cons, List.idxOf_append_of_notMem h,
    List.idxOf_cons_self, Nat.add_zero]
  by_cases hs : s ∈ before.serials
  · simpa [List.idxOf_append_of_mem hs, hs] using List.idxOf_lt_length_of_mem hs
  · simp [List.idxOf_append_of_notMem hs, hs]

/-- Two parts of a registry are told by which fragments are in the first one. -/
theorem eq_of_mem_serials_iff (h : (serials (before ++ behind)).Nodup)
    (hsplit : front ++ back = before ++ behind)
    (hmem : ∀ s ∈ serials (before ++ behind), s ∈ front.serials ↔ s ∈ before.serials) :
    front = before := by
  have hself {r t : Registry α} (hn : (serials (r ++ t)).Nodup) :
      (r ++ t).filter (·.serial ∈ r.serials) = r := by
    rw [serials_append, List.nodup_append] at hn
    rw [List.filter_append, List.filter_eq_self.2, List.filter_eq_nil_iff.2, List.append_nil]
    · intro f hf hs
      exact hn.2.2 _ (by simpa using hs) _ (mem_serials.2 ⟨f, hf, rfl⟩) rfl
    · intro f hf
      simpa using mem_serials.2 ⟨f, hf, rfl⟩
  rw [← hself (r := front) (t := back) (hsplit ▸ h), ← hself h, hsplit]
  refine List.filter_congr fun f hf => ?_
  simpa using hmem f.serial (mem_serials.2 ⟨f, hf, rfl⟩)

/-! ## The others -/

section Others

variable {s t : Nat}

theorem mem_serials_others {u : Nat} :
    u ∈ serials (others s t r) ↔ u ∈ r.serials ∧ u ≠ s ∧ u ≠ t := by
  simp only [mem_serials, others, List.mem_filter, decide_eq_true_eq]
  constructor
  · rintro ⟨f, ⟨hf, hs, ht⟩, rfl⟩
    exact ⟨⟨f, hf, rfl⟩, hs, ht⟩
  · rintro ⟨⟨f, hf, rfl⟩, hs, ht⟩
    exact ⟨f, ⟨hf, hs, ht⟩, rfl⟩

theorem nodup_serials_others (h : r.serials.Nodup) : (serials (others s t r)).Nodup :=
  h.sublist (List.filter_sublist.map _)

theorem others_append (r r' : Registry α) : others s t (r ++ r') = others s t r ++ others s t r' :=
  List.filter_append ..

theorem others_append_cons (h : f.serial = s ∨ f.serial = t) :
    others s t (before ++ f :: behind) = others s t (before ++ behind) := by
  rw [others, others, List.filter_append, List.filter_append, List.filter_cons_of_neg]
  simpa [or_iff_not_imp_left] using h

theorem others_others (r : Registry α) : others s t (others s t r) = others s t r := by
  simp [others]

theorem others_eq_filter (h : s ∉ r.serials) : others s t r = r.filter (·.serial ≠ t) := by
  refine List.filter_congr fun f hf => ?_
  have hs : f.serial ≠ s := fun hs => h (mem_serials.2 ⟨f, hf, hs⟩)
  simp [hs]

theorem others_eq_self (hs : s ∉ r.serials) (ht : t ∉ r.serials) : others s t r = r := by
  rw [others_eq_filter hs, List.filter_eq_self]
  intro f hf
  simpa using fun h : f.serial = t => ht (mem_serials.2 ⟨f, hf, h⟩)

end Others

/-! ## Where an insertion leads -/

/-- An insertion leads between two parts if its kind ends the one and is not in the other, or if it
is in neither and nothing follows. -/
def InsertsBetween (f : Fragment α) (before behind : Registry α) : Prop :=
  f.kind ∉ behind.kinds ∧
    (before.kinds.getLast? = some f.kind ∨ f.kind ∉ before.kinds ∧ behind = [])

theorem exists_insertsBetween (f : Fragment α) (r : Registry α) :
    ∃ before behind : Registry α, r = before ++ behind ∧ InsertsBetween f before behind ∧
      insert f r = before ++ f :: behind := by
  by_cases hmem : f.kind ∈ r.kinds
  · obtain ⟨before, behind, hr, hlast, hbehind, hinsert⟩ := exists_insert_eq hmem
    exact ⟨before, behind, hr, ⟨hbehind, .inl hlast⟩, hinsert⟩
  · exact ⟨r, [], (List.append_nil r).symm, ⟨by simp, .inr ⟨hmem, rfl⟩⟩, insert_eq_append hmem⟩

theorem insert_append_cons {g : Fragment α} (hg : g.kind = f.kind) (h : f.kind ∉ behind.kinds) :
    insert f (before ++ g :: behind) = before ++ g :: f :: behind := by
  induction before with
  | nil => exact if_pos ⟨hg, h⟩
  | cons k before ih =>
    have hmem : f.kind ∈ kinds (before ++ g :: behind) := by simp [kinds, hg]
    rw [List.cons_append, insert, if_neg fun hk => hk.2 hmem, ih, List.cons_append]

theorem InsertsBetween.insert_eq (h : InsertsBetween f before behind) :
    insert f (before ++ behind) = before ++ f :: behind := by
  obtain ⟨hbehind, hlast | ⟨hbefore, rfl⟩⟩ := h
  · obtain ⟨g, hg, hkind⟩ := Option.map_eq_some_iff.1 (List.getLast?_map.symm.trans hlast)
    obtain ⟨front, rfl⟩ := List.getLast?_eq_some_iff.1 hg
    have hinsert : insert f (front ++ g :: behind) = front ++ g :: f :: behind :=
      insert_append_cons hkind hbehind
    simpa using hinsert
  · rw [List.append_nil, insert_eq_append hbefore]

theorem insert_eq_iff (hbefore : f ∉ before) (hbehind : f ∉ behind) :
    insert f (before ++ behind) = before ++ f :: behind ↔ InsertsBetween f before behind := by
  refine ⟨fun hinsert => ?_, InsertsBetween.insert_eq⟩
  obtain ⟨front, back, -, hbetween, hfront⟩ := exists_insertsBetween f (before ++ behind)
  obtain ⟨rfl, -, rfl⟩ :=
    (List.append_cons_inj_of_notMem hbefore hbehind).1 (hinsert.symm.trans hfront)
  exact hbetween

/-- A fragment that is taken out and inserted again comes back to its place. -/
def ComesBack (f : Fragment α) (r : Registry α) : Prop :=
  ∃ before behind : Registry α, r = before ++ f :: behind ∧ InsertsBetween f before behind

theorem comesBack_append_cons (hbefore : f ∉ before) (hbehind : f ∉ behind) :
    ComesBack f (before ++ f :: behind) ↔ InsertsBetween f before behind := by
  constructor
  · rintro ⟨front, back, hsplit, hbetween⟩
    obtain ⟨rfl, -, rfl⟩ := (List.append_cons_inj_of_notMem hbefore hbehind).1 hsplit
    exact hbetween
  · exact fun hbetween => ⟨before, behind, rfl, hbetween⟩

/-! ## Replacements -/

section Replacement

theorem overwrite_append_cons (h : f.serial ∉ before.serials) :
    overwrite f.serial new (before ++ f :: behind) = before ++ new :: behind := by
  induction before with
  | nil => exact if_pos rfl
  | cons g before ih =>
    rw [serials_cons, List.mem_cons, not_or] at h
    rw [List.cons_append, overwrite, if_neg (Ne.symm h.1), ih h.2, List.cons_append]

variable (hn : (serials (before ++ old :: behind)).Nodup)
include hn

theorem replace_append_cons (hne : new.serial ≠ old.serial) :
    replace old.serial new (before ++ old :: behind) =
      others old.serial new.serial before ++ new :: others old.serial new.serial behind := by
  obtain ⟨hbefore, hbehind⟩ := not_mem_serials_of_nodup hn
  have hrest : remove new.serial (before ++ old :: behind) =
      others old.serial new.serial before ++ old :: others old.serial new.serial behind := by
    rw [remove_eq_filter hn, List.filter_append, List.filter_cons_of_pos (by simpa using hne.symm),
      others_eq_filter hbefore, others_eq_filter hbehind]
  have hout : old.serial ∉ serials (others old.serial new.serial before) :=
    fun hs => hbefore (mem_serials_others.1 hs).1
  rw [replace, hrest, if_pos (has_iff.2 (by simp [serials])), overwrite_append_cons hout]

/-- A fragment that replaces itself has no place any more, and is inserted. -/
theorem replace_self_append_cons (heq : new.serial = old.serial) :
    replace old.serial new (before ++ old :: behind) = insert new (before ++ behind) := by
  obtain ⟨hbefore, hbehind⟩ := not_mem_serials_of_nodup hn
  have hout : old.serial ∉ serials (before ++ behind) := by
    rw [serials_append, List.mem_append]
    exact not_or.2 ⟨hbefore, hbehind⟩
  rw [replace, heq, remove_append_cons hn, if_neg (mt has_iff.1 hout)]

/-- The new fragment comes in between the others. -/
theorem exists_replace_eq (new : Fragment α) :
    ∃ front back : Registry α,
      replace old.serial new (before ++ old :: behind) = front ++ new :: back ∧
      front ++ back = others old.serial new.serial before ++ others old.serial new.serial behind := by
  by_cases heq : new.serial = old.serial
  · obtain ⟨hbefore, hbehind⟩ := not_mem_serials_of_nodup hn
    obtain ⟨front, back, hsplit, -, hinsert⟩ := exists_insertsBetween new (before ++ behind)
    refine ⟨front, back, (replace_self_append_cons hn heq).trans hinsert, ?_⟩
    rw [heq, others_eq_self hbefore hbefore, others_eq_self hbehind hbehind, hsplit]
  · exact ⟨_, _, replace_append_cons hn heq, rfl⟩

theorem nodup_replace (new : Fragment α) :
    (serials (replace old.serial new (before ++ old :: behind))).Nodup := by
  obtain ⟨front, back, hreplace, hothers⟩ := exists_replace_eq hn new
  rw [← others_append, ← others_append_cons (.inl rfl)] at hothers
  have hout : new.serial ∉ serials (front ++ back) := by
    rw [hothers, mem_serials_others]
    exact fun h => h.2.2 rfl
  have hparts : (serials (front ++ back)).Nodup := hothers ▸ nodup_serials_others hn
  rw [serials_append] at hout hparts
  rw [hreplace, serials_append, serials_cons, List.nodup_middle, List.nodup_cons]
  exact ⟨hout, hparts⟩

/-- The place is kept exactly if the new fragment comes in where the old one was. -/
theorem takesPlace_replace_iff (new : Fragment α) :
    TakesPlace old.serial new.serial (before ++ old :: behind)
        (replace old.serial new (before ++ old :: behind)) ↔
      replace old.serial new (before ++ old :: behind) =
        others old.serial new.serial before ++ new :: others old.serial new.serial behind := by
  have hnodup := nodup_replace hn new
  have hall : (serials (others old.serial new.serial (before ++ old :: behind))).Nodup :=
    nodup_serials_others hn
  obtain ⟨front, back, hreplace, hothers⟩ := exists_replace_eq hn new
  rw [hreplace] at hnodup ⊢
  have hfront := (not_mem_serials_of_nodup hnodup).1
  have hbefore := (not_mem_serials_of_nodup hn).1
  rw [others_append_cons (.inl rfl), others_append] at hall
  rw [TakesPlace, others_append_cons (.inl rfl), others_append]
  simp only [standsBefore_append_cons hfront, standsBefore_append_cons hbefore]
  -- of the others, those before the old fragment are those of the first part
  have hsame : ∀ s ∈ serials (others old.serial new.serial before ++
      others old.serial new.serial behind),
      (s ∈ before.serials ↔ s ∈ serials (others old.serial new.serial before)) := by
    intro s hs
    rw [← others_append, mem_serials_others] at hs
    rw [mem_serials_others, and_iff_left hs.2]
  constructor
  · intro hplace
    obtain rfl := eq_of_mem_serials_iff hall hothers fun s hs => (hplace s hs).trans (hsame s hs)
    rw [List.append_cancel_left hothers]
  · intro heq s hs
    have hback := (not_mem_serials_of_nodup hnodup).2
    obtain ⟨rfl, -⟩ := (List.append_cons_inj_of_notMem (not_mem_of_not_mem_serials hfront)
      (not_mem_of_not_mem_serials hback)).1 heq
    exact (hsame s hs).symm

end Replacement

/-- A replacement leaves the others in their order, and the new fragment is registered once, for
the old one. It stands where the old one stood, unless it is the old one itself and would not come
back to its place. -/
theorem replace_takesPlace_iff (hn : r.serials.Nodup) (hold : old ∈ r)
    (hkind : new.kind = old.kind) :
    others old.serial new.serial (r.replace old.serial new) = others old.serial new.serial r ∧
    (∀ f, f ∈ r.replace old.serial new ↔ f = new ∨ f ∈ others old.serial new.serial r) ∧
    (r.replace old.serial new).serials.Nodup ∧
    (TakesPlace old.serial new.serial r (r.replace old.serial new) ↔
      (new.serial = old.serial → ComesBack old r)) := by
  obtain ⟨before, behind, rfl⟩ := List.append_of_mem hold
  obtain ⟨front, back, hreplace, hothers⟩ := exists_replace_eq hn new
  rw [← others_append, ← others_append_cons (.inl rfl)] at hothers
  refine ⟨?_, fun f => ?_, nodup_replace hn new, ?_⟩
  · rw [hreplace, others_append_cons (.inr rfl), hothers, others_others]
  · rw [hreplace, ← hothers]
    simp [or_left_comm]
  · obtain ⟨hbefore, hbehind⟩ := not_mem_serials_of_nodup hn
    rw [takesPlace_replace_iff hn new]
    by_cases heq : new.serial = old.serial
    · have hout {t : Registry α} (ht : old.serial ∉ t.serials) : new ∉ t :=
        not_mem_of_not_mem_serials (heq ▸ ht)
      rw [replace_self_append_cons hn heq, heq, others_eq_self hbefore hbefore,
        others_eq_self hbehind hbehind, insert_eq_iff (hout hbefore) (hout hbehind),
        comesBack_append_cons (not_mem_of_not_mem_serials hbefore)
          (not_mem_of_not_mem_serials hbehind), InsertsBetween, InsertsBetween, hkind]
      simp
    · simp [replace_append_cons hn heq, heq]

def conditionOf (serial : Nat) : Fragment Unit := ⟨serial, .condition, ()⟩

def fourConditions : Registry Unit := (List.range 4).map conditionOf

/-- A condition that comes last takes the place of another one, and keeps its own. -/
theorem last_takesPlace :
    TakesPlace 1 3 fourConditions (fourConditions.replace 1 (conditionOf 3)) ∧
    TakesPlace 3 3 fourConditions (fourConditions.replace 3 (conditionOf 3)) := by
  have hn : fourConditions.serials.Nodup := by decide
  have hmem (n : Nat) (h : n < 4) : conditionOf n ∈ fourConditions :=
    List.mem_map_of_mem (List.mem_range.2 h)
  have hkind (m n : Nat) : (conditionOf m).kind = (conditionOf n).kind := rfl
  obtain ⟨-, -, -, hmoved⟩ := replace_takesPlace_iff hn (hmem 1 (by decide)) (hkind 3 1)
  obtain ⟨-, -, -, hkept⟩ := replace_takesPlace_iff hn (hmem 3 (by decide)) (hkind 3 3)
  exact ⟨hmoved.2 fun h => absurd h (by decide),
    hkept.2 fun _ => ⟨fourConditions.take 3, [], rfl, by decide, .inl rfl⟩⟩

/-- A registered condition that replaces itself moves behind those that stood behind it. -/
theorem self_replaced_moves :
    fourConditions.serials.Nodup ∧ conditionOf 1 ∈ fourConditions ∧
    serials (fourConditions.replace 1 (conditionOf 1)) = [0, 2, 3, 1] ∧
    ¬ TakesPlace 1 1 fourConditions (fourConditions.replace 1 (conditionOf 1)) := by
  refine ⟨by decide, List.mem_map_of_mem (by decide : 1 ∈ List.range 4), by decide,
    fun hplace => ?_⟩
  have hmoved := hplace 2 (by decide)
  exact absurd (hmoved.1 (by decide)) (by decide)

end GraphQuery.Registry
