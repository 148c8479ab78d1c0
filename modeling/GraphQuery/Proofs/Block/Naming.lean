import GraphQuery.Proofs.Block.Merge
import GraphQuery.Proofs.Block.Opening
import GraphQuery.Proofs.Decimal.Integer

/-!
# Automatic names

An entity is named after the size of the registry, a node after the number of the unbound
variables before it, and a relationship after one more. So the names of two variables meet when the
registry has come back to the size that it had, which takes a merge, or when a node comes right
behind a relationship in the list of the unbound variables.
-/
namespace GraphQuery

namespace Block

theorem numberedName_inj {a b : String} (h : a.length = b.length) {m n : Nat} :
    numberedName a m = numberedName b n ↔ a = b ∧ m = n := by
  constructor
  · intro hname
    have htext : a ++ Decimal.intText m = b ++ Decimal.intText n := Value.text.inj hname
    have hlists := congrArg String.toList htext
    rw [String.toList_append, String.toList_append] at hlists
    obtain ⟨hinitial, hnumber⟩ := List.append_inj hlists h
    exact ⟨String.toList_inj.1 hinitial,
      Int.ofNat_inj.1 (Decimal.intText_inj.1 (String.toList_inj.1 hnumber))⟩
  · rintro ⟨rfl, rfl⟩
    rfl

namespace Origin

/-- The number of the unbound variables before one. -/
def count? : Origin → Option Nat
  | node count | relationship count => some count
  | _ => none

/-- The size of the registry that an entity has found. -/
def size? : Origin → Option Nat
  | nodes size | relationships size => some size
  | _ => none

/-- When the automatic names of two variables, the second opened after the first, are one. -/
def Clashes : Origin → Origin → Prop
  | nodes m, nodes n | relationships m, relationships n => m = n
  | relationship m, node n => n = m + 1
  | _, _ => False

/-- Automatic names are one exactly if the variables clash, as long as the unbound variables are
numbered in order. -/
theorem name_eq_iff_clashes {p q : Origin} (hp : p.isAutomatic) (hq : q.isAutomatic)
    (hcount : ∀ m n, p.count? = some m → q.count? = some n → m < n) :
    p.name = q.name ↔ p.Clashes q := by
  cases p with
  | given name => cases hp
  | nodes m | relationships m =>
    cases q with
    | given name => cases hq
    | _ => simp (disch := decide) [name, numberedName_inj, Clashes]
  | node m | relationship m =>
    cases q with
    | given name => cases hq
    | nodes n | relationships n => simp (disch := decide) [name, numberedName_inj, Clashes]
    | node n | relationship n =>
      have hlt := hcount m n rfl rfl
      rw [name, name, numberedName_inj rfl]
      simp only [Clashes, true_and, iff_false]
      omega

theorem Clashes.size?_eq {p q : Origin} (h : p.Clashes q) : p.size? = q.size? := by
  cases p with
  | nodes m =>
    cases q with
    | nodes n => exact congrArg some h
    | _ => cases h
  | relationships m =>
    cases q with
    | relationships n => exact congrArg some h
    | _ => cases h
  | relationship m =>
    cases q with
    | node n => rfl
    | _ => cases h
  | _ => cases h

end Origin

/-! ## Two openings -/

section Opening

variable {b b' : Block} {o : Origin} {n : Nat}

theorem Opening.length_unbound (h : Opening b o b') (hn : o.count? = some n) :
    b.unbound.length = n ∧ b'.unbound.length = n + 1 := by
  have hunbound := h.unbound
  have htaken := h.taken
  cases o with
  | node count | relationship count =>
    cases hn
    simp [hunbound, Origin.isEntity, ← show n = _ from htaken]
  | _ => cases hn

theorem Opening.length_registry (h : Opening b o b') (hn : o.size? = some n) :
    b.registry.length = n ∧ b'.registry.length = n + 1 := by
  have htaken := h.taken
  cases o with
  | nodes size | relationships size =>
    cases hn
    exact ⟨htaken.symm, by rw [h.registry rfl, ← show n = _ from htaken]⟩
  | _ => cases hn

end Opening

section Opens

variable {script : List Step} {i j m n : Nat} {p q : Origin}

/-- The unbound variables are numbered in the order of their slots. -/
theorem Opens.count_lt (hi : Opens script i p) (hj : Opens script j q) (hij : i < j)
    (hm : p.count? = some m) (hn : q.count? = some n) : m < n := by
  obtain ⟨past, s, hs, hopened, rfl⟩ := hi
  obtain ⟨later, t, ht, hopened', rfl⟩ := hj
  have hmono := length_unbound_mono (hs.isPrefix ht hij)
  have hfirst := ((hopened ▸ step_naming past s).opening).length_unbound hm
  have hsecond := ((hopened' ▸ step_naming later t).opening).length_unbound hn
  omega

/-- Between two entities of which the second finds a registry that is no larger a merge has
happened. -/
theorem Opens.exists_merges (hi : Opens script i p) (hj : Opens script j q) (hij : i < j)
    (hm : p.size? = some m) (hn : q.size? = some n) (hle : n ≤ m) :
    ∃ past s, Performs script past s ∧ (run past).Merges s ∧
      i < (run past).block.names.length ∧ (run past).block.names.length ≤ j := by
  obtain ⟨past, s, hs, hopened, rfl⟩ := hi
  obtain ⟨later, t, ht, hopened', rfl⟩ := hj
  have hprefix := hs.isPrefix ht hij
  have hfirst := (hopened ▸ step_naming past s).opening
  have hsecond := (hopened' ▸ step_naming later t).opening
  have hlt : (run later).block.registry.length < (run (past ++ [s])).block.registry.length := by
    rw [(hfirst.length_registry hm).2, (hsecond.length_registry hn).1]
    omega
  obtain ⟨between, u, hafter, hbefore, hmerges⟩ := exists_merges_of_length_lt hprefix hlt
  refine ⟨between, u, (hbefore.trans (List.prefix_append later [t])).trans ht, hmerges, ?_, ?_⟩
  · have hlength := congrArg List.length hfirst.names
    rw [List.length_append, List.length_singleton] at hlength
    have := length_names_mono hafter
    omega
  · exact length_names_mono ((List.prefix_append between [u]).trans hbefore)

end Opens

@[simp] theorem names_finish (script : List Step) (result : Term) :
    (finish script result).names = (run script).block.names := by
  obtain ⟨items, hfinish⟩ := finish_eq_registerAll script result
  rw [hfinish, names_registerAll]

theorem Opens.nameAt_eq {script : List Step} {slot : Nat} {o : Origin} (h : Opens script slot o)
    (hstay : ¬ Renames script slot) (result : Term) :
    nameAt (finish script result).names slot = o.name := by
  rw [nameAt, names_finish, h.getElem?_names hstay, Option.getD_some]

/-! ## All names -/

/-- Every variable is opened by a call. Two variables that are never renamed have one automatic
name exactly if they clash, and two entities do so only with a merge between them. -/
theorem names_eq_iff_clashes (script : List Step) (result : Term) :
    (∀ slot, slot < (finish script result).names.length ↔ ∃ o, Opens script slot o) ∧
    ∀ i j p q, Opens script i p → Opens script j q → i < j → p.isAutomatic → q.isAutomatic →
      ¬ Renames script i → ¬ Renames script j →
      (nameAt (finish script result).names i = p.name ∧
        nameAt (finish script result).names j = q.name) ∧
      (nameAt (finish script result).names i = nameAt (finish script result).names j ↔
        p.Clashes q) ∧
      (p.Clashes q → p.isEntity → ∃ past s, Performs script past s ∧ (run past).Merges s ∧
        i < (run past).block.names.length ∧ (run past).block.names.length ≤ j) := by
  refine ⟨fun slot => by rw [names_finish, lt_length_names_iff], ?_⟩
  intro i j p q hi hj hij hp hq hstay hstay'
  have hfirst := hi.nameAt_eq hstay result
  have hsecond := hj.nameAt_eq hstay' result
  refine ⟨⟨hfirst, hsecond⟩, ?_, fun hclash hentity => ?_⟩
  · rw [hfirst, hsecond]
    exact Origin.name_eq_iff_clashes hp hq fun m n => hi.count_lt hj hij
  · obtain ⟨m, hm⟩ : ∃ m, p.size? = some m := by
      cases p with
      | nodes m | relationships m => exact ⟨m, rfl⟩
      | _ => cases hentity
    exact hi.exists_merges hj hij hm (hclash.size?_eq ▸ hm) (Nat.le_refl m)

/-- An entity that finds the registry as large as another one did, two filters being merged in
between. -/
def mergedFilters : List Step :=
  [⟨.node, none, [.value (.int 1)]⟩,
   ⟨.property, some 0, [.value (.text "age")]⟩,
   ⟨.compare .greater, some 1, [.value (.int 1)]⟩,
   ⟨.compare .less, some 1, [.value (.int 9)]⟩,
   ⟨.node, none, [.value (.int 2)]⟩,
   ⟨.combine .conjunction, some 2, [.result 3]⟩,
   ⟨.node, none, [.value (.int 3)]⟩]

theorem mergedFilters_opens : Opens mergedFilters 1 (.nodes 3) ∧ Opens mergedFilters 2 (.nodes 3) :=
  ⟨⟨mergedFilters.take 4, _, ⟨_, rfl⟩, rfl, rfl⟩, ⟨mergedFilters.take 6, _, ⟨_, rfl⟩, rfl, rfl⟩⟩

theorem not_renames_mergedFilters (slot : Nat) : ¬ Renames mergedFilters slot := by
  intro h
  obtain ⟨s, hs, hverb⟩ := h.exists_verb
  simp only [mergedFilters, List.mem_cons, List.not_mem_nil, or_false] at hs
  rcases hs with rfl | rfl | rfl | rfl | rfl | rfl | rfl <;> cases hverb

theorem mergedFilters_names :
    nameAt (finish mergedFilters (.value .null)).names 1 =
      nameAt (finish mergedFilters (.value .null)).names 2 ∧
    ∃ past s, Performs mergedFilters past s ∧ (run past).Merges s := by
  obtain ⟨hopens, hopens'⟩ := mergedFilters_opens
  obtain ⟨-, hclash, hmerges⟩ := (names_eq_iff_clashes mergedFilters (.value .null)).2 1 2
    (.nodes 3) (.nodes 3) hopens hopens' (by decide) rfl rfl (not_renames_mergedFilters 1)
    (not_renames_mergedFilters 2)
  obtain ⟨past, s, hs, hmerge, -⟩ := hmerges rfl rfl
  exact ⟨hclash.2 rfl, past, s, hs, hmerge⟩

/-- A node right behind a relationship without a name. -/
def unnamedPair : List Step :=
  [⟨.relationship, none, [.value (.text "")]⟩, ⟨.node, none, []⟩]

/-- No two variables that are never renamed have one automatic name. -/
def NamesApart (script : List Step) : Prop :=
  ∀ i j p q, Opens script i p → Opens script j q → i < j → p.isAutomatic → q.isAutomatic →
    ¬ Renames script i → ¬ Renames script j →
    nameAt (run script).block.names i ≠ nameAt (run script).block.names j

theorem not_namesApart : ¬ NamesApart mergedFilters ∧ ¬ NamesApart unnamedPair := by
  constructor
  · intro h
    exact h 1 2 (.nodes 3) (.nodes 3) mergedFilters_opens.1 mergedFilters_opens.2 (by decide) rfl rfl
      (not_renames_mergedFilters 1) (not_renames_mergedFilters 2) rfl
  · intro h
    have hstay (slot : Nat) : ¬ Renames unnamedPair slot := by
      intro h
      obtain ⟨s, hs, hverb⟩ := h.exists_verb
      simp only [unnamedPair, List.mem_cons, List.not_mem_nil, or_false] at hs
      rcases hs with rfl | rfl <;> cases hverb
    exact h 0 1 (.relationship 0) (.node 1) ⟨[], _, ⟨_, rfl⟩, rfl, rfl⟩
      ⟨unnamedPair.take 1, _, ⟨_, rfl⟩, rfl, rfl⟩ (by decide) rfl rfl (hstay 0) (hstay 1) rfl

end Block
end GraphQuery
