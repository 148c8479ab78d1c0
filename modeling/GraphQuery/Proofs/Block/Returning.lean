import GraphQuery.Proofs.Block.Heading
import GraphQuery.Proofs.Registry.Order

/-!
# Explicit returns

A block that ends with a call for RETURN gives the last fragment of the registry back. As a new
fragment goes behind the last one of its kind, this is the last of the new items only if RETURN is
not followed by another kind. Where it is, the fragment that comes last is returned once more, as
one item too many.
-/
namespace GraphQuery

/-! ## The last fragment -/

namespace Registry

variable {α : Type} {f : Fragment α} {r : Registry α}

theorem getLast?_kinds (r : Registry α) : r.kinds.getLast? = r.getLast?.map (·.kind) :=
  List.getLast?_map

/-- A new fragment is the last one, unless its kind has a run with others behind. -/
theorem getLast?_insert (h : f.kind ∈ r.kinds → r.kinds.getLast? = some f.kind) :
    (insert f r).getLast? = some f := by
  by_cases hmem : f.kind ∈ r.kinds
  · obtain ⟨before, behind, rfl, -, hbehind, hinsert⟩ := exists_insert_eq hmem
    have hlast := h hmem
    cases behind with
    | nil => rw [hinsert, List.getLast?_concat]
    | cons k behind =>
      rw [kinds, List.map_append, List.getLast?_append_of_ne_nil _ (by simp)] at hlast
      exact absurd (List.mem_of_getLast? hlast) hbehind
  · rw [insert_eq_append hmem, List.getLast?_concat]

/-- Behind a run that others follow a new fragment leaves the last one in its place. -/
theorem getLast?_insert_of_ne (hmem : f.kind ∈ r.kinds)
    (hlast : r.kinds.getLast? ≠ some f.kind) : (insert f r).getLast? = r.getLast? := by
  obtain ⟨before, behind, rfl, hbefore, -, hinsert⟩ := exists_insert_eq hmem
  cases behind with
  | nil => exact absurd (by rwa [List.append_nil]) hlast
  | cons k behind =>
    rw [hinsert, List.getLast?_append_of_ne_nil _ (by simp),
      List.getLast?_append_of_ne_nil _ (by simp), List.getLast?_cons_cons]

end Registry

namespace Block
open Clause (Kind)

variable {b : Block}

/-! ## Items -/

/-- What the fragments of one kind say, in order. -/
def contentsOf (kind : Kind) (b : Block) : List Content :=
  (b.registry.ofKind kind).map (·.content)

/-- No other kind comes behind RETURN. -/
def ResultLast (b : Block) : Prop :=
  .result ∈ b.registry.kinds → b.registry.kinds.getLast? = some .result

theorem contentsOf_register (content : Content) (b : Block) :
    (b.register content).contentsOf content.kind = b.contentsOf content.kind ++ [content] := by
  have hinsert := Registry.ofKind_insert (content.fragment b.serials) b.registry
  have hcontents := congrArg (List.map Fragment.content) hinsert
  rwa [List.map_append] at hcontents

theorem contentsOf_register_ne {content : Content} {kind : Kind} (h : content.kind ≠ kind)
    (b : Block) : (b.register content).contentsOf kind = b.contentsOf kind :=
  congrArg (List.map Fragment.content)
    (Registry.ofKind_insert_ne (content.fragment b.serials) b.registry h)

theorem contentsOf_registerItems (items : List Operand) (b : Block) :
    (b.registerItems items).contentsOf .result = b.contentsOf .result ++ items.map .item := by
  induction items generalizing b with
  | nil => exact (List.append_nil _).symm
  | cons o items ih =>
    have hfirst := contentsOf_register (.item o) b
    rw [registerItems, List.foldl_cons, ← registerItems, ih, List.map_cons, List.append_cons]
    exact congrArg (· ++ items.map .item) hfirst

theorem contentsOf_registerItems_ne {kind : Kind} (h : kind ≠ .result) (items : List Operand)
    (b : Block) : (b.registerItems items).contentsOf kind = b.contentsOf kind := by
  induction items generalizing b with
  | nil => rfl
  | cons o items ih =>
    rw [registerItems, List.foldl_cons, ← registerItems, ih]
    exact contentsOf_register_ne (show (Content.item o).kind ≠ kind from h.symm) b

/-! ## What comes last -/

theorem registerItems_snoc (items : List Operand) (o : Operand) (b : Block) :
    b.registerItems (items ++ [o]) = (b.registerItems items).register (.item o) := by
  rw [registerItems, List.foldl_concat, registerItems]

theorem ResultLast.getLast?_register (h : b.ResultLast) (o : Operand) :
    (b.register (.item o)).registry.getLast? = some ((Content.item o).fragment b.serials) :=
  Registry.getLast?_insert h

theorem ResultLast.registerItems (h : b.ResultLast) (items : List Operand) :
    (b.registerItems items).ResultLast := by
  induction items using List.reverseRecOn with
  | nil => exact h
  | append_singleton items o ih =>
    intro _
    rw [registerItems_snoc, Registry.getLast?_kinds, ih.getLast?_register o]
    rfl

/-- Behind other kinds the items leave the last fragment in its place. -/
theorem getLast?_registerItems (h : ¬ b.ResultLast) (items : List Operand) :
    (b.registerItems items).registry.getLast? = b.registry.getLast? ∧
      ¬ (b.registerItems items).ResultLast := by
  induction items using List.reverseRecOn with
  | nil => exact ⟨rfl, h⟩
  | append_singleton items o ih =>
    obtain ⟨hlast, hburied⟩ := ih
    rw [ResultLast, Classical.not_imp] at hburied
    have hnext : ((b.registerItems items).register (.item o)).registry.getLast? =
        b.registry.getLast? := by
      rw [← hlast]
      exact Registry.getLast?_insert_of_ne hburied.1 hburied.2
    rw [registerItems_snoc]
    refine ⟨hnext, fun hresult => hburied.2 ?_⟩
    rw [Registry.getLast?_kinds, hlast, ← hnext, ← Registry.getLast?_kinds]
    exact hresult (Registry.mem_kinds_insert.2 (.inl rfl))

/-- If no other kind comes behind RETURN, the call gives the last of its items. -/
theorem ResultLast.ret (h : b.ResultLast) {items : List Operand} (hne : items ≠ []) :
    ∃ (serial : Nat) (o : Operand),
      b.ret items = (b.registerItems items).give (.fragment serial (.item o)) := by
  obtain ⟨items, o, rfl⟩ := (List.eq_nil_or_concat items).resolve_left hne
  have hlast := (h.registerItems items).getLast?_register o
  refine ⟨(b.registerItems items).serials, o, ?_⟩
  rw [Block.ret, List.concat_eq_append, registerItems_snoc]
  simp only [hlast]
  rfl

/-- If another kind does, the call gives the fragment that came last before. -/
theorem exists_ret (h : ¬ b.ResultLast) (items : List Operand) :
    ∃ f, b.registry.getLast? = some f ∧ f.kind ≠ .result ∧
      b.ret items = (b.registerItems items).give (ofFragment f) := by
  have hlast := (getLast?_registerItems h items).1
  rw [ResultLast, Classical.not_imp, Registry.getLast?_kinds] at h
  cases hf : b.registry.getLast? with
  | none =>
    rw [List.getLast?_eq_none_iff.1 hf] at h
    simp at h
  | some f =>
    refine ⟨f, rfl, fun hkind => h.2 (by rw [hf, ← hkind]; rfl), ?_⟩
    rw [Block.ret]
    simp only [hlast, hf]
    rfl

/-- What is no item is returned as one. -/
theorem conclude_fragment {content : Content} (h : content.kind ≠ .result) (serial : Nat)
    (b : Block) : b.conclude (.fragment serial content) =
      b.registerItems [.fragment serial content] := by
  cases content with
  | item => exact absurd rfl h
  | _ => rfl

/-! ## Scripts that end with a return -/

/-- A script with a call for RETURN behind it, which is what the script ends with. -/
def returning (script : List Step) (receiver : Option Nat) (terms : List Term) : Block :=
  finish (script ++ [⟨.ret, receiver, terms⟩]) (.result script.length)

theorem returning_eq {script : List Step} {receiver : Option Nat} {terms : List Term}
    (hkeyed : allWellKeyed (resolveItems (run script).results terms)) {o : Operand} {b : Block}
    (h : (run script).block.ret (resolveItems (run script).results terms) = b.give o) :
    returning script receiver terms = b.conclude o := by
  have houtcome : (run script).outcome ⟨.ret, receiver, terms⟩ = b.give o := by
    rw [Run.outcome, if_pos hkeyed]
    exact h
  have hresult : (run (script ++ [⟨.ret, receiver, terms⟩])).results[script.length]? = some o := by
    rw [run_snoc, Run.step, houtcome, Run.record, ← length_results script]
    exact List.getElem?_concat_length
  rw [returning, finish, Term.resolve, hresult, run_snoc, Run.step, houtcome]
  rfl

/-- A script that ends with a call for RETURN adds the items of the call, and leaves what is
registered of the other kinds as it is. It adds just these items exactly if no other kind comes
behind RETURN when the call is made; otherwise the fragment that came last then is returned as one
item more. -/
theorem returns_items_iff {script : List Step} {terms : List Term} (hterms : terms ≠ [])
    (hkeyed : allWellKeyed (resolveItems (run script).results terms)) (receiver : Option Nat) :
    (∀ kind ≠ .result, (returning script receiver terms).contentsOf kind =
      (run script).block.contentsOf kind) ∧
    ((returning script receiver terms).contentsOf .result =
        (run script).block.contentsOf .result ++
          (resolveItems (run script).results terms).map .item ↔
      (run script).block.ResultLast) ∧
    (¬ (run script).block.ResultLast → ∃ f, (run script).block.registry.getLast? = some f ∧
      f.kind ≠ .result ∧
      (returning script receiver terms).contentsOf .result =
        (run script).block.contentsOf .result ++
          (resolveItems (run script).results terms).map .item ++ [.item (ofFragment f)]) := by
  set items := resolveItems (run script).results terms with hitems
  have hne : items ≠ [] := by
    cases terms with
    | nil => exact absurd rfl hterms
    | cons t terms => exact List.cons_ne_nil _ _
  by_cases hlast : (run script).block.ResultLast
  · obtain ⟨serial, o, hret⟩ := hlast.ret hne
    have hblock : returning script receiver terms = (run script).block.registerItems items :=
      returning_eq hkeyed hret
    rw [hblock]
    refine ⟨fun kind hkind => contentsOf_registerItems_ne hkind items _, ?_,
      fun hburied => absurd hlast hburied⟩
    exact iff_of_true (contentsOf_registerItems items _) hlast
  · obtain ⟨f, hf, hkind, hret⟩ := exists_ret hlast items
    obtain ⟨ledger, past⟩ := exists_ledger script
    have hcontent : f.content.kind ≠ .result := by
      rwa [← past.sound.accounts.kind f (List.mem_of_getLast? hf)]
    have hblock : returning script receiver terms =
        ((run script).block.registerItems items).registerItems [ofFragment f] := by
      rw [returning_eq hkeyed hret, ofFragment, conclude_fragment hcontent]
    have hitem : (returning script receiver terms).contentsOf .result =
        (run script).block.contentsOf .result ++ items.map .item ++ [.item (ofFragment f)] := by
      rw [hblock, contentsOf_registerItems, contentsOf_registerItems]
      rfl
    refine ⟨fun kind hk => ?_, ?_, fun _ => ⟨f, hf, hkind, hitem⟩⟩
    · rw [hblock, contentsOf_registerItems_ne hk, contentsOf_registerItems_ne hk]
    · refine iff_of_false (fun hsame => ?_) hlast
      rw [hitem] at hsame
      have hlength := congrArg List.length hsame
      simp at hlength

/-- A node, with a path behind it. -/
def pathFromNode : List Step :=
  [⟨.node, none, [.value (.int 1)]⟩,
   ⟨.link ⟨true, .outgoing⟩, some 0, [.value (.text "x")]⟩]

theorem pathFromNode_returns :
    (returning pathFromNode none [.result 0]).contentsOf .result =
      [.item (.fragment 0 (.start 0 (.nodes [.value (.int 1)])))] := by
  have hterms : [Term.result 0] ≠ [] := List.cons_ne_nil _ _
  have hkeyed : allWellKeyed (resolveItems (run pathFromNode).results [.result 0]) := rfl
  obtain ⟨-, hiff, -⟩ := returns_items_iff hterms hkeyed none
  exact hiff.2 fun hmem => absurd hmem (by decide)

/-- An item with a node behind it. -/
def returnedFirst : List Step :=
  [⟨.ret, none, [.value (.text "a")]⟩,
   ⟨.node, none, [.value (.int 1)]⟩]

/-- The node is returned although nothing asks for it. -/
theorem returnedFirst_surplus :
    (returning returnedFirst none [.value (.text "b")]).text =
      .ok "RETURN a,b,n1 START n1=node(1)" ∧
    (returning returnedFirst none [.value (.text "b")]).contentsOf .result ≠
      (run returnedFirst).block.contentsOf .result ++ [.item (.value (.text "b"))] := by
  refine ⟨rfl, fun h => ?_⟩
  have hlength := congrArg List.length h
  exact absurd hlength (by decide)

end Block
end GraphQuery
