import GraphQuery.Proofs.Block.Reach

/-!
# Headings

Every call keeps the registry of a block grouped, so each kind that is present has one heading in
the text of the block, with the texts of its fragments behind it in the order of their run.
-/
namespace GraphQuery.Block
open Clause (Kind)

/-! ## Grouping -/

section Grouping

variable {ledger contents : List Content} {b : Block} {verb : Verb} {operands : List Operand}
  {outcome : Outcome}

theorem grouped_register (content : Content) (h : b.registry.Grouped) :
    (b.register content).registry.Grouped :=
  h.insert _

theorem grouped_registerAll (contents : List Content) (h : b.registry.Grouped) :
    (b.registerAll contents).registry.Grouped := by
  induction contents generalizing b with
  | nil => exact h
  | cons c contents ih => exact ih (grouped_register c h)

theorem grouped_unregister (o : Operand) (h : b.registry.Grouped) :
    (b.unregister o).registry.Grouped :=
  h.of_kinds_sublist ((unregister_sublist o b).map _)

/-- Negation leaves the kinds of the registry as they are. -/
theorem kinds_negate (h : Accounts ledger b) (ha : Absorbed ledger b) (negation : Negation)
    {serial : Nat} {left right : Operand} {operator : Operator} {negated : Bool}
    (hrec : ledger[serial]? = some (.filter left right operator negated)) :
    (b.negate negation (.fragment serial (.filter left right operator negated))).2.registry.kinds =
      b.registry.kinds := by
  rw [negate_registry h ha negation hrec]
  apply Registry.kinds_overwrite
  rintro g hg rfl
  have hcontent : g.content = .filter left right operator negated := by
    have := h.content g hg
    rw [hrec] at this
    exact (Option.some.inj this).symm
  rw [h.kind g hg, hcontent]
  rfl

theorem Effect.grouped (e : Effect b verb operands contents outcome) (h : Accounts ledger b)
    (ha : Absorbed ledger b) (ho : ∀ o ∈ operands, o.Recorded ledger)
    (hg : b.registry.Grouped) : outcome.2.registry.Grouped := by
  cases e with
  | enter names unbound contents result plain known quiet =>
    exact grouped_registerAll (b := { b with names := names, unbound := unbound }) contents hg
  | tag => exact hg
  | start => exact grouped_register (.segment _ _) hg
  | extend => exact grouped_register (.segment _ _) (grouped_unregister _ hg)
  | compose =>
    exact grouped_unregister _ (grouped_unregister _ (grouped_register (filterOf ..) hg))
  | negate negation serial left right operator negated asked receiver =>
    have hrec := ho _ (List.mem_of_head? receiver) _ _ rfl
    refine hg.of_kinds_sublist ?_
    rw [kinds_negate h ha negation hrec]

end Grouping

theorem run_grouped (script : List Step) : (run script).block.registry.Grouped := by
  obtain ⟨ledger, hledger⟩ := exists_ledger script
  induction hledger with
  | start => exact Registry.grouped_nil
  | @step script ledger contents s past effect ih =>
    have sound := past.sound
    rw [run_snoc]
    exact effect.grouped sound.accounts sound.absorbed
      (Run.operands_recorded sound.results s) ih

theorem finish_grouped (script : List Step) (result : Term) :
    (finish script result).registry.Grouped := by
  obtain ⟨items, hfinish⟩ := finish_eq_registerAll script result
  rw [hfinish]
  exact grouped_registerAll _ (run_grouped script)

/-! ## Texts of runs -/

/-- The text of a run: its heading and the texts of its fragments, each but the first behind its
separator. -/
def runText (text : Fragment Content → String) : Registry Content → String
  | [] => ""
  | f :: run => " " ++ heading f.kind ++ " " ++ text f ++
      String.join (run.map fun g => g.content.separator ++ text g)

/-- The text of a registry whose fragments have the given texts. -/
def placedText (text : Fragment Content → String) (previous : Option Kind) :
    Registry Content → String
  | [] => ""
  | f :: r => placed previous f (text f) ++ placedText text (some f.kind) r

section Texts

variable {text : Fragment Content → String}

theorem registryText_eq {s : Scope} {r : Registry Content}
    (h : ∀ f ∈ r, f.content.render s >>= Value.shown = .ok (text f))
    (previous : Option Kind) : registryText s previous r = .ok (placedText text previous r) := by
  induction r generalizing previous with
  | nil => rfl
  | cons f r ih =>
    have hrest := ih (fun g hg => h g (List.mem_cons_of_mem _ hg)) (some f.kind)
    obtain ⟨v, hv, hshown⟩ := bind_eq_ok.1 (h f (by simp))
    rw [registryText, hv, hrest, placedText]
    simp only [bind, Except.bind, hshown]
    rfl

/-- Behind a fragment of its kind every fragment of a run follows its separator. -/
theorem placedText_continue {k : Kind} {run : Registry Content} (h : ∀ f ∈ run, f.kind = k)
    (r : Registry Content) : placedText text (some k) (run ++ r) =
      String.join (run.map fun g => g.content.separator ++ text g) ++
        placedText text (some k) r := by
  induction run with
  | nil => simp
  | cons f run ih =>
    have hf : f.kind = k := h f (by simp)
    have hrest := ih fun g hg => h g (List.mem_cons_of_mem _ hg)
    rw [List.cons_append, placedText, hf, hrest]
    simp [placed, hf, String.append_assoc]

theorem placedText_run {k : Kind} {previous : Option Kind} {run : Registry Content}
    (h : ∀ f ∈ run, f.kind = k) (hne : run ≠ []) (hp : previous ≠ some k)
    (r : Registry Content) : placedText text previous (run ++ r) =
      runText text run ++ placedText text (some k) r := by
  cases run with
  | nil => exact absurd rfl hne
  | cons f run =>
    have hf : f.kind = k := h f (by simp)
    have hrest : placedText text (some k) (run ++ r) = _ :=
      placedText_continue (fun g hg => h g (List.mem_cons_of_mem f hg)) r
    rw [List.cons_append, placedText, hf, hrest, runText, placed, hf, if_neg hp]
    simp [String.append_assoc]

/-- Runs of different kinds, one behind the other, are written one behind the other. -/
theorem placedText_flatMap {run : Kind → Registry Content} {ks : List Kind}
    (h : ∀ k ∈ ks, (∀ f ∈ run k, f.kind = k) ∧ run k ≠ []) (hnodup : ks.Nodup)
    {previous : Option Kind} (hp : ∀ k ∈ ks, previous ≠ some k) :
    placedText text previous (ks.flatMap run) =
      String.join (ks.map fun k => runText text (run k)) := by
  induction ks generalizing previous with
  | nil => rfl
  | cons k ks ih =>
    obtain ⟨hk, hne⟩ := h k (by simp)
    rw [List.nodup_cons] at hnodup
    have hrest : placedText text (some k) (ks.flatMap run) = _ :=
      ih (fun l hl => h l (List.mem_cons_of_mem _ hl)) hnodup.2
        fun l hl hkl => hnodup.1 (Option.some.inj hkl ▸ hl)
    rw [List.flatMap_cons, placedText_run hk hne (hp k (by simp)), hrest, List.map_cons,
      String.join_cons]

theorem placedText_grouped {r : Registry Content} (h : r.Grouped) :
    placedText text none r =
      String.join (r.present.map fun k => runText text (r.ofKind k)) := by
  conv_lhs => rw [h.eq_flatMap]
  refine placedText_flatMap (fun k hk => ⟨fun f hf => ?_, ?_⟩) (Registry.nodup_present r)
    (by simp)
  · simpa [Registry.ofKind] using (List.mem_filter.1 hf).2
  · obtain ⟨f, hf, hkind⟩ := Registry.mem_kinds.1 (Registry.mem_present.1 hk)
    exact List.ne_nil_of_mem (List.mem_filter.2 ⟨hf, by simpa using hkind⟩)

end Texts

/-! ## Blocks -/

/-- The fragments of every kind form one run. When all fragments can be written, the text of the
block has one heading for every kind that is present, and behind it the texts of its run. -/
theorem text_eq_runs (script : List Step) (result : Term) :
    (∀ kind, (finish script result).registry.ofKind kind <:+: (finish script result).registry) ∧
    (finish script result).registry.present.Nodup ∧
    (∀ kind, kind ∈ (finish script result).registry.present ↔
      (finish script result).registry.ofKind kind ≠ []) ∧
    ∀ text : Fragment Content → String,
      (∀ f ∈ (finish script result).registry,
        f.content.render (finish script result).scope >>= Value.shown = .ok (text f)) →
      (finish script result).text = .ok (Text.strip (String.join
        ((finish script result).registry.present.map fun kind =>
          runText text ((finish script result).registry.ofKind kind)))) := by
  have hgrouped := finish_grouped script result
  refine ⟨hgrouped.ofKind_isInfix, Registry.nodup_present _, fun kind => ?_, fun text h => ?_⟩
  · rw [Registry.mem_present, Registry.mem_kinds]
    simp [Registry.ofKind, List.filter_eq_nil_iff]
  · obtain ⟨ledger, harena, -⟩ := exists_arena_finish script result
    set b := finish script result
    have hany : ∀ f ∈ b.registry, ∃ v, f.content.render b.scope = .ok v := by
      intro f hf
      obtain ⟨v, hv, -⟩ := bind_eq_ok.1 (h f hf)
      exact ⟨v, hv⟩
    have hbelow : ∀ f ∈ b.registry,
        f.content.render (b.scopeAt (b.chains.length + 1)) >>= Value.shown = .ok (text f) := by
      intro f hf
      rw [render_scope harena.linked hany hf]
      exact h f hf
    change (registryText (b.scopeAt (b.chains.length + 1)) none b.registry).map Text.strip = _
    rw [registryText_eq hbelow, placedText_grouped hgrouped]
    rfl

/-- Two conditions with an item of RETURN between them. -/
def interleaved : List Step :=
  [⟨.node, none, [.value (.int 1)]⟩,
   ⟨.condition, none, [.value (.text "x")]⟩,
   ⟨.ret, none, [.result 0]⟩,
   ⟨.condition, none, [.value (.text "y")]⟩]

theorem interleaved_text : (finish interleaved (.value .null)).text =
    .ok "START n0=node(1) WHERE x,y RETURN n0" := by
  have hregistry : (finish interleaved (.value .null)).registry =
      [(Content.start 0 (.nodes [.value (.int 1)])).fragment 0, (Content.condition "x").fragment 1,
        (Content.condition "y").fragment 3,
        (Content.item (.fragment 0 (.start 0 (.nodes [.value (.int 1)])))).fragment 2] := rfl
  have h := (text_eq_runs interleaved (.value .null)).2.2.2
    (fun f => ["n0=node(1)", "x", "n0", "y"].getD f.serial "") ?_
  · rw [h]
    rfl
  · rw [hregistry]
    simp only [List.forall_mem_cons]
    exact ⟨rfl, rfl, rfl, rfl, by simp⟩

end GraphQuery.Block
