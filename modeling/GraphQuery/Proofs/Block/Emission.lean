import GraphQuery.Proofs.Block.Loose

/-!
# Emission of filters

A registered filter is written with everything below it. So each filter of a block is written
once for every registered one whose tree it is in, and the loose filters are not written at all.
-/
namespace GraphQuery.Block

/-! ## The invariant -/

/-- A recorded filter that is in no tree, neither as a registered root nor below a filter. -/
structure Outside (ledger : List Content) (r : Registry Content) (m : Nat) : Prop where
  filter : ∃ c, ledger[m]? = some c ∧ c.isFilter
  unregistered : m ∉ r.serials
  unused : ∀ c ∈ ledger, m ∉ c.parts

theorem Outside.append {ledger contents : List Content} {r r' : Registry Content} {m : Nat}
    (h : Outside ledger r m)
    (hr : ∀ serial ∈ r'.serials, serial ∈ r.serials ∨ ledger.length ≤ serial)
    (hparts : ∀ c ∈ contents, m ∉ c.parts) : Outside (ledger ++ contents) r' m := by
  obtain ⟨c, hc, hfilter⟩ := h.filter
  obtain ⟨hlt, -⟩ := List.getElem?_eq_some_iff.1 hc
  constructor
  · exact ⟨c, by rw [List.getElem?_append_left hlt, hc], hfilter⟩
  · intro hm
    rcases hr m hm with hm | hge
    · exact h.unregistered hm
    · omega
  · intro d hd
    rcases List.mem_append.1 hd with hd | hd
    · exact h.unused d hd
    · exact hparts d hd

/-- Loose filters are outside of all trees, and all other ones are in the tree of a registered
filter. -/
structure Trees (script : List Step) (ledger : List Content) (b : Block) : Prop where
  loose : ∀ m, Loose script m → Outside ledger b.registry m
  kept : ∀ m c, ledger[m]? = some c → c.isFilter → ¬ Loose script m →
    ∃ f ∈ b.registry, m ∈ (ofFragment f).nodes

theorem Trees.empty : Trees [] [] Block.empty :=
  ⟨fun m h => absurd h (not_loose_nil m), fun m c h => by simp at h⟩

section Steps

variable {script : List Step} {ledger contents : List Content} {b' : Block} {s : Step}
  {left right : Operand} {operator : Operator} {negated : Bool}

theorem Trees.quiet {b : Block} (h : Trees script ledger b)
    (hs : s.verb.makesFilters → ∀ o, ((run script).outcome s).1 = .ok o → o.serial? = none)
    (hserials : ∀ serial ∈ b'.registry.serials,
      serial ∈ b.registry.serials ∨ ledger.length ≤ serial)
    (hcontents : ∀ c ∈ contents, c.isFilter = false)
    (hregistry : ∀ f ∈ b.registry, f.content.isFilter → f ∈ b'.registry) :
    Trees (script ++ [s]) (ledger ++ contents) b' := by
  constructor
  · intro m hm
    rw [loose_snoc_of_quiet hs] at hm
    refine (h.loose m hm).append hserials fun c hc => ?_
    rw [parts_eq_nil (hcontents c hc)]
    exact List.not_mem_nil
  · intro m c hc hfilter hm
    rw [loose_snoc_of_quiet hs] at hm
    rcases getElem?_ledger_append hc with hc | ⟨-, hc⟩
    · obtain ⟨f, hf, hnode⟩ := h.kept m c hc hfilter hm
      exact ⟨f, hregistry f hf (mem_nodes_fragment.1 hnode).1, hnode⟩
    · rw [hcontents c (List.mem_of_getElem? hc)] at hfilter
      cases hfilter

/-! ## Composition -/

theorem nodes_filterOf (serial : Nat) (left right : Operand) (operator : Operator)
    (negated : Bool) :
    (ofFragment ((filterOf left right operator negated).fragment serial)).nodes =
      serial :: (left.nodes ++ right.nodes) :=
  nodes_filter serial left right _ negated

/-- A filter that is composed is the root of the trees of its operands. -/
theorem Trees.compose (h : Trees script ledger (run script).block)
    (ha : Accounts ledger (run script).block) (asked : s.verb.combines)
    (hl : left.Recorded ledger) (hr : right.Recorded ledger)
    (hserials : ∀ serial ∈ ((run script).outcome s).2.registry.serials,
      serial ∈ (run script).block.registry.serials ∨ ledger.length ≤ serial)
    (hout : (run script).outcome s = (run script).block.composed left right operator) :
    Trees (script ++ [s]) (ledger ++ [filterOf left right operator false])
      ((run script).outcome s).2 := by
  set b := (run script).block
  set filter := filterOf left right operator false with hfilter
  have hmem {f : Fragment Content} : f ∈ ((run script).outcome s).2.registry ↔
      f = filter.fragment b.serials ∨
        f ∈ b.registry ∧ left.serial? ≠ some f.serial ∧ right.serial? ≠ some f.serial := by
    rw [hout]
    exact mem_absorb ha filter hl hr
  have hroot {m : Nat} (hm : m = ledger.length ∨ m ∈ left.nodes ∨ m ∈ right.nodes) :
      ∃ f ∈ ((run script).outcome s).2.registry, m ∈ (ofFragment f).nodes := by
    refine ⟨_, hmem.2 (.inl rfl), ?_⟩
    rw [hfilter, nodes_filterOf, ha.size, List.mem_cons, List.mem_append]
    exact hm
  constructor
  · intro m hm
    obtain ⟨hpast, hml, hmr⟩ := (loose_snoc_composed asked hout).1 hm
    have houtside := h.loose m hpast
    refine houtside.append hserials fun d hd => ?_
    rw [List.mem_singleton.1 hd, hfilter, filterOf, parts_filter, List.mem_append, not_or]
    exact ⟨not_mem_nodes hl hml houtside.unused, not_mem_nodes hr hmr houtside.unused⟩
  · intro m c hc hcf hm
    rcases getElem?_ledger_concat hc with hc | ⟨rfl, -⟩
    · by_cases hside : left.serial? = some m ∨ right.serial? = some m
      · have hself : m ∈ (Operand.fragment m c).nodes := mem_nodes_fragment.2 ⟨hcf, .inl rfl⟩
        rcases hside with hs | hs
        · exact hroot (.inr (.inl (hl.eq_fragment hs hc ▸ hself)))
        · exact hroot (.inr (.inr (hr.eq_fragment hs hc ▸ hself)))
      · have hpast : ¬ Loose script m := fun hpast =>
          hm ((loose_snoc_composed asked hout).2 ⟨hpast, not_or.1 hside⟩)
        obtain ⟨f, hf, hnode⟩ := h.kept m c hc hcf hpast
        by_cases hgone : left.serial? = some f.serial ∨ right.serial? = some f.serial
        · -- the root of the tree is absorbed, and the new filter is the root from now on
          rcases hgone with hs | hs
          · exact hroot (.inr (.inl (hl.eq_fragment hs (ha.content f hf) ▸ hnode)))
          · exact hroot (.inr (.inr (hr.eq_fragment hs (ha.content f hf) ▸ hnode)))
        · exact ⟨f, hmem.2 (.inr ⟨hf, not_or.1 hgone⟩), hnode⟩
    · exact hroot (.inl rfl)

/-! ## Negation -/

/-- A negation has the operands of the filter that it negates, and its tree but for the root. -/
theorem Trees.negate (h : Trees script ledger (run script).block)
    (ha : Accounts ledger (run script).block) (hb : Absorbed ledger (run script).block)
    {negation : Negation} {serial : Nat} (asked : s.verb = .negate negation)
    (receiver : (run script).receiver s = .fragment serial (.filter left right operator negated))
    (hrec : ledger[serial]? = some (.filter left right operator negated))
    (hserials : ∀ k ∈ ((run script).outcome s).2.registry.serials,
      k ∈ (run script).block.registry.serials ∨ ledger.length ≤ k)
    (hout : (run script).outcome s = (run script).block.negate negation
      (.fragment serial (.filter left right operator negated))) :
    Trees (script ++ [s]) (ledger ++ [filterOf left right operator true])
      ((run script).outcome s).2 := by
  set b := (run script).block
  set filter := filterOf left right operator true with hfilter
  have hmem {f : Fragment Content} : f ∈ ((run script).outcome s).2.registry ↔
      f = filter.fragment b.serials ∧ serial ∈ b.registry.serials ∨
        f ∈ b.registry ∧ f.serial ≠ serial := by
    rw [hout, negate_registry ha hb negation hrec]
    exact Registry.mem_overwrite ha.nodup
  have hparts {m : Nat} (hm : ∀ c ∈ ledger, m ∉ c.parts) :
      ∀ c ∈ ledger ++ [filter], m ∉ c.parts := by
    intro c hc
    rcases List.mem_append.1 hc with hc | hc
    · exact hm c hc
    · have hsame := hm _ (List.mem_of_getElem? hrec)
      rw [List.mem_singleton.1 hc, hfilter, filterOf, parts_filter]
      rwa [parts_filter] at hsame
  obtain ⟨hlt, -⟩ := List.getElem?_eq_some_iff.1 hrec
  have hsize := ha.size
  constructor
  · intro m hm
    rcases (loose_snoc_negated asked receiver hout).1 hm with ⟨rfl, hreg⟩ | ⟨rfl, hreg⟩ | past
    · refine ⟨⟨_, by rw [List.getElem?_append_left hlt, hrec], rfl⟩, fun hin => ?_,
        hparts fun c hc => hb.not_mem_parts ha hc hreg⟩
      obtain ⟨f, hf, hs⟩ := Registry.mem_serials.1 hin
      rcases hmem.1 hf with ⟨rfl, -⟩ | ⟨-, hne⟩
      · simp only [Content.fragment] at hs
        omega
      · exact hne hs
    · refine ⟨⟨filter, by rw [hsize]; simp, rfl⟩, fun hin => ?_, hparts fun c hc hp => ?_⟩
      · obtain ⟨f, hf, hs⟩ := Registry.mem_serials.1 hin
        rcases hmem.1 hf with ⟨-, hin⟩ | ⟨hf, -⟩
        · exact hreg hin
        · exact ha.fresh (Registry.mem_serials.2 ⟨f, hf, hs⟩)
      · exact absurd (ha.lt_of_mem_parts hc hp) (Nat.not_lt.2 (Nat.le_of_eq hsize.symm))
    · refine (h.loose m past).append hserials fun c hc => ?_
      exact hparts (h.loose m past).unused c (List.mem_append_right _ hc)
  · intro m c hc hcf hm
    rw [loose_snoc_negated asked receiver hout, not_or, not_or] at hm
    obtain ⟨hold, hnew, hpast⟩ := hm
    have hroot (hreg : serial ∈ b.registry.serials)
        (hm : m = ledger.length ∨ m ∈ left.nodes ++ right.nodes) :
        ∃ f ∈ ((run script).outcome s).2.registry, m ∈ (ofFragment f).nodes := by
      refine ⟨_, hmem.2 (.inl ⟨rfl, hreg⟩), ?_⟩
      rw [hfilter, nodes_filterOf, ha.size, List.mem_cons]
      exact hm
    rcases getElem?_ledger_concat hc with hc | ⟨rfl, -⟩
    · obtain ⟨f, hf, hnode⟩ := h.kept m c hc hcf hpast
      by_cases hs : f.serial = serial
      · have hreg : serial ∈ b.registry.serials := Registry.mem_serials.2 ⟨f, hf, hs⟩
        have hcontent := ha.content f hf
        rw [hs, hrec] at hcontent
        rw [ofFragment, ← Option.some.inj hcontent, hs, nodes_filter, List.mem_cons] at hnode
        exact hroot hreg (.inr (hnode.resolve_left fun hm => hold ⟨hm, hreg⟩))
      · exact ⟨f, hmem.2 (.inr ⟨hf, hs⟩), hnode⟩
    · refine hroot ?_ (.inl rfl)
      by_contra hout
      exact hnew ⟨ha.size.symm, hout⟩

end Steps

/-! ## Every step -/

theorem Content.isFilter_of_isPlain {c : Content} (h : c.isPlain) : c.isFilter = false := by
  cases c with
  | filter => cases h
  | _ => rfl

/-- Contents that are no filters leave the registered filters as they are. -/
theorem mem_registerAll_filter {contents : List Content} {b : Block} {f : Fragment Content}
    (hc : ∀ c ∈ contents, c.isFilter = false) (hf : f.content.isFilter) :
    f ∈ (b.registerAll contents).registry ↔ f ∈ b.registry := by
  rw [mem_registerAll, or_iff_left]
  rintro ⟨i, c, hi, rfl⟩
  rw [Content.fragment, hc c (List.mem_of_getElem? hi)] at hf
  cases hf

theorem Effect.trees {script : List Step} {ledger contents : List Content} {s : Step}
    {outcome : Outcome}
    (e : Effect (run script).block s.verb ((run script).operands s) contents outcome)
    (hout : (run script).outcome s = outcome) (h : Trees script ledger (run script).block)
    (ha : Accounts ledger (run script).block) (hb : Absorbed ledger (run script).block)
    (ho : ∀ o ∈ (run script).operands s, o.Recorded ledger) :
    Trees (script ++ [s]) (ledger ++ contents) outcome.2 := by
  have hserials := e.serials ha hb ho
  have hquiet (hv : s.verb.makesFilters = false) : s.verb.makesFilters →
      ∀ o, ((run script).outcome s).1 = .ok o → o.serial? = none := by
    intro hv'
    rw [hv] at hv'
    cases hv'
  cases e with
  | enter names unbound contents result plain known quiet =>
    refine h.quiet (fun hv o hgiven => ?_) hserials
      (fun c hc => Content.isFilter_of_isPlain (plain c hc)) fun f hf _ => ?_
    · rw [hout] at hgiven
      exact (quiet hv).2 o hgiven
    · exact mem_registerAll.2 (.inl hf)
  | tag chain path asked given =>
    exact h.quiet (hquiet (by rw [asked]; rfl)) hserials (by simp) fun f hf _ => hf
  | start l slot style right asked =>
    refine h.quiet (hquiet (by rw [asked]; rfl)) hserials (by simp [Content.isFilter])
      fun f hf _ => ?_
    exact mem_register.2 (.inr hf)
  | extend l serial chain index c style right asked receiver found inside =>
    refine h.quiet (hquiet (by rw [asked]; rfl)) hserials (by simp [Content.isFilter])
      fun f hf hfilter => mem_register.2 (.inr ((mem_unregister ha.nodup).2 ⟨hf, fun hs => ?_⟩))
    obtain rfl : serial = f.serial := Option.some.inj hs
    -- what is extended is a segment and no filter
    have hcontent := ha.content f hf
    rw [ho _ (List.mem_of_head? receiver) _ _ rfl] at hcontent
    rw [← Option.some.inj hcontent] at hfilter
    cases hfilter
  | compose left right operator asked givenLeft givenRight =>
    rw [← hout] at hserials ⊢
    exact h.compose ha asked (ho _ givenLeft) (ho _ givenRight) hserials hout
  | negate negation serial left right operator negated asked receiver =>
    have hreceiver : (run script).receiver s =
        .fragment serial (.filter left right operator negated) := by
      simpa [Run.operands] using receiver
    rw [← hout] at hserials ⊢
    exact h.negate ha hb asked hreceiver (ho _ (List.mem_of_head? receiver) _ _ rfl) hserials hout

theorem Ledger.trees {script : List Step} {ledger : List Content} (h : Ledger script ledger) :
    Trees script ledger (run script).block := by
  induction h with
  | start => exact Trees.empty
  | @step script ledger contents s past effect ih =>
    have sound := past.sound
    rw [run_snoc]
    exact effect.trees rfl ih sound.accounts sound.absorbed
      (Run.operands_recorded sound.results s)

/-! ## The filters of a script -/

/-- Every filter that a script makes is the result of one of its steps. -/
theorem Ledger.filter_mem_results {script : List Step} {ledger : List Content}
    (h : Ledger script ledger) {m : Nat} {c : Content} (hc : ledger[m]? = some c)
    (hf : c.isFilter) : .fragment m c ∈ (run script).results := by
  induction h with
  | start => simp at hc
  | @step script ledger contents s past effect ih =>
    rw [run_snoc]
    refine List.mem_append.2 ?_
    rcases getElem?_ledger_append hc with hold | ⟨hge, hnew⟩
    · exact .inl (ih hold)
    · refine .inr (List.mem_singleton.2 ?_)
      have hsize := past.sound.accounts.size
      -- a single new content is recorded under the next serial number
      have hlast {d : Content} (h : [d][m - ledger.length]? = some c) :
          Operand.fragment m c = .fragment (run script).block.serials d := by
        rw [List.getElem?_singleton] at h
        split at h
        · next hzero =>
          rw [Option.some.inj h, hsize, show m = ledger.length by omega]
        · cases h
      generalize (run script).outcome s = outcome at effect
      cases effect with
      | enter names unbound contents result plain known quiet =>
        rw [Content.isFilter_of_isPlain (plain c (List.mem_of_getElem? hnew))] at hf
        cases hf
      | tag => cases hnew
      | start =>
        rw [List.mem_singleton.1 (List.mem_of_getElem? hnew)] at hf
        cases hf
      | extend =>
        rw [List.mem_singleton.1 (List.mem_of_getElem? hnew)] at hf
        cases hf
      | compose => exact hlast hnew
      | negate => exact hlast hnew

/-- A registered filter is in no tree of another one, and every filter that a script has made is
in the tree of a registered one unless it is loose. -/
theorem filters_in_trees (script : List Step) (result : Term) :
    (finish script result).registry.serials.Nodup ∧
    (∀ f ∈ (finish script result).registry, ∀ (m : Nat) (content : Content),
      .fragment m content ∈ (run script).results → f.serial ∉ content.parts) ∧
    ∀ (m : Nat) (content : Content), .fragment m content ∈ (run script).results →
      content.isFilter →
        ((∃ f ∈ (finish script result).registry, m ∈ (ofFragment f).nodes) ↔
          ¬ Loose script m) := by
  obtain ⟨ledger, hledger⟩ := exists_ledger script
  have sound := hledger.sound
  obtain ⟨items, hfinish⟩ := finish_eq_registerAll script result
  have ha := sound.accounts.registerAll (isPlain_items items)
  have hb := sound.absorbed.registerAll sound.accounts (isPlain_items items)
  rw [← hfinish] at ha hb
  refine ⟨ha.nodup, fun f hf m content hmem => ?_, fun m content hmem hfilter => ?_⟩
  · have hrec := sound.results _ hmem m content rfl
    exact hb.not_mem_parts ha (List.mem_append_left _ (List.mem_of_getElem? hrec))
      (Registry.mem_serials.2 ⟨f, hf, rfl⟩)
  · have hrec := sound.results _ hmem m content rfl
    have hregistry {f : Fragment Content} (hf : f.content.isFilter) :
        f ∈ (finish script result).registry ↔ f ∈ (run script).block.registry := by
      rw [hfinish]
      exact mem_registerAll_filter
        (fun c hc => Content.isFilter_of_isPlain (isPlain_items items c hc)) hf
    constructor
    · rintro ⟨f, hf, hnode⟩ hloose
      obtain ⟨-, hout, hparts⟩ := hledger.trees.loose m hloose
      obtain ⟨hff, hnode⟩ := mem_nodes_fragment.1 hnode
      rw [hregistry hff] at hf
      rcases hnode with rfl | hnode
      · exact hout (Registry.mem_serials.2 ⟨f, hf, rfl⟩)
      · exact hparts _ (List.mem_of_getElem? (sound.accounts.content f hf)) hnode
    · intro hloose
      obtain ⟨f, hf, hnode⟩ := hledger.trees.kept m content hrec hfilter hloose
      exact ⟨f, (hregistry (mem_nodes_fragment.1 hnode).1).2 hf, hnode⟩

end GraphQuery.Block
