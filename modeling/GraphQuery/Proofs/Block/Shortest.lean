import GraphQuery.Proofs.Block.Growth
import GraphQuery.Proofs.Block.Opening
import GraphQuery.Proofs.Block.Pieces
import GraphQuery.Proofs.Block.Reach
import GraphQuery.Proofs.Decimal.Integer

/-!
# Shortest paths and the names they are returned by

A segment is named after the size of the registry that it was made in, and keeps its name. The text
of a shortest path binds the name of the segment that is registered, which is an end of the chain,
while RETURN gives the name of the segment that it was handed. So the two are the same exactly if
an end of the chain is registered and every such end was made in a registry of that size.
-/
namespace GraphQuery.Block

/-! ## The names of segments -/

/-- The name of the path that a segment ends. -/
def pathNameAt (b : Block) (chain index : Nat) : Option String :=
  (segment? b.chains chain index).map (·.name)

/-- The name that a segment gets in a registry of the given size. -/
def sizedName (size : Nat) : String := "m" ++ Decimal.intText size

theorem sizedName_inj {m n : Nat} : sizedName m = sizedName n ↔ m = n := by
  rw [sizedName, sizedName, String.append_right_inj, Decimal.intText_inj, Int.natCast_inj]

/-- What a call does to the names of the segments. -/
inductive Sizing (b : Block) (verb : Verb) (outcome : Outcome) : Prop where
  | keeps (names : ∀ chain index, pathNameAt outcome.2 chain index = pathNameAt b chain index)
      (quiet : ∀ l, verb = .link l → ∃ fault, outcome.1 = .error fault)
  | adds (serial chain index : Nat)
      (made : outcome.1 = .ok (.fragment serial (.segment chain index)))
      (asked : ∃ l, verb = .link l)
      (fresh : pathNameAt b chain index = none)
      (name : pathNameAt outcome.2 chain index = some (sizedName outcome.2.registry.length))
      (names : ∀ other j, (other, j) ≠ (chain, index) →
        pathNameAt outcome.2 other j = pathNameAt b other j)

theorem pathNameAt_eq (b : Block) (chain index : Nat) : pathNameAt b chain index =
    (b.chains[chain]?).bind fun c => (c.segments[index]?).map (·.name) := by
  rw [pathNameAt, segment?, Option.map_bind]
  rfl

theorem sizing_startPath (l : Link) (slot : Nat) (style : Style) (direction : Direction)
    (right : Operand) (b : Block) :
    Sizing b (.link l) (b.startPath slot style direction right) := by
  have hnone (j : Nat) : pathNameAt b b.chains.length j = none := by
    rw [pathNameAt_eq, List.getElem?_eq_none (Nat.le_refl _)]
    rfl
  have hnew (j : Nat) : pathNameAt (b.startPath slot style direction right).2 b.chains.length j =
      if j = 0 then some (b.register (.segment b.chains.length 0)).pathName else none := by
    rw [pathNameAt_eq]
    simp only [startPath, give, List.getElem?_concat_length]
    cases j <;> rfl
  refine .adds b.serials b.chains.length 0 rfl ⟨l, rfl⟩ (hnone 0) (hnew 0) fun other j hne => ?_
  by_cases hother : other = b.chains.length
  · have hj : j ≠ 0 := by
      rintro rfl
      exact hne (congrArg (·, 0) hother)
    rw [hother, hnone, hnew, if_neg hj]
  · rw [pathNameAt_eq, pathNameAt_eq]
    simp only [startPath, give, List.getElem?_append, List.getElem?_singleton]
    split
    · rfl
    · rw [if_neg (by omega), List.getElem?_eq_none (by omega)]

theorem sizing_extendPath (l : Link) {path : Operand} {chain index : Nat} {c : Chain}
    (style : Style) (direction : Direction) (right : Operand) {b : Block}
    (hc : b.chains[chain]? = some c) :
    Sizing b (.link l) (b.extendPath path chain index c.segments.length style direction right) := by
  set outcome := b.extendPath path chain index c.segments.length style direction right with hout
  have hnew (j : Nat) : pathNameAt outcome.2 chain j =
      if j = c.segments.length then some (sizedName outcome.2.registry.length)
      else pathNameAt b chain j := by
    rw [pathNameAt_eq, pathNameAt_eq, hc, hout]
    simp only [extendPath, give]
    rw [getElem?_modify_chains_of hc, if_pos rfl, Option.bind_some,
      Chain.map_segments_extend _ fun _ _ => rfl]
    rfl
  refine .adds b.serials chain c.segments.length rfl ⟨l, rfl⟩ ?_ ?_ fun other j hne => ?_
  · rw [pathNameAt_eq, hc, Option.bind_some, List.getElem?_eq_none (Nat.le_refl _)]
    rfl
  · rw [hnew, if_pos rfl]
  · by_cases hother : other = chain
    · have hj : j ≠ c.segments.length := by
        rintro rfl
        exact hne (congrArg (·, _) hother)
      rw [hother, hnew, if_neg hj]
    · rw [pathNameAt_eq, pathNameAt_eq, hout]
      simp only [extendPath, give]
      rw [List.getElem?_modify_ne _ _ (Ne.symm hother)]

/-- A call on a path names the segment that it makes, and no call changes a name. -/
theorem Run.step_sizing (r : Run) (s : Step) : Sizing r.block s.verb (r.outcome s) := by
  by_cases hv : ∃ l, s.verb = .link l
  · obtain ⟨l, hv⟩ := hv
    rw [hv]
    have hfail {fault : Fault} (h : r.outcome s = r.block.fail fault) :
        Sizing r.block (.link l) (r.outcome s) := by
      rw [h]
      exact .keeps (fun _ _ => rfl) fun _ _ => ⟨fault, rfl⟩
    rcases outcome_of_link hv with ⟨other, -, hcall⟩ | ⟨fault, h⟩
    · rcases link_cases l (r.receiver s) other r.block with
        ⟨slot, -, hlink⟩ | ⟨_, chain, index, c, _, style, _, hc, -, -, hlink⟩ | ⟨fault, hlink⟩
      · rw [hcall, hlink]
        exact sizing_startPath l slot _ _ _ _
      · rw [hcall, hlink]
        exact sizing_extendPath l _ _ _ hc
      · exact hfail (hcall.trans hlink)
    · exact hfail h
  · have hne : ∀ l, s.verb ≠ .link l := fun l h => hv ⟨l, h⟩
    obtain ⟨hchains, hlength⟩ := segments_of_ne r hne
    refine .keeps (fun chain index => ?_) fun l h => absurd h (hne l)
    rw [pathNameAt_eq, pathNameAt_eq]
    cases hc : (r.outcome s).2.chains[chain]? with
    | none =>
      have hout := List.getElem?_eq_none_iff.1 hc
      rw [List.getElem?_eq_none (hlength ▸ hout)]
    | some c =>
      obtain ⟨d, hd, -, hsegments⟩ := hchains chain c hc
      rw [hd, Option.bind_some, Option.bind_some, hsegments]

/-- A call on a path makes a segment, and the registry that includes it has the given size. -/
def Makes (script : List Step) (chain index size : Nat) : Prop :=
  ∃ past s l serial, Performs script past s ∧ s.verb = .link l ∧
    ((run past).outcome s).1 = .ok (.fragment serial (.segment chain index)) ∧
    (run (past ++ [s])).block.registry.length = size

theorem makes_snoc {script : List Step} {s : Step} {chain index size : Nat} :
    Makes (script ++ [s]) chain index size ↔ Makes script chain index size ∨
      ∃ l serial, s.verb = .link l ∧
        ((run script).outcome s).1 = .ok (.fragment serial (.segment chain index)) ∧
        (run (script ++ [s])).block.registry.length = size := by
  constructor
  · rintro ⟨past, t, l, serial, hperforms, h⟩
    rcases performs_snoc.1 hperforms with ⟨rfl, rfl⟩ | hperforms
    · exact .inr ⟨l, serial, h⟩
    · exact .inl ⟨past, t, l, serial, hperforms, h⟩
  · rintro (⟨past, t, l, serial, hperforms, h⟩ | ⟨l, serial, h⟩)
    · exact ⟨past, t, l, serial, performs_snoc.2 (.inr hperforms), h⟩
    · exact ⟨script, s, l, serial, performs_snoc.2 (.inl ⟨rfl, rfl⟩), h⟩

/-- A segment has the name that it was given when it was made. -/
theorem pathNameAt_run {script : List Step} {chain index : Nat} {name : String} :
    pathNameAt (run script).block chain index = some name ↔
      ∃ size, Makes script chain index size ∧ name = sizedName size := by
  induction script using List.reverseRecOn generalizing name with
  | nil =>
    refine iff_of_false (by simp [pathNameAt, segment?, Run.start, Block.empty]) ?_
    rintro ⟨size, ⟨past, s, l, serial, hperforms, -⟩, -⟩
    simp [Performs] at hperforms
  | append_singleton script s ih =>
    simp only [makes_snoc, block_run_snoc]
    cases (run script).step_sizing s with
    | keeps names quiet =>
      rw [names, ih]
      refine exists_congr fun size => and_congr_left fun _ => (or_iff_left ?_).symm
      rintro ⟨l, serial, hv, hmade, -⟩
      obtain ⟨fault, hfault⟩ := quiet l hv
      rw [hfault] at hmade
      cases hmade
    | adds serial made index' hmade asked fresh hname names =>
      by_cases hsame : (chain, index) = (made, index')
      · cases hsame
        rw [hname, Option.some.injEq]
        obtain ⟨l, hv⟩ := asked
        constructor
        · rintro rfl
          exact ⟨_, .inr ⟨l, serial, hv, hmade, rfl⟩, rfl⟩
        · rintro ⟨size, hold | ⟨-, -, -, -, rfl⟩, rfl⟩
          · -- made before, it would have had a name already
            rw [ih.2 ⟨size, hold, rfl⟩] at fresh
            cases fresh
          · rfl
      · rw [names _ _ hsame, ih]
        refine exists_congr fun size => and_congr_left fun _ => (or_iff_left ?_).symm
        rintro ⟨_, _, _, hother, _⟩
        rw [hmade] at hother
        cases hother
        exact hsame rfl

/-! ## Paths that are to be the shortest -/

/-- A chain is to be the shortest one. -/
def Tagged (b : Block) (chain : Nat) : Prop :=
  ∃ c, b.chains[chain]? = some c ∧ c.shortest = true

/-- No call takes the tag from a chain. -/
theorem Effect.tagged {b : Block} {verb : Verb} {operands : List Operand} {contents : List Content}
    {outcome : Outcome} (e : Effect b verb operands contents outcome) {chain : Nat}
    (h : Tagged b chain) : Tagged outcome.2 chain := by
  obtain ⟨c, hc, hshortest⟩ := h
  cases e with
  | enter names unbound contents result plain known quiet =>
    exact ⟨c, (congrArg (·[chain]?) (chains_registerAll _ _)).trans hc, hshortest⟩
  | tag tagged path asked given =>
    refine ⟨_, getElem?_modify_chains_of hc _ _, ?_⟩
    split
    · rfl
    · exact hshortest
  | start l slot style right asked =>
    have hlt := (List.getElem?_eq_some_iff.1 hc).1
    exact ⟨c, (List.getElem?_append_left hlt).trans hc, hshortest⟩
  | extend l serial extended index d style right asked receiver found inside =>
    refine ⟨_, getElem?_modify_chains_of hc _ _, ?_⟩
    split <;> exact hshortest
  | compose left right operator asked givenLeft givenRight =>
    exact ⟨c, by simpa [composed, Block.give, Block.absorb, register] using hc, hshortest⟩
  | negate negation serial left right operator negated asked receiver =>
    exact ⟨c, by simpa [Block.negate, Block.give, Block.absorb, register] using hc, hshortest⟩

/-- A call asks for the shortest path along a chain, and gives the segment that it was handed. -/
def Shortens (script : List Step) (serial chain index : Nat) : Prop :=
  ∃ past s, Performs script past s ∧ s.verb = .shortestPath ∧
    ((run past).outcome s).1 = .ok (.fragment serial (.segment chain index))

theorem chains_shortestPath {path : Operand} {serial chain index : Nat} {b : Block}
    (h : (b.shortestPath path).1 = .ok (.fragment serial (.segment chain index))) :
    (b.shortestPath path).2.chains =
      b.chains.modify chain fun c => { c with shortest := true } := by
  rw [Block.shortestPath.eq_def] at h ⊢
  split at h
  · cases h
    rfl
  · cases h

theorem Run.chains_shortestPath {r : Run} {s : Step} {serial chain index : Nat}
    (hv : s.verb = .shortestPath)
    (h : (r.outcome s).1 = .ok (.fragment serial (.segment chain index))) :
    (r.outcome s).2.chains =
      r.block.chains.modify chain fun c => { c with shortest := true } := by
  rw [outcome_eq] at h ⊢
  split at h
  · next hkeyed =>
    rw [if_pos hkeyed]
    rw [hv] at h ⊢
    exact Block.chains_shortestPath h
  · cases h

/-- What a call gives is among the results from then on. -/
theorem Performs.mem_results {script past : List Step} {s : Step} {o : Operand}
    (h : Performs script past s) (hgiven : ((run past).outcome s).1 = .ok o) :
    o ∈ (run script).results := by
  induction script using List.reverseRecOn with
  | nil => simp [Performs] at h
  | append_singleton script t ih =>
    rw [run_snoc]
    rcases performs_snoc.1 h with ⟨rfl, rfl⟩ | h
    · refine List.mem_append_right _ (List.mem_singleton.2 ?_)
      rw [hgiven]
      rfl
    · exact List.mem_append_left _ (ih h)

theorem exists_makes {script : List Step} {chain index : Nat} {c : Chain}
    (hc : (run script).block.chains[chain]? = some c) (hindex : index < c.segments.length) :
    ∃ size, Makes script chain index size := by
  have hname : pathNameAt (run script).block chain index = some c.segments[index].name := by
    rw [pathNameAt_eq, hc, Option.bind_some, List.getElem?_eq_getElem hindex, Option.map_some]
  obtain ⟨size, hmakes, -⟩ := pathNameAt_run.1 hname
  exact ⟨size, hmakes⟩

namespace Shortens

variable {script : List Step} {serial chain index : Nat}

theorem recorded (h : Shortens script serial chain index) {ledger : List Content}
    (hledger : Ledger script ledger) : ledger[serial]? = some (.segment chain index) := by
  obtain ⟨past, s, hperforms, -, hgiven⟩ := h
  exact hledger.sound.results _ (hperforms.mem_results hgiven) _ _ rfl

/-- The chain is tagged, and stays so. -/
theorem tagged (h : Shortens script serial chain index) : Tagged (run script).block chain := by
  induction script using List.reverseRecOn with
  | nil =>
    obtain ⟨past, s, hperforms, -⟩ := h
    simp [Performs] at hperforms
  | append_singleton script s ih =>
    obtain ⟨ledger, hledger⟩ := exists_ledger (script ++ [s])
    obtain ⟨c, hc, -⟩ := hledger.arena.inside serial chain index (h.recorded hledger)
    obtain ⟨past, t, hperforms, hv, hgiven⟩ := h
    rw [block_run_snoc] at hc ⊢
    rcases performs_snoc.1 hperforms with ⟨rfl, rfl⟩ | hperforms
    · have hchains := Run.chains_shortestPath hv hgiven
      rw [hchains] at hc
      obtain ⟨d, -, rfl⟩ := getElem?_modify_chains hc
      refine ⟨_, (congrArg (·[chain]?) hchains).trans hc, ?_⟩
      rw [if_pos rfl]
    · obtain ⟨contents, effect⟩ := (run script).outcome_effect s
      exact effect.tagged (ih ⟨past, t, hperforms, hv, hgiven⟩)

end Shortens

/-! ## What the text binds -/

/-- The variable that a text binds in front of a path that is to be the shortest one. -/
def pathVariable? (text : String) : Option String :=
  let name := String.ofList (text.toList.takeWhile (· != ' '))
  if (name ++ " = " ++ algorithm ++ "(").toList.isPrefixOf text.toList then some name else none

theorem pathVariable?_of_blankless {name : String} (h : ' ' ∉ name.toList) (path : String) :
    pathVariable? (name ++ " = " ++ algorithm ++ "(" ++ path ++ ")") = some name := by
  set text := name ++ " = " ++ algorithm ++ "(" ++ path ++ ")" with htext
  have hname : text.toList.takeWhile (· != ' ') = name.toList := by
    have hblank : " = ".toList = ' ' :: ['=', ' '] := rfl
    have hall : ∀ c ∈ name.toList, (c != ' ') = true := fun c hc => by
      simpa using fun heq : c = ' ' => h (heq ▸ hc)
    simp only [htext, String.toList_append, List.append_assoc, hblank]
    rw [List.takeWhile_append_of_pos hall, List.cons_append, List.takeWhile_cons]
    simp
  have hprefix : (name ++ " = " ++ algorithm ++ "(").toList.isPrefixOf text.toList = true := by
    rw [List.isPrefixOf_iff_prefix]
    exact ⟨(path ++ ")").toList, by simp [htext, String.toList_append]⟩
  simp only [pathVariable?, hname, String.ofList_toList, hprefix, if_true]

theorem blank_not_mem_sizedName (size : Nat) : ' ' ∉ (sizedName size).toList := by
  have hdigits : (Decimal.intText size).toList = Decimal.natDigits size := by
    simp [Decimal.toList_intText, Decimal.signText]
  rw [sizedName, String.toList_append, hdigits, List.mem_append, not_or]
  refine ⟨by decide, fun hmem => ?_⟩
  exact absurd (Decimal.isDigit_of_mem_natDigits hmem) (by decide)

/-- A registered segment of a chain is written as a path behind the variable. -/
def BindsPath (b : Block) (chain : Nat) (name : String) : Prop :=
  ∃ f ∈ b.registry, ∃ index text, f.content = .segment chain index ∧
    f.content.render b.scope = .ok (.text text) ∧ pathVariable? text = some name

/-- RETURN gives one variable for a segment, which is the one that is bound to its chain. -/
def ReturnsPath (b : Block) (serial chain index : Nat) : Prop :=
  ∃ name, (Content.item (.fragment serial (.segment chain index))).render b.scope =
    .ok (.text name) ∧ ∀ bound, BindsPath b chain bound ↔ bound = name

section Rendering

variable {b : Block} {chain index : Nat} {name : String}

theorem segmentName_of_pathNameAt (h : pathNameAt b chain index = some name) :
    b.scope.segmentName chain index = .text name := by
  obtain ⟨segment, hsegment, rfl⟩ := Option.map_eq_some_iff.1 h
  have hchains : b.scope.chains = b.chains := rfl
  rw [Scope.segmentName, hchains, hsegment]

/-- A path of a tagged chain that can be written is written behind the name of its segment. -/
theorem render_segment (htagged : Tagged b chain) (hname : pathNameAt b chain index = some name)
    {v : Value} (h : (Content.segment chain index).render b.scope = .ok v) :
    ∃ path, v = .text (name ++ " = " ++ algorithm ++ "(" ++ path ++ ")") := by
  obtain ⟨c, hc, hshortest⟩ := htagged
  have hvariable : (b.scopeAt (b.chains.length + 1)).segmentName chain index = .text name :=
    segmentName_of_pathNameAt hname
  change (pathText (b.scopeAt (b.chains.length + 1)) chain index >>= fun text =>
    pure (Value.text text)) = .ok v at h
  obtain ⟨text, htext, hv⟩ := bind_eq_ok.1 h
  have hchains : (b.scopeAt (b.chains.length + 1)).chains[chain]? = some c := hc
  simp only [pathText, hchains, hshortest, if_true, hvariable] at htext
  obtain ⟨path, -, htext⟩ := bind_eq_ok.1 htext
  cases hv
  cases htext
  exact ⟨path, rfl⟩

end Rendering

section Finished

variable {script : List Step} {result : Term} {chain : Nat}

theorem pathNameAt_finish (script : List Step) (result : Term) (chain index : Nat) :
    pathNameAt (finish script result) chain index = pathNameAt (run script).block chain index := by
  rw [pathNameAt, pathNameAt, chains_finish]

theorem pathNameAt_finish_of_makes {index size : Nat} (h : Makes script chain index size)
    (result : Term) : pathNameAt (finish script result) chain index = some (sizedName size) := by
  rw [pathNameAt_finish]
  exact pathNameAt_run.2 ⟨size, h, rfl⟩

theorem exists_makes_of_registered {f : Fragment Content}
    (hf : f ∈ (finish script result).registry) {index : Nat}
    (hcontent : f.content = .segment chain index) : ∃ size, Makes script chain index size := by
  obtain ⟨ledger, harena, haccounts⟩ := exists_arena_finish script result
  obtain ⟨c, hc, hindex⟩ := harena.inside f.serial chain index (hcontent ▸ haccounts.content f hf)
  rw [chains_finish] at hc
  exact exists_makes hc hindex

/-- What is bound to a tagged chain: the names of its registered segments. -/
theorem bindsPath_iff (htagged : Tagged (run script).block chain) {text : String}
    (htext : (finish script result).text = .ok text) (name : String) :
    BindsPath (finish script result) chain name ↔ ∃ f ∈ (finish script result).registry,
      ∃ index size, f.content = .segment chain index ∧ Makes script chain index size ∧
        name = sizedName size := by
  have htagged' : Tagged (finish script result) chain := by rwa [Tagged, chains_finish]
  have hwritten {f : Fragment Content} (hf : f ∈ (finish script result).registry)
      {index size : Nat} (hcontent : f.content = .segment chain index)
      (hmakes : Makes script chain index size) :
      ∃ path, f.content.render (finish script result).scope =
        .ok (.text (sizedName size ++ " = " ++ algorithm ++ "(" ++ path ++ ")")) := by
    obtain ⟨v, hv⟩ := exists_render_of_text htext hf
    -- a deeper scope writes the same, and shows the path behind the variable
    have hrender := Content.render_extends
      (scopeAt_below_succ _ ((finish script result).chains.length + 1)) f.content v hv
    rw [hcontent] at hrender ⊢
    obtain ⟨path, rfl⟩ :=
      render_segment htagged' (pathNameAt_finish_of_makes hmakes result) hrender
    exact ⟨path, hrender⟩
  constructor
  · rintro ⟨f, hf, index, written, hcontent, hrender, hbound⟩
    obtain ⟨size, hmakes⟩ := exists_makes_of_registered hf hcontent
    obtain ⟨path, hpath⟩ := hwritten hf hcontent hmakes
    rw [hrender] at hpath
    cases hpath
    rw [pathVariable?_of_blankless (blank_not_mem_sizedName size)] at hbound
    exact ⟨f, hf, index, size, hcontent, hmakes, (Option.some.inj hbound).symm⟩
  · rintro ⟨f, hf, index, size, hcontent, hmakes, rfl⟩
    obtain ⟨path, hpath⟩ := hwritten hf hcontent hmakes
    exact ⟨f, hf, index, _, hcontent, hpath,
      pathVariable?_of_blankless (blank_not_mem_sizedName size) path⟩

theorem Makes.size_unique {index size size' : Nat} (h : Makes script chain index size)
    (h' : Makes script chain index size') : size' = size := by
  have hname := pathNameAt_run.2 ⟨size, h, rfl⟩
  rw [pathNameAt_run.2 ⟨size', h', rfl⟩, Option.some.injEq, sizedName_inj] at hname
  exact hname

/-- RETURN gives a segment the name that it got from the size of the registry when it was made, and
the text binds the names of those segments of the chain that are registered. So RETURN gives the
variable that is bound exactly if there is such a segment and all of them were made in a registry of
that size. -/
theorem returnsPath_iff {serial index : Nat} (h : Shortens script serial chain index)
    {text : String} (htext : (finish script result).text = .ok text) : ∃ size,
      Makes script chain index size ∧
      (Content.item (.fragment serial (.segment chain index))).render
        (finish script result).scope = .ok (.text (sizedName size)) ∧
      (∀ name, BindsPath (finish script result) chain name ↔ ∃ f ∈ (finish script result).registry,
        ∃ other size', f.content = .segment chain other ∧ Makes script chain other size' ∧
          name = sizedName size') ∧
      (ReturnsPath (finish script result) serial chain index ↔
        (∃ f ∈ (finish script result).registry, ∃ other, f.content = .segment chain other) ∧
          ∀ f ∈ (finish script result).registry, ∀ other size', f.content = .segment chain other →
            Makes script chain other size' → size' = size) := by
  obtain ⟨ledger, hledger⟩ := exists_ledger script
  obtain ⟨c, hc, hindex⟩ := hledger.arena.inside serial chain index (h.recorded hledger)
  obtain ⟨size, hmakes⟩ := exists_makes hc hindex
  have hname := pathNameAt_finish_of_makes hmakes result
  have hreturned : (Content.item (.fragment serial (.segment chain index))).render
      (finish script result).scope = .ok (.text (sizedName size)) :=
    congrArg Except.ok (segmentName_of_pathNameAt hname)
  have hbinds := bindsPath_iff h.tagged htext
  refine ⟨size, hmakes, hreturned, hbinds, ?_⟩
  constructor
  · rintro ⟨name, hitem, hall⟩
    rw [hreturned] at hitem
    cases hitem
    obtain ⟨f, hf, other, -, hcontent, -⟩ := (hbinds _).1 ((hall (sizedName size)).2 rfl)
    refine ⟨⟨f, hf, other, hcontent⟩, fun g hg other size' hcontent hmakes' => ?_⟩
    exact sizedName_inj.1 ((hall _).1 ((hbinds _).2 ⟨g, hg, other, size', hcontent, hmakes', rfl⟩))
  · rintro ⟨⟨f, hf, other, hcontent⟩, hsizes⟩
    refine ⟨sizedName size, hreturned, fun bound => (hbinds bound).trans ⟨?_, ?_⟩⟩
    · rintro ⟨g, hg, other, size', hcontent, hmakes', rfl⟩
      rw [hsizes g hg other size' hcontent hmakes']
    · rintro rfl
      obtain ⟨size', hmakes'⟩ := exists_makes_of_registered hf hcontent
      exact ⟨f, hf, other, size', hcontent, hmakes',
        congrArg sizedName (hsizes f hf other size' hcontent hmakes').symm⟩

end Finished

/-- A path that is tagged as it was built. -/
def taggedPath : List Step :=
  [⟨.node, none, [.value (.int 1)]⟩,
   ⟨.link ⟨true, .outgoing⟩, some 0, [.value (.text "x")]⟩,
   ⟨.shortestPath, some 1, []⟩]

/-- Its segment is the one of the chain that is registered, so RETURN gives what is bound. -/
theorem taggedPath_returned :
    (finish taggedPath (.result 2)).text =
      .ok "START n0=node(1) MATCH m2 = shortestPath((n0)-->(x)) RETURN m2" ∧
    ReturnsPath (finish taggedPath (.result 2)) 1 0 0 := by
  have htext : (finish taggedPath (.result 2)).text =
      .ok "START n0=node(1) MATCH m2 = shortestPath((n0)-->(x)) RETURN m2" := by rfl
  have hshortens : Shortens taggedPath 1 0 0 :=
    ⟨taggedPath.take 2, taggedPath[2], List.prefix_rfl, rfl, rfl⟩
  have hregistry : (finish taggedPath (.result 2)).registry.map (·.content) =
      [.start 0 (.nodes [.value (.int 1)]), .segment 0 0,
        .item (.fragment 1 (.segment 0 0))] := by rfl
  refine ⟨htext, ?_⟩
  obtain ⟨size, hmakes, -, -, hiff⟩ := returnsPath_iff hshortens htext
  refine hiff.2 ⟨?_, fun f hf other size' hcontent hmakes' => ?_⟩
  · have hmem : Content.segment 0 0 ∈
        (finish taggedPath (.result 2)).registry.map (·.content) := by
      simp [hregistry]
    obtain ⟨f, hf, hcontent⟩ := List.mem_map.1 hmem
    exact ⟨f, hf, 0, hcontent⟩
  · have hmem := List.mem_map_of_mem (f := (·.content)) hf
    rw [hregistry, hcontent] at hmem
    obtain rfl : other = 0 := by simpa using hmem
    exact hmakes.size_unique hmakes'

/-- RETURN gives the path variable of every path that is to be the shortest one. -/
def PathsReturned (script : List Step) : Prop :=
  ∀ result serial chain index text, Shortens script serial chain index →
    (finish script result).text = .ok text →
    ReturnsPath (finish script result) serial chain index

/-- A path that goes on behind the segment that it was tagged at, with a node in between. -/
def prolongedPath : List Step :=
  [⟨.node, none, [.value (.int 1)]⟩,
   ⟨.link ⟨true, .outgoing⟩, some 0, [.value (.text "x")]⟩,
   ⟨.shortestPath, some 1, []⟩,
   ⟨.node, none, [.value (.int 2)]⟩,
   ⟨.link ⟨true, .outgoing⟩, some 1, [.value (.text "y")]⟩]

/-- The new end of the chain has another name, and takes the place of the one that is returned. -/
theorem prolongedPath_not_returned : ¬ PathsReturned prolongedPath := by
  intro h
  have htext : (finish prolongedPath (.result 2)).text = .ok ("START n0=node(1),n2=node(2) " ++
      "MATCH m3 = shortestPath((n0)-->(x)-->(y)) RETURN m2") := by rfl
  have hshortens : Shortens prolongedPath 1 0 0 :=
    ⟨prolongedPath.take 2, prolongedPath[2], ⟨prolongedPath.drop 3, rfl⟩, rfl, rfl⟩
  obtain ⟨name, hitem, hall⟩ := h (.result 2) 1 0 0 _ hshortens htext
  obtain rfl : "m2" = name := Value.text.inj (Except.ok.inj hitem)
  have hbound : BindsPath (finish prolongedPath (.result 2)) 0 "m3" :=
    ⟨(finish prolongedPath (.result 2)).registry[2], List.getElem_mem _, 1, _, rfl, rfl, rfl⟩
  exact absurd ((hall "m3").1 hbound) (by decide)

end GraphQuery.Block
