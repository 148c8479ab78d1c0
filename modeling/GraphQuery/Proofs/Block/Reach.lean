import GraphQuery.Proofs.Block.Depth
import Mathlib.Data.Finset.Card

/-!
# The reach of look-ups

All segments of a chain are looked up along the same walk, so a path has a text as soon as the
path of the first segment has one. Each further look-up that gives anything new reaches a chain
that was not reached before. Therefore what is registered is written the same in the scope of the
block and in the one below, if it can be written at all.
-/
namespace GraphQuery.Block

/-- A growing set that stays in bounds stands still at one of the first steps. -/
theorem exists_eq_succ {S : Nat → Finset Nat} (hmono : ∀ d, S d ⊆ S (d + 1)) {n : Nat}
    (hcard : ∀ d, (S d).card ≤ n) : ∃ d ≤ n, S d = S (d + 1) := by
  by_contra hno
  have hgrows : ∀ d ≤ n + 1, d ≤ (S d).card := by
    intro d hd
    induction d with
    | zero => exact Nat.zero_le _
    | succ d ih =>
      have hne : S d ≠ S (d + 1) := fun heq => hno ⟨d, by omega, heq⟩
      have hlt := Finset.card_lt_card (Finset.ssubset_iff_subset_ne.2 ⟨hmono d, hne⟩)
      have := ih (by omega)
      omega
  have := hgrows (n + 1) le_rfl
  have := hcard (n + 1)
  omega

/-! ## Paths of one chain -/

section Paths

variable {s t : Scope} {c : Chain} {chain index : Nat}

theorem exists_pathText (hc : s.chains[chain]? = some c) :
    (∃ text, pathText s chain index = .ok text) ↔
      ∃ text, walkText s c (c.walk index) = .ok text := by
  simp only [pathText, hc]
  cases walkText s c (c.walk index) with
  | error fault =>
    constructor
    · rintro ⟨text, h⟩
      cases h
    · rintro ⟨text, h⟩
      cases h
  | ok text =>
    refine iff_of_true ?_ ⟨text, rfl⟩
    cases hs : c.shortest with
    | true => exact ⟨_, rfl⟩
    | false => exact ⟨text, rfl⟩

/-- An index behind all segments leads nowhere. -/
theorem walk_stray (h : c.segments.length ≤ index) : c.walk index = [index] := by
  have hprev : c.prev index = none := by rw [Chain.prev, List.getElem?_eq_none h]; rfl
  have hnext : c.next index = none := by rw [Chain.next, List.getElem?_eq_none h]; rfl
  have hone {link : Nat → Option Nat} (hlink : link index = none) (fuel : Nat) :
      trail link fuel index = [index] := by
    cases fuel with
    | zero => rfl
    | succ fuel => rw [trail, hlink]
  rw [Chain.walk, Chain.headOf, hone hprev]
  exact hone hnext _

theorem pathText_stray (hst : s.Below t) (hc : s.chains[chain]? = some c)
    (h : c.segments.length ≤ index) : pathText s chain index = pathText t chain index := by
  have hwalk (u : Scope) : walkText u c (c.walk index) = .ok "" := by
    rw [walk_stray h, walkText, List.getElem?_eq_none h]
    rfl
  rw [pathText, pathText, ← hst.chains, hc, hst.segmentName]
  simp only [hwalk]

end Paths

/-! ## Reached chains -/

/-- A chain is reached at a depth at which the path of its first segment has a text. The number
behind the last chain stands for the paths that lead nowhere. -/
def Reached (b : Block) (depth j : Nat) : Prop :=
  if j < b.chains.length then ∃ text, (b.scopeAt depth).text (.path j 0) = .ok text else 0 < depth

section Reach

variable {b : Block}

theorem Reached.succ {depth j : Nat} (h : b.Reached depth j) : b.Reached (depth + 1) j := by
  rw [Reached] at h ⊢
  split
  · next hj =>
    rw [if_pos hj] at h
    obtain ⟨text, htext⟩ := h
    exact ⟨text, (scopeAt_below_succ b depth).text _ _ htext⟩
  · exact Nat.succ_pos depth

/-- When no chain is reached for the first time, no path gets a text for the first time. -/
theorem path_settled (hlinked : ∀ c ∈ b.chains, c.Linked) {depth : Nat}
    (hsame : ∀ j ≤ b.chains.length, b.Reached (depth + 1) j → b.Reached depth j)
    (chain index : Nat) : Extends ((b.scopeAt (depth + 1)).text (.path chain index))
      ((b.scopeAt depth).text (.path chain index)) := by
  intro text htext
  have hpos : 0 < depth := by
    have hstray : b.Reached (depth + 1) b.chains.length := by simp [Reached]
    simpa [Reached] using hsame _ le_rfl hstray
  obtain ⟨d, rfl⟩ := Nat.exists_eq_succ_of_ne_zero hpos.ne'
  have hbelow := scopeAt_below_succ b d
  change pathText (b.scopeAt (d + 1)) chain index = .ok text at htext
  change pathText (b.scopeAt d) chain index = .ok text
  cases hc : b.chains[chain]? with
  | none =>
    rw [pathText, scopeAt_chains, hc] at htext
    cases htext
  | some c =>
    have hcs (e : Nat) : (b.scopeAt e).chains[chain]? = some c := by rw [scopeAt_chains, hc]
    by_cases hindex : index < c.segments.length
    · have hl := hlinked c (List.mem_of_getElem? hc)
      have hwalk : c.walk index = c.walk 0 := by
        rw [hl.walk_eq hindex, hl.walk_eq hl.nonempty]
      have hany (e : Nat) : (∃ u, pathText (b.scopeAt e) chain index = .ok u) ↔
          ∃ u, pathText (b.scopeAt e) chain 0 = .ok u := by
        rw [exists_pathText (hcs e), exists_pathText (hcs e), hwalk]
      have hchain : chain < b.chains.length := (List.getElem?_eq_some_iff.1 hc).1
      have hreached : b.Reached (d + 2) chain := by
        rw [Reached, if_pos hchain]
        exact (hany (d + 1)).1 ⟨text, htext⟩
      have hbefore := hsame chain hchain.le hreached
      rw [Reached, if_pos hchain] at hbefore
      obtain ⟨u, hu⟩ := (hany d).2 hbefore
      have hlater := pathText_extends hbelow chain index u hu
      rw [htext] at hlater
      rw [hu, hlater]
    · rw [pathText_stray hbelow (hcs d) (by omega), htext]

/-- As long as the whole has no text, a look-up reaches all chains that it can within as many
steps as there are chains. -/
theorem scope_settled (hlinked : ∀ c ∈ b.chains, c.Linked)
    (hwhole : ∀ text, b.scope.text .whole ≠ .ok text) :
    b.scope.Below (b.scopeAt (b.chains.length + 1)) := by
  classical
  have hmono : ∀ d, ((Finset.range (b.chains.length + 1)).filter fun j => b.Reached d j) ⊆
      (Finset.range (b.chains.length + 1)).filter fun j => b.Reached (d + 1) j := by
    intro d j hj
    rw [Finset.mem_filter] at hj ⊢
    exact ⟨hj.1, hj.2.succ⟩
  obtain ⟨d, hd, hsame⟩ := exists_eq_succ hmono (n := b.chains.length + 1) fun d =>
    (Finset.card_filter_le _ _).trans (Finset.card_range _).le
  have hreached : ∀ j ≤ b.chains.length, b.Reached (d + 1) j → b.Reached d j := by
    intro j hj hr
    have hmem : j ∈ (Finset.range (b.chains.length + 1)).filter fun j => b.Reached (d + 1) j :=
      Finset.mem_filter.2 ⟨Finset.mem_range.2 (by omega), hr⟩
    rw [← hsame] at hmem
    exact (Finset.mem_filter.1 hmem).2
  refine scopeAt_settled (scopeAt_below fun place => ?_) hd
  cases place with
  | path chain index => exact path_settled hlinked hreached chain index
  | whole =>
    intro text htext
    refine absurd ?_ (hwhole text)
    exact scopeAt_text_mono (by omega) htext

theorem exists_render_of_registryText {s : Scope} {previous : Option Clause.Kind}
    {r : Registry Content} {text : String} (h : registryText s previous r = .ok text)
    {f : Fragment Content} (hf : f ∈ r) : ∃ v, f.content.render s = .ok v := by
  induction r generalizing previous text with
  | nil => cases hf
  | cons g r ih =>
    rw [registryText] at h
    obtain ⟨v, hv, h⟩ := bind_eq_ok.1 h
    obtain ⟨shown, -, h⟩ := bind_eq_ok.1 h
    obtain ⟨rest, hrest, -⟩ := bind_eq_ok.1 h
    rcases List.mem_cons.1 hf with rfl | hf
    · exact ⟨v, hv⟩
    · exact ih hrest hf

/-- A block that has a text has one for each of its fragments. -/
theorem exists_render_of_text {text : String} (h : b.scope.text .whole = .ok text)
    {f : Fragment Content} (hf : f ∈ b.registry) :
    ∃ v, f.content.render (b.scopeAt (b.chains.length + 1)) = .ok v := by
  change (registryText (b.scopeAt (b.chains.length + 1)) none b.registry).map Text.strip =
    .ok text at h
  cases hr : registryText (b.scopeAt (b.chains.length + 1)) none b.registry with
  | error fault => rw [hr] at h; cases h
  | ok whole => exact exists_render_of_registryText hr hf

/-- What can be written in the scope of a block can be written in the scope in which the text of
the block writes it. -/
theorem render_scope (hlinked : ∀ c ∈ b.chains, c.Linked)
    (h : ∀ f ∈ b.registry, ∃ v, f.content.render b.scope = .ok v) {f : Fragment Content}
    (hf : f ∈ b.registry) :
    f.content.render (b.scopeAt (b.chains.length + 1)) = f.content.render b.scope := by
  have hbelow := scopeAt_below_succ b (b.chains.length + 1)
  by_cases hwhole : ∃ text, b.scope.text .whole = .ok text
  · obtain ⟨text, htext⟩ := hwhole
    obtain ⟨v, hv⟩ := exists_render_of_text htext hf
    rw [hv]
    exact (Content.render_extends hbelow f.content v hv).symm
  · -- without a text of the whole the look-ups have settled one step earlier
    have hsettled := scope_settled hlinked fun text htext => hwhole ⟨text, htext⟩
    obtain ⟨v, hv⟩ := h f hf
    rw [hv]
    exact Content.render_extends hsettled f.content v hv

end Reach

end GraphQuery.Block
