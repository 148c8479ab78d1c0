import GraphQuery.Proofs.Block.Depth
import GraphQuery.Proofs.Block.Merge
import GraphQuery.Proofs.Block.Negation
import GraphQuery.Proofs.Block.Opening

/-!
# Filters that give way to their negations

A negation enters the registry, drops operands that are out of it already, and leaves again or takes
the place of the filter. What remains of this is one position: the negation stands where the filter
stood, or nothing has changed. The filter is written as before, even where it is written by way of
the text of the whole block.
-/
namespace GraphQuery.Block

/-! ## Registries in which a fragment is overwritten -/

section Overwriting

variable {s : Scope} {old : Nat} {new : Fragment Content}

/-- Where neither of two fragments can be written, the text does not tell them apart. -/
theorem registryText_overwrite {r : Registry Content} (previous : Option Clause.Kind)
    (h : ∀ f ∈ r, f.serial = old → ∃ fault,
      f.content.render s = .error fault ∧ new.content.render s = .error fault) :
    registryText s previous (r.overwrite old new) = registryText s previous r := by
  induction r generalizing previous with
  | nil => rfl
  | cons f r ih =>
    rw [Registry.overwrite]
    split
    · next hf =>
      obtain ⟨fault, hold, hnew⟩ := h f (by simp) hf
      rw [registryText, registryText, hold, hnew]
      rfl
    · next hf =>
      have hrest := ih (some f.kind) fun g hg => h g (List.mem_cons_of_mem f hg)
      rw [registryText, registryText, hrest]

/-- As long as neither of the two fragments can be written, all look-ups give the same. -/
theorem scopeAt_overwrite {b b' : Block} (hnames : b'.names = b.names)
    (hchains : b'.chains = b.chains) (hregistry : b'.registry = b.registry.overwrite old new)
    {depth : Nat} (h : ∀ d < depth, ∀ f ∈ b.registry, f.serial = old → ∃ fault,
      f.content.render (b.scopeAt d) = .error fault ∧
        new.content.render (b.scopeAt d) = .error fault) :
    b'.scopeAt depth = b.scopeAt depth := by
  induction depth with
  | zero => rw [scopeAt, scopeAt, hnames, hchains]
  | succ depth ih =>
    have hsame := ih fun d hd => h d (by omega)
    have hwhole := registryText_overwrite none (h depth (by omega))
    have hplace : placeText (b'.scopeAt depth) b'.registry =
        placeText (b.scopeAt depth) b.registry := by
      funext place
      rw [hsame, hregistry]
      cases place with
      | path chain index => rfl
      | whole => rw [placeText, placeText, hwhole]
    rw [scopeAt, scopeAt, hnames, hchains, hplace]

end Overwriting

/-! ## Filters and their negations -/

section Filters

variable {s : Scope} {left right : Operand} {operator : Operator} {negated : Bool}

/-- Whether a filter can be written does not depend on the manner nor on its sign. -/
theorem write_filter_cases (s : Scope) (left right : Operand) (operator : Operator) :
    (∃ fault, ∀ negated m,
      (Content.filter left right operator negated).write s m = .error fault) ∨
    ∀ negated m, ∃ v, (Content.filter left right operator negated).write s m = .ok v := by
  simp only [write_filter_eq]
  cases writtenSides s left operator right with
  | error fault => exact .inl ⟨fault, fun _ _ => rfl⟩
  | ok sides => exact .inr fun _ _ => ⟨_, rfl⟩

/-- The first depth at which a filter can be written, or else the given one. -/
theorem exists_first_writable (b : Block) (left right : Operand) (operator : Operator) (n : Nat) :
    ∃ depth ≤ n,
      (∀ d < depth, ∃ fault, ∀ negated m,
        (Content.filter left right operator negated).write (b.scopeAt d) m = .error fault) ∧
      (depth = n ∨ ∀ negated m, ∃ v,
        (Content.filter left right operator negated).write (b.scopeAt depth) m = .ok v) := by
  induction n with
  | zero => exact ⟨0, le_rfl, fun d hd => absurd hd (Nat.not_lt_zero d), .inl rfl⟩
  | succ n ih =>
    obtain ⟨depth, hle, hfail, hlast⟩ := ih
    rcases hlast with rfl | hok
    · rcases write_filter_cases (b.scopeAt depth) left right operator with hnow | hok
      · refine ⟨depth + 1, le_rfl, fun d hd => ?_, .inl rfl⟩
        rcases Nat.lt_succ_iff_lt_or_eq.1 hd with hd | rfl
        · exact hfail d hd
        · exact hnow
      · exact ⟨depth, Nat.le_succ depth, hfail, .inr hok⟩
    · exact ⟨depth, Nat.le_succ_of_le hle, hfail, .inr hok⟩

theorem scopeAt_below_of_le (b : Block) {m n : Nat} (h : m ≤ n) :
    (b.scopeAt m).Below (b.scopeAt n) :=
  scopeAt_below fun _ _ htext => scopeAt_text_mono h htext

/-- A filter is written the same before and after another one with its sides takes its place. -/
theorem write_filter_overwrite {b b' : Block} {serial : Nat} {new : Fragment Content}
    {negated' : Bool} (hnames : b'.names = b.names) (hchains : b'.chains = b.chains)
    (hregistry : b'.registry = b.registry.overwrite serial new)
    (hold : ∀ f ∈ b.registry, f.serial = serial →
      f.content = .filter left right operator negated)
    (hnew : new.content = .filter left right operator negated') (m : Manner) :
    (Content.filter left right operator negated).write b'.scope m =
      (Content.filter left right operator negated).write b.scope m := by
  have hdepth : b'.scope = b'.scopeAt (b.chains.length + 2) := by rw [scope, hchains]
  -- the look-ups are the same up to the first depth at which the filter can be written
  obtain ⟨depth, hle, hfail, hlast⟩ := exists_first_writable b left right operator
    (b.chains.length + 2)
  have hsame : b'.scopeAt depth = b.scopeAt depth := by
    refine scopeAt_overwrite hnames hchains hregistry fun d hd f hf hs => ?_
    obtain ⟨fault, hfault⟩ := hfail d hd
    refine ⟨fault, ?_, ?_⟩
    · rw [hold f hf hs]
      exact hfault negated .plain
    · rw [hnew]
      exact hfault negated' .plain
  rcases hlast with rfl | hok
  · rw [hdepth, hsame, scope]
  · obtain ⟨v, hv⟩ := hok negated m
    have hv' := hv
    rw [← hsame] at hv'
    rw [hdepth, scope, Content.write_extends (b'.scopeAt_below_of_le hle) m _ v hv',
      Content.write_extends (b.scopeAt_below_of_le hle) m _ v hv]

end Filters

/-! ## Negation -/

section Negation

variable {b : Block} {negation : Negation} {serial : Nat} {left right : Operand}
  {operator : Operator} {negated : Bool}

@[simp] theorem names_negate :
    (b.negate negation (.fragment serial (.filter left right operator negated))).2.names =
      b.names := by
  simp [negate, give, absorb, register]

@[simp] theorem chains_negate :
    (b.negate negation (.fragment serial (.filter left right operator negated))).2.chains =
      b.chains := by
  simp [negate, give, absorb, register]

@[simp] theorem unbound_negate :
    (b.negate negation (.fragment serial (.filter left right operator negated))).2.unbound =
      b.unbound := by
  simp [negate, give, absorb, register]

theorem Accounts.isRegistered_iff_getElem? {ledger : List Content} {o : Operand}
    (h : Accounts ledger b) (ho : o.Recorded ledger) :
    b.isRegistered o ↔ ∃ i : Nat, (b.registry[i]?).map ofFragment = some o := by
  constructor
  · intro hreg
    obtain ⟨f, hf, rfl⟩ := ho.eq_ofFragment h hreg
    obtain ⟨i, hi⟩ := List.getElem?_of_mem hf
    exact ⟨i, by rw [hi, Option.map_some]⟩
  · rintro ⟨i, hi⟩
    obtain ⟨f, hf, rfl⟩ := Option.map_eq_some_iff.1 hi
    have hserial := Registry.mem_serials.2 ⟨f, List.mem_of_getElem? hf, rfl⟩
    exact isRegistered_iff.2 ⟨f.serial, rfl, hserial⟩

end Negation

/-- Whatever filter a script has made, its negation is made as a new fragment. If the filter is
registered, which is to say at a position, the negation stands at its position and the registry is
the same otherwise; if it is not, the registry is what it was and the negation is not in it. The
names, the chains and the variables stay, and so does what is written for the filter in any
manner. -/
theorem negate_replaces {script : List Step} {serial : Nat} {left right : Operand}
    {operator : Operator} {negated : Bool} {e : Operand}
    (he : e = .fragment serial (.filter left right operator negated))
    (h : e ∈ (run script).results) (negation : Negation) :
    ∃ (new : Fragment Content) (b' : Block),
      (run script).block.negate negation e = (.ok (ofFragment new), b') ∧
      new.content = .filter left right operator true ∧
      new.serial ∉ (run script).block.registry.serials ∧
      ((run script).block.isRegistered e ↔
        ∃ i : Nat, ((run script).block.registry[i]?).map ofFragment = some e) ∧
      (∀ i : Nat, ((run script).block.registry[i]?).map ofFragment = some e →
        b'.registry = (run script).block.registry.set i new) ∧
      (¬ (run script).block.isRegistered e →
        b'.registry = (run script).block.registry ∧ ¬ b'.isRegistered (ofFragment new)) ∧
      b'.names = (run script).block.names ∧ b'.chains = (run script).block.chains ∧
      b'.unbound = (run script).block.unbound ∧
      ∀ m : Manner, e.write b'.scope m = e.write (run script).block.scope m := by
  subst he
  obtain ⟨ledger, past⟩ := exists_ledger script
  have sound := past.sound
  have hrec := sound.results _ h _ _ rfl
  have hfilter : filterOf left right operator true = .filter left right operator true := by
    rw [filterOf, effective_of_mem_results h]
  have hregistry := negate_registry sound.accounts sound.absorbed negation hrec
  rw [hfilter] at hregistry
  set b := (run script).block with hb
  set new := (Content.filter left right operator true).fragment b.serials with hnew
  refine ⟨new, (b.negate negation (.fragment serial (.filter left right operator negated))).2,
    Prod.ext ?_ rfl, rfl, sound.accounts.fresh,
    sound.accounts.isRegistered_iff_getElem? (sound.results _ h), fun i hi => ?_,
    fun hout => ?_, names_negate, chains_negate, unbound_negate, fun m => ?_⟩
  · rw [hnew, ← hfilter]
    rfl
  · obtain ⟨f, hf, hfe⟩ := Option.map_eq_some_iff.1 hi
    have hserial : f.serial = serial := (Operand.fragment.inj hfe).1
    rw [hregistry, ← hserial, Registry.overwrite_eq_set sound.accounts.nodup hf]
  · have hserial : serial ∉ b.registry.serials := fun hs => hout (isRegistered_iff.2 ⟨_, rfl, hs⟩)
    rw [Registry.overwrite_eq_self hserial] at hregistry
    refine ⟨hregistry, fun hin => ?_⟩
    obtain ⟨_, ⟨⟩, hs⟩ := isRegistered_iff.1 hin
    rw [hregistry] at hs
    exact sound.accounts.fresh hs
  · rw [Operand.write, Operand.write]
    refine write_filter_overwrite names_negate chains_negate hregistry (fun f hf hs => ?_) rfl m
    have hcontent := sound.accounts.content f hf
    rw [hs, hrec] at hcontent
    exact (Option.some.inj hcontent).symm

/-- Two bounds for one property. -/
def twoBounds : List Step :=
  [⟨.node, none, [.value (.int 1)]⟩,
   ⟨.property, some 0, [.value (.text "a")]⟩,
   ⟨.compare .less, some 1, [.value (.int 9)]⟩,
   ⟨.compare .greater, some 1, [.value (.int 1)]⟩]

def joinedBounds : List Step := twoBounds ++ [⟨.combine .conjunction, some 2, [.result 3]⟩]

def upperBound (negated : Bool) : Content :=
  .filter (.property 0 (.value (.text "a"))) (.value (.int 9)) .less negated

/-- The upper bound gives way to its negation, and keeps out of a registry it is not in. -/
theorem upperBound_replaced :
    (∃ (new : Fragment Content) (b' : Block),
      (run twoBounds).block.negate .named (.fragment 1 (upperBound false)) =
        (.ok (ofFragment new), b') ∧
      new.content = upperBound true ∧ b'.registry = (run twoBounds).block.registry.set 1 new) ∧
    ∃ (new : Fragment Content) (b' : Block),
      (run joinedBounds).block.negate .named (.fragment 1 (upperBound false)) =
        (.ok (ofFragment new), b') ∧
      b'.registry = (run joinedBounds).block.registry ∧ ¬ b'.isRegistered (ofFragment new) := by
  constructor
  · have hmade : .fragment 1 (upperBound false) ∈ (run twoBounds).results :=
      List.mem_of_getElem? (i := 2) rfl
    obtain ⟨new, b', hb', hnew, -, -, hset, -⟩ := negate_replaces
      (e := .fragment 1 (upperBound false)) rfl hmade .named
    exact ⟨new, b', hb', hnew, hset 1 rfl⟩
  · have hmade : .fragment 1 (upperBound false) ∈ (run joinedBounds).results :=
      List.mem_of_getElem? (i := 2) rfl
    obtain ⟨new, b', hb', -, -, -, -, hout, -⟩ := negate_replaces
      (e := .fragment 1 (upperBound false)) rfl hmade .named
    exact ⟨new, b', hb', hout (by decide)⟩

end GraphQuery.Block
