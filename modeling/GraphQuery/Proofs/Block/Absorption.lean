import GraphQuery.Proofs.Block.Ledger

/-!
# Absorption

A filter takes its operands out of the registry, and they never come back: negation puts the new
filter in the place of the old one, whose operands are out already. With this every call keeps the
ledger and the registry in step.
-/
namespace GraphQuery.Block

/-- No operand of a recorded filter is registered. -/
def Absorbed (ledger : List Content) (b : Block) : Prop :=
  ∀ c ∈ ledger, c.OperandsAbsorbed b

/-- Operands stay out of the registry as long as only new serial numbers come in. -/
theorem Absorbed.mono {ledger : List Content} {b b' : Block} (ha : Absorbed ledger b)
    (h : Accounts ledger b) (hsub : ∀ serial ∈ b'.registry.serials,
      serial ∈ b.registry.serials ∨ ledger.length ≤ serial) : Absorbed ledger b' := by
  have keeps {o : Operand} (ho : o.Recorded ledger) (hb : ¬ b.isRegistered o) :
      ¬ b'.isRegistered o := by
    intro hreg
    obtain ⟨serial, hs, hmem⟩ := isRegistered_iff.1 hreg
    rcases hsub serial hmem with hmem | hge
    · exact hb (isRegistered_iff.2 ⟨serial, hs, hmem⟩)
    · exact absurd (ho.lt hs) (by omega)
  intro c hc
  have habs := ha c hc
  have hrec := h.operands c hc
  cases c with
  | filter => exact ⟨keeps hrec.1 habs.1, keeps hrec.2 habs.2⟩
  | _ => trivial

theorem Absorbed.append {ledger contents : List Content} {b : Block} (ha : Absorbed ledger b)
    (hc : ∀ c ∈ contents, c.OperandsAbsorbed b) : Absorbed (ledger ++ contents) b := by
  intro c hmem
  rcases List.mem_append.1 hmem with hmem | hmem
  · exact ha c hmem
  · exact hc c hmem

section Filters

variable {ledger : List Content} {b : Block} {left right : Operand} {operator : Operator}
  {negated : Bool}

theorem Accounts.absorb (h : Accounts ledger b) {filter : Content}
    (hf : filter.OperandsRecorded ledger) (left right : Operand) :
    Accounts (ledger ++ [filter]) (b.absorb filter left right) :=
  ((h.register hf).unregister left).unregister right

/-- A filter enters and its operands leave. -/
theorem mem_absorb (h : Accounts ledger b) (filter : Content)
    (hl : left.Recorded ledger) (hr : right.Recorded ledger) {f : Fragment Content} :
    f ∈ (b.absorb filter left right).registry ↔ f = filter.fragment b.serials ∨
      f ∈ b.registry ∧ left.serial? ≠ some f.serial ∧ right.serial? ≠ some f.serial := by
  have hn : (b.register filter).registry.serials.Nodup :=
    Registry.nodup_serials_insert.2 ⟨h.fresh, h.nodup⟩
  have hnew {o : Operand} (ho : o.Recorded ledger) :
      o.serial? ≠ some (filter.fragment b.serials).serial := by
    intro hs
    have := ho.lt hs
    simp [Content.fragment, h.size] at this
  have hn' : ((b.register filter).unregister left).registry.serials.Nodup :=
    hn.sublist ((unregister_sublist _ _).map _)
  rw [Block.absorb, mem_unregister hn', mem_unregister hn, mem_register]
  constructor
  · rintro ⟨⟨rfl | hf, hfl⟩, hfr⟩
    · exact .inl rfl
    · exact .inr ⟨hf, hfl, hfr⟩
  · rintro (rfl | ⟨hf, hfl, hfr⟩)
    · exact ⟨⟨.inl rfl, hnew hl⟩, hnew hr⟩
    · exact ⟨⟨.inr hf, hfl⟩, hfr⟩

/-- Both operands of a filter are out once it is in. -/
theorem not_isRegistered_absorb (h : Accounts ledger b) (filter : Content)
    (hl : left.Recorded ledger) (hr : right.Recorded ledger) :
    ¬ (b.absorb filter left right).isRegistered left ∧
      ¬ (b.absorb filter left right).isRegistered right := by
  have gone {o : Operand} (ho : o.Recorded ledger)
      (hout : ∀ f ∈ b.registry, left.serial? ≠ some f.serial → right.serial? ≠ some f.serial →
        o.serial? ≠ some f.serial) : ¬ (b.absorb filter left right).isRegistered o := by
    intro hreg
    obtain ⟨serial, hs, hmem⟩ := isRegistered_iff.1 hreg
    obtain ⟨f, hf, rfl⟩ := Registry.mem_serials.1 hmem
    rcases (mem_absorb h filter hl hr).1 hf with rfl | ⟨hf, hfl, hfr⟩
    · have := ho.lt hs
      simp [Content.fragment, h.size] at this
    · exact hout f hf hfl hfr hs
  exact ⟨gone hl fun f _ hfl _ => hfl, gone hr fun f _ _ hfr => hfr⟩

/-- The negation of a recorded filter takes the place of the filter. One that has no place leaves
the registry as it is. -/
theorem negate_registry (h : Accounts ledger b) (ha : Absorbed ledger b) (negation : Negation)
    {serial : Nat} (hrec : ledger[serial]? = some (.filter left right operator negated)) :
    (b.negate negation (.fragment serial (.filter left right operator negated))).2.registry =
      b.registry.overwrite serial ((filterOf left right operator true).fragment b.serials) := by
  set new := (filterOf left right operator true).fragment b.serials with hnew
  have hmem : Content.filter left right operator negated ∈ ledger := List.mem_of_getElem? hrec
  obtain ⟨hl, hr⟩ := h.operands _ hmem
  -- the operands were absorbed when the filter was made, so there is nothing to drop
  have hstay : b.absorb (filterOf left right operator true) left right =
      b.register (filterOf left right operator true) := by
    have hout : Absorbed ledger (b.register (filterOf left right operator true)) := by
      refine ha.mono h fun s hs => ?_
      rcases Registry.mem_serials_insert.1 hs with rfl | hs
      · exact .inr (by simp [Content.fragment, h.size])
      · exact .inl hs
    obtain ⟨hleft, hright⟩ := hout _ hmem
    rw [Block.absorb, unregister_eq_self hleft, unregister_eq_self hright]
  have hlt : serial < ledger.length := (List.getElem?_eq_some_iff.1 hrec).1
  have hne : serial ≠ new.serial := by
    have := h.size
    simp only [hnew, Content.fragment]
    omega
  have hregistry : (b.negate negation
      (.fragment serial (.filter left right operator negated))).2.registry =
        settle serial new (b.registry.insert new) := by
    simp only [negate, give, hstay]
    rfl
  have hremove : (b.registry.insert new).remove new.serial = b.registry :=
    Registry.remove_insert h.fresh
  rw [hregistry, settle]
  by_cases hs : serial ∈ b.registry.serials
  · rw [if_pos (Registry.has_iff.2 (Registry.mem_serials_insert.2 (.inr hs))), Registry.replace]
    simp only [hremove]
    rw [if_pos (Registry.has_iff.2 hs)]
  · rw [if_neg (by simp [Registry.has_iff, hne, hs]), hremove, Registry.overwrite_eq_self hs]

@[simp] theorem serials_negate (negation : Negation) (serial : Nat) :
    (b.negate negation (.fragment serial (.filter left right operator negated))).2.serials =
      b.serials + 1 := by
  simp [negate, give, Block.absorb, register]

theorem Accounts.negate (h : Accounts ledger b) (ha : Absorbed ledger b) (negation : Negation)
    {serial : Nat} (hrec : ledger[serial]? = some (.filter left right operator negated)) :
    Accounts (ledger ++ [filterOf left right operator true])
      (b.negate negation (.fragment serial (.filter left right operator negated))).2 := by
  have hregistry := negate_registry h ha negation hrec
  have hold := h.operands _ (List.mem_of_getElem? hrec)
  constructor
  · simp [h.size]
  · intro f hf
    rw [hregistry] at hf
    rcases (Registry.mem_overwrite h.nodup).1 hf with ⟨rfl, -⟩ | ⟨hf, -⟩
    · simp [Content.fragment, h.size]
    · exact (h.recorded hf).append _ _ _ rfl
  · intro f hf
    rw [hregistry] at hf
    rcases (Registry.mem_overwrite h.nodup).1 hf with ⟨rfl, -⟩ | ⟨hf, -⟩
    · rfl
    · exact h.kind f hf
  · rw [hregistry]
    exact Registry.nodup_serials_overwrite h.nodup h.fresh
  · intro c hc
    rcases List.mem_append.1 hc with hc | hc
    · exact (h.operands c hc).append _
    · rw [List.mem_singleton.1 hc]
      exact ⟨hold.1.append _, hold.2.append _⟩

end Filters

/-! ## Every call -/

section Calls

variable {ledger contents : List Content} {b : Block} {verb : Verb} {operands : List Operand}
  {outcome : Outcome}

@[simp] theorem serials_registerAll (contents : List Content) (b : Block) :
    (b.registerAll contents).serials = b.serials + contents.length := by
  induction contents generalizing b with
  | nil => rfl
  | cons c contents ih =>
    have := ih (b.register c)
    rw [serials_register] at this
    simp only [registerAll, List.foldl_cons, List.length_cons] at this ⊢
    omega

theorem mem_registerAll {contents : List Content} {b : Block} {f : Fragment Content} :
    f ∈ (b.registerAll contents).registry ↔ f ∈ b.registry ∨
      ∃ (i : Nat) (c : Content), contents[i]? = some c ∧ f = c.fragment (b.serials + i) := by
  induction contents generalizing b with
  | nil => simp [registerAll]
  | cons c contents ih =>
    have hstep : b.registerAll (c :: contents) = (b.register c).registerAll contents := rfl
    rw [hstep, ih, mem_register, serials_register]
    constructor
    · rintro ((rfl | hf) | ⟨i, d, hd, rfl⟩)
      · exact .inr ⟨0, c, rfl, rfl⟩
      · exact .inl hf
      · exact .inr ⟨i + 1, d, by simpa using hd, by rw [Nat.add_right_comm, Nat.add_assoc]⟩
    · rintro (hf | ⟨i, d, hd, rfl⟩)
      · exact .inl (.inr hf)
      · cases i with
        | zero =>
          cases hd
          exact .inl (.inl rfl)
        | succ i => exact .inr ⟨i, d, by simpa using hd, by rw [Nat.add_right_comm, Nat.add_assoc]⟩

theorem Absorbed.registerAll (ha : Absorbed ledger b) (h : Accounts ledger b)
    (hc : ∀ c ∈ contents, c.isPlain) :
    Absorbed (ledger ++ contents) (b.registerAll contents) := by
  refine Absorbed.append (ha.mono h fun serial hs => ?_) fun c hmem => ?_
  · obtain ⟨f, hf, rfl⟩ := Registry.mem_serials.1 hs
    rcases mem_registerAll.1 hf with hf | ⟨i, c, -, rfl⟩
    · exact .inl (Registry.mem_serials.2 ⟨f, hf, rfl⟩)
    · exact .inr (by simp [Content.fragment, h.size])
  · have := hc c hmem
    cases c with
    | filter => cases this
    | _ => trivial

/-- What a call registers it registers under new serial numbers. -/
theorem Effect.serials (e : Effect b verb operands contents outcome) (h : Accounts ledger b)
    (ha : Absorbed ledger b) (ho : ∀ o ∈ operands, o.Recorded ledger) :
    ∀ serial ∈ outcome.2.registry.serials,
      serial ∈ b.registry.serials ∨ ledger.length ≤ serial := by
  have hinsert (c : Content) {r : Registry Content} {serial : Nat}
      (hs : serial ∈ (r.insert (c.fragment b.serials)).serials) :
      serial ∈ r.serials ∨ ledger.length ≤ serial := by
    rcases Registry.mem_serials_insert.1 hs with rfl | hs
    · exact .inr (Nat.le_of_eq h.size.symm)
    · exact .inl hs
  intro serial hs
  cases e with
  | enter names unbound contents result plain known quiet =>
    obtain ⟨f, hf, rfl⟩ := Registry.mem_serials.1 hs
    rcases mem_registerAll.1 hf with hf | ⟨i, c, -, rfl⟩
    · exact .inl (Registry.mem_serials.2 ⟨f, hf, rfl⟩)
    · exact .inr (by simp [Content.fragment, h.size])
  | tag => exact .inl hs
  | start => exact hinsert _ hs
  | extend l serial chain index c style right asked receiver found inside =>
    refine (hinsert _ hs).imp_left fun hs => ?_
    exact ((unregister_sublist _ b).map _).subset hs
  | compose left right operator asked givenLeft givenRight =>
    obtain ⟨f, hf, rfl⟩ := Registry.mem_serials.1 hs
    rcases (mem_absorb h _ (ho _ givenLeft) (ho _ givenRight)).1 hf with rfl | ⟨hf, -⟩
    · exact .inr (Nat.le_of_eq h.size.symm)
    · exact .inl (Registry.mem_serials.2 ⟨f, hf, rfl⟩)
  | negate negation serial left right operator negated asked receiver =>
    rw [negate_registry h ha negation (ho _ (List.mem_of_head? receiver) _ _ rfl)] at hs
    obtain ⟨f, hf, rfl⟩ := Registry.mem_serials.1 hs
    rcases (Registry.mem_overwrite h.nodup).1 hf with ⟨rfl, -⟩ | ⟨hf, -⟩
    · exact .inr (Nat.le_of_eq h.size.symm)
    · exact .inl (Registry.mem_serials.2 ⟨f, hf, rfl⟩)

/-- Every call keeps ledger and registry in step. -/
theorem Effect.accounts (e : Effect b verb operands contents outcome) (h : Accounts ledger b)
    (ha : Absorbed ledger b) (ho : ∀ o ∈ operands, o.Recorded ledger) :
    Accounts (ledger ++ contents) outcome.2 := by
  cases e with
  | enter names unbound contents result plain known quiet =>
    have h' : Accounts ledger { b with names := names, unbound := unbound } := h.congr rfl rfl
    exact h'.registerAll plain
  | tag =>
    rw [List.append_nil]
    exact h.congr rfl rfl
  | start => exact (h.register (c := .segment b.chains.length 0) trivial).congr rfl rfl
  | extend l serial chain index c =>
    have h' := h.unregister (.fragment serial (.segment chain index))
    exact (h'.register (c := .segment chain c.segments.length) trivial).congr rfl rfl
  | compose left right operator asked givenLeft givenRight =>
    have hrec : (filterOf left right operator false).OperandsRecorded ledger :=
      ⟨ho left givenLeft, ho right givenRight⟩
    exact h.absorb hrec left right
  | negate negation serial left right operator negated asked receiver =>
    exact h.negate ha negation (ho _ (List.mem_of_head? receiver) _ _ rfl)

/-- Every call keeps the operands of filters out of the registry. -/
theorem Effect.absorbed (e : Effect b verb operands contents outcome) (h : Accounts ledger b)
    (ha : Absorbed ledger b) (ho : ∀ o ∈ operands, o.Recorded ledger) :
    Absorbed (ledger ++ contents) outcome.2 := by
  have hkeep := ha.mono h (e.serials h ha ho)
  refine hkeep.append fun c hc => ?_
  cases e with
  | enter names unbound contents result plain known quiet =>
    have hplain := plain c hc
    cases c with
    | filter => cases hplain
    | _ => trivial
  | tag => cases hc
  | start =>
    rw [List.mem_singleton.1 hc]
    trivial
  | extend =>
    rw [List.mem_singleton.1 hc]
    trivial
  | compose left right operator asked givenLeft givenRight =>
    rw [List.mem_singleton.1 hc]
    exact not_isRegistered_absorb h _ (ho _ givenLeft) (ho _ givenRight)
  | negate negation serial left right operator negated asked receiver =>
    rw [List.mem_singleton.1 hc]
    -- the operands are those of the filter that is negated
    have hrec := ho _ (List.mem_of_head? receiver) _ _ rfl
    have hold := hkeep _ (List.mem_of_getElem? hrec)
    exact ⟨hold.1, hold.2⟩

/-- What a call gives back is recorded. -/
theorem Effect.recorded (e : Effect b verb operands contents outcome) (h : Accounts ledger b)
    (ha : Absorbed ledger b) (ho : ∀ o ∈ operands, o.Recorded ledger) {o : Operand}
    (hok : outcome.1 = .ok o) : o.Recorded (ledger ++ contents) := by
  have hafter := e.accounts h ha ho
  have hlast (content : Content) :
      (b.upcoming content).Recorded (ledger ++ [content]) := by
    rintro serial c ⟨⟩
    simp [h.size]
  cases e with
  | enter names unbound contents result plain known quiet =>
    rcases known o hok with hs | hmem | ⟨f, hf, rfl⟩
    · exact Operand.recorded_of_serial hs
    · exact (ho o hmem).append _
    · exact hafter.recorded hf
  | tag chain path asked given =>
    cases hok
    exact (ho _ given).append _
  | start => cases hok; exact hlast _
  | extend => cases hok; exact hlast _
  | compose => cases hok; exact hlast _
  | negate => cases hok; exact hlast _

end Calls

end GraphQuery.Block
