import GraphQuery.Proofs.Block.Run

/-!
# Trees of filters

A filter whose operands are filters is the root of a tree. The parts of a filter are the filters
below it, at any depth. Every part of a recorded filter is an operand of a recorded one, so no
part is registered.
-/
namespace GraphQuery.Block

def Content.isFilter : Content → Bool
  | .filter _ _ _ _ => true
  | _ => false

mutual

/-- The serial numbers of the filters in the tree of an operand, which has none unless it is a
filter itself. -/
def Operand.nodes : Operand → List Nat
  | .fragment serial content => if content.isFilter then serial :: content.parts else []
  | _ => []
termination_by structural operand => operand

/-- The serial numbers of the filters below a filter. -/
def Content.parts : Content → List Nat
  | .filter left right _ _ => left.nodes ++ right.nodes
  | _ => []
termination_by structural content => content

end

@[simp] theorem nodes_filter (serial : Nat) (left right : Operand) (operator : Operator)
    (negated : Bool) : (Operand.fragment serial (.filter left right operator negated)).nodes =
      serial :: (left.nodes ++ right.nodes) := by
  simp [Operand.nodes, Content.parts, Content.isFilter]

@[simp] theorem parts_filter (left right : Operand) (operator : Operator) (negated : Bool) :
    (Content.filter left right operator negated).parts = left.nodes ++ right.nodes := by
  rw [Content.parts]

theorem parts_eq_nil {c : Content} (h : c.isFilter = false) : c.parts = [] := by
  cases c with
  | filter => cases h
  | _ => simp [Content.parts]

theorem mem_nodes_fragment {serial m : Nat} {content : Content} :
    m ∈ (Operand.fragment serial content).nodes ↔
      content.isFilter ∧ (m = serial ∨ m ∈ content.parts) := by
  rw [Operand.nodes]
  split <;> simp_all

theorem mem_nodes {o : Operand} {m : Nat} (h : m ∈ o.nodes) : o.serial? = some m ∨
    ∃ serial content, o = .fragment serial content ∧ m ∈ content.parts := by
  cases o with
  | fragment serial content =>
    rcases (mem_nodes_fragment.1 h).2 with rfl | hm
    · exact .inl rfl
    · exact .inr ⟨serial, content, rfl, hm⟩
  | _ => simp [Operand.nodes] at h

/-! ## Parts of recorded filters -/

section Records

variable {ledger : List Content} {b : Block}

/-- A filter on the ledger has the fragment as an operand. -/
def HasOperand (ledger : List Content) (m : Nat) : Prop :=
  ∃ (left right : Operand) (operator : Operator) (negated : Bool),
    Content.filter left right operator negated ∈ ledger ∧
      (left.serial? = some m ∨ right.serial? = some m)

/-- Every part of a recorded filter is an operand of a recorded filter. -/
theorem hasOperand_of_mem_parts (h : ∀ c ∈ ledger, c.OperandsRecorded ledger) {m : Nat}
    (c : Content) (hc : c ∈ ledger) (hm : m ∈ c.parts) : HasOperand ledger m := by
  match c with
  | .filter left right operator negated =>
    obtain ⟨hl, hr⟩ := h _ hc
    rw [parts_filter, List.mem_append] at hm
    rcases hm with hm | hm
    · rcases mem_nodes hm with hs | ⟨serial, content, rfl, hparts⟩
      · exact ⟨left, right, operator, negated, hc, .inl hs⟩
      · exact hasOperand_of_mem_parts h content (List.mem_of_getElem? (hl _ _ rfl)) hparts
    · rcases mem_nodes hm with hs | ⟨serial, content, rfl, hparts⟩
      · exact ⟨left, right, operator, negated, hc, .inr hs⟩
      · exact hasOperand_of_mem_parts h content (List.mem_of_getElem? (hr _ _ rfl)) hparts
  | .start _ _ | .segment _ _ | .condition _ | .item _ | .custom _ _ _ =>
    simp [Content.parts] at hm
termination_by sizeOf c

theorem not_mem_nodes {o : Operand} {m : Nat} (ho : o.Recorded ledger) (hs : o.serial? ≠ some m)
    (hparts : ∀ c ∈ ledger, m ∉ c.parts) : m ∉ o.nodes := by
  intro hm
  rcases mem_nodes hm with h | ⟨serial, content, rfl, h⟩
  · exact hs h
  · exact hparts content (List.mem_of_getElem? (ho _ _ rfl)) h

theorem Accounts.lt_of_mem_parts (h : Accounts ledger b) {c : Content} (hc : c ∈ ledger) {m : Nat}
    (hm : m ∈ c.parts) : m < ledger.length := by
  obtain ⟨left, right, operator, negated, hmem, hs⟩ := hasOperand_of_mem_parts h.operands c hc hm
  obtain ⟨hl, hr⟩ := h.operands _ hmem
  rcases hs with hs | hs
  · exact hl.lt hs
  · exact hr.lt hs

theorem Absorbed.not_mem_parts (ha : Absorbed ledger b) (h : Accounts ledger b) {c : Content}
    (hc : c ∈ ledger) {m : Nat} (hm : m ∈ b.registry.serials) : m ∉ c.parts := by
  intro hparts
  obtain ⟨left, right, operator, negated, hmem, hs⟩ :=
    hasOperand_of_mem_parts h.operands c hc hparts
  obtain ⟨hl, hr⟩ := ha _ hmem
  rcases hs with hs | hs
  · exact hl (isRegistered_iff.2 ⟨m, hs, hm⟩)
  · exact hr (isRegistered_iff.2 ⟨m, hs, hm⟩)

end Records
end GraphQuery.Block
