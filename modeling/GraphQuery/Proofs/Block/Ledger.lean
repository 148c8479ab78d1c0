import GraphQuery.Proofs.Block.Effect
import GraphQuery.Proofs.Registry.Serial
import Mathlib.Data.List.Induction

/-!
# The ledger of a script

The ledger lists the contents of all fragments that a script has registered, by serial number.
Nothing is ever struck from it, so it tells what an operand was when it was made. The registry
holds recorded fragments only, and none of them twice.
-/
namespace GraphQuery.Block

/-- The contents that a script registers, in the order of their serial numbers. -/
inductive Ledger : List Step → List Content → Prop where
  | start : Ledger [] []
  | step {script : List Step} {ledger contents : List Content} {s : Step}
      (past : Ledger script ledger)
      (effect : Effect (run script).block s.verb ((run script).operands s) contents
        ((run script).outcome s)) :
      Ledger (script ++ [s]) (ledger ++ contents)

@[simp] theorem run_nil : run [] = Run.start := rfl

@[simp] theorem run_snoc (script : List Step) (s : Step) :
    run (script ++ [s]) = (run script).step s := by
  simp [run]

theorem block_run_snoc (script : List Step) (s : Step) :
    (run (script ++ [s])).block = ((run script).outcome s).2 := by
  rw [run_snoc]
  rfl

theorem exists_ledger (script : List Step) : ∃ ledger, Ledger script ledger := by
  induction script using List.reverseRecOn with
  | nil => exact ⟨[], .start⟩
  | append_singleton script s ih =>
    obtain ⟨ledger, past⟩ := ih
    obtain ⟨contents, effect⟩ := (run script).outcome_effect s
    exact ⟨ledger ++ contents, past.step effect⟩

/-! ## Records -/

/-- A fragment is recorded when the ledger has its content under its serial number. -/
def Operand.Recorded (ledger : List Content) (o : Operand) : Prop :=
  ∀ serial content, o = .fragment serial content → ledger[serial]? = some content

/-- What stands in a longer ledger stood in it before or is one of the contents behind. -/
theorem getElem?_ledger_append {ledger contents : List Content} {serial : Nat} {c : Content}
    (h : (ledger ++ contents)[serial]? = some c) :
    ledger[serial]? = some c ∨ ledger.length ≤ serial ∧ contents[serial - ledger.length]? = some c := by
  rw [List.getElem?_append] at h
  split at h
  · exact .inl h
  · next hge => exact .inr ⟨by omega, h⟩

theorem getElem?_ledger_concat {ledger : List Content} {serial : Nat} {c d : Content}
    (h : (ledger ++ [d])[serial]? = some c) :
    ledger[serial]? = some c ∨ serial = ledger.length ∧ c = d := by
  rcases getElem?_ledger_append h with h | ⟨hge, h⟩
  · exact .inl h
  · rw [List.getElem?_singleton] at h
    split at h
    · next heq =>
      cases h
      exact .inr ⟨by omega, rfl⟩
    · cases h

def Content.OperandsRecorded (ledger : List Content) : Content → Prop
  | .filter left right _ _ => left.Recorded ledger ∧ right.Recorded ledger
  | _ => True

theorem Operand.recorded_of_serial {ledger : List Content} {o : Operand}
    (h : o.serial? = none) : o.Recorded ledger := by
  rintro serial content rfl
  cases h

theorem Operand.Recorded.append {ledger : List Content} {o : Operand} (h : o.Recorded ledger)
    (more : List Content) : o.Recorded (ledger ++ more) := by
  intro serial content ho
  have hs := h serial content ho
  obtain ⟨hlt, -⟩ := List.getElem?_eq_some_iff.1 hs
  rw [List.getElem?_append_left hlt, hs]

theorem Operand.Recorded.lt {ledger : List Content} {o : Operand} (h : o.Recorded ledger)
    {serial : Nat} (ho : o.serial? = some serial) : serial < ledger.length := by
  cases o with
  | fragment s content =>
    cases ho
    exact (List.getElem?_eq_some_iff.1 (h _ _ rfl)).1
  | _ => cases ho

/-- A recorded fragment is known by its serial number. -/
theorem Operand.Recorded.eq_fragment {ledger : List Content} {o : Operand} (h : o.Recorded ledger)
    {serial : Nat} {content : Content} (ho : o.serial? = some serial)
    (hc : ledger[serial]? = some content) : o = .fragment serial content := by
  cases o with
  | fragment s c =>
    cases ho
    have := h serial c rfl
    rw [hc] at this
    rw [Option.some.inj this]
  | _ => cases ho

theorem Content.OperandsRecorded.append {ledger : List Content} {c : Content}
    (h : c.OperandsRecorded ledger) (more : List Content) :
    c.OperandsRecorded (ledger ++ more) := by
  cases c with
  | filter => exact ⟨h.1.append more, h.2.append more⟩
  | _ => trivial

theorem Content.operandsRecorded_of_isPlain {ledger : List Content} {c : Content}
    (h : c.isPlain) : c.OperandsRecorded ledger := by
  cases c with
  | filter => cases h
  | _ => trivial

/-! ## Registered operands -/

@[simp] theorem serials_register (c : Content) (b : Block) :
    (b.register c).serials = b.serials + 1 := rfl

theorem mem_register {c : Content} {b : Block} {f : Fragment Content} :
    f ∈ (b.register c).registry ↔ f = c.fragment b.serials ∨ f ∈ b.registry :=
  Registry.mem_insert

theorem isRegistered_iff {o : Operand} {b : Block} :
    b.isRegistered o = true ↔ ∃ serial, o.serial? = some serial ∧ serial ∈ b.registry.serials := by
  rw [isRegistered]
  split
  · next serial h => simp [h, Registry.has_iff]
  · next h => simp [h]

def Content.OperandsAbsorbed (b : Block) : Content → Prop
  | .filter left right _ _ => ¬ b.isRegistered left ∧ ¬ b.isRegistered right
  | _ => True

/-! ## The invariant -/

/-- What the ledger and the block of a script have to do with each other. -/
structure Accounts (ledger : List Content) (b : Block) : Prop where
  size : b.serials = ledger.length
  content : ∀ f ∈ b.registry, ledger[f.serial]? = some f.content
  kind : ∀ f ∈ b.registry, f.kind = f.content.kind
  nodup : b.registry.serials.Nodup
  operands : ∀ c ∈ ledger, c.OperandsRecorded ledger

namespace Accounts

variable {ledger : List Content} {b : Block}

theorem serial_lt (h : Accounts ledger b) {serial : Nat} (hs : serial ∈ b.registry.serials) :
    serial < ledger.length := by
  obtain ⟨f, hf, rfl⟩ := Registry.mem_serials.1 hs
  exact (List.getElem?_eq_some_iff.1 (h.content f hf)).1

theorem fresh (h : Accounts ledger b) : b.serials ∉ b.registry.serials := by
  intro hs
  have := h.serial_lt hs
  have := h.size
  omega

theorem recorded (h : Accounts ledger b) {f : Fragment Content} (hf : f ∈ b.registry) :
    (ofFragment f).Recorded ledger := by
  rintro serial content ⟨⟩
  exact h.content f hf

/-- The invariant looks at the registry and the serial numbers only. -/
theorem congr (h : Accounts ledger b) {b' : Block} (hr : b'.registry = b.registry)
    (hs : b'.serials = b.serials) : Accounts ledger b' := by
  constructor
  · rw [hs, h.size]
  · rw [hr]; exact h.content
  · rw [hr]; exact h.kind
  · rw [hr]; exact h.nodup
  · exact h.operands

theorem empty : Accounts [] Block.empty := by
  constructor <;> simp [Block.empty]

theorem register (h : Accounts ledger b) {c : Content} (hc : c.OperandsRecorded ledger) :
    Accounts (ledger ++ [c]) (b.register c) where
  size := by simp [h.size]
  content := by
    intro f hf
    rcases mem_register.1 hf with rfl | hf
    · simp [Content.fragment, h.size]
    · exact (h.recorded hf).append [c] _ _ rfl
  kind := by
    intro f hf
    rcases mem_register.1 hf with rfl | hf
    · rfl
    · exact h.kind f hf
  nodup := Registry.nodup_serials_insert.2 ⟨h.fresh, h.nodup⟩
  operands := by
    intro d hd
    rcases List.mem_append.1 hd with hd | hd
    · exact (h.operands d hd).append [c]
    · rw [List.mem_singleton.1 hd]
      exact hc.append [c]

theorem registerAll {contents : List Content} (h : Accounts ledger b)
    (hc : ∀ c ∈ contents, c.isPlain) :
    Accounts (ledger ++ contents) (b.registerAll contents) := by
  induction contents generalizing ledger b with
  | nil => simpa [Block.registerAll] using h
  | cons c contents ih =>
    have hfirst := h.register (Content.operandsRecorded_of_isPlain (hc c (by simp)))
    have hrest := ih hfirst fun d hd => hc d (by simp [hd])
    simpa [Block.registerAll] using hrest

end Accounts

/-! ## Removal from a block -/

@[simp] theorem serials_unregister (o : Operand) (b : Block) :
    (b.unregister o).serials = b.serials := by
  rw [unregister]
  split <;> rfl

@[simp] theorem chains_unregister (o : Operand) (b : Block) :
    (b.unregister o).chains = b.chains := by
  rw [unregister]
  split <;> rfl

theorem mem_unregister {o : Operand} {b : Block} (h : b.registry.serials.Nodup)
    {f : Fragment Content} :
    f ∈ (b.unregister o).registry ↔ f ∈ b.registry ∧ o.serial? ≠ some f.serial := by
  rw [unregister]
  split
  · next serial hs =>
    rw [Registry.mem_remove h, hs]
    simp [eq_comm]
  · next hs => simp [hs]

theorem unregister_sublist (o : Operand) (b : Block) :
    (b.unregister o).registry.Sublist b.registry := by
  rw [unregister]
  split
  · exact Registry.remove_sublist _ _
  · exact List.Sublist.refl _

theorem unregister_eq_self {o : Operand} {b : Block} (h : ¬ b.isRegistered o) :
    b.unregister o = b := by
  rw [unregister]
  split
  · next serial hs =>
    have hnot : serial ∉ b.registry.serials := fun hm => h (isRegistered_iff.2 ⟨_, hs, hm⟩)
    rw [Registry.remove_eq_self hnot]
  · rfl

theorem Accounts.unregister {ledger : List Content} {b : Block} (h : Accounts ledger b)
    (o : Operand) : Accounts ledger (b.unregister o) where
  size := by rw [serials_unregister, h.size]
  content := fun f hf => h.content f ((unregister_sublist o b).subset hf)
  kind := fun f hf => h.kind f ((unregister_sublist o b).subset hf)
  nodup := h.nodup.sublist ((unregister_sublist o b).map _)
  operands := h.operands

end GraphQuery.Block
