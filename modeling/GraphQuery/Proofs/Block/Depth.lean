import GraphQuery.Proofs.Block.Arena
import GraphQuery.Proofs.Value.Written

/-!
# Depth of look-ups

What is written with look-ups of some depth is written the same with deeper ones. The text of a
path needs no deeper look-ups than there are chains, since it is the same path that is looked up
from all segments of a chain; so all that can be written at all is written in the scope of a block.
-/
namespace GraphQuery.Block

/-! ## More results -/

section Extends

variable {α β : Type}

/-- The second computation gives what the first one gives, and may give something where the first
one fails. -/
def Extends (x y : Except Fault α) : Prop := ∀ a, x = .ok a → y = .ok a

theorem Extends.refl (x : Except Fault α) : Extends x x := fun _ h => h

theorem Extends.error (fault : Fault) (y : Except Fault α) : Extends (.error fault) y :=
  fun _ h => by cases h

theorem Extends.bind {x y : Except Fault α} {f g : α → Except Fault β} (hx : Extends x y)
    (hf : ∀ a, Extends (f a) (g a)) : Extends (x >>= f) (y >>= g) := by
  intro b hb
  obtain ⟨a, hxa, hfa⟩ := bind_eq_ok.1 hb
  exact bind_eq_ok.2 ⟨a, hx a hxa, hf a b hfa⟩

theorem Extends.map {x y : Except Fault α} (hx : Extends x y) (f : α → β) :
    Extends (x.map f) (y.map f) := by
  intro b hb
  obtain ⟨a, hxa, hfa⟩ := map_eq_ok.1 hb
  exact map_eq_ok.2 ⟨a, hx a hxa, hfa⟩

end Extends

/-- The second scope shows the same block and has all the texts of the first one. -/
structure Scope.Below (s t : Scope) : Prop where
  names : s.names = t.names
  chains : s.chains = t.chains
  text : ∀ place, Extends (s.text place) (t.text place)

namespace Scope.Below

variable {s t : Scope}

theorem name (h : s.Below t) (slot : Nat) : s.name slot = t.name slot := by
  rw [Scope.name, Scope.name, h.names]

theorem segmentName (h : s.Below t) (chain index : Nat) :
    s.segmentName chain index = t.segmentName chain index := by
  rw [Scope.segmentName, Scope.segmentName, h.chains]

end Scope.Below

/-! ## Writing -/

mutual

theorem Operand.write_extends {s t : Scope} (h : s.Below t) (m : Manner) (o : Operand) :
    Extends (o.write s m) (o.write t m) := by
  cases o with
  | value v => exact Extends.refl _
  | list items =>
    rw [Operand.write, Operand.write]
    exact (writeItems_extends h .shown items).bind fun _ => Extends.refl _
  | tuple items =>
    rw [Operand.write, Operand.write]
    exact (writeItems_extends h .shown items).bind fun _ => Extends.refl _
  | map entries =>
    rw [Operand.write, Operand.write]
    exact (writeEntries_extends h entries).bind fun _ => Extends.refl _
  | block =>
    rw [Operand.write, Operand.write]
    exact (h.text .whole).bind fun _ => Extends.refl _
  | node slot =>
    rw [Operand.write, Operand.write, h.name]
    exact Extends.refl _
  | relationship slot expr =>
    rw [Operand.write, Operand.write, h.name]
    exact Extends.refl _
  | property slot key =>
    rw [Operand.write, Operand.write, h.name]
    exact (Extends.refl _).bind fun _ =>
      (Operand.write_extends h .plain key).bind fun _ => Extends.refl _
  | fragment serial content =>
    rw [Operand.write, Operand.write]
    exact Content.write_extends h m content
termination_by structural o

theorem Content.write_extends {s t : Scope} (h : s.Below t) (m : Manner) (c : Content) :
    Extends (c.write s m) (c.write t m) := by
  cases c with
  | start slot source =>
    rw [Content.write, Content.write, h.name]
    split
    · exact Extends.refl _
    · exact (Extends.refl _).bind fun _ =>
        (Source.write_extends h source).bind fun _ => Extends.refl _
  | segment chain index =>
    rw [Content.write, Content.write, h.segmentName]
    split
    · exact Extends.refl _
    · exact (h.text (.path chain index)).bind fun _ => Extends.refl _
  | filter left right operator negated =>
    rw [Content.write, Content.write]
    exact (Operand.write_extends h (rightManner operator) right).bind fun _ =>
      (Operand.write_extends h .literal left).bind fun _ => Extends.refl _
  | condition text => exact Extends.refl _
  | item operand =>
    rw [Content.write, Content.write]
    exact (Operand.write_extends h .named operand).bind fun _ => Extends.refl _
  | custom kind text separator => exact Extends.refl _
termination_by structural c

theorem Source.write_extends {s t : Scope} (h : s.Below t) (source : Source) :
    Extends (source.write s) (source.write t) := by
  cases source with
  | nodes ids =>
    rw [Source.write, Source.write]
    exact (writeItems_extends h .plain ids).bind fun _ => Extends.refl _
  | relationships ids =>
    rw [Source.write, Source.write]
    exact (writeItems_extends h .plain ids).bind fun _ => Extends.refl _
  | search index query =>
    cases index with
    | none => exact Extends.refl _
    | some index =>
      rw [Source.write, Source.write]
      exact (Operand.write_extends h .plain query).bind fun _ => Extends.refl _
  | lookup index query => cases index <;> exact Extends.refl _
termination_by structural source

theorem writeItems_extends {s t : Scope} (h : s.Below t) (m : Manner) (items : List Operand) :
    Extends (writeItems s m items) (writeItems t m items) := by
  cases items with
  | nil => exact Extends.refl _
  | cons item items =>
    rw [writeItems, writeItems]
    exact (Operand.write_extends h m item).bind fun _ =>
      (writeItems_extends h m items).bind fun _ => Extends.refl _
termination_by structural items

theorem writeEntries_extends {s t : Scope} (h : s.Below t) (entries : List (Operand × Operand)) :
    Extends (writeEntries s entries) (writeEntries t entries) := by
  match entries with
  | [] => exact Extends.refl _
  | (key, operand) :: entries =>
    rw [writeEntries, writeEntries]
    exact (Operand.write_extends h .shown key).bind fun _ =>
      (Operand.write_extends h .shown operand).bind fun _ =>
        (writeEntries_extends h entries).bind fun _ => Extends.refl _
termination_by structural entries

end

section Places

variable {s t : Scope}

theorem Content.render_extends (h : s.Below t) (c : Content) :
    Extends (c.render s) (c.render t) := by
  cases c with
  | item operand => exact Operand.write_extends h .named operand
  | _ => exact Content.write_extends h .plain _

theorem rightText_extends (h : s.Below t) (right : Operand) :
    Extends (rightText s right) (rightText t right) := by
  cases right with
  | relationship slot expr =>
    rw [rightText, rightText, h.name]
    exact Extends.refl _
  | _ => exact Operand.write_extends h .named _

theorem localText_extends (h : s.Below t) (segment : Segment) :
    Extends (localText s segment) (localText t segment) := by
  rw [localText, localText]
  cases segment.style with
  | hop => exact (rightText_extends h segment.right).bind fun _ => Extends.refl _
  | entry => exact (rightText_extends h segment.right).bind fun _ => Extends.refl _
  | exit => exact (Operand.write_extends h .named segment.right).bind fun _ => Extends.refl _

theorem leftName_eq (h : s.Below t) (c : Chain) (segment : Segment) :
    leftName s c segment = leftName t c segment := by
  rw [leftName, leftName, h.name]

theorem segmentText_extends (h : s.Below t) (c : Chain) (segment : Segment) :
    Extends (segmentText s c segment) (segmentText t c segment) := by
  rw [segmentText, segmentText, leftName_eq h]
  exact (localText_extends h segment).bind fun _ => Extends.refl _

theorem walkText_extends (h : s.Below t) (c : Chain) (walk : List Nat) :
    Extends (walkText s c walk) (walkText t c walk) := by
  induction walk with
  | nil => exact Extends.refl _
  | cons i walk ih =>
    rw [walkText, walkText]
    cases c.segments[i]? with
    | none => exact ih
    | some segment =>
      exact (segmentText_extends h c segment).bind fun _ => ih.bind fun _ => Extends.refl _

theorem pathText_extends (h : s.Below t) (chain index : Nat) :
    Extends (pathText s chain index) (pathText t chain index) := by
  rw [pathText, pathText, h.chains, h.segmentName]
  cases t.chains[chain]? with
  | none => exact Extends.refl _
  | some c => exact (walkText_extends h c (c.walk index)).bind fun _ => Extends.refl _

theorem registryText_extends (h : s.Below t) (previous : Option Clause.Kind)
    (r : Registry Content) : Extends (registryText s previous r) (registryText t previous r) := by
  induction r generalizing previous with
  | nil => exact Extends.refl _
  | cons f r ih =>
    rw [registryText, registryText]
    exact (Content.render_extends h f.content).bind fun _ => (Extends.refl _).bind fun _ =>
      (ih (some f.kind)).bind fun _ => Extends.refl _

theorem placeText_extends (h : s.Below t) (r : Registry Content) (place : Place) :
    Extends (placeText s r place) (placeText t r place) := by
  cases place with
  | path chain index => exact pathText_extends h chain index
  | whole => exact (registryText_extends h none r).map Text.strip

end Places

/-! ## Deeper scopes -/

section Depth

variable {b : Block}

theorem scopeAt_names (b : Block) (depth : Nat) : (b.scopeAt depth).names = b.names := by
  cases depth <;> rfl

theorem scopeAt_chains (b : Block) (depth : Nat) : (b.scopeAt depth).chains = b.chains := by
  cases depth <;> rfl

theorem scopeAt_below {m n : Nat}
    (h : ∀ place, Extends ((b.scopeAt m).text place) ((b.scopeAt n).text place)) :
    (b.scopeAt m).Below (b.scopeAt n) where
  names := by rw [scopeAt_names, scopeAt_names]
  chains := by rw [scopeAt_chains, scopeAt_chains]
  text := h

theorem scopeAt_succ_below {m n : Nat} (h : (b.scopeAt m).Below (b.scopeAt n)) :
    (b.scopeAt (m + 1)).Below (b.scopeAt (n + 1)) :=
  scopeAt_below fun place => placeText_extends h b.registry place

theorem scopeAt_below_succ (b : Block) (depth : Nat) :
    (b.scopeAt depth).Below (b.scopeAt (depth + 1)) := by
  induction depth with
  | zero => exact scopeAt_below fun place => Extends.error _ _
  | succ depth ih => exact scopeAt_succ_below ih

theorem scopeAt_text_mono {m n : Nat} (hmn : m ≤ n) {place : Place} {text : String}
    (h : (b.scopeAt m).text place = .ok text) : (b.scopeAt n).text place = .ok text := by
  induction n, hmn using Nat.le_induction with
  | base => exact h
  | succ n _ ih => exact (scopeAt_below_succ b n).text place text ih

/-- Once deeper look-ups give nothing new they never do. -/
theorem scopeAt_settled {m n : Nat} (h : (b.scopeAt (m + 1)).Below (b.scopeAt m)) (hmn : m ≤ n) :
    (b.scopeAt (n + 1)).Below (b.scopeAt n) := by
  induction n, hmn using Nat.le_induction with
  | base => exact h
  | succ n _ ih => exact scopeAt_succ_below ih

end Depth

end GraphQuery.Block
