import GraphQuery.Proofs.Block.Growth
import GraphQuery.Proofs.Value.Written

/-!
# Pieces of path texts

The text of a path is the node where it starts and a piece for every segment of the walk: a
connector, and in brackets or parentheses what the segment has at its right. A relationship is
entered and left by a piece each, and a hop is one piece; only a relationship at the end of a path
may be entered and not left.
-/
namespace GraphQuery.Block

structure Piece where
  connector : String
  /-- In brackets, as a relationship is that is entered. -/
  bracketed : Bool
  right : String
deriving DecidableEq

def Piece.text (p : Piece) : String :=
  p.connector ++ if p.bracketed then "[" ++ p.right ++ "]" else "(" ++ p.right ++ ")"

/-- The text of a path that starts at the node of the given name. -/
def pathShape (left : String) (pieces : List Piece) : String :=
  "(" ++ left ++ ")" ++ String.join (pieces.map Piece.text)

/-- What pieces a path can be made of. -/
inductive Traversal : List Piece → Prop where
  | done : Traversal []
  | hop {connector right : String} {pieces : List Piece}
      (known : connector ∈ ["--", "-->", "<--"]) (rest : Traversal pieces) :
      Traversal (⟨connector, false, right⟩ :: pieces)
  | entered {connector right : String} (known : connector ∈ ["-", "<-"]) :
      Traversal [⟨connector, true, right⟩]
  | crossed {entry exit relation node : String} {pieces : List Piece}
      (knownEntry : entry ∈ ["-", "<-"]) (knownExit : exit ∈ ["->", "-"])
      (rest : Traversal pieces) :
      Traversal (⟨entry, true, relation⟩ :: ⟨exit, false, node⟩ :: pieces)

/-- The piece of a segment of the given style. A node behind a relationship is written by its
name. -/
def writePiece (s : Scope) (style : Style) (direction : Direction) (right : Operand) :
    Except Fault Piece :=
  ((if style = .exit then right.write s .named else rightText s right) >>= Value.shown).map
    fun written => ⟨style.connector direction, style == .entry, written⟩

/-- The segment at an index is written as a piece. -/
def Chain.Spells (c : Chain) (s : Scope) (i : Nat) (p : Piece) : Prop :=
  ∃ segment, c.segments[i]? = some segment ∧
    writePiece s segment.style segment.direction segment.right = .ok p

theorem writePiece_eq_ok {s : Scope} {style : Style} {direction : Direction} {right : Operand}
    {p : Piece} (h : writePiece s style direction right = .ok p) :
    p.connector = style.connector direction ∧ p.bracketed = (style == .entry) := by
  obtain ⟨written, -, rfl⟩ := map_eq_ok.1 h
  exact ⟨rfl, rfl⟩

/-- A segment without the node at its left is its piece. -/
theorem localText_eq (s : Scope) (segment : Segment) : localText s segment =
    (writePiece s segment.style segment.direction segment.right).map Piece.text := by
  have hpiece (v : Value) (connector opens closes : String) {p : String → Piece}
      (hp : ∀ written, (p written).text = connector ++ opens ++ written ++ closes) :
      (do return connector ++ opens ++ (← v.shown) ++ closes : Except Fault String) =
        (v.shown.map p).map Piece.text := by
    cases v.shown with
    | error fault => rfl
    | ok written => exact congrArg Except.ok (hp written).symm
  rw [localText, writePiece, Segment.connector]
  cases segment.style with
  | hop | entry =>
    rw [if_neg (by decide)]
    cases rightText s segment.right with
    | error fault => rfl
    | ok v => exact hpiece v _ _ _ fun written => by simp [Piece.text, String.append_assoc]
  | exit =>
    rw [if_pos rfl]
    cases segment.right.write s .named with
    | error fault => rfl
    | ok v => exact hpiece v _ _ _ fun written => by simp [Piece.text, String.append_assoc]

/-! ## Walks -/

section Walks

variable {s : Scope} {c : Chain} {i : Nat} {text : String}

/-- The text of a walk is that of its first segment and that of the rest. -/
theorem walkText_cons {segment : Segment} (h : c.segments[i]? = some segment) (walk : List Nat) :
    walkText s c (i :: walk) = .ok text ↔ ∃ first, segmentText s c segment = .ok first ∧
      ∃ rest, walkText s c walk = .ok rest ∧ first ++ rest = text := by
  rw [walkText, h]
  simp only [bind_eq_ok, pure, Except.pure, Except.ok.injEq]

/-- A segment that extends another one is its piece; the first one is preceded by the node where
the path starts. -/
theorem segmentText_eq_ok {segment : Segment} : segmentText s c segment = .ok text ↔
    ∃ p, writePiece s segment.style segment.direction segment.right = .ok p ∧
      if segment.prev.isNone then
        (s.name c.anchor).isWritable ∧ text = "(" ++ (s.name c.anchor).display ++ ")" ++ p.text
      else text = p.text := by
  rw [segmentText, localText_eq, bind_eq_ok]
  simp only [map_eq_ok, leftName]
  cases segment.prev with
  | none => simp [bind_eq_ok, Value.shown_eq_ok, pure, Except.pure, @eq_comm _ text]
  | some i => simp [pure, Except.pure, eq_comm]

/-- Behind its first segment a walk is written piece by piece. -/
theorem walkText_eq_ok {walk : List Nat} (hprev : ∀ i ∈ walk, c.prev i ≠ none) :
    walkText s c walk = .ok text ↔ ∃ pieces, List.Forall₂ (c.Spells s) walk pieces ∧
      text = String.join (pieces.map Piece.text) := by
  induction walk generalizing text with
  | nil => simp [walkText, eq_comm]
  | cons i walk ih =>
    have hrest (rest : String) : walkText s c walk = .ok rest ↔ ∃ pieces,
        List.Forall₂ (c.Spells s) walk pieces ∧ rest = String.join (pieces.map Piece.text) :=
      ih fun j hj => hprev j (List.mem_cons_of_mem i hj)
    obtain ⟨p, hp⟩ := Option.ne_none_iff_exists'.1 (hprev i (by simp))
    obtain ⟨segment, hsegment, hback⟩ := Option.bind_eq_some_iff.1 hp
    simp only [walkText_cons hsegment, segmentText_eq_ok, hback, Option.isNone_some, hrest]
    constructor
    · rintro ⟨_, ⟨piece, hpiece, rfl⟩, _, ⟨pieces, hpieces, rfl⟩, rfl⟩
      exact ⟨piece :: pieces, .cons ⟨segment, hsegment, hpiece⟩ hpieces, by simp⟩
    · rintro ⟨_, _ | @⟨_, piece, _, pieces, ⟨segment', hsegment', hpiece⟩, hpieces⟩, rfl⟩
      rw [hsegment] at hsegment'
      cases hsegment'
      exact ⟨_, ⟨piece, hpiece, rfl⟩, _, ⟨pieces, hpieces, rfl⟩, by simp⟩

/-- Behind the first index of a walk every one is that of a segment that extends another. -/
theorem Chain.Linked.prev_ne_none_of_isChain (h : c.Linked) {walk : List Nat}
    (hwalk : (i :: walk).IsChain fun a b => c.next a = some b) : ∀ j ∈ walk, c.prev j ≠ none := by
  induction walk generalizing i with
  | nil => simp
  | cons k walk ih =>
    obtain ⟨hnext, hrest⟩ := List.isChain_cons_cons.1 hwalk
    intro j hj
    rcases List.mem_cons.1 hj with rfl | hj
    · rw [(h.of_next hnext).2.2]
      exact Option.some_ne_none i
    · exact ih hrest j hj

/-- A path has a text exactly if every segment of its walk can be written as a piece. -/
theorem pathText_eq_ok (h : c.Linked) {chain : Nat} (hc : s.chains[chain]? = some c)
    (hshortest : c.shortest = false) (hi : i < c.segments.length) :
    pathText s chain i = .ok text ↔ (s.name c.anchor).isWritable ∧ ∃ pieces,
      List.Forall₂ (c.Spells s) (c.walk i) pieces ∧
        text = pathShape (s.name c.anchor).display pieces := by
  have hpath : pathText s chain i = walkText s c (c.walk i) := by
    simp only [pathText, hc, hshortest]
    cases walkText s c (c.walk i) <;> rfl
  have hchain := isChain_trail c.next c.segments.length (c.headOf i)
  have hhead := head?_trail c.next c.segments.length (c.headOf i)
  rw [hpath]
  rw [← Chain.walk] at hchain hhead
  rw [h.headOf_eq_zero hi] at hhead
  cases hwalk : c.walk i with
  | nil => rw [hwalk] at hhead; cases hhead
  | cons first walk =>
    rw [hwalk] at hhead hchain
    cases hhead
    obtain ⟨segment, hsegment⟩ : ∃ segment, c.segments[0]? = some segment :=
      ⟨_, List.getElem?_eq_getElem h.nonempty⟩
    have hprev : segment.prev = none := (Chain.prev_of_getElem? hsegment).symm.trans h.prev_zero
    simp only [walkText_cons hsegment, segmentText_eq_ok, hprev, Option.isNone_none, if_true,
      walkText_eq_ok (h.prev_ne_none_of_isChain hchain)]
    constructor
    · rintro ⟨_, ⟨piece, hpiece, hanchor, rfl⟩, _, ⟨pieces, hpieces, rfl⟩, rfl⟩
      exact ⟨hanchor, piece :: pieces, .cons ⟨segment, hsegment, hpiece⟩ hpieces,
        by simp [pathShape, String.append_assoc]⟩
    · rintro ⟨hanchor, _, _ | @⟨_, piece, _, pieces, ⟨segment', hsegment', hpiece⟩, hpieces⟩, rfl⟩
      rw [hsegment] at hsegment'
      cases hsegment'
      exact ⟨_, ⟨piece, hpiece, hanchor, rfl⟩, _, ⟨pieces, hpieces, rfl⟩,
        by simp [pathShape, String.append_assoc]⟩

end Walks

/-! ## Styles -/

theorem Style.ne_exit_of_precedes_hop {style : Style} (h : Style.hop.Precedes style) :
    style ≠ .exit := by
  obtain ⟨l, hl⟩ := h
  cases hl
  exact l.first_ne_exit

theorem Style.eq_exit_of_precedes_entry {style : Style} (h : Style.entry.Precedes style) :
    style = .exit := by
  obtain ⟨l, hl⟩ := h
  rw [Link.after?] at hl
  split at hl <;> cases hl
  rfl

theorem Style.eq_entry_of_precedes_exit {style : Style} (h : Style.exit.Precedes style) :
    style = .entry := by
  obtain ⟨l, hl⟩ := h
  rw [Link.after?] at hl
  split at hl <;> cases hl
  rfl

theorem connector_hop_mem (d : Direction) : Style.hop.connector d ∈ ["--", "-->", "<--"] := by
  cases d <;> decide

theorem connector_entry_mem (d : Direction) : Style.entry.connector d ∈ ["-", "<-"] := by
  cases d <;> decide

theorem connector_exit_mem (d : Direction) : Style.exit.connector d ∈ ["->", "-"] := by
  cases d <;> decide

/-! ## Shapes -/

/-- What pieces a path can be continued with behind a relationship that was entered. -/
def Leaving (pieces : List Piece) : Prop :=
  ∃ exit node rest, exit ∈ ["->", "-"] ∧ Traversal rest ∧ pieces = ⟨exit, false, node⟩ :: rest

/-- Along a walk the styles take turns as the pieces of a path do. -/
theorem Chain.Grown.traversal_or_leaving {s : Scope} {c : Chain} {calls : List PathCall}
    (h : c.Grown calls) (hlinked : c.Linked) {walk : List Nat} {pieces : List Piece}
    (hwalk : walk.IsChain fun a b => c.next a = some b)
    (hspells : List.Forall₂ (c.Spells s) walk pieces) :
    (walk.head?.bind c.style? ≠ some .exit → Traversal pieces) ∧
      (walk.head?.bind c.style? = some .exit → Leaving pieces) := by
  induction hspells with
  | nil => exact ⟨fun _ => .done, fun h => by cases h⟩
  | @cons i p walk pieces hp hpieces ih =>
    obtain ⟨segment, hsegment, hwritten⟩ := hp
    have hstyle : c.style? i = some segment.style := by rw [style?, hsegment, Option.map_some]
    obtain ⟨hconnector, hbracketed⟩ := writePiece_eq_ok hwritten
    obtain ⟨connector, bracketed, right⟩ := p
    cases hconnector
    cases hbracketed
    rw [List.head?_cons, Option.bind_some, hstyle]
    -- What follows the segment is nothing or of a style that fits.
    have hnext : pieces = [] ∨ ∃ style, walk.head?.bind c.style? = some style ∧
        segment.style.Precedes style := by
      cases hpieces with
      | nil => exact .inl rfl
      | @cons j _ walk _ _ _ =>
        have hback := (hlinked.of_next (List.isChain_cons_cons.1 hwalk).1).2.2
        obtain ⟨before, behind, hbefore, hbehind, hprecedes⟩ := h.follows i j hback
        rw [hstyle] at hbefore
        cases hbefore
        exact .inr ⟨behind, hbehind, hprecedes⟩
    obtain ⟨htraversal, hleaving⟩ := ih hwalk.of_cons
    cases hcase : segment.style with
    | hop =>
      rw [hcase] at hnext
      refine ⟨fun _ => .hop (connector_hop_mem _) ?_, fun h => by cases h⟩
      rcases hnext with rfl | ⟨style, hstyle', hprecedes⟩
      · exact .done
      · refine htraversal fun hexit => Style.ne_exit_of_precedes_hop hprecedes ?_
        exact Option.some.inj (hstyle'.symm.trans hexit)
    | entry =>
      rw [hcase] at hnext
      refine ⟨fun _ => ?_, fun h => by cases h⟩
      rcases hnext with rfl | ⟨style, hstyle', hprecedes⟩
      · exact .entered (connector_entry_mem _)
      · rw [Style.eq_exit_of_precedes_entry hprecedes] at hstyle'
        obtain ⟨exit, node, rest, hexit, hrest, rfl⟩ := hleaving hstyle'
        exact .crossed (connector_entry_mem _) hexit hrest
    | exit =>
      rw [hcase] at hnext
      refine ⟨fun hne => absurd rfl hne, fun _ => ⟨_, _, _, connector_exit_mem _, ?_, rfl⟩⟩
      rcases hnext with rfl | ⟨style, hstyle', hprecedes⟩
      · exact .done
      · rw [Style.eq_entry_of_precedes_exit hprecedes] at hstyle'
        exact htraversal (by rw [hstyle']; decide)

/-- The pieces of the walk along a chain are a traversal. -/
theorem Chain.Grown.traversal {s : Scope} {c : Chain} {calls : List PathCall} (h : c.Grown calls)
    (hlinked : c.Linked) {i : Nat} (hi : i < c.segments.length) {pieces : List Piece}
    (hspells : List.Forall₂ (c.Spells s) (c.walk i) pieces) : Traversal pieces := by
  refine (h.traversal_or_leaving hlinked (isChain_trail _ _ _) hspells).1 ?_
  rw [head?_trail, hlinked.headOf_eq_zero hi, Option.bind_some]
  exact h.first

end GraphQuery.Block
