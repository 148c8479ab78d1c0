import GraphQuery.Proofs.Block.Depth
import GraphQuery.Proofs.Block.Naming
import GraphQuery.Proofs.Block.Pieces

/-!
# Recovery of paths from their texts

From the text of a path the node where it starts and all its pieces can be read off again, as long
as the name of the node and the right parts do not close themselves. When the path was grown at its
end the pieces are those of the calls, in order.
-/
namespace GraphQuery.Block

/-! ## Reading -/

def closing (bracketed : Bool) : Char := if bracketed then ']' else ')'

/-- Reads pieces. A connector goes on up to what opens, and then a right part, in brackets or not,
up to what closes. -/
def readPieces (connector : List Char) : Option (Bool × List Char) → List Char → Option (List Piece)
  | none, [] => if connector = [] then some [] else none
  | some _, [] => none
  | none, ch :: text =>
    if ch = '(' then readPieces connector (some (false, [])) text
    else if ch = '[' then readPieces connector (some (true, [])) text
    else readPieces (connector ++ [ch]) none text
  | some (bracketed, right), ch :: text =>
    if ch = closing bracketed then
      (readPieces [] none text).map
        (⟨String.ofList connector, bracketed, String.ofList right⟩ :: ·)
    else readPieces connector (some (bracketed, right ++ [ch])) text

/-- The node where a path starts, and its pieces. -/
def readPath (text : String) : Option (String × List Piece) :=
  match readPieces [] none text.toList with
  | some (first :: pieces) =>
    if first.connector = "" ∧ first.bracketed = false then some (first.right, pieces) else none
  | _ => none

/-- What closes the right part of a piece does not occur in it. -/
def Piece.IsClear (p : Piece) : Prop := closing p.bracketed ∉ p.right.toList

instance (p : Piece) : Decidable p.IsClear := inferInstanceAs (Decidable (_ ∉ _))

theorem readPieces_connector {more : List Char} (h : '(' ∉ more) (h' : '[' ∉ more)
    (connector text : List Char) :
    readPieces connector none (more ++ text) = readPieces (connector ++ more) none text := by
  induction more generalizing connector with
  | nil => simp
  | cons ch more ih =>
    rw [List.mem_cons, not_or] at h h'
    rw [List.cons_append, readPieces, if_neg (Ne.symm h.1), if_neg (Ne.symm h'.1), ih h.2 h'.2,
      List.append_assoc, List.singleton_append]

theorem readPieces_right {bracketed : Bool} {more : List Char} (h : closing bracketed ∉ more)
    (connector right text : List Char) :
    readPieces connector (some (bracketed, right)) (more ++ closing bracketed :: text) =
      (readPieces [] none text).map
        (⟨String.ofList connector, bracketed, String.ofList (right ++ more)⟩ :: ·) := by
  induction more generalizing right with
  | nil => rw [List.nil_append, readPieces, if_pos rfl, List.append_nil]
  | cons ch more ih =>
    rw [List.mem_cons, not_or] at h
    rw [List.cons_append, readPieces, if_neg (Ne.symm h.1), ih h.2, List.append_assoc,
      List.singleton_append]

theorem readPieces_text (p : Piece) (h : '(' ∉ p.connector.toList)
    (h' : '[' ∉ p.connector.toList) (hclear : p.IsClear) (text : List Char) :
    readPieces [] none (p.text.toList ++ text) = (readPieces [] none text).map (p :: ·) := by
  obtain ⟨connector, bracketed, right⟩ := p
  have hright := readPieces_right hclear connector.toList [] text
  simp only [List.nil_append, String.ofList_toList] at hright
  rw [← hright, Piece.text, String.toList_append, List.append_assoc, readPieces_connector h h',
    List.nil_append]
  cases bracketed with
  | false => simp [readPieces, closing]
  | true => simp [readPieces, closing]

/-- No connector opens what stands behind it. -/
theorem Traversal.opens_not_mem {pieces : List Piece} (h : Traversal pieces) :
    ∀ p ∈ pieces, '(' ∉ p.connector.toList ∧ '[' ∉ p.connector.toList := by
  have hhop : ∀ c ∈ ["--", "-->", "<--"], '(' ∉ c.toList ∧ '[' ∉ c.toList := by decide
  have hentry : ∀ c ∈ ["-", "<-"], '(' ∉ c.toList ∧ '[' ∉ c.toList := by decide
  have hexit : ∀ c ∈ ["->", "-"], '(' ∉ c.toList ∧ '[' ∉ c.toList := by decide
  induction h with
  | done => simp
  | hop known rest ih => exact List.forall_mem_cons.2 ⟨hhop _ known, ih⟩
  | entered known => exact List.forall_mem_singleton.2 (hentry _ known)
  | crossed knownEntry knownExit rest ih =>
    exact List.forall_mem_cons.2
      ⟨hentry _ knownEntry, List.forall_mem_cons.2 ⟨hexit _ knownExit, ih⟩⟩

theorem readPieces_join {pieces : List Piece} (h : Traversal pieces)
    (hclear : ∀ p ∈ pieces, p.IsClear) :
    readPieces [] none (String.join (pieces.map Piece.text)).toList = some pieces := by
  have hopens := h.opens_not_mem
  clear h
  induction pieces with
  | nil => rfl
  | cons p pieces ih =>
    obtain ⟨hp, hrest⟩ := List.forall_mem_cons.1 hclear
    obtain ⟨⟨hround, hsquare⟩, hopens⟩ := List.forall_mem_cons.1 hopens
    rw [List.map_cons, String.join_cons, String.toList_append,
      readPieces_text p hround hsquare hp, ih hrest hopens, Option.map_some]

/-- A traversal can be read off the text of its path. -/
theorem readPath_pathShape {left : String} {pieces : List Piece} (h : Traversal pieces)
    (hleft : ')' ∉ left.toList) (hclear : ∀ p ∈ pieces, p.IsClear) :
    readPath (pathShape left pieces) = some (left, pieces) := by
  have hstart : "(" ++ left ++ ")" = Piece.text ⟨"", false, left⟩ := by simp [Piece.text]
  have hread := readPieces_text ⟨"", false, left⟩ (by simp) (by simp) hleft
    (String.join (pieces.map Piece.text)).toList
  rw [readPath, pathShape, String.toList_append, hstart, hread, readPieces_join h hclear]
  rfl

/-! ## Calls and pieces -/

/-- A piece is what a call asks for, in a style that fits. -/
def PathCall.Gives (s : Scope) (call : PathCall) (p : Piece) : Prop :=
  ∃ style : Style, (style = .hop ↔ call.link.direct = true) ∧
    writePiece s style call.link.direction call.right = .ok p

/-- Segment by segment the pieces of all segments in order are those of the calls. -/
theorem Chain.Grown.gives {s : Scope} {c : Chain} {calls : List PathCall} (h : c.Grown calls)
    {pieces : List Piece}
    (hspells : List.Forall₂ (c.Spells s) (List.range c.segments.length) pieces) :
    List.Forall₂ (PathCall.Gives s) calls pieces := by
  rw [List.forall₂_iff_get] at hspells ⊢
  obtain ⟨hlength, hspells⟩ := hspells
  rw [List.length_range] at hlength
  refine ⟨h.made.length_eq.symm.trans hlength, fun j hj hj' => ?_⟩
  have hin : j < c.segments.length := h.made.length_eq ▸ hj
  obtain ⟨segment, hsegment, hwritten⟩ := hspells j (by rwa [List.length_range]) hj'
  rw [List.get_eq_getElem, List.getElem_range, List.getElem?_eq_getElem hin] at hsegment
  cases hsegment
  have hmade : (c.segments[j]).MadeBy (calls.get ⟨j, hj⟩) := h.made.get hin hj
  rw [hmade.direction, hmade.right] at hwritten
  exact ⟨_, hmade.direct, hwritten⟩

/-- An operand that has a name of its own which can be written, so that a path can always be
written up to it. -/
def Operand.isNamed (names : List Value) : Operand → Bool
  | .value v => v.isWritable
  | .node slot | .relationship slot _ => (nameAt names slot).isWritable
  | .fragment _ (.start slot _) => (nameAt names slot).isWritable
  | .fragment _ (.segment _ _) => true
  | _ => false

theorem isWritable_segmentName (s : Scope) (chain index : Nat) :
    (s.segmentName chain index).isWritable := by
  rw [Scope.segmentName]
  split <;> rfl

theorem Operand.exists_write {s : Scope} {right : Operand} (h : right.isNamed s.names) :
    (∃ v, right.write s .named = .ok v ∧ v.isWritable) ∧
      ∃ v, rightText s right = .ok v ∧ v.isWritable := by
  cases right with
  | value v =>
    have hv : (Operand.value v).write s .named = .ok (.text (writeValue .named v)) :=
      Value.written_of_isWritable h
    exact ⟨⟨_, hv, rfl⟩, ⟨_, hv, rfl⟩⟩
  | node => exact ⟨⟨_, rfl, h⟩, ⟨_, rfl, h⟩⟩
  | relationship slot expr =>
    refine ⟨⟨_, rfl, h⟩, ⟨_, rfl, ?_⟩⟩
    split
    · exact h
    · rfl
  | fragment serial content =>
    cases content with
    | start => exact ⟨⟨_, rfl, h⟩, ⟨_, rfl, h⟩⟩
    | segment chain index =>
      exact ⟨⟨_, rfl, isWritable_segmentName s chain index⟩,
        ⟨_, rfl, isWritable_segmentName s chain index⟩⟩
    | _ => cases h
  | _ => cases h

theorem exists_writePiece {s : Scope} {right : Operand} (h : right.isNamed s.names) (style : Style)
    (direction : Direction) : ∃ p, writePiece s style direction right = .ok p := by
  obtain ⟨⟨v, hv, hvw⟩, ⟨w, hw, hww⟩⟩ := Operand.exists_write h
  rw [writePiece]
  split
  · rw [hv]
    exact ⟨_, map_eq_ok.2 ⟨_, Value.shown_eq_ok.2 ⟨hvw, rfl⟩, rfl⟩⟩
  · rw [hw]
    exact ⟨_, map_eq_ok.2 ⟨_, Value.shown_eq_ok.2 ⟨hww, rfl⟩, rfl⟩⟩

theorem Chain.Visits.found {c : Chain} {link : Segment → Option Nat} {i : Nat} {visited : List Nat}
    (h : c.Visits link i visited) : ∀ j ∈ visited, ∃ s, c.segments[j]? = some s := by
  induction h with
  | stop found last => exact List.forall_mem_singleton.2 ⟨_, found⟩
  | step found linked rest ih => exact List.forall_mem_cons.2 ⟨⟨_, found⟩, ih⟩

theorem Chain.exists_spells {s : Scope} {c : Chain}
    (h : ∀ segment ∈ c.segments, segment.right.isNamed s.names) {walk : List Nat}
    (hwalk : ∀ j ∈ walk, ∃ s, c.segments[j]? = some s) :
    ∃ pieces, List.Forall₂ (c.Spells s) walk pieces := by
  induction walk with
  | nil => exact ⟨[], .nil⟩
  | cons i walk ih =>
    obtain ⟨⟨segment, hsegment⟩, hwalk⟩ := List.forall_mem_cons.1 hwalk
    obtain ⟨p, hp⟩ := exists_writePiece (h segment (List.mem_of_getElem? hsegment)) segment.style
      segment.direction
    obtain ⟨pieces, hpieces⟩ := ih hwalk
    exact ⟨p :: pieces, .cons ⟨segment, hsegment, hp⟩ hpieces⟩

/-! ## Paths of scripts -/

/-- The pieces of a path of a block, whose first node has a name that can be written. -/
def PathPieces (b : Block) (depth : Nat) (c : Chain) (index : Nat) (pieces : List Piece) : Prop :=
  (nameAt b.names c.anchor).isWritable ∧
    List.Forall₂ (c.Spells (b.scopeAt depth)) (c.walk index) pieces

/-- The name of the node where a chain starts. -/
def anchorName (b : Block) (c : Chain) : String := (nameAt b.names c.anchor).display

/-- The text of a path that is not to be the shortest one is the node that its first call was made
on, and a traversal. Grown at its end it has one piece for each call, in order; and as long as the
name and the right parts do not close themselves all can be read off the text. -/
theorem path_text_recovers (script : List Step) (result : Term) {chain : Nat} {c : Chain}
    (hc : (finish script result).chains[chain]? = some c) (hshortest : c.shortest = false)
    {index : Nat} (hindex : index < c.segments.length) (depth : Nat) :
    (pathCalls chain script).head?.bind (·.receiver.slot?) = some c.anchor ∧
    (∀ text, ((finish script result).scopeAt (depth + 1)).text (.path chain index) = .ok text ↔
      ∃ pieces, PathPieces (finish script result) depth c index pieces ∧
        text = pathShape (anchorName (finish script result) c) pieces) ∧
    ((nameAt (finish script result).names c.anchor).isWritable →
      (∀ call ∈ pathCalls chain script, call.right.isNamed (finish script result).names) →
        ∃ pieces, PathPieces (finish script result) depth c index pieces) ∧
    ∀ pieces, PathPieces (finish script result) depth c index pieces →
      Traversal pieces ∧
      (GrownAtEnd (pathCalls chain script) → List.Forall₂
        (PathCall.Gives ((finish script result).scopeAt depth)) (pathCalls chain script) pieces) ∧
      (')' ∉ (anchorName (finish script result) c).toList → (∀ p ∈ pieces, p.IsClear) →
        readPath (pathShape (anchorName (finish script result) c) pieces) =
          some (anchorName (finish script result) c, pieces)) := by
  obtain ⟨ledger, harena, -⟩ := exists_arena_finish script result
  have hlinked := harena.linked c (List.mem_of_getElem? hc)
  have hgrown : c.Grown (pathCalls chain script) :=
    (run_grown script).1 chain c (by rwa [chains_finish] at hc)
  refine ⟨hgrown.anchored, fun text => ?_, fun hanchor hnamed => ?_, fun pieces ⟨_, hpieces⟩ => ?_⟩
  · have hchains : ((finish script result).scopeAt depth).chains[chain]? = some c := by
      rwa [scopeAt_chains]
    simp only [PathPieces, anchorName, and_assoc, exists_and_left]
    rw [← scopeAt_names _ depth]
    exact pathText_eq_ok hlinked hchains hshortest hindex
  · suffices hspells : ∃ pieces, List.Forall₂ (c.Spells ((finish script result).scopeAt depth))
        (c.walk index) pieces from hspells.imp fun _ h => ⟨hanchor, h⟩
    refine Chain.exists_spells (fun segment hsegment => ?_) (hlinked.visits_walk hindex).found
    obtain ⟨j, hj, rfl⟩ := List.mem_iff_getElem.1 hsegment
    have hj' : j < (pathCalls chain script).length := hgrown.made.length_eq ▸ hj
    have hmade : (c.segments[j]).MadeBy (pathCalls chain script)[j] := hgrown.made.get hj hj'
    rw [hmade.right, scopeAt_names]
    exact hnamed _ (List.getElem_mem hj')
  · have htraversal := hgrown.traversal hlinked hindex hpieces
    refine ⟨htraversal, fun hend => ?_, readPath_pathShape htraversal⟩
    refine hgrown.gives ?_
    rw [← Chain.walk_eq_range hlinked (fun j => hgrown.prev_succ hend) hindex]
    exact hpieces

/-- Two paths that are grown by turns. -/
def turns : List Step :=
  [⟨.node, none, [.value (.int 1)]⟩,
   ⟨.node, none, [.value (.text "b")]⟩,
   ⟨.link ⟨true, .outgoing⟩, some 0, [.result 1]⟩,
   ⟨.link ⟨true, .incoming⟩, some 1, [.value (.text "x")]⟩,
   ⟨.link ⟨false, .both⟩, some 2, [.value (.text "knows")]⟩,
   ⟨.link ⟨false, .outgoing⟩, some 3, [.value (.text "likes")]⟩,
   ⟨.link ⟨false, .both⟩, some 4, [.value (.text "d")]⟩]

theorem turns_recovered :
    ((finish turns (.value .null)).scopeAt 4).text (.path 0 2) = .ok "(n0)-->(b)-[knows]-(d)" ∧
    List.Forall₂ (PathCall.Gives ((finish turns (.value .null)).scopeAt 3)) (pathCalls 0 turns)
      [⟨"-->", false, "b"⟩, ⟨"-", true, "knows"⟩, ⟨"-", false, "d"⟩] ∧
    readPath "(n0)-->(b)-[knows]-(d)" =
      some ("n0", [⟨"-->", false, "b"⟩, ⟨"-", true, "knows"⟩, ⟨"-", false, "d"⟩]) := by
  obtain ⟨-, htext, -, hpieces⟩ := path_text_recovers turns (.value .null)
    (show (finish turns (.value .null)).chains[0]? = some
      ((finish turns (.value .null)).chains.get ⟨0, by decide⟩) from rfl) rfl
    (show 2 < 3 by decide) 3
  have hspelt : PathPieces (finish turns (.value .null)) 3
      ((finish turns (.value .null)).chains.get ⟨0, by decide⟩) 2
      [⟨"-->", false, "b"⟩, ⟨"-", true, "knows"⟩, ⟨"-", false, "d"⟩] :=
    ⟨rfl, .cons ⟨_, rfl, rfl⟩ (.cons ⟨_, rfl, rfl⟩ (.cons ⟨_, rfl, rfl⟩ .nil))⟩
  have hend : GrownAtEnd (pathCalls 0 turns) := by
    intro j call hcall
    match j with
    | 0 | 1 => cases hcall; rfl
    | j + 2 => cases hcall
  obtain ⟨-, hgives, hread⟩ := hpieces _ hspelt
  refine ⟨(htext _).2 ⟨_, hspelt, rfl⟩, hgives hend, hread (by decide) ?_⟩
  decide

end GraphQuery.Block
