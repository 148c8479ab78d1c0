import GraphQuery.Proofs.Text.Words
import Mathlib.Data.List.Nodup

/-!
# What conditions say

A condition is read from its words: as alternatives between OR, each of them factors between AND,
and a factor may be negated or a group in parentheses. All else is an atom, which is true or not.
Where two conditions are joined by AND, the last alternative of the one and the first of the other
become one alternative.
-/
namespace GraphQuery.Clause
open Text

inductive Factor where
  /-- What has no parts, by its words. -/
  | atom (words : List String)
  | negation (f : Factor)
  /-- A condition in parentheses. -/
  | group (alternatives : List (List Factor))
deriving Inhabited

/-- A condition: alternatives of factors. -/
abbrev Reading := List (List Factor)

/-! ## Truth -/

/-- Which atoms are true. -/
abbrev Truth := List String → Bool

mutual

def Factor.holds (t : Truth) : Factor → Bool
  | .atom words => t words
  | .negation f => !Factor.holds t f
  | .group alternatives => anyHolds t alternatives
termination_by structural f => f

def anyHolds (t : Truth) : List (List Factor) → Bool
  | [] => false
  | factors :: alternatives => allHold t factors || anyHolds t alternatives
termination_by structural alternatives => alternatives

def allHold (t : Truth) : List Factor → Bool
  | [] => true
  | f :: factors => Factor.holds t f && allHold t factors
termination_by structural factors => factors

end

theorem allHold_iff {t : Truth} {factors : List Factor} :
    allHold t factors ↔ ∀ f ∈ factors, f.holds t := by
  induction factors with
  | nil => simp [allHold]
  | cons f factors ih => simp [allHold, ih]

theorem anyHolds_iff {t : Truth} {r : Reading} :
    anyHolds t r ↔ ∃ factors ∈ r, allHold t factors := by
  induction r with
  | nil => simp [anyHolds]
  | cons factors r ih => simp [anyHolds, ih]

/-! ## Reading -/

/-- A word, or what stands between brackets, with what it says if they are parentheses. -/
structure Piece where
  words : List String
  inside : Option Reading

def Piece.word (word : String) : Piece := ⟨[word], none⟩

/-- Letters of either case will do. -/
def isKeyword (keyword word : String) : Bool := word.toList.map Char.toUpper == keyword.toList

def Piece.isKeyword (keyword : String) (p : Piece) : Bool :=
  match p.words with
  | [word] => Clause.isKeyword keyword word
  | _ => false

def factor? : List Piece → Option Factor
  | [] => none
  | p :: ps =>
    if p.isKeyword "NOT" then (factor? ps).map .negation
    else
      match p.inside, ps with
      | some alternatives, [] => some (.group alternatives)
      | _, _ => some (.atom ((p :: ps).flatMap (·.words)))

def factors? (ps : List Piece) : Option (List Factor) :=
  (ps.splitOnP (·.isKeyword "AND")).mapM factor?

def readPieces (ps : List Piece) : Option Reading :=
  (ps.splitOnP (·.isKeyword "OR")).mapM factors?

/-- The bracket that closes what a word opens, if it does. -/
def closing? (word : String) : Option String :=
  if word = "(" then some ")"
  else if word = "[" then some "]"
  else if word = "\x7b" then some "\x7d"
  else none

def isClosing (word : String) : Bool := word = ")" || word = "]" || word = "\x7d"

def bracketed (opening closing : String) (ps : List Piece) : Piece :=
  ⟨opening :: ps.flatMap (·.words) ++ [closing], if opening = "(" then readPieces ps else none⟩

/-- The pieces that words make up, read from the end: those in front, and those behind each bracket
that is not opened yet. -/
structure Nest where
  pieces : List Piece
  pending : List (String × List Piece)

/-- What a word is in front of others. -/
def Nest.place (word : String) (n : Nest) : Option Nest :=
  if isClosing word then some ⟨[], (word, n.pieces) :: n.pending⟩
  else
    match closing? word, n.pending with
    | none, pending => some ⟨Piece.word word :: n.pieces, pending⟩
    | some _, [] => none
    | some closing, (mark, behind) :: pending =>
      if mark = closing then some ⟨bracketed word closing n.pieces :: behind, pending⟩ else none

def nest? : List String → Option Nest
  | [] => some ⟨[], []⟩
  | word :: words => (nest? words).bind (·.place word)

/-- The pieces, unless there is a bracket that is not opened. -/
def Nest.closed? : Nest → Option (List Piece)
  | ⟨ps, []⟩ => some ps
  | _ => none

/-- The pieces of a text, in which all quotes and brackets have to be closed. -/
def pieces? (cs : List Char) : Option (List Piece) :=
  (words? cs).bind fun words => (nest? words).bind Nest.closed?

/-- What a text says as a condition. -/
def reading? (s : String) : Option Reading := (pieces? s.toList).bind readPieces

/-! ## Pieces in a row -/

/-- Pieces, and those behind each bracket that is still open, with a nest behind them. -/
def Nest.follow (n : Nest) (ps : List Piece) : List (String × List Piece) → Nest
  | [] => ⟨ps ++ n.pieces, n.pending⟩
  | (mark, behind) :: pending =>
    ⟨ps, (mark, (n.follow behind pending).pieces) :: (n.follow behind pending).pending⟩

/-- The pieces in front do not matter to what follows. -/
theorem Nest.follow_cons (n : Nest) (p : Piece) (ps : List Piece)
    (pending : List (String × List Piece)) : n.follow (p :: ps) pending =
      ⟨p :: (n.follow ps pending).pieces, (n.follow ps pending).pending⟩ := by
  cases pending <;> rfl

theorem Nest.place_follow {word : String} {m m' : Nest} (h : m.place word = some m') (n : Nest) :
    (n.follow m.pieces m.pending).place word = some (n.follow m'.pieces m'.pending) := by
  obtain ⟨ps, pending⟩ := m
  cases hclosing : isClosing word with
  | true =>
    rw [place, if_pos hclosing] at h ⊢
    cases h
    rfl
  | false =>
    cases hopening : closing? word with
    | none =>
      simp only [place, hclosing, hopening, Bool.false_eq_true, if_false] at h ⊢
      cases h
      rw [follow_cons]
    | some closing =>
      cases pending with
      | nil =>
        simp [place, hclosing, hopening] at h
      | cons entry pending =>
        obtain ⟨mark, behind⟩ := entry
        simp only [place, hclosing, hopening, Bool.false_eq_true, if_false] at h
        split at h
        · next hmark =>
          cases h
          simp [place, hclosing, hopening, follow, follow_cons, hmark]
        · cases h

theorem nest?_append {words rest : List String} {m n : Nest} (hm : nest? words = some m)
    (hn : nest? rest = some n) :
    nest? (words ++ rest) = some (n.follow m.pieces m.pending) := by
  induction words generalizing m with
  | nil =>
    cases hm
    exact hn
  | cons word words ih =>
    obtain ⟨m', hm', hplace⟩ := Option.bind_eq_some_iff.1 hm
    rw [List.cons_append, nest?, ih hm', Option.bind_some, Nest.place_follow hplace]

theorem pieces?_eq_some {cs : List Char} {ps : List Piece} :
    pieces? cs = some ps ↔ ∃ words, words? cs = some words ∧ nest? words = some ⟨ps, []⟩ := by
  have hclosed (n : Nest) : n.closed? = some ps ↔ n = ⟨ps, []⟩ := by
    obtain ⟨qs, pending⟩ := n
    cases pending <;> simp [Nest.closed?]
  simp [pieces?, Option.bind_eq_some_iff, hclosed]

/-- A character that ends every word stands between the pieces on its sides. -/
theorem pieces?_append_stop {c : Char} {stop : List String} {qs : List Piece}
    (hstop : ∀ word, (Mode.plain word).step c = (ended word ++ stop, .plain []))
    (hpieces : nest? stop = some ⟨qs, []⟩) {cs ds : List Char} {ps rs : List Piece}
    (h : pieces? cs = some ps) (h' : pieces? ds = some rs) :
    pieces? (cs ++ c :: ds) = some (ps ++ (qs ++ rs)) := by
  obtain ⟨words, hwords, hnest⟩ := pieces?_eq_some.1 h
  obtain ⟨rest, hrest, hnest'⟩ := pieces?_eq_some.1 h'
  refine pieces?_eq_some.2 ⟨words ++ (stop ++ rest), ?_, ?_⟩
  · rw [words?_append_stop hstop hwords, hrest]
    rfl
  · rw [nest?_append hnest (nest?_append hpieces hnest')]
    rfl

theorem pieces?_append_blank {c : Char} (hc : isBlank c) {cs ds : List Char} {ps rs : List Piece}
    (h : pieces? cs = some ps) (h' : pieces? ds = some rs) :
    pieces? (cs ++ c :: ds) = some (ps ++ rs) :=
  pieces?_append_stop (step_blank hc) rfl h h'

theorem pieces?_append_comma {cs ds : List Char} {ps rs : List Piece}
    (h : pieces? cs = some ps) (h' : pieces? ds = some rs) :
    pieces? (cs ++ ',' :: ds) = some (ps ++ (Piece.word "," :: rs)) :=
  pieces?_append_stop (step_mark (show ',' ∈ marks by decide)) rfl h h'

/-- A word that is no bracket is a piece. -/
theorem nest?_word {word : String} (h : ∀ c ∈ marks, word ≠ String.ofList [c]) :
    nest? [word] = some ⟨[.word word], []⟩ := by
  have hclosing : isClosing word = false := by
    simp only [isClosing, Bool.or_eq_false_iff, decide_eq_false_iff_not]
    exact ⟨⟨h ')' (by decide), h ']' (by decide)⟩, h '}' (by decide)⟩
  have hopening : closing? word = none := by
    rw [closing?, if_neg (h '(' (by decide)), if_neg (h '[' (by decide)),
      if_neg (h '{' (by decide))]
  rw [nest?, nest?, Option.bind_some, Nest.place, hclosing, hopening]
  rfl

theorem pieces?_plain {cs : List Char} (h : ∀ c ∈ cs, isPlainChar c) :
    pieces? cs = some ((ended cs).map Piece.word) := by
  refine pieces?_eq_some.2 ⟨ended cs, words?_plain h, ?_⟩
  rw [ended]
  split
  · rfl
  · refine nest?_word fun c hc heq => ?_
    obtain rfl : cs = [c] := String.ofList_injective heq
    have hplain := h c List.mem_cons_self
    simp [isPlainChar, hc] at hplain

theorem pieces?_textLiteral (s : String) :
    pieces? (textLiteral s).toList = some [.word (textLiteral s)] := by
  refine pieces?_eq_some.2 ⟨_, words?_textLiteral s, nest?_word fun c hc heq => ?_⟩
  have hquote : '"' ∈ (textLiteral s).toList := by simp [textLiteral]
  rw [heq, String.toList_ofList, List.mem_singleton] at hquote
  subst hquote
  exact absurd hc (by decide)

def brackets : List (Char × Char) := [('(', ')'), ('[', ']'), ('{', '}')]

/-- What stands between brackets is one piece. -/
theorem pieces?_bracketed {opening closing : Char} (hpair : (opening, closing) ∈ brackets)
    {front inside : List Char} {ps qs : List Piece} (h : pieces? front = some ps) (h' : pieces? inside = some qs) :
    pieces? (front ++ opening :: (inside ++ [closing])) =
      some (ps ++ [bracketed (String.ofList [opening]) (String.ofList [closing]) qs]) := by
  obtain ⟨words, hwords, hnest⟩ := pieces?_eq_some.1 h
  obtain ⟨between, hbetween, hnest'⟩ := pieces?_eq_some.1 h'
  obtain ⟨hopen, hclose, hlast, hplace⟩ : opening ∈ marks ∧ closing ∈ marks ∧
      nest? [String.ofList [closing]] = some ⟨[], [(String.ofList [closing], [])]⟩ ∧
      ∀ qs, Nest.place (String.ofList [opening]) ⟨qs, [(String.ofList [closing], [])]⟩ =
        some ⟨[bracketed (String.ofList [opening]) (String.ofList [closing]) qs], []⟩ := by
    simp only [brackets, List.mem_cons, Prod.mk.injEq, List.not_mem_nil, or_false] at hpair
    rcases hpair with ⟨rfl, rfl⟩ | ⟨rfl, rfl⟩ | ⟨rfl, rfl⟩
    all_goals exact ⟨by decide, by decide, rfl, fun qs => rfl⟩
  have hinside := nest?_append hnest' hlast
  have hpiece : nest? ([String.ofList [opening]] ++ (between ++ [String.ofList [closing]])) =
      some ⟨[bracketed (String.ofList [opening]) (String.ofList [closing]) qs], []⟩ := by
    rw [List.singleton_append, nest?, hinside, Option.bind_some, ← hplace]
    simp [Nest.follow]
  refine pieces?_eq_some.2
    ⟨words ++ ([String.ofList [opening]] ++ (between ++ [String.ofList [closing]])), ?_, ?_⟩
  · rw [words?_append_stop (step_mark hopen) hwords,
      words?_append_stop (step_mark hclose) hbetween]
    rfl
  · rw [nest?_append hnest hpiece]
    rfl

/-! ## Conditions in a row -/

/-- The lists of the one and then those of the other, the last one of the one and the first one of
the other together. -/
def fuse {α : Type} : List (List α) → List (List α) → List (List α)
  | [], ys => ys
  | [x], [] => [x]
  | [x], y :: ys => (x ++ y) :: ys
  | x :: x' :: xs, ys => x :: fuse (x' :: xs) ys

section Fuse

variable {α β : Type}

theorem fuse_cons (x : List α) {xs : List (List α)} (h : xs ≠ []) (ys : List (List α)) :
    fuse (x :: xs) ys = x :: fuse xs ys := by
  cases xs with
  | nil => exact absurd rfl h
  | cons x' xs => rfl

theorem fuse_modifyHead (a : α) {xs : List (List α)} (h : xs ≠ []) {ys : List (List α)}
    (h' : ys ≠ []) :
    fuse (xs.modifyHead (a :: ·)) ys = (fuse xs ys).modifyHead (a :: ·) := by
  match xs, ys with
  | [x], y :: ys => rfl
  | x :: x' :: xs, ys => rfl

theorem fuse_nil (xs : List (List α)) : fuse xs [] = xs := by
  induction xs with
  | nil => rfl
  | cons x xs ih =>
    cases xs with
    | nil => rfl
    | cons x' xs => rw [fuse, ih]

theorem flatten_fuse (xs ys : List (List α)) : (fuse xs ys).flatten = xs.flatten ++ ys.flatten := by
  induction xs with
  | nil => rfl
  | cons x xs ih =>
    cases xs with
    | nil => cases ys <;> simp [fuse]
    | cons x' xs =>
      rw [fuse, List.flatten_cons, ih, ← List.append_assoc]
      rfl

theorem fuse_ne_nil {xs : List (List α)} (h : xs ≠ []) (ys : List (List α)) : fuse xs ys ≠ [] := by
  match xs, ys with
  | [x], [] | [x], y :: ys | x :: x' :: xs, ys => simp [fuse]

theorem length_fuse {xs ys : List (List α)} (hxs : xs ≠ []) (hys : ys ≠ []) :
    (fuse xs ys).length + 1 = xs.length + ys.length := by
  induction xs with
  | nil => exact absurd rfl hxs
  | cons x xs ih =>
    cases xs with
    | nil =>
      cases ys with
      | nil => exact absurd rfl hys
      | cons y ys => simp [fuse]; omega
    | cons x' xs =>
      have := ih (List.cons_ne_nil x' xs)
      rw [fuse, List.length_cons, List.length_cons]
      omega

theorem splitOnP_append (p : α → Bool) (xs ys : List α) :
    (xs ++ ys).splitOnP p = fuse (xs.splitOnP p) (ys.splitOnP p) := by
  induction xs with
  | nil =>
    obtain ⟨y, rest, hsplit⟩ := List.exists_cons_of_ne_nil (List.splitOnP_ne_nil p ys)
    rw [List.nil_append, List.splitOnP_nil, hsplit]
    rfl
  | cons x xs ih =>
    have hne := List.splitOnP_ne_nil p xs
    rw [List.cons_append, List.splitOnP_cons_eq_if_modifyHead,
      List.splitOnP_cons_eq_if_modifyHead, ih]
    split
    · rw [fuse_cons _ hne]
    · rw [fuse_modifyHead x hne (List.splitOnP_ne_nil p ys)]

theorem mapM_eq_some_iff {g : α → Option β} {xs : List α} {rs : List β} :
    xs.mapM g = some rs ↔ List.Forall₂ (fun x r => g x = some r) xs rs := by
  induction xs generalizing rs with
  | nil => simp [eq_comm]
  | cons x xs ih =>
    rw [List.mapM_cons, List.forall₂_cons_left_iff]
    simp only [← ih]
    cases g x <;> cases xs.mapM g <;> simp [eq_comm]

end Fuse

/-- The piece that joins two conditions. -/
def Piece.and : Piece := .word "AND"

theorem factors?_and {xs ys : List Piece} {a b : List Factor} (h : factors? xs = some a)
    (h' : factors? ys = some b) : factors? (xs ++ Piece.and :: ys) = some (a ++ b) := by
  have hand : Piece.and.isKeyword "AND" := rfl
  have hsplit := List.splitOnP_append_cons (p := (·.isKeyword "AND")) xs ys hand
  rw [factors?] at h h' ⊢
  rw [hsplit, List.mapM_append, h, h']
  rfl

theorem forall₂_fuse {xs ys : List (List Piece)} {r r' : Reading}
    (h : List.Forall₂ (fun ps c => factors? ps = some c) xs r)
    (h' : List.Forall₂ (fun ps c => factors? ps = some c) ys r') (hxs : xs ≠ []) (hys : ys ≠ []) :
    List.Forall₂ (fun ps c => factors? ps = some c) (fuse xs (ys.modifyHead (Piece.and :: ·)))
      (fuse r r') := by
  induction h with
  | nil => exact absurd rfl hxs
  | @cons x c xs r hx hrest ih =>
    cases hrest with
    | nil =>
      cases h' with
      | nil => exact absurd rfl hys
      | cons hy hrest' => exact .cons (factors?_and hx hy) hrest'
    | cons => exact .cons hx (ih (List.cons_ne_nil _ _))

/-- AND joins the last alternative in front of it and the first one behind. -/
theorem readPieces_and {ps qs : List Piece} {r r' : Reading} (h : readPieces ps = some r)
    (h' : readPieces qs = some r') : readPieces (ps ++ Piece.and :: qs) = some (fuse r r') := by
  rw [readPieces, mapM_eq_some_iff] at h h' ⊢
  have hor : Piece.and.isKeyword "OR" = false := rfl
  rw [splitOnP_append, List.splitOnP_cons_eq_if_modifyHead, hor]
  exact forall₂_fuse h h' (List.splitOnP_ne_nil _ _) (List.splitOnP_ne_nil _ _)

/-- How two conditions that are joined by AND read. -/
theorem reading?_and {s t : String} {r r' : Reading} (h : reading? s = some r)
    (h' : reading? t = some r') : reading? (s ++ " AND " ++ t) = some (fuse r r') := by
  obtain ⟨ps, hps, hr⟩ := Option.bind_eq_some_iff.1 h
  obtain ⟨qs, hqs, hr'⟩ := Option.bind_eq_some_iff.1 h'
  have hblank : isBlank ' ' := rfl
  have hand : pieces? ['A', 'N', 'D'] = some [Piece.and] := rfl
  have hchars : (s ++ " AND " ++ t).toList =
      s.toList ++ ' ' :: (['A', 'N', 'D'] ++ ' ' :: t.toList) := by
    simp
  have hpieces := pieces?_append_blank hblank hps (pieces?_append_blank hblank hand hqs)
  rw [reading?, hchars, hpieces]
  exact readPieces_and hr hr'

example : reading? ("NOT a OR b" ++ " AND " ++ "(c OR d = \")\")") =
    some [[.negation (.atom ["a"])],
      [.atom ["b"], .group [[.atom ["c"]], [.atom ["d", "=", "\")\""]]]]] := by
  rfl

/-- There are alternatives, and each of them has factors. -/
structure Filled (r : Reading) : Prop where
  alternatives : r ≠ []
  factors : ∀ c ∈ r, c ≠ []

theorem ne_nil_of_mapM {α β : Type} {g : α → Option β} {xs : List α} {ys : List β} (hxs : xs ≠ [])
    (h : xs.mapM g = some ys) : ys ≠ [] := by
  rintro rfl
  cases mapM_eq_some_iff.1 h
  exact hxs rfl

theorem filled_of_reading {s : String} {r : Reading} (h : reading? s = some r) : Filled r := by
  obtain ⟨ps, -, hr⟩ := Option.bind_eq_some_iff.1 h
  refine ⟨ne_nil_of_mapM (List.splitOnP_ne_nil _ _) hr, fun c hc => ?_⟩
  have hall := mapM_eq_some_iff.1 hr
  obtain ⟨i, hi, rfl⟩ := List.getElem_of_mem hc
  have hlt : i < (ps.splitOnP (·.isKeyword "OR")).length := by rwa [hall.length_eq]
  exact ne_nil_of_mapM (List.splitOnP_ne_nil _ _) (List.Forall₂.get hall hlt hi)

/-! ## Truth of conditions in a row -/

@[simp] theorem allHold_append (t : Truth) (c d : List Factor) :
    allHold t (c ++ d) = (allHold t c && allHold t d) := by
  induction c with
  | nil => simp [allHold]
  | cons f c ih => simp [allHold, ih, Bool.and_assoc]

/-- What conditions that are joined by AND say together. -/
def together (rs : List Reading) : Reading := rs.foldr fuse []

theorem together_cons (r : Reading) (rs : List Reading) :
    together (r :: rs) = fuse r (together rs) := rfl

section Together

variable {t : Truth} {r r' : Reading} {rs : List Reading}

/-- What is true of both is true of them together. -/
theorem anyHolds_fuse (h : anyHolds t r) (h' : anyHolds t r') : anyHolds t (fuse r r') := by
  induction r with
  | nil => cases h
  | cons c r ih =>
    cases r with
    | nil =>
      cases r' with
      | nil => cases h'
      | cons d r' =>
        simp only [anyHolds, Bool.or_eq_true, Bool.false_eq_true, or_false] at h h'
        simpa [fuse, anyHolds, h] using h'
    | cons d r =>
      rw [fuse, anyHolds, Bool.or_eq_true]
      rw [anyHolds, Bool.or_eq_true] at h
      exact h.imp_right ih

theorem anyHolds_together (hne : rs ≠ []) (h : ∀ r ∈ rs, anyHolds t r) :
    anyHolds t (together rs) := by
  induction rs with
  | nil => exact absurd rfl hne
  | cons r rs ih =>
    obtain ⟨hr, hrest⟩ := List.forall_mem_cons.1 h
    rw [together_cons]
    cases rs with
    | nil => rwa [together, List.foldr_nil, fuse_nil]
    | cons r' rs => exact anyHolds_fuse hr (ih (List.cons_ne_nil r' rs) hrest)

/-- Without alternatives the factors of all conditions stand side by side. -/
theorem together_of_single (hne : rs ≠ []) (h : ∀ r ∈ rs, r.length = 1) :
    ∃ c, together rs = [c] ∧ ∀ t, allHold t c = rs.all (anyHolds t) := by
  induction rs with
  | nil => exact absurd rfl hne
  | cons r rs ih =>
    obtain ⟨hr, hrest⟩ := List.forall_mem_cons.1 h
    obtain ⟨c, rfl⟩ := List.length_eq_one_iff.1 hr
    cases rs with
    | nil => exact ⟨c, rfl, fun t => by simp [anyHolds]⟩
    | cons r' rs =>
      obtain ⟨d, hd, hall⟩ := ih (List.cons_ne_nil r' rs) hrest
      refine ⟨c ++ d, by rw [together_cons, hd]; rfl, fun t => ?_⟩
      rw [allHold_append, hall, List.all_cons]
      simp [anyHolds]

theorem flatten_together (rs : List Reading) : (together rs).flatten = rs.flatten.flatten := by
  induction rs with
  | nil => rfl
  | cons r rs ih =>
    rw [together_cons, flatten_fuse, ih, List.flatten_cons, List.flatten_append]

theorem together_ne_nil (hne : rs ≠ []) (h : ∀ r ∈ rs, Filled r) : together rs ≠ [] := by
  cases rs with
  | nil => exact absurd rfl hne
  | cons r rs => exact fuse_ne_nil (h r List.mem_cons_self).alternatives _

/-- If one of the conditions has alternatives, so have all together. -/
theorem two_le_length_together (h : ∀ r ∈ rs, Filled r) (hr : r ∈ rs) (htwo : 2 ≤ r.length) :
    2 ≤ (together rs).length := by
  induction rs with
  | nil => cases hr
  | cons r' rs ih =>
    obtain ⟨hfilled, hrest⟩ := List.forall_mem_cons.1 h
    rw [together_cons]
    cases rs with
    | nil =>
      rw [together, List.foldr_nil, fuse_nil]
      obtain rfl := List.mem_singleton.1 hr
      exact htwo
    | cons r'' rs =>
      have hnext := together_ne_nil (List.cons_ne_nil r'' rs) hrest
      have hlength := length_fuse hfilled.alternatives hnext
      have hpos := List.length_pos_iff.2 hnext
      have hpos' := List.length_pos_iff.2 hfilled.alternatives
      rcases List.mem_cons.1 hr with rfl | hr
      · omega
      · have := ih hrest hr
        omega

/-- Different factors, each of which may be true or not whatever the others are. -/
structure Independent (factors : List Factor) : Prop where
  nodup : factors.Nodup
  free : ∀ holds : Factor → Bool, ∃ t, ∀ f ∈ factors, f.holds t = holds f

theorem independent_atoms {atoms : List (List String)} (h : atoms.Nodup) :
    Independent (atoms.map .atom) := by
  have hinj : Function.Injective Factor.atom := fun _ _ heq => Factor.atom.inj heq
  refine ⟨List.Nodup.map hinj h, fun holds => ⟨fun words => holds (.atom words), fun f hf => ?_⟩⟩
  obtain ⟨words, -, rfl⟩ := List.mem_map.1 hf
  rw [Factor.holds]

/-- An alternative that shares no factor with a condition can be true where the condition is not. -/
theorem exists_truth_apart (h : Independent rs.flatten.flatten) {c : List Factor}
    (hc : c ∈ together rs) (hr : r ∈ rs) (hfilled : Filled r) (happart : ∀ f ∈ r.flatten, f ∉ c) :
    ∃ t, anyHolds t (together rs) ∧ ¬ anyHolds t r := by
  classical
  obtain ⟨t, ht⟩ := h.free fun f => f ∈ c
  refine ⟨t, anyHolds_iff.2 ⟨c, hc, allHold_iff.2 fun f hf => ?_⟩, fun hholds => ?_⟩
  · have hmem : f ∈ rs.flatten.flatten := by
      rw [← flatten_together]
      exact List.mem_flatten_of_mem hc hf
    rw [ht f hmem]
    exact decide_eq_true hf
  · obtain ⟨d, hd, hall⟩ := anyHolds_iff.1 hholds
    obtain ⟨f, hf⟩ := List.exists_mem_of_ne_nil d (hfilled.factors d hd)
    have hmem : f ∈ r.flatten := List.mem_flatten_of_mem hd hf
    have hfactor := allHold_iff.1 hall f hf
    have hall : f ∈ rs.flatten.flatten := by
      rw [List.flatten_flatten]
      exact List.mem_flatten_of_mem (List.mem_map_of_mem hr) hmem
    rw [ht f hall] at hfactor
    exact happart f hmem (of_decide_eq_true hfactor)

/-- Where one of several independent conditions has alternatives, they can be true together with one
of them not being true. -/
theorem exists_truth_astray {first : Reading} {rest : List Reading} (hrest : rest ≠ [])
    (h : Independent (first :: rest).flatten.flatten) (hfilled : ∀ r ∈ first :: rest, Filled r)
    (hr : r ∈ first :: rest) (htwo : 2 ≤ r.length) :
    ∃ t, anyHolds t (together (first :: rest)) ∧ ∃ r' ∈ first :: rest, ¬ anyHolds t r' := by
  obtain ⟨second, hsecond⟩ := List.exists_mem_of_ne_nil rest hrest
  have hapart : List.Disjoint first.flatten rest.flatten.flatten := by
    have hnodup := h.nodup
    rw [List.flatten_cons, List.flatten_append] at hnodup
    exact List.disjoint_of_nodup_append hnodup
  by_cases hfirst : 2 ≤ first.length
  · -- the first alternative of the first condition stands alone
    obtain ⟨c, d, r', rfl⟩ : ∃ c d r', first = c :: d :: r' := by
      match first, hfirst with
      | c :: d :: r', _ => exact ⟨c, d, r', rfl⟩
    have hc : c ∈ together ((c :: d :: r') :: rest) := by
      rw [together_cons, fuse]
      exact List.mem_cons_self
    have hmem := List.mem_cons_of_mem (c :: d :: r') hsecond
    obtain ⟨t, hwhole, hfails⟩ := exists_truth_apart h hc hmem (hfilled second hmem)
      fun f hf hfc => hapart (List.mem_flatten_of_mem List.mem_cons_self hfc) (by
        rw [List.flatten_flatten]
        exact List.mem_flatten_of_mem (List.mem_map_of_mem hsecond) hf)
    exact ⟨t, hwhole, second, hmem, hfails⟩
  · -- some alternative of the others stands alone, behind the only one of the first condition
    have hmem : r ∈ rest := by
      rcases List.mem_cons.1 hr with rfl | hmem
      · exact absurd htwo hfirst
      · exact hmem
    have hothers : ∀ r ∈ rest, Filled r := fun r hr => hfilled r (List.mem_cons_of_mem _ hr)
    have hlength := two_le_length_together hothers hmem htwo
    have hfilledFirst := hfilled first List.mem_cons_self
    obtain ⟨c, rfl⟩ : ∃ c, first = [c] := by
      have := List.length_pos_iff.2 hfilledFirst.alternatives
      exact List.length_eq_one_iff.1 (by omega)
    obtain ⟨d, e, r', hd⟩ : ∃ d e r', together rest = d :: e :: r' := by
      match together rest, hlength with
      | d :: e :: r', _ => exact ⟨d, e, r', rfl⟩
    have he : e ∈ together ([c] :: rest) := by
      rw [together_cons, hd, fuse]
      simp
    obtain ⟨t, hwhole, hfails⟩ := exists_truth_apart h he List.mem_cons_self hfilledFirst
      fun f hf hfe => hapart hf (by
        rw [← flatten_together, hd]
        exact List.mem_flatten_of_mem (by simp) hfe)
    exact ⟨t, hwhole, [c], List.mem_cons_self, hfails⟩

end Together

end GraphQuery.Clause
