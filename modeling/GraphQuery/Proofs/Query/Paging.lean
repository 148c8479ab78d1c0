import GraphQuery.Proofs.Decimal.Integer
import GraphQuery.Proofs.Query.LastValue

/-!
# Pages

A page limits the part that it is given to, and skips the rows before it. The last page of a part
sets the limit. The first page has no rows before it and is written without SKIP: it does not take
the place of a SKIP that the part has, whether from another page or not.
-/
namespace GraphQuery

theorem Decimal.solid_intText (n : Int) : Text.Solid (intText n) := by
  refine Text.solid_of_forall (intText_ne_empty n) fun c hc => ?_
  rw [toList_intText, List.mem_append, signText] at hc
  rcases hc with hsign | hdigit
  · split at hsign
    · rw [List.mem_singleton.1 hsign]
      decide
    · cases hsign
  · exact Text.isBlank_of_isDigit (isDigit_of_mem_natDigits hdigit)

namespace Clause

open Decimal (intText)

/-! ## Groups of continued parts -/

theorem groupText?_append_of_filter {kind : Kind} {more : List Clause}
    (h : more.filter (·.kind = kind) = []) (part : List Clause) :
    groupText? (part ++ more) kind = groupText? part kind := by
  rw [groupText?, groupText?, List.filter_append, h, List.append_nil]

theorem groupText?_append_ofValue {kind : Kind} (hkind : kind.lastOnly) (part : List Clause)
    (v : Value) :
    groupText? (part ++ [ofValue kind v]) kind = some (kind.keyword ++ " " ++ v.display) := by
  have hown : (part ++ [ofValue kind v]).filter (·.kind = kind) =
      part.filter (·.kind = kind) ++ [ofValue kind v] := by
    rw [List.filter_append, List.filter_singleton, ofValue, decide_eq_true rfl]
    rfl
  rw [groupText?, hown, valueText, if_pos hkind]
  simp [ofValue]

/-! ## Clauses of a page -/

/-- The rows before a page. -/
def before (page size : Int) : Int := (page - 1) * size

/-- The clauses of a page of the given size. -/
def paging (page size : Int) : List Clause :=
  (if page = 1 then [] else [ofValue .skip (.int (before page size))]) ++
    [ofValue .limit (.int size)]

theorem paging_ne_nil (page size : Int) : paging page size ≠ [] := by simp [paging]

theorem groupText?_limit_paging (part : List Clause) (page size : Int) :
    groupText? (part ++ paging page size) .limit = some ("LIMIT " ++ intText size) := by
  rw [paging, ← List.append_assoc]
  exact groupText?_append_ofValue rfl _ _

/-- The first page leaves the SKIP of a part as it is. -/
theorem groupText?_skip_paging (part : List Clause) (page size : Int) :
    groupText? (part ++ paging page size) .skip =
      if page = 1 then groupText? part .skip
      else some ("SKIP " ++ intText (before page size)) := by
  rw [paging, ← List.append_assoc, groupText?_append_of_filter rfl]
  split
  · rw [List.append_nil]
  · exact groupText?_append_ofValue rfl _ _

theorem groupText?_paging {kind : Kind} (hkind : kind.lastOnly = false) (part : List Clause)
    (page size : Int) : groupText? (part ++ paging page size) kind = groupText? part kind := by
  have hlast : ∀ c ∈ paging page size, c.kind.lastOnly := by
    rw [paging]
    split <;> simp [ofValue, Kind.lastOnly]
  refine groupText?_append_of_filter (List.filter_eq_nil_iff.2 fun c hc hsame => ?_) part
  have hc := hlast c hc
  rw [of_decide_eq_true hsame, hkind] at hc
  cases hc

/-! ## Texts of paged parts -/

/-- What a part reads as up to its limit, which is given. -/
def limited (part : List Clause) (size : Int) : String :=
  Text.join " " ((Kind.precedence.filter (!·.lastOnly)).filterMap (groupText? part) ++
    ["LIMIT " ++ intText size])

theorem solid_limited (part : List Clause) (size : Int) : Text.Solid (limited part size) := by
  have hlimit : Text.Solid ("LIMIT " ++ intText size) :=
    (Kind.solid_keyword .limit).append (Decimal.solid_intText size) " "
  refine Text.solid_join_concat hlimit fun t ht => ?_
  obtain ⟨kind, -, hkind⟩ := List.mem_filterMap.1 ht
  exact head?_groupText hkind

theorem groupTexts_congr {part other : List Clause}
    (h : ∀ kind : Kind, kind.lastOnly = false → groupText? part kind = groupText? other kind) :
    (Kind.precedence.filter (!·.lastOnly)).filterMap (groupText? part) =
      (Kind.precedence.filter (!·.lastOnly)).filterMap (groupText? other) :=
  List.filterMap_congr fun kind hkind => h kind (by simpa using (List.mem_filter.1 hkind).2)

theorem partText_paging (part : List Clause) (page size : Int) :
    partText (part ++ paging page size) =
      (groupText? (part ++ paging page size) .skip).elim (limited part size)
        fun t => limited part size ++ " " ++ Text.strip t := by
  have hgroups := groupTexts_congr fun kind hkind => groupText?_paging hkind part page size
  rw [partText, Kind.filterMap_precedence, hgroups, groupText?_limit_paging, Option.toList_some]
  cases hskip : groupText? (part ++ paging page size) .skip with
  | none =>
    rw [Option.toList_none, List.append_nil]
    exact (solid_limited part size).strip_eq
  | some t =>
    obtain ⟨c, hc, hb⟩ := head?_groupText hskip
    rw [Option.toList_some, Text.join_append (by simp) (List.cons_ne_nil _ _)]
    exact (solid_limited part size).strip_append_of_first hc hb " "

/-- Two parts that differ in LIMIT and SKIP only read alike behind the same page exactly if the SKIP
of the one reads like that of the other. -/
theorem partText_paging_inj {part other : List Clause} {page size : Int}
    (h : ∀ kind : Kind, kind.lastOnly = false → groupText? part kind = groupText? other kind) :
    partText (part ++ paging page size) = partText (other ++ paging page size) ↔
      (groupText? (part ++ paging page size) .skip).map Text.strip =
        (groupText? (other ++ paging page size) .skip).map Text.strip := by
  have hlimited : limited part size = limited other size := by
    rw [limited, limited, groupTexts_congr h]
  have hmore (t : String) : limited other size ++ " " ++ t ≠ limited other size := by
    rw [String.append_assoc, Ne, String.append_eq_left_iff]
    simp
  rw [partText_paging, partText_paging, hlimited]
  cases groupText? (part ++ paging page size) .skip with
  | none =>
    cases groupText? (other ++ paging page size) .skip with
    | none => simp
    | some t => simpa using (hmore (Text.strip t)).symm
  | some s =>
    cases groupText? (other ++ paging page size) .skip with
    | none => simpa using hmore (Text.strip s)
    | some t => simp [String.append_right_inj]

end Clause

namespace Query

open Clause (paging before groupText?)
open Decimal (intText)

/-! ## The open part -/

/-- The clauses behind the last break. -/
def openPart (q : Query) : List Clause := (runs q.log).getLast (runs_ne_nil q.log)

/-- Clauses continue the open part. -/
theorem exists_parts_append (q : Query) : ∃ front, ∀ clauses : List Clause, clauses ≠ [] →
    (q.append (clauses.map some)).parts = front ++ [q.openPart ++ clauses] ∧
    (q.append (clauses.map some)).openPart = q.openPart ++ clauses := by
  obtain ⟨front, last, hruns⟩ := runs_append_clauses q.log
  have hopen (clauses : List Clause) :
      (q.append (clauses.map some)).openPart = last ++ clauses := by
    simp only [openPart, append, hruns, List.getLast_concat]
  have hlast : q.openPart = last := by
    have hnone := hopen []
    rwa [append, List.map_nil, List.append_nil, List.append_nil] at hnone
  refine ⟨front.filter (!·.isEmpty), fun clauses hclauses => ⟨?_, hlast ▸ hopen clauses⟩⟩
  have hne : last ++ clauses ≠ [] := fun hnil => hclauses (List.append_eq_nil_iff.1 hnil).2
  rw [parts, append, hruns, List.filter_append, hlast,
    List.filter_cons_of_pos (by simpa using hne)]
  rfl

/-- What continues a query changes its text as it changes the text of the open part. -/
theorem text_append_inj (q : Query) {clauses others : List Clause} (h : clauses ≠ [])
    (h' : others ≠ []) :
    (q.append (clauses.map some)).text = (q.append (others.map some)).text ↔
      Clause.partText (q.openPart ++ clauses) = Clause.partText (q.openPart ++ others) := by
  obtain ⟨front, hparts⟩ := exists_parts_append q
  have htext {own : List Clause} (hown : own ≠ []) : (q.append (own.map some)).text =
      directive q.parser ++ Text.join " " (front.map Clause.partText ++
        [Clause.partText (q.openPart ++ own)]) := by
    have hown := (hparts own hown).1
    rw [text_eq_append (by simp [hown]), body, hown, List.map_append]
    rfl
  rw [htext h, htext h', String.append_right_inj, Text.join_concat_inj]

/-! ## Paging a query -/

theorem add_int (q : Query) {kind : Clause.Kind} (hkind : kind.lastOnly) (n : Int) :
    q.add kind [.int n] =
      if writable n then .ok (q.append [some (Clause.ofValue kind (.int n))])
      else .error .tooManyDigits := by
  have hargs : Clause.ofArguments kind false [.int n] =
      if writable n then .ok [Clause.ofValue kind (.int n)] else .error .tooManyDigits := by
    change Clause.ofEach kind false [.int n] = _
    rw [Clause.ofEach, Clause.ofArgument, Clause.argumentTexts, if_pos hkind, Value.written,
      Value.isWritable]
    cases writable n <;> rfl
  have hcarry : kind ≠ .carry := fun hsame => by rw [hsame] at hkind; cases hkind
  rw [add, hargs, opening_of_ne hcarry]
  cases writable n <;> rfl

/-- The numbers of a page can be written: its size, and the rows before it. -/
def isPage (page size : Int) : Bool := writable (before page size) && writable size

/-- A page is given, unless one of its numbers cannot be written. -/
theorem paginate_of_pos (q : Query) {page size : Int} (hpage : 1 ≤ page) (hsize : 1 ≤ size) :
    q.paginate (.int page) (.int size) =
      if isPage page size then .ok (q.append ((paging page size).map some))
      else .error .tooManyDigits := by
  have hoffset : offset (.int page) (.int size) = .ok (.whole (before page size)) := rfl
  have hlimit (r : Query) := @add_int r .limit rfl size
  rw [paginate, hoffset, isPage, paging]
  simp only [bind, Except.bind, hlimit]
  by_cases hfirst : page = 1
  · have hbefore : before page size = 0 := by simp [before, hfirst]
    rw [hbefore, if_pos hfirst]
    rfl
  · have hpos : (Number.whole (before page size)).isPositive = true :=
      decide_eq_true (Int.mul_pos (by omega) hsize)
    have hskip : q.add .skip [(Number.whole (before page size)).value] = _ :=
      @add_int q .skip rfl (before page size)
    rw [if_pos hpos, hskip, if_neg hfirst]
    cases writable (before page size) <;> cases writable size <;> simp [append]

/-- A part skips the rows before a page exactly if the page is not the first one or nothing was
skipped in the part. -/
theorem skipped_paging_iff {read : String → Int} (hread : ∀ n, read ("SKIP " ++ intText n) = n)
    (part : List Clause) {page : Int} (hpage : 1 ≤ page) (size : Int) :
    (groupText? (part ++ paging page size) .skip).elim 0 read = before page size ↔
      1 < page ∨ (groupText? part .skip).elim 0 read = 0 := by
  rw [Clause.groupText?_skip_paging]
  by_cases hfirst : page = 1
  · simp [hfirst, before]
  · rw [if_neg hfirst, Option.elim_some, hread]
    exact iff_of_true rfl (.inl (by omega))

/-- After one page another one gives the text that it gives alone exactly if it is not the first
page, or the one before was, or the part had the SKIP of the one before already. -/
theorem text_page_again_iff (q : Query) {page₀ page : Int} (hpage : 1 ≤ page) (size₀ size : Int) :
    (q.append ((paging page₀ size₀ ++ paging page size).map some)).text =
        (q.append ((paging page size).map some)).text ↔
      1 < page ∨ page₀ = 1 ∨ (groupText? q.openPart .skip).map Text.strip =
        some ("SKIP " ++ intText (before page₀ size₀)) := by
  have hsolid : Text.Solid ("SKIP " ++ intText (before page₀ size₀)) :=
    (Clause.Kind.solid_keyword .skip).append (Decimal.solid_intText _) " "
  rw [text_append_inj q (by simp [Clause.paging_ne_nil]) (Clause.paging_ne_nil page size),
    ← List.append_assoc, Clause.partText_paging_inj fun kind hkind =>
      Clause.groupText?_paging hkind q.openPart page₀ size₀]
  -- behind the first page the SKIP of the page before counts still, and without that page the
  -- one of the part; behind any other page neither does
  simp only [Clause.groupText?_skip_paging]
  by_cases hfirst : page = 1
  · by_cases hfirst₀ : page₀ = 1
    · simp [hfirst, hfirst₀]
    · simp [hfirst, hfirst₀, hsolid.strip_eq, eq_comm]
  · have hlater : 1 < page := by omega
    simp [hfirst, hlater]

/-- One page given behind another. The text is the same as if the last one alone was given exactly
if that is not the first page, or the one before was, or the part skipped the rows of the one before
already. In any case the last part has the limit of the last page, and, whatever a SKIP is read as,
it skips just the rows before that page exactly if the page is not the first one or nothing was
skipped in the part. -/
theorem paginate_again_iff (q : Query) {page₀ size₀ page size : Int}
    (hpage₀ : 1 ≤ page₀) (hsize₀ : 1 ≤ size₀) (hpage : 1 ≤ page) (hsize : 1 ≤ size)
    (hpaged₀ : isPage page₀ size₀) (hpaged : isPage page size) :
    ∃ once first again part, q.paginate (.int page) (.int size) = .ok once ∧
      q.paginate (.int page₀) (.int size₀) = .ok first ∧
      first.paginate (.int page) (.int size) = .ok again ∧
      (again.text = once.text ↔ 1 < page ∨ page₀ = 1 ∨
        (groupText? q.openPart .skip).map Text.strip =
          some ("SKIP " ++ intText (before page₀ size₀))) ∧
      once.parts.getLast? = some part ∧
      groupText? part .limit = some ("LIMIT " ++ intText size) ∧
      ∀ read : String → Int, (∀ n, read ("SKIP " ++ intText n) = n) →
        ((groupText? part .skip).elim 0 read = before page size ↔
          1 < page ∨ (groupText? q.openPart .skip).elim 0 read = 0) := by
  obtain ⟨front, hparts⟩ := exists_parts_append q
  have hlast : (q.append ((paging page size).map some)).parts.getLast? =
      some (q.openPart ++ paging page size) := by
    rw [(hparts _ (Clause.paging_ne_nil page size)).1, List.getLast?_concat]
  refine ⟨_, _, _, _, (paginate_of_pos q hpage hsize).trans (if_pos hpaged),
    (paginate_of_pos q hpage₀ hsize₀).trans (if_pos hpaged₀),
    (paginate_of_pos _ hpage hsize).trans (if_pos hpaged), ?_, hlast,
    Clause.groupText?_limit_paging _ page size,
    fun read hread => skipped_paging_iff hread q.openPart hpage size⟩
  rw [append_append, ← List.map_append]
  exact text_page_again_iff q hpage size₀ size

/-- A part that skips some rows on its own. -/
def skipping : Query := carried.append [some ⟨.skip, ["7"]⟩]

/-- The number that is written behind the keyword. -/
def readSkip (t : String) : Int :=
  ((Decimal.readInt? (t.toList.drop 5 ++ [' '])).map Prod.fst).getD 0

theorem readSkip_skip (n : Int) : readSkip ("SKIP " ++ intText n) = n := by
  have hread := Decimal.readInt?_intText n (show ' '.isDigit = false by decide) []
  have hchars : ("SKIP " ++ intText n).toList.drop 5 = (intText n).toList := by
    rw [String.toList_append]
    rfl
  rw [readSkip, hchars, hread]
  rfl

/-- Two digits are few. -/
theorem isPage_of_lt {page size : Int} (hbefore : (before page size).natAbs < Nat.pow 10 2)
    (hsize : size.natAbs < Nat.pow 10 2) : isPage page size :=
  Bool.and_eq_true_iff.2 ⟨writable_of_lt hbefore (by decide), writable_of_lt hsize (by decide)⟩

theorem skipping_paged : ∃ once first again part,
    skipping.paginate (.int 3) (.int 5) = .ok once ∧
    skipping.paginate (.int 2) (.int 8) = .ok first ∧
    first.paginate (.int 3) (.int 5) = .ok again ∧
    once.text = "MATCH (a) WITH a LIMIT 5 SKIP 10" ∧ again.text = once.text ∧
    once.parts.getLast? = some part ∧ (groupText? part .skip).elim 0 readSkip = 10 := by
  have hfirst : isPage 2 8 := isPage_of_lt (by decide) (by decide)
  have hlast : isPage 3 5 := isPage_of_lt (by decide) (by decide)
  obtain ⟨once, first, again, part, honce, hfirst, hagain, htext, hpart, -, hskipped⟩ :=
    paginate_again_iff skipping (show (1 : Int) ≤ 2 by decide) (show (1 : Int) ≤ 8 by decide)
      (show (1 : Int) ≤ 3 by decide) (show (1 : Int) ≤ 5 by decide) hfirst hlast
  refine ⟨once, first, again, part, honce, hfirst, hagain, ?_, htext.2 (.inl (by decide)), hpart,
    (hskipped readSkip readSkip_skip).2 (.inl (by decide))⟩
  rw [paginate_of_pos skipping (by decide) (by decide), if_pos hlast] at honce
  cases honce
  rfl

/-- The first page of five rows, behind the second one of ten. -/
theorem firstPage_again : ∃ once first again,
    (Query.empty none none).paginate (.int 1) (.int 5) = .ok once ∧
    (Query.empty none none).paginate (.int 2) (.int 10) = .ok first ∧
    first.paginate (.int 1) (.int 5) = .ok again ∧
    once.text = "LIMIT 5" ∧ again.text = "LIMIT 5 SKIP 10" := by
  have hfirst : isPage 1 5 := isPage_of_lt (by decide) (by decide)
  have hsecond : isPage 2 10 := isPage_of_lt (by decide) (by decide)
  exact ⟨_, _, _, (paginate_of_pos _ (by decide) (by decide)).trans (if_pos hfirst),
    (paginate_of_pos _ (by decide) (by decide)).trans (if_pos hsecond),
    (paginate_of_pos _ (by decide) (by decide)).trans (if_pos hfirst), rfl, rfl⟩

end Query
end GraphQuery
