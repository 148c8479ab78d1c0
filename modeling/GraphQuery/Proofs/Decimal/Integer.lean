import GraphQuery.Proofs.Text.Token

/-!
# Integers and their texts

The text of an integer determines the integer, also in front of other text that does not go on
with a digit, and the integer reads back from it.
-/
namespace GraphQuery.Decimal

theorem natDigits_injective {m n : Nat} (h : natDigits m = natDigits n) : m = n := by
  have hread := congrArg (fun digits => Nat.ofDigitChars 10 digits 0) h
  simpa [natDigits] using hread

theorem isDigit_of_mem_natDigits {n : Nat} {c : Char} (h : c ∈ natDigits n) : c.isDigit :=
  Nat.isDigit_of_mem_toDigits (by decide) (by decide) h

theorem toList_intText (n : Int) :
    (intText n).toList = signText (n < 0) ++ natDigits n.natAbs := String.toList_ofList

/-- The text of an integer begins with a sign, if the integer is negative, or else with a digit. -/
theorem exists_head_intText (n : Int) : ∃ c cs, (intText n).toList = c :: cs ∧
    (c = '-' ∨ c.isDigit) ∧ (n < 0 ↔ c = '-') := by
  obtain ⟨d, ds, hds⟩ : ∃ d ds, natDigits n.natAbs = d :: ds :=
    List.exists_cons_of_ne_nil Nat.toDigits_ne_nil
  by_cases hn : n < 0
  · exact ⟨'-', d :: ds, by simp [toList_intText, signText, hn, hds], .inl rfl, by simp [hn]⟩
  · have hd : d.isDigit := isDigit_of_mem_natDigits (by rw [hds]; exact List.mem_cons_self)
    have hsign : d ≠ '-' := by
      rintro rfl
      exact absurd hd (by decide)
    exact ⟨d, ds, by simp [toList_intText, signText, hn, hds], .inr hd, by simp [hn, hsign]⟩

theorem intText_ne_empty (n : Int) : intText n ≠ "" := by
  obtain ⟨c, cs, hchars, -⟩ := exists_head_intText n
  rintro hempty
  rw [hempty] at hchars
  cases hchars

theorem natDigits_append_inj {m n : Nat} {r s : List Char} (hr : ∀ c ∈ r.head?, c.isDigit = false)
    (hs : ∀ c ∈ s.head?, c.isDigit = false) (h : natDigits m ++ r = natDigits n ++ s) :
    m = n ∧ r = s := by
  obtain ⟨hdigits, hrest⟩ := Text.append_inj_of_head (fun _ => isDigit_of_mem_natDigits)
    (fun _ => isDigit_of_mem_natDigits) hr hs h
  exact ⟨natDigits_injective hdigits, hrest⟩

theorem intText_append_inj {m n : Int} {r s : List Char} (hr : ∀ c ∈ r.head?, c.isDigit = false)
    (hs : ∀ c ∈ s.head?, c.isDigit = false) (h : (intText m).toList ++ r = (intText n).toList ++ s) :
    m = n ∧ r = s := by
  have hsign : m < 0 ↔ n < 0 := by
    obtain ⟨c, cs, hm, -, hmsign⟩ := exists_head_intText m
    obtain ⟨d, ds, hn, -, hnsign⟩ := exists_head_intText n
    rw [hm, hn] at h
    rw [hmsign, hnsign, (List.cons.inj h).1]
  rw [toList_intText, toList_intText, List.append_assoc, List.append_assoc,
    decide_eq_decide.2 hsign] at h
  obtain ⟨habs, hrest⟩ := natDigits_append_inj hr hs (List.append_cancel_left h)
  exact ⟨by omega, hrest⟩

theorem intText_inj {m n : Int} : intText m = intText n ↔ m = n := by
  have hnil : ∀ c ∈ ([] : List Char).head?, c.isDigit = false := by simp
  exact ⟨fun h => (intText_append_inj hnil hnil (by rw [h])).1, congrArg _⟩

/-! ## Reading integers -/

/-- The number that the digits in front say, and what is left behind them. -/
def readNat? (cs : List Char) : Option (Nat × List Char) :=
  if cs.takeWhile Char.isDigit = [] then none
  else some (Nat.ofDigitChars 10 (cs.takeWhile Char.isDigit) 0, cs.dropWhile Char.isDigit)

/-- As `readNat?`, with a sign if the number is negative. -/
def readInt? : List Char → Option (Int × List Char)
  | '-' :: cs => (readNat? cs).map fun read => (-(read.1 : Int), read.2)
  | cs => (readNat? cs).map fun read => ((read.1 : Int), read.2)

theorem readNat?_natDigits (n : Nat) {c : Char} (hc : c.isDigit = false) (cs : List Char) :
    readNat? (natDigits n ++ c :: cs) = some (n, c :: cs) := by
  have hdigits : ∀ c ∈ natDigits n, c.isDigit := fun _ => isDigit_of_mem_natDigits
  have hne : natDigits n ≠ [] := Nat.toDigits_ne_nil
  rw [readNat?, List.takeWhile_append_of_pos hdigits, List.dropWhile_append_of_pos hdigits,
    List.takeWhile_cons_of_neg (by simp [hc]), List.dropWhile_cons_of_neg (by simp [hc]),
    List.append_nil, if_neg hne]
  exact congrArg (fun m => some (m, c :: cs)) (Nat.ofDigitChars_toDigits (by decide) (by decide))

theorem readInt?_of_ne {c : Char} (hc : c ≠ '-') (cs : List Char) :
    readInt? (c :: cs) = (readNat? (c :: cs)).map fun read => ((read.1 : Int), read.2) := by
  rw [readInt?.eq_def]
  split
  · next heq => exact absurd (List.cons.inj heq).1 hc
  · rfl

/-- An integer reads back from its text, whatever stands behind it but a digit. -/
theorem readInt?_intText (n : Int) {c : Char} (hc : c.isDigit = false) (cs : List Char) :
    readInt? ((intText n).toList ++ c :: cs) = some (n, c :: cs) := by
  have hread := readNat?_natDigits n.natAbs hc cs
  by_cases hn : n < 0
  · have habs : -(n.natAbs : Int) = n := by omega
    rw [toList_intText, signText, decide_eq_true hn]
    simp only [if_true, List.cons_append, List.nil_append, readInt?, hread, Option.map_some, habs]
  · obtain ⟨d, ds, hhead, -, hsign⟩ := exists_head_intText n
    have hdigits : natDigits n.natAbs = d :: ds := by
      rw [← hhead, toList_intText, decide_eq_false hn]
      rfl
    have habs : (n.natAbs : Int) = n := by omega
    rw [hhead, List.cons_append, readInt?_of_ne fun hd => hn (hsign.2 hd), ← List.cons_append,
      ← hdigits, hread, Option.map_some, habs]

end GraphQuery.Decimal
