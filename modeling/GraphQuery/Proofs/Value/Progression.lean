import GraphQuery.Value.Basic

/-!
# Members of progressions

A progression has the numbers that steps from its start reach before its stop. All of them lie
between the two.
-/
namespace GraphQuery

namespace Progression

/-- On the side of the stop from which the steps come. -/
def IsBefore (p : Progression) (x : Int) : Prop :=
  0 < p.step ∧ x < p.stop ∨ p.step < 0 ∧ p.stop < x

/-- A number that steps from the start reach before the stop. -/
def Contains (p : Progression) (x : Int) : Prop :=
  ∃ i : Nat, x = p.start + i * p.step ∧ p.IsBefore x

theorem lt_ceilDiv_iff {d s : Int} (hs : 0 < s) (i : Nat) :
    i < ((d + s - 1) / s).toNat ↔ i * s < d := by
  rw [Int.lt_toNat, Int.lt_iff_add_one_le, Int.le_ediv_iff_mul_le hs, Int.add_mul, Int.one_mul]
  omega

theorem lt_size_iff (p : Progression) (i : Nat) :
    i < p.size ↔ p.IsBefore (p.start + i * p.step) := by
  rcases Int.lt_trichotomy p.step 0 with hneg | hzero | hpos
  · have hsize : p.size = ((p.start - p.stop + -p.step - 1) / -p.step).toNat := by
      rw [size, if_neg (by omega), if_pos hneg]
      rfl
    rw [hsize, lt_ceilDiv_iff (by omega), IsBefore, Int.mul_neg]
    omega
  · simp [size, IsBefore, hzero]
  · rw [size, if_pos hpos, lt_ceilDiv_iff hpos, IsBefore]
    omega

theorem contains_iff_lt_size {p : Progression} {x : Int} :
    p.Contains x ↔ ∃ i : Nat, x = p.start + i * p.step ∧ i < p.size := by
  refine exists_congr fun i => and_congr_right fun hx => ?_
  rw [lt_size_iff, hx]

theorem mem_members_iff {p : Progression} {x : Int} : x ∈ p.members ↔ p.Contains x := by
  rw [contains_iff_lt_size, members, List.mem_map]
  refine exists_congr fun i => ?_
  rw [List.mem_range, and_comm, eq_comm]

/-- The last member lies between the start and the stop. -/
theorem natAbs_last_le {p : Progression} (h : p.isEmpty = false) :
    p.last.natAbs ≤ p.start.natAbs ∨ p.last.natAbs ≤ p.stop.natAbs := by
  have hsize : p.size ≠ 0 := by simpa [isEmpty] using h
  have hlast : p.last = p.start + (p.size - 1 : Nat) * p.step := by
    rw [last, Int.natCast_sub (by omega)]
    rfl
  have hbefore := (lt_size_iff p (p.size - 1)).1 (by omega)
  rw [← hlast] at hbefore
  rcases hbefore with ⟨hpos, hstop⟩ | ⟨hneg, hstop⟩
  · have hsteps : 0 ≤ ((p.size - 1 : Nat) : Int) * p.step :=
      Int.mul_nonneg (Int.natCast_nonneg _) (Int.le_of_lt hpos)
    omega
  · have hsteps : ((p.size - 1 : Nat) : Int) * p.step ≤ 0 :=
      Int.mul_nonpos_of_nonneg_of_nonpos (Int.natCast_nonneg _) (Int.le_of_lt hneg)
    omega

end Progression

end GraphQuery
