/-! Sets of code points written as sorted lists of closed ranges. -/
namespace Unbundle

/-- Membership in a sorted list of closed ranges: the search ends at the first range above `n`. -/
def inRanges : List (Nat × Nat) → Nat → Bool
  | [], _ => false
  | (lo, hi) :: rest, n => if n < lo then false else if n ≤ hi then true else inRanges rest n

/-- A member lies in one of the ranges. -/
theorem exists_range_of_inRanges {rs : List (Nat × Nat)} {n : Nat} (h : inRanges rs n = true) :
    ∃ r ∈ rs, r.1 ≤ n ∧ n ≤ r.2 := by
  induction rs with
  | nil => simp [inRanges] at h
  | cons r rs ih =>
    obtain ⟨lo, hi⟩ := r
    simp only [inRanges] at h
    split at h
    · simp at h
    · split at h
      · exact ⟨(lo, hi), by simp, by omega, by omega⟩
      · obtain ⟨r, hr, hn⟩ := ih h
        exact ⟨r, by simp [hr], hn⟩

end Unbundle
