import Mathlib.Data.List.Nodup

/-! Sorting by a key. Where no two elements have one key the order is strict, and so it does not
depend on the order before. -/
namespace Unbundle

variable {α κ : Type} [LE κ] [LT κ] [DecidableLE κ] [Std.IsLinearOrder κ] [Std.LawfulOrderLT κ]
  {key : α → κ} {l l' : List α}

/-- Sorted by a key that no two elements have, the keys increase. -/
theorem increasing_mergeSort (hnodup : (l.map key).Nodup) :
    (l.mergeSort fun a b => key a ≤ key b).Pairwise fun a b => key a < key b := by
  have htrans (a b c : α) (hab : decide (key a ≤ key b) = true)
      (hbc : decide (key b ≤ key c) = true) : decide (key a ≤ key c) = true :=
    decide_eq_true (Std.le_trans (of_decide_eq_true hab) (of_decide_eq_true hbc))
  have htotal (a b : α) : (decide (key a ≤ key b) || decide (key b ≤ key a)) = true := by
    rw [Bool.or_eq_true, decide_eq_true_eq, decide_eq_true_eq]
    exact Std.le_total
  have hle : (l.mergeSort fun a b => key a ≤ key b).Pairwise fun a b => key a ≤ key b :=
    (List.pairwise_mergeSort htrans htotal l).imp of_decide_eq_true
  have hne : (l.mergeSort fun a b => key a ≤ key b).Pairwise fun a b => key a ≠ key b :=
    List.pairwise_map.1 (((List.mergeSort_perm l _).map key).nodup_iff.2 hnodup)
  exact hle.imp₂ (fun _ _ h h' => Std.lt_of_le_of_ne h h') hne

/-- Lists with the same elements are sorted to one list. -/
theorem mergeSort_eq_of_perm (key : α → κ) (hnodup : (l.map key).Nodup) (hp : l.Perm l') :
    (l.mergeSort fun a b => key a ≤ key b) = l'.mergeSort fun a b => key a ≤ key b := by
  have hnodup' : (l'.map key).Nodup := (hp.map key).nodup_iff.1 hnodup
  have hsorted : (l.mergeSort fun a b => key a ≤ key b).Perm
      (l'.mergeSort fun a b => key a ≤ key b) :=
    ((List.mergeSort_perm l _).trans hp).trans (List.mergeSort_perm l' _).symm
  refine List.Perm.eq_of_pairwise ?_ (increasing_mergeSort hnodup) (increasing_mergeSort hnodup')
    hsorted
  intro a b _ _ hab hba
  exact absurd hba (Std.not_lt.2 (Std.le_of_lt hab))

end Unbundle
