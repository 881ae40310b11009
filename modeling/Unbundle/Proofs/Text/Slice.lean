import Unbundle.Text

/-! Where a text may be cut: slices between character boundaries succeed, and give what lies
there. -/
namespace Unbundle

variable {text before inside after a b x y : Text} {m n : Nat}

/-- The offset falls between two characters, or on an end of the text. -/
def Boundary (text : Text) (offset : Nat) : Prop :=
  ∃ before after, text = before ++ after ∧ byteLength before = offset

theorem eq_nil_of_byteLength_eq_zero (h : byteLength text = 0) : text = [] := by
  cases text with
  | nil => rfl
  | cons c cs =>
    have := c.utf8Size_pos
    rw [byteLength_cons] at h
    omega

theorem byteLength_pos (h : text ≠ []) : 0 < byteLength text := by
  have : byteLength text ≠ 0 := fun hz => h (eq_nil_of_byteLength_eq_zero hz)
  omega

/-- Of two cuts of one text, the one at the smaller offset comes first. -/
theorem exists_between (h : a ++ x = b ++ y) (hle : byteLength a ≤ byteLength b) :
    ∃ mid, b = a ++ mid ∧ x = mid ++ y := by
  rcases List.append_eq_append_iff.1 h with ⟨mid, hb, hx⟩ | ⟨mid, ha, hy⟩
  · exact ⟨mid, hb, hx⟩
  · have hmid : mid = [] := by
      apply eq_nil_of_byteLength_eq_zero
      rw [ha, byteLength_append] at hle
      omega
    subst hmid
    exact ⟨[], by simp [ha], by simp [hy]⟩

theorem append_inj_of_byteLength (h : a ++ x = b ++ y) (hl : byteLength a = byteLength b) :
    a = b ∧ x = y := by
  obtain ⟨mid, hb, hx⟩ := exists_between h (Nat.le_of_eq hl)
  have hmid : mid = [] := by
    apply eq_nil_of_byteLength_eq_zero
    rw [hb, byteLength_append] at hl
    omega
  subst hmid
  simp_all

theorem textBefore_append (before after : Text) :
    textBefore (before ++ after) (byteLength before) = .ok before := by
  simp [textBefore, cutAt_append]

theorem textBefore_eq_ok (h : textBefore text n = .ok a) :
    ∃ after, text = a ++ after ∧ byteLength a = n := by
  unfold textBefore at h
  split at h
  · rename_i before after hcut
    cases h
    exact ⟨after, cutAt_eq_some hcut⟩
  · cases h

theorem slice_append (before inside after : Text) :
    slice (before ++ (inside ++ after)) (byteLength before)
      (byteLength before + byteLength inside) = .ok inside := by
  simp [slice, cutAt_append]

/-- A slice lies in the text where it was asked for. -/
theorem slice_eq_ok (h : slice text m n = .ok inside) :
    ∃ before after, text = before ++ (inside ++ after) ∧ byteLength before = m ∧
      m + byteLength inside = n := by
  unfold slice at h
  split at h
  · rename_i hle
    split at h
    · rename_i before rest hc
      obtain ⟨rfl, hb⟩ := cutAt_eq_some hc
      split at h
      · rename_i x after hc'
        cases h
        obtain ⟨rfl, hx⟩ := cutAt_eq_some hc'
        exact ⟨before, after, rfl, hb, by omega⟩
      · cases h
    · cases h
  · cases h

/-- The two parts of a slice are slices. -/
theorem slice_of_append (h : slice text m n = .ok (x ++ y)) :
    slice text m (m + byteLength x) = .ok x ∧ slice text (m + byteLength x) n = .ok y := by
  obtain ⟨before, after, rfl, rfl, hlen⟩ := slice_eq_ok h
  constructor
  · rw [List.append_assoc]
    exact slice_append before x (y ++ after)
  · have hright := slice_append (before ++ x) y after
    rw [byteLength_append, List.append_assoc, ← List.append_assoc x y after] at hright
    rwa [← hlen, byteLength_append, ← Nat.add_assoc]

/-- Between two boundaries in order there is a slice. -/
theorem exists_slice (hm : Boundary text m) (hn : Boundary text n) (hle : m ≤ n) :
    ∃ before inside after, text = before ++ (inside ++ after) ∧ byteLength before = m ∧
      m + byteLength inside = n ∧ slice text m n = .ok inside := by
  obtain ⟨before, rest, hb, rfl⟩ := hm
  obtain ⟨upTo, after, ha, rfl⟩ := hn
  obtain ⟨inside, rfl, rfl⟩ := exists_between (hb.symm.trans ha) hle
  refine ⟨before, inside, after, hb, rfl, by simp, ?_⟩
  rw [hb, byteLength_append]
  exact slice_append before inside after

theorem Boundary.le (h : Boundary text n) : n ≤ byteLength text := by
  obtain ⟨before, after, rfl, rfl⟩ := h
  simp

/-- A slice can be cut in two wherever its text has a boundary in it. -/
theorem exists_cut_within (h : slice text m n = .ok inside) {offset : Nat}
    (hb : Boundary text offset) (hm : m ≤ offset) (hn : offset ≤ n) :
    ∃ x y, inside = x ++ y ∧ m + byteLength x = offset ∧
      textBefore inside (offset - m) = .ok x ∧ textFrom inside (offset - m) = .ok y := by
  obtain ⟨before, after, rfl, rfl, hlen⟩ := slice_eq_ok h
  obtain ⟨x, y, hxy, hx⟩ := hb
  obtain ⟨mid, rfl, hmid⟩ := exists_between hxy (by omega)
  rw [byteLength_append] at hx
  obtain ⟨rest, rfl, -⟩ := exists_between hmid.symm (by omega)
  have hoffset : offset - byteLength before = byteLength mid := by omega
  refine ⟨mid, rest, rfl, hx, ?_, ?_⟩
  · rw [hoffset, textBefore_append]
  · rw [hoffset]
    simp [textFrom, cutAt_append]

end Unbundle
