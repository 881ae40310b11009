import Unbundle.Text.Blank
import Unbundle.Text.Name

/-! Blanks and words: names hold no blanks, and what stands before a text lengthens its list of
words or its first word. -/
namespace Unbundle

variable {c : Char} {gap pre w x y : Text} {ws : List Text}

def blankRanges : List (Nat × Nat) :=
  [(0x09, 0x0D), (0x20, 0x20), (0x85, 0x85), (0xA0, 0xA0), (0x1680, 0x1680), (0x2000, 0x200A),
   (0x2028, 0x2029), (0x202F, 0x202F), (0x205F, 0x205F), (0x3000, 0x3000)]

theorem exists_range_of_isBlank (h : isBlank c = true) :
    ∃ b ∈ blankRanges, b.1 ≤ c.toNat ∧ c.toNat ≤ b.2 := by
  simp only [isBlank, Bool.or_eq_true, Bool.and_eq_true, beq_iff_eq, decide_eq_true_eq,
    Char.le_def, UInt32.le_iff_toNat_le] at h
  rcases h with (((((((((rfl | h) | rfl) | rfl) | rfl) | h) | rfl) | rfl) | rfl) | rfl) | rfl
  case inl.inl.inl.inl.inl.inl.inl.inl.inl.inr => exact ⟨(0x09, 0x0D), by decide, h⟩
  case inl.inl.inl.inl.inl.inr => exact ⟨(0x2000, 0x200A), by decide, h⟩
  all_goals decide

def clearOfBlanks (rs : List (Nat × Nat)) : Bool :=
  rs.all fun r => blankRanges.all fun b => r.2 < b.1 || b.2 < r.1

theorem isBlank_eq_false_of_inRanges {rs : List (Nat × Nat)} (hd : clearOfBlanks rs = true)
    (h : inRanges rs c.toNat = true) : isBlank c = false := by
  rw [← Bool.not_eq_true]
  intro hb
  obtain ⟨b, hb, h₁, h₂⟩ := exists_range_of_isBlank hb
  obtain ⟨r, hr, h₃, h₄⟩ := exists_range_of_inRanges h
  have hclear := List.all_eq_true.1 (List.all_eq_true.1 hd r hr) b hb
  simp only [Bool.or_eq_true, decide_eq_true_eq] at hclear
  omega

theorem isBlank_of_isNameStart (h : isNameStart c = true) : isBlank c = false :=
  isBlank_eq_false_of_inRanges (by decide +kernel) h

theorem isBlank_of_isNameContinue (h : isNameContinue c = true) : isBlank c = false := by
  simp only [isNameContinue, Bool.or_eq_true] at h
  rcases h with h | h
  · exact isBlank_of_isNameStart h
  · exact isBlank_eq_false_of_inRanges (by decide +kernel) h

/-- A text is blank, or it has a first character that is not. -/
theorem blank_or_gap_cons (x : Text) :
    x.all isBlank = true ∨
      ∃ gap c cs, gap.all isBlank = true ∧ isBlank c = false ∧ x = gap ++ c :: cs := by
  have hsplit := List.takeWhile_append_dropWhile (p := isBlank) (l := x)
  have hgap : (x.takeWhile isBlank).all isBlank = true := List.all_takeWhile
  cases hrest : x.dropWhile isBlank with
  | nil =>
    rw [hrest, List.append_nil] at hsplit
    rw [hsplit] at hgap
    exact .inl hgap
  | cons c cs =>
    have hfirst := List.head?_dropWhile_not isBlank x
    rw [hrest] at hfirst hsplit
    exact .inr ⟨_, c, cs, hgap, by simpa using hfirst, hsplit.symm⟩

theorem words_blank_cons (hc : isBlank c = true) (x : Text) : words (c :: x) = words x := by
  rw [words.eq_def]
  exact if_pos hc

theorem words_gap (hg : gap.all isBlank) (x : Text) : words (gap ++ x) = words x := by
  induction gap with
  | nil => rfl
  | cons c gap ih =>
    rw [List.all_cons, Bool.and_eq_true] at hg
    rw [List.cons_append, words_blank_cons hg.1, ih hg.2]

theorem words_of_blank (hx : x.all isBlank) : words x = [] := by
  have hgap := words_gap hx []
  rwa [List.append_nil] at hgap

theorem words_singleton (hc : isBlank c = false) : words [c] = [[c]] := by
  rw [words.eq_def]
  exact if_neg (by simp [hc])

theorem words_cons_cons (hc : isBlank c = false) (d : Char) (x : Text) :
    words (c :: d :: x) =
      if isBlank d then [c] :: words (d :: x)
      else
        match words (d :: x) with
        | w :: ws => (c :: w) :: ws
        | [] => [[c]] := by
  rw [words.eq_def]
  exact if_neg (by simp [hc])

/-- One more character before a text with words is a word or lengthens the first. -/
theorem words_cons (hc : isBlank c = false) (hx : words x = w :: ws) :
    words (c :: x) = [c] :: w :: ws ∨ words (c :: x) = (c :: w) :: ws := by
  cases x with
  | nil =>
    rw [words.eq_def] at hx
    cases hx
  | cons d x =>
    rw [words_cons_cons hc, hx]
    by_cases hd : isBlank d = true
    · exact .inl (if_pos hd)
    · exact .inr (if_neg hd)

/-- A word: one character or more, none of them a blank. -/
structure IsWord (w : Text) : Prop where
  ne_nil : w ≠ []
  solid : w.all (!isBlank ·) = true

theorem words_word (hw : IsWord w) (hx : ∀ c ∈ x.head?, isBlank c = true) :
    words (w ++ x) = w :: words x := by
  induction w with
  | nil => exact absurd rfl hw.ne_nil
  | cons c w ih =>
    have hsolid := hw.solid
    rw [List.all_cons, Bool.and_eq_true, Bool.not_eq_true'] at hsolid
    cases w with
    | nil =>
      cases x with
      | nil => exact words_singleton hsolid.1
      | cons d x =>
        rw [List.singleton_append, words_cons_cons hsolid.1, if_pos (hx d rfl)]
    | cons d w =>
      have hd : ¬ isBlank d = true := by
        rw [List.all_cons, Bool.and_eq_true, Bool.not_eq_true'] at hsolid
        simp [hsolid.2.1]
      have ih := ih ⟨by simp, hsolid.2⟩
      rw [List.cons_append] at ih
      rw [List.cons_append, List.cons_append, words_cons_cons hsolid.1, if_neg hd, ih]

/-- What stands before a text with words, unless it is blank, adds words or lengthens the first. -/
theorem words_append (hpre : pre.all isBlank = false) (hx : words x = w :: ws) :
    (w :: ws).length < (words (pre ++ x)).length ∨
      ∃ g, g ≠ [] ∧ words (pre ++ x) = (g ++ w) :: ws := by
  induction pre with
  | nil => simp at hpre
  | cons c pre ih =>
    by_cases hc : isBlank c = true
    · rw [List.all_cons, hc, Bool.true_and] at hpre
      rw [List.cons_append, words_blank_cons hc]
      exact ih hpre
    · have hc : isBlank c = false := by simpa using hc
      rw [List.cons_append]
      by_cases hb : pre.all isBlank = true
      · have hrest : words (pre ++ x) = w :: ws := (words_gap hb x).trans hx
        rcases words_cons hc hrest with h | h
        · exact .inl (by simp [h])
        · exact .inr ⟨[c], by simp, h⟩
      · rcases ih (by simpa using hb) with hlt | ⟨g, hg, hrest⟩
        · left
          cases hrest : words (pre ++ x) with
          | nil => simp [hrest] at hlt
          | cons v vs =>
            rw [hrest] at hlt
            rcases words_cons hc hrest with h | h
            · simp only [h, List.length_cons] at hlt ⊢
              omega
            · simpa [h] using hlt
        · rcases words_cons hc hrest with h | h
          · exact .inl (by simp [h])
          · exact .inr ⟨c :: g, by simp, h⟩

end Unbundle
