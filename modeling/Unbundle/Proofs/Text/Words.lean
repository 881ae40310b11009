import Unbundle.Proofs.Text.Blank

/-! The words of a text: apart from blanks it consists of them, and when they are joined by spaces
they are told apart again. -/
namespace Unbundle

variable {c : Char} {w x : Text} {ws : List Text}

theorem IsWord.head?_append (hw : IsWord w) (x : Text) :
    ∀ c ∈ (w ++ x).head?, isBlank c = false := by
  obtain ⟨hne, hsolid⟩ := hw
  cases w with
  | nil => exact absurd rfl hne
  | cons c w =>
    rw [List.all_cons, Bool.and_eq_true, Bool.not_eq_true'] at hsolid
    rintro d ⟨⟩
    exact hsolid.1

theorem IsWord.getLast? (hw : IsWord w) : ∀ c ∈ w.getLast?, isBlank c = false := by
  intro c hc
  have hsolid := List.all_eq_true.1 hw.solid c (List.mem_of_getLast? hc)
  rwa [Bool.not_eq_true'] at hsolid

theorem IsWord.notMem (hw : IsWord w) (hc : isBlank c = true) : c ∉ w := by
  intro hmem
  have hsolid := List.all_eq_true.1 hw.solid c hmem
  rw [hc] at hsolid
  cases hsolid

/-- A text that does not start with a blank has a first word. -/
theorem exists_first_word (hc : isBlank c = false) (cs : Text) :
    ∃ v rest, IsWord v ∧ c :: cs = v ++ rest ∧ words (c :: cs) = v :: words rest ∧
      ∀ d ∈ rest.head?, isBlank d = true := by
  have hsplit := List.takeWhile_append_dropWhile (p := (!isBlank ·)) (l := c :: cs)
  have hrest : ∀ d ∈ ((c :: cs).dropWhile (!isBlank ·)).head?, isBlank d = true := by
    intro d hd
    have hfirst := List.head?_dropWhile_not (!isBlank ·) (c :: cs)
    rw [Option.mem_def.1 hd] at hfirst
    simpa using hfirst
  have hword : IsWord ((c :: cs).takeWhile (!isBlank ·)) := ⟨by simp [hc], List.all_takeWhile⟩
  have hwords := words_word hword hrest
  rw [hsplit] at hwords
  exact ⟨_, _, hword, hsplit.symm, hwords, hrest⟩

/-- The text consists of these words. Blanks stand between them, and there may be more at its
ends. -/
inductive ConsistsOf : Text → List Text → Prop
  | blank {gap : Text} (hg : gap.all isBlank = true) : ConsistsOf gap []
  | word {gap w x : Text} {ws : List Text} (hg : gap.all isBlank = true) (hw : IsWord w)
      (hx : ∀ c ∈ x.head?, isBlank c = true) (h : ConsistsOf x ws) :
      ConsistsOf (gap ++ (w ++ x)) (w :: ws)

theorem ConsistsOf.isWord (h : ConsistsOf x ws) : ∀ w ∈ ws, IsWord w := by
  induction h with
  | blank => simp
  | word hg hw hx h ih => exact List.forall_mem_cons.2 ⟨hw, ih⟩

theorem ConsistsOf.words_eq (h : ConsistsOf x ws) : words x = ws := by
  induction h with
  | blank hg => exact words_of_blank hg
  | word hg hw hx h ih => rw [words_gap hg, words_word hw hx, ih]

theorem isBlank_of_words_eq_nil (h : words x = []) : x.all isBlank = true := by
  rcases blank_or_gap_cons x with hx | ⟨gap, c, cs, hg, hc, rfl⟩
  · exact hx
  · obtain ⟨v, rest, -, -, hwords, -⟩ := exists_first_word hc cs
    rw [words_gap hg, hwords] at h
    cases h

theorem consistsOf_words (x : Text) : ConsistsOf x (words x) := by
  generalize hws : words x = ws
  induction ws generalizing x with
  | nil => exact .blank (isBlank_of_words_eq_nil hws)
  | cons w ws ih =>
    rcases blank_or_gap_cons x with hx | ⟨gap, c, cs, hg, hc, rfl⟩
    · rw [words_of_blank hx] at hws
      cases hws
    · obtain ⟨v, rest, hv, hsplit, hwords, hrest⟩ := exists_first_word hc cs
      rw [words_gap hg, hwords] at hws
      obtain ⟨rfl, hbehind⟩ := List.cons.inj hws
      rw [hsplit]
      exact .word hg hv hrest (ih rest hbehind)

/-- The words of a text are the one list of words that it consists of. -/
theorem consistsOf_iff : ConsistsOf x ws ↔ words x = ws := by
  constructor
  · exact ConsistsOf.words_eq
  · rintro rfl
    exact consistsOf_words x

theorem isWord_words (x : Text) : ∀ w ∈ words x, IsWord w :=
  (consistsOf_words x).isWord

/-- A text has words when not all of it is blank. -/
theorem words_ne_nil_iff : words x ≠ [] ↔ ∃ c ∈ x, isBlank c = false := by
  have hiff : words x = [] ↔ x.all isBlank = true := ⟨isBlank_of_words_eq_nil, words_of_blank⟩
  rw [Ne, hiff, List.all_eq_true]
  simp

theorem joinWith_cons {sep t : Text} {ts : List Text} (hts : ts ≠ []) :
    joinWith sep (t :: ts) = t ++ sep ++ joinWith sep ts := by
  cases ts with
  | nil => exact absurd rfl hts
  | cons u ts => rfl

/-- Words that are joined by spaces are told apart again. -/
theorem words_joinWith (hws : ∀ w ∈ ws, IsWord w) : words (joinWith [' '] ws) = ws := by
  induction ws with
  | nil => rfl
  | cons w ws ih =>
    obtain ⟨hw, hws⟩ := List.forall_mem_cons.1 hws
    cases ws with
    | nil =>
      have hread := words_word hw (x := []) (by simp)
      rwa [List.append_nil] at hread
    | cons v ws =>
      rw [joinWith_cons (by simp), List.append_assoc,
        words_word hw (by rintro c ⟨⟩; decide), List.singleton_append,
        words_blank_cons (by decide), ih hws]

theorem exists_append_joinWith (sep w : Text) (ws : List Text) :
    ∃ y, joinWith sep (w :: ws) = w ++ y := by
  cases ws with
  | nil => exact ⟨[], (List.append_nil w).symm⟩
  | cons v ws => exact ⟨_, List.append_assoc ..⟩

/-- Joined words end in a word. -/
theorem exists_joinWith_append (hws : ∀ w ∈ ws, IsWord w) (hne : ws ≠ []) :
    ∃ x w, IsWord w ∧ joinWith [' '] ws = x ++ w := by
  induction ws with
  | nil => exact absurd rfl hne
  | cons w ws ih =>
    obtain ⟨hw, hws⟩ := List.forall_mem_cons.1 hws
    cases ws with
    | nil => exact ⟨[], w, hw, rfl⟩
    | cons v ws =>
      obtain ⟨x, u, hu, hx⟩ := ih hws (by simp)
      refine ⟨w ++ [' '] ++ x, u, hu, ?_⟩
      rw [joinWith_cons (by simp), hx, ← List.append_assoc]

end Unbundle
