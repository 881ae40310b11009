import Unbundle.Proofs.Token.Locality.Ahead

/-! Numbers and words are read the same before texts that look the same. -/
namespace Unbundle

variable {c : Char} {cs y : Text}

theorem numberTail_withRest (h : Ahead (numberTail cs).rest y) :
    numberTail ((numberTail cs).taken ++ y) = (numberTail cs).withRest y := by
  fun_induction numberTail cs with
  | case1 => exact absurd rfl h.ne_nil
  | case2 c cs hc ih =>
    have ih := ih h
    have hhead : ((numberTail cs).taken ++ y).head? = cs.head? := by
      have hw := whole_numberTail cs
      cases ht : (numberTail cs).taken with
      | nil =>
        rw [Cut.whole, ht, List.nil_append] at hw
        rw [List.nil_append, ← hw]
        exact h.head?_eq.symm
      | cons a as =>
        rw [← ht, Cut.head?_taken_append (by simp [ht]), hw]
    simp only [Cut.after, List.cons_append, List.nil_append, numberTail, hhead, if_pos hc, ih]
    rfl
  | case3 c cs hc =>
    cases h with
    | firm hf hy =>
      have : isIdentContinue c = false ∧ (c == '.') = false := by simp_all [isFirm]
      simp [numberTail, this, Cut.withRest]
    | cons _ h => simp_all [numberTail, Cut.withRest, h.head?_eq]

theorem identTail_cons (hc : isIdentContinue c = true) (cs : Text) :
    identTail (c :: cs) = (identTail cs).after [c] := by
  simp [identTail, Cut.run, Cut.after, hc]

theorem identTail_cons_of_not (hc : isIdentContinue c = false) (cs : Text) :
    identTail (c :: cs) = ⟨[], c :: cs, true⟩ := by
  simp [identTail, Cut.run, hc]

theorem identTail_withRest (h : Ahead (identTail cs).rest y) :
    identTail ((identTail cs).taken ++ y) = (identTail cs).withRest y :=
  run_withRest h

/-- The character after a word's first stays what it is. -/
theorem head?_identTail_append (h : Ahead (identTail cs).rest y) :
    ((identTail cs).taken ++ y).head? = cs.head? := by
  have hw : (identTail cs).taken ++ (identTail cs).rest = cs := Cut.whole_run _ _
  cases ht : (identTail cs).taken with
  | nil =>
    rw [ht, List.nil_append] at hw
    rw [List.nil_append, ← h.head?_eq, hw]
  | cons a as =>
    rw [ht] at hw
    rw [← hw]
    rfl

theorem word_withRest (h : Ahead (word c cs).rest y) :
    word c ((word c cs).taken.tail ++ y) = (word c cs).withRest y := by
  have hr : Ahead (identTail cs).rest y := h
  have hi := identTail_withRest hr
  simp only [word, Cut.after, List.cons_append, List.nil_append, List.tail_cons, hi]
  rfl

/-- The rest of a word looks the same as the rest of the text did. -/
theorem Ahead.identTail (h : Ahead (identTail cs).rest y) :
    Ahead cs ((Unbundle.identTail cs).taken ++ y) := by
  have hw : (Unbundle.identTail cs).taken ++ (Unbundle.identTail cs).rest = cs :=
    Cut.whole_run _ _
  have := h.append (Unbundle.identTail cs).taken
  rwa [hw] at this

end Unbundle
