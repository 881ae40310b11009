import Unbundle.Proofs.Token.Locality.Word

/-! What stands in quotes is read the same before texts that look the same, and so is what a single
quote begins that is no character: a lifetime, or the quote alone. -/
namespace Unbundle

variable {c q : Char} {cs y : Text}

theorem quotedBody_cons (hc : c ≠ '\\') (q : Char) (cs : Text) :
    quotedBody q (c :: cs) =
      if c = q then ⟨[c], cs, true⟩ else (quotedBody q cs).after [c] := by
  rw [quotedBody] <;> simp_all

/-- A reader that runs into the end of the text leaves nothing. -/
theorem rest_quotedBody (h : (quotedBody q cs).closed = false) : (quotedBody q cs).rest = [] := by
  fun_induction quotedBody q cs <;> simp_all [Cut.after]

/-- A closed literal is read the same whatever follows it. -/
theorem quotedBody_append (h : (quotedBody q cs).closed = true) (y : Text) :
    quotedBody q ((quotedBody q cs).taken ++ y) = (quotedBody q cs).withRest y := by
  fun_induction quotedBody q cs with
  | case1 => simp at h
  | case2 => simp at h
  | case3 c cs ih =>
    have := ih h
    simp_all [quotedBody, Cut.after, Cut.withRest]
  | case4 cs h₁ h₂ =>
    have hne : q ≠ '\\' := by
      rintro rfl
      cases cs <;> simp_all
    simp [quotedBody_cons hne, Cut.withRest]
  | case5 c cs h₁ h₂ hq ih =>
    have hne : c ≠ '\\' := by
      rintro rfl
      cases cs <;> simp_all
    have := ih h
    simp_all [quotedBody_cons, Cut.after, Cut.withRest]

theorem closed_quotedBody (h : Ahead (quotedBody q cs).rest y) :
    (quotedBody q cs).closed = true := by
  rw [← Bool.not_eq_false]
  exact fun hf => h.ne_nil (rest_quotedBody hf)

theorem afterQuote_cons (hc : c ≠ '\\') (hcs : cs.head? ≠ some '\x27') :
    afterQuote (c :: cs) =
      if isIdentStart c then ⟨(identTail (c :: cs)).after ['\x27'], .lifetime⟩
      else ⟨⟨['\x27'], c :: cs, true⟩, .punct '\x27'⟩ := by
  unfold afterQuote
  split <;> simp_all

theorem afterQuote_escape (cs : Text) :
    afterQuote ('\\' :: cs) =
      ⟨(quotedBody '\x27' ('\\' :: cs)).after ['\x27'], .literal .char⟩ := by
  simp [afterQuote]

theorem afterQuote_char (hc : c ≠ '\\') (cs : Text) :
    afterQuote (c :: '\x27' :: cs) =
      if c = '\x27' then ⟨⟨['\x27'], c :: '\x27' :: cs, true⟩, .punct '\x27'⟩
      else ⟨⟨['\x27', c, '\x27'], cs, true⟩, .literal .char⟩ := by
  unfold afterQuote
  split <;> grind

theorem head?_taken_quotedBody_escape (q : Char) (cs : Text) :
    (quotedBody q ('\\' :: cs)).taken.head? = some '\\' := by
  cases cs <;> simp [quotedBody, Cut.after]

theorem afterQuote_withRest_escape (h : Ahead (afterQuote ('\\' :: cs)).rest y) :
    afterQuote ((afterQuote ('\\' :: cs)).taken.tail ++ y) =
      (afterQuote ('\\' :: cs)).withRest y := by
  rw [afterQuote_escape] at h ⊢
  have happ := quotedBody_append (closed_quotedBody h) y
  have hb := head?_taken_quotedBody_escape '\x27' cs
  obtain ⟨bs, ht⟩ := List.head?_eq_some_iff.1 hb
  rw [ht, List.cons_append] at happ
  simp only [Cut.after, ht, List.cons_append, List.nil_append, List.tail_cons, afterQuote_escape,
    happ]
  simp [Lexeme.withRest, Cut.withRest, ht]

theorem afterQuote_withRest_lifetime (hesc : c ≠ '\\') (hq : cs.head? ≠ some '\x27')
    (hs : isIdentStart c = true) (h : Ahead (afterQuote (c :: cs)).rest y) :
    afterQuote ((afterQuote (c :: cs)).taken.tail ++ y) = (afterQuote (c :: cs)).withRest y := by
  rw [afterQuote_cons hesc hq, if_pos hs] at h ⊢
  have hcont : isIdentContinue c = true := by
    simp only [isIdentStart, isIdentContinue] at hs ⊢
    grind
  have htail (ds : Text) : identTail (c :: ds) = (identTail ds).after [c] := by
    simp [identTail, Cut.run, Cut.after, hcont]
  rw [htail] at h ⊢
  have hr : Ahead (identTail cs).rest y := h
  have hw := identTail_withRest hr
  have hh := head?_identTail_append hr
  simp only [Cut.after, List.cons_append, List.nil_append, List.tail_cons]
  rw [afterQuote_cons hesc (hh ▸ hq), if_pos hs, htail, hw]
  rfl

theorem afterQuote_withRest (h : Ahead (afterQuote cs).rest y) :
    afterQuote ((afterQuote cs).taken.tail ++ y) = (afterQuote cs).withRest y := by
  cases cs with
  | nil => exact absurd rfl h.ne_nil
  | cons c cs =>
    by_cases hesc : c = '\\'
    · subst hesc
      exact afterQuote_withRest_escape h
    by_cases hq : cs.head? = some '\x27'
    · obtain ⟨cs, rfl⟩ : ∃ ds, cs = '\x27' :: ds := by cases cs <;> simp_all
      rw [afterQuote_char hesc] at h ⊢
      by_cases hc : c = '\x27'
      · subst hc
        simp only [if_true] at h ⊢
        cases h with
        | firm hf _ => simp [isFirm] at hf
        | cons _ h =>
          cases h with
          | firm hf _ => simp [isFirm] at hf
          | cons _ h => simp [afterQuote_char, Lexeme.withRest, Cut.withRest]
      · simp only [if_neg hc, List.tail_cons, List.cons_append, List.nil_append,
          afterQuote_char hesc]
        rfl
    by_cases hs : isIdentStart c = true
    · exact afterQuote_withRest_lifetime hesc hq hs h
    rw [afterQuote_cons hesc hq, if_neg hs] at h ⊢
    cases h with
    | firm hf hy =>
      simp only [List.tail_cons, List.nil_append]
      rw [afterQuote_cons hesc hy, if_neg hs]
      rfl
    | cons _ h =>
      simp only [List.tail_cons, List.nil_append]
      rw [afterQuote_cons hesc (h.head?_eq ▸ hq), if_neg hs]
      rfl

theorem lexeme_string (cs : Text) :
    lexeme '"' cs = ⟨(quotedBody '"' cs).after ['"'], .literal .str⟩ := by
  simp [lexeme]

theorem lexeme_string_withRest (h : Ahead (lexeme '"' cs).rest y) :
    lexeme '"' ((lexeme '"' cs).taken.tail ++ y) = (lexeme '"' cs).withRest y := by
  rw [lexeme_string] at h ⊢
  have happ := quotedBody_append (closed_quotedBody h) y
  simp only [Cut.after, List.cons_append, List.nil_append, List.tail_cons, lexeme_string, happ]
  rfl

end Unbundle
