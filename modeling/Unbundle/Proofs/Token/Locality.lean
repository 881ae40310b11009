import Unbundle.Proofs.Token.Locality.Lexeme

/-! Lexing is local. A token depends on its own characters and on how the text after it looks; what
comes after an opening or closing bracket or a semicolon has no say in the tokens before it. -/
namespace Unbundle

variable {c : Char} {cs y : Text}

/-- The token is read as it is before the text `y`, and nothing in it tells the tokens before it
apart. -/
def Token.Stands (t : Token) (y : Text) : Prop :=
  ∃ c tl, t.chars = c :: tl ∧ isFirm c = true ∧ (tl ++ y).head? ≠ some '\x27' ∧
    lexeme c (tl ++ y) = ⟨⟨t.chars, y, t.closed⟩, t.kind⟩

/-- Brackets and semicolons stand before any text but a quote. -/
theorem Token.stands_of_isStop {t : Token} (hchars : t.chars = (lexeme c cs).taken)
    (hkind : t.kind = (lexeme c cs).kind) (hclosed : t.closed = (lexeme c cs).closed)
    (ht : t.kind.isStop = true) (hy : y.head? ≠ some '\x27') : t.Stands y := by
  obtain ⟨hf, hl⟩ := lexeme_stop (hkind ▸ ht)
  rw [hl cs] at hchars hclosed
  refine ⟨c, [], hchars, hf, hy, ?_⟩
  rw [List.nil_append, hl y, hchars, hclosed, hkind]

/-- A comment starts with a slash and another, or with a slash and a star. -/
theorem eq_comment {kind : CommentKind} (h : (lexeme c cs).kind = .comment kind) :
    c = '/' ∧ ∃ ds, cs = '/' :: ds ∨ cs = '*' :: ds := by
  unfold lexeme at h
  split at h
  · exact ⟨rfl, _, .inl rfl⟩
  · exact ⟨rfl, _, .inr rfl⟩
  · cases h
  · unfold afterQuote at h
    split at h <;> (try split at h) <;> cases h
  · split at h
    · have hlettered := isLettered_lettered c cs
      rw [h] at hlettered
      cases hlettered
    · split at h
      · cases h
      · split at h
        · cases h
        · unfold mark at h
          simp only at h
          split at h <;> cases h

/-- A comment that does not run into the end of the text stands before any text that goes on with a
new line if the comment's own does. -/
theorem Token.stands_of_comment {t : Token} {kind : CommentKind}
    (hchars : t.chars = (lexeme c cs).taken) (hkind : t.kind = (lexeme c cs).kind)
    (hclosed : t.closed = (lexeme c cs).closed) (ht : t.kind = .comment kind)
    (hne : (lexeme c cs).rest ≠ [])
    (hy : (lexeme c cs).rest.head? = some '\n' → y.head? = some '\n') : t.Stands y := by
  obtain ⟨rfl, ds, hds⟩ := eq_comment (hkind.symm.trans ht)
  have hfirm : isFirm '/' = true := by decide +kernel
  have hlex : lexeme '/' ((lexeme '/' cs).taken.tail ++ y) = (lexeme '/' cs).withRest y := by
    rcases hds with rfl | rfl
    · obtain ⟨u, hu⟩ := rest_lineComment ds hne
      obtain ⟨v, rfl⟩ := List.head?_eq_some_iff.1 (hy (by rw [hu, List.head?_cons]))
      exact lexeme_lineComment_newline hu v
    · exact lexeme_blockComment_closed hne y
  have htaken : ∃ d tl, (lexeme '/' cs).taken = '/' :: d :: tl ∧ d ≠ '\x27' := by
    rcases hds with rfl | rfl
    · rw [lexeme_lineComment]
      exact ⟨'/', _, rfl, by decide⟩
    · rw [lexeme_blockComment]
      exact ⟨'*', _, rfl, by decide⟩
  obtain ⟨d, tl, htl, hd⟩ := htaken
  rw [htl] at hchars
  refine ⟨'/', d :: tl, hchars, hfirm, by simpa using hd, ?_⟩
  rw [htl, List.tail_cons] at hlex
  rw [hlex, Lexeme.withRest, Cut.withRest, htl, hchars, hclosed, hkind]

namespace Cursor

variable {cur last : Cursor} {ts : List Token} {t : Token}

/-- The last token of a run, and what was left when it was read. -/
theorem Run.exists_read (h : Run cur (ts ++ [t]) last) :
    ∃ c cs, t.chars = (lexeme c cs).taken ∧ t.kind = (lexeme c cs).kind ∧
      t.closed = (lexeme c cs).closed ∧ last.rest = (lexeme c cs).rest := by
  obtain ⟨mid, -, h⟩ := h.split
  cases h with
  | step hn rest =>
    cases rest
    obtain ⟨gap, c, cs, -, -, -, rfl, rfl⟩ := next?_eq_some hn
    exact ⟨c, cs, rfl, rfl, rfl, rfl⟩

/-- A run is the same before any other text before which its last token is. -/
theorem Run.replace_of_stands (h : Run cur (ts ++ [t]) last) (hy : t.Stands y) :
    ∃ taken, cur.rest = taken ++ (t.chars ++ last.rest) ∧
      Run ⟨cur.offset, taken ++ (t.chars ++ y)⟩ (ts ++ [t]) ⟨last.offset, y⟩ := by
  obtain ⟨c, tl, htl, hfirm, hquote, hlex⟩ := hy
  induction ts generalizing cur with
  | nil =>
    cases h with
    | step hn rest =>
      cases rest
      obtain ⟨gap, b, cs, hr, hg, hb, ht, hlast⟩ := next?_eq_some hn
      have hchars : t.chars = (lexeme b cs).taken := by rw [ht]
      have hw := whole_lexeme b cs
      obtain rfl : b = c := by
        have hhead := head?_lexeme b cs
        rw [← hchars, htl] at hhead
        exact (Option.some.inj hhead).symm
      have hnext :
          (⟨cur.offset, gap ++ (t.chars ++ y)⟩ : Cursor).next? = some (t, ⟨t.stop, y⟩) := by
        have hstart : t.start = cur.offset + byteLength gap := by rw [ht]
        rw [htl, List.cons_append, next?_gap hg hb, hlex, ← hstart]
        rfl
      refine ⟨gap, ?_, .step hnext ?_⟩
      · rw [hr, ← hw, Cut.whole, hchars, hlast]
      · rw [hlast]
        exact .refl _
  | cons u ts ih =>
    cases h with
    | step hn rest =>
      obtain ⟨taken, hm, hrun⟩ := ih rest
      obtain ⟨gap, b, cs, hr, hg, hb, rfl, rfl⟩ := next?_eq_some hn
      simp only at hm hrun
      have hahead : Ahead (lexeme b cs).rest (taken ++ (t.chars ++ y)) := by
        rw [hm, htl, List.cons_append, List.cons_append]
        exact .of_append taken hfirm hquote _
      have hl := lexeme_withRest hahead
      obtain ⟨tl', htl'⟩ : ∃ tl, (lexeme b cs).taken = b :: tl := by
        have := head?_lexeme b cs
        cases hx : (lexeme b cs).taken <;> simp_all
      have hw := whole_lexeme b cs
      rw [htl', List.tail_cons] at hl
      refine ⟨gap ++ b :: (tl' ++ taken), ?_, ?_⟩
      · rw [hr, ← hw, Cut.whole, htl', hm]
        simp
      · refine .step ?_ hrun
        rw [show gap ++ b :: (tl' ++ taken) ++ (t.chars ++ y) =
          gap ++ b :: (tl' ++ (taken ++ (t.chars ++ y))) by simp, next?_gap hg hb, hl]
        simp [Lexeme.withRest, Cut.withRest, Token.stop]

/-- What a run goes over may stand before another text. -/
theorem Run.replace_rest {piece rest : Text} {offset stop : Nat}
    (h : Run ⟨offset, piece ++ rest⟩ (ts ++ [t]) ⟨stop, rest⟩) (hy : t.Stands y) :
    Run ⟨offset, piece ++ y⟩ (ts ++ [t]) ⟨stop, y⟩ := by
  obtain ⟨taken, hrest, hrun⟩ := h.replace_of_stands hy
  rw [← List.append_assoc] at hrest hrun
  obtain rfl := List.append_cancel_right hrest
  exact hrun

/-- Brackets and semicolons that are read stand before any text but a quote. -/
theorem Run.stands_of_isStop (h : Run cur (ts ++ [t]) last) (ht : t.kind.isStop = true)
    (hy : y.head? ≠ some '\x27') : t.Stands y := by
  obtain ⟨c, cs, hchars, hkind, hclosed, -⟩ := h.exists_read
  exact Token.stands_of_isStop hchars hkind hclosed ht hy

/-- A run up to a bracket or a semicolon is the same before any other text. -/
theorem Run.replace {piece rest : Text} {offset stop : Nat}
    (h : Run ⟨offset, piece ++ rest⟩ (ts ++ [t]) ⟨stop, rest⟩) (ht : t.kind.isStop = true)
    (hy : y.head? ≠ some '\x27') : Run ⟨offset, piece ++ y⟩ (ts ++ [t]) ⟨stop, y⟩ :=
  h.replace_rest (h.stands_of_isStop ht hy)

/-- A run without the blanks before its first token. -/
theorem Run.skip {u : Token} (h : Run cur (u :: ts) last) :
    ∃ gap rest, cur.rest = gap ++ rest ∧ gap.all isBlank = true ∧
      u.start = cur.offset + byteLength gap ∧ (∃ c, rest.head? = some c ∧ isBlank c = false) ∧
      Run ⟨u.start, rest⟩ (u :: ts) last := by
  cases h with
  | step hn hrest =>
    obtain ⟨gap, c, cs, hr, hg, hb, rfl, rfl⟩ := next?_eq_some hn
    refine ⟨gap, c :: cs, hr, hg, rfl, ⟨c, rfl, hb⟩, .step ?_ hrest⟩
    exact @next?_gap [] c rfl hb _ cs

theorem Run.offset_eq (h : Run cur (ts ++ [t]) last) : last.offset = t.stop := by
  obtain ⟨mid, -, h⟩ := h.split
  cases h with
  | step hn hrest =>
    cases hrest
    obtain ⟨-, -, -, -, ho, -⟩ := exists_consumed_next? hn
    exact ho

end Cursor

/-- The tokens of a piece of a text are read on the way from its beginning to its end. -/
theorem run_of_piece {pre piece post : Text} {before ts after : List Token} {t u : Token}
    (h : tokenize (pre ++ (piece ++ post)) = before ++ (ts ++ [t] ++ after))
    (hu : (ts ++ [t]).head? = some u) (hstart : u.start = byteLength pre)
    (hstop : t.stop = byteLength pre + byteLength piece) :
    Cursor.Run ⟨u.start, piece ++ post⟩ (ts ++ [t]) ⟨t.stop, post⟩ := by
  obtain ⟨cur, last, hbefore, hrun, -⟩ := exists_run_tokenize h
  obtain ⟨mid, hrun, -⟩ := hrun.split
  obtain ⟨us, hus⟩ := List.head?_eq_some_iff.1 hu
  obtain ⟨gap, rest, hrest, -, hgap, -, hrun⟩ := (hus ▸ hrun).skip
  rw [← hus] at hrun
  obtain ⟨passed, hpassed, hoff⟩ := hrun.exists_consumed
  obtain ⟨first, hfirst, hcur⟩ := hbefore.exists_consumed
  have hmid := hrun.offset_eq
  simp only at hpassed hoff hfirst hcur
  have hsplit : pre ++ (piece ++ post) = (first ++ gap) ++ (passed ++ mid.rest) := by
    rw [hfirst, hrest, hpassed, List.append_assoc]
  obtain ⟨-, htail⟩ := append_inj_of_byteLength hsplit (by rw [byteLength_append]; omega)
  obtain ⟨rfl, rfl⟩ := append_inj_of_byteLength htail (by omega)
  rw [hpassed] at hrun
  obtain ⟨offset, rest⟩ := mid
  obtain rfl : offset = t.stop := hmid
  exact hrun

/-- A piece of a text that begins and ends with tokens, the last of which is a bracket or a
semicolon, is read as the same tokens before any other text. -/
theorem tokenize_piece {pre piece post : Text} {before ts after : List Token} {t u : Token}
    (h : tokenize (pre ++ (piece ++ post)) = before ++ (ts ++ [t] ++ after))
    (hu : (ts ++ [t]).head? = some u) (hstart : u.start = byteLength pre)
    (hstop : t.stop = byteLength pre + byteLength piece) (ht : t.kind.isStop = true)
    (hy : y.head? ≠ some '\x27') :
    (tokenize (piece ++ y)).map (Token.shift (byteLength pre)) =
      ts ++ [t] ++ (tokenize y).map (Token.shift t.stop) := by
  have hreplaced := (run_of_piece h hu hstart hstop).replace ht hy
  have htokens := hreplaced.tokens_eq
  rw [hstart] at htokens
  rw [tokenize, ← Cursor.tokens_shift, tokenize, ← Cursor.tokens_shift]
  exact htokens

end Unbundle
