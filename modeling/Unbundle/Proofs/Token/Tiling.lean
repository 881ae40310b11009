import Unbundle.Proofs.Token.Run

/-! Tokens tile their text: between them, before the first and behind the last there is nothing but
blanks, so that the text is its tokens and its gaps. -/
namespace Unbundle

/-- From `offset` on, gaps of blanks and tokens in turn make up the text. -/
inductive Tiles : Nat → List Token → Text → Prop
  | gap {offset : Nat} {gap : Text} (hg : gap.all isBlank = true) : Tiles offset [] gap
  | token {offset : Nat} {gap rest : Text} {t : Token} {ts : List Token} {c : Char}
      (hg : gap.all isBlank = true) (hstart : t.start = offset + byteLength gap)
      (hc : t.chars.head? = some c) (hb : isBlank c = false) (h : Tiles t.stop ts rest) :
      Tiles offset (t :: ts) (gap ++ (t.chars ++ rest))

def woven (gaps : List Text) (ts : List Token) : Text :=
  (List.zipWith (fun gap t => gap ++ t.chars) gaps ts).flatten

namespace Tiles

variable {offset : Nat} {text : Text} {ts : List Token} {t : Token}

/-- What is read on the way from one place to another, and the blanks behind it, tiles the text
there. -/
theorem of_run {cur last : Cursor} (h : Cursor.Run cur ts last)
    (hlast : last.rest.all isBlank = true) : Tiles cur.offset ts cur.rest := by
  induction h with
  | refl cur => exact .gap hlast
  | @step cur mid last t ts h rest ih =>
    obtain ⟨gap, c, cs, hr, hg, hb, rfl, rfl⟩ := Cursor.next?_eq_some h
    have hw : cur.rest = gap ++ ((lexeme c cs).taken ++ (lexeme c cs).rest) := by
      rw [hr]
      exact congrArg (gap ++ ·) (whole_lexeme c cs).symm
    rw [hw]
    exact .token hg rfl (head?_lexeme c cs) hb (ih hlast)

theorem exists_gaps (h : Tiles offset ts text) :
    ∃ gaps last, gaps.length = ts.length ∧ (∀ gap ∈ gaps, gap.all isBlank = true) ∧
      last.all isBlank = true ∧ text = woven gaps ts ++ last := by
  induction h with
  | @gap offset gap hg => exact ⟨[], gap, rfl, by simp, hg, rfl⟩
  | @token offset gap rest t ts c hg hstart hc hb h ih =>
    obtain ⟨gaps, last, hlen, hgaps, hlast, rfl⟩ := ih
    refine ⟨gap :: gaps, last, by simp [hlen], ?_, hlast, by simp [woven]⟩
    intro g hmem
    rcases List.mem_cons.1 hmem with rfl | hmem
    · exact hg
    · exact hgaps g hmem

/-- A character that lies in no token is blank. -/
theorem isBlank_of_outside (h : Tiles offset ts text) {before after : Text} {c : Char}
    (htext : text = before ++ c :: after)
    (hout : ∀ t ∈ ts, t.span.contains (offset + byteLength before) = false) : isBlank c = true := by
  induction h generalizing before with
  | gap hg =>
    apply List.all_eq_true.1 hg
    simp [htext]
  | @token offset gap rest t ts d hg hstart hc hb h ih =>
    rcases Nat.lt_or_ge (byteLength before) (byteLength gap) with hlt | hge
    · obtain ⟨mid, rfl, hmid⟩ := exists_between htext.symm (Nat.le_of_lt hlt)
      cases mid with
      | nil => simp at hlt
      | cons e mid =>
        obtain ⟨rfl, -⟩ := List.cons.inj hmid
        apply List.all_eq_true.1 hg
        simp
    · have hbehind : byteLength gap + byteLength t.chars ≤ byteLength before := by
        have hnot := hout t List.mem_cons_self
        rw [← Bool.not_eq_true, Span.contains_iff] at hnot
        simp only [Token.span, Token.stop] at hnot
        omega
      obtain ⟨mid, rfl, hmid⟩ := exists_between (a := gap ++ t.chars) (b := before)
        (by rw [List.append_assoc]; exact htext) (by rw [byteLength_append]; exact hbehind)
      apply ih hmid
      intro u hu
      have hu := hout u (List.mem_cons_of_mem t hu)
      rw [byteLength_append, byteLength_append, ← Nat.add_assoc, ← Nat.add_assoc, ← hstart] at hu
      exact hu

end Tiles

/-- What it means that tokens and blanks make up a text. -/
structure Tiled (text : Text) (ts : List Token) : Prop where
  nonempty : ∀ t ∈ ts, t.start < t.stop
  place : ∀ t ∈ ts, slice text t.start t.stop = .ok t.chars
  visible : ∀ t ∈ ts, ∃ c, t.chars.head? = some c ∧ isBlank c = false
  increasing : ts.Pairwise fun t u => t.start < u.start
  disjoint : ts.Pairwise fun t u => t.stop ≤ u.start
  outside : ∀ before c after, text = before ++ c :: after →
    (∀ t ∈ ts, t.span.contains (byteLength before) = false) → isBlank c = true
  recovered : ∃ gaps last, gaps.length = ts.length ∧ (∀ gap ∈ gaps, gap.all isBlank = true) ∧
    last.all isBlank = true ∧ text = woven gaps ts ++ last

theorem slice_of_mem_tokenize {text : Text} {t : Token} (h : t ∈ tokenize text) :
    slice text t.start t.stop = .ok t.chars := by
  obtain ⟨before, after, rfl, hb, -⟩ := exists_place_of_mem_tokenize h
  rw [Token.stop, ← hb]
  exact slice_append before t.chars after

/-- Reading a text comes to its end, and the tokens read on the way tile it. -/
theorem tokenize_tiles (text : Text) :
    (∃ last, Cursor.Run ⟨0, text⟩ (tokenize text) last ∧ last.next? = none) ∧
      Tiled text (tokenize text) := by
  obtain ⟨last, hrun, hblank⟩ := Cursor.exists_run ⟨0, text⟩
  have htiles : Tiles 0 (tokenize text) text := .of_run hrun hblank
  have hnonempty : ∀ t ∈ tokenize text, t.start < t.stop := by
    intro t ht
    exact (hrun.bounds t ht).2.1
  refine ⟨⟨last, hrun, Cursor.next?_eq_none.2 hblank⟩, hnonempty, ?_, ?_, ?_, ?_, ?_, ?_⟩
  · intro t ht
    exact slice_of_mem_tokenize ht
  · intro t ht
    exact isBlank_head_of_mem_tokenize ht
  · apply (pairwise_tokenize text).imp_of_mem
    intro t u ht _ hle
    have := hnonempty t ht
    omega
  · exact pairwise_tokenize text
  · intro before c after htext hout
    apply htiles.isBlank_of_outside htext
    intro t ht
    rw [Nat.zero_add]
    exact hout t ht
  · exact htiles.exists_gaps

end Unbundle
