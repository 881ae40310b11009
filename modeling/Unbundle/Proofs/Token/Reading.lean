import Mathlib.Data.List.Forall2
import Unbundle.Proofs.Token.Locality

/-! What is read, apart from where it stands: the kinds and the characters of tokens. Texts that are
put together from pieces are read piece by piece. -/
namespace Unbundle

def Token.face (t : Token) : TokenKind × Text := (t.kind, t.chars)

/-- Reading `x` up to `y` gives these kinds and characters. -/
inductive Reads : Text → List (TokenKind × Text) → Text → Prop
  | done (x : Text) : Reads x [] x
  | token {gap cs y : Text} {c : Char} {faces : List (TokenKind × Text)}
      (hg : gap.all isBlank = true) (hc : isBlank c = false)
      (h : Reads (lexeme c cs).rest faces y) :
      Reads (gap ++ c :: cs) (((lexeme c cs).kind, (lexeme c cs).taken) :: faces) y

namespace Reads

variable {x y z gap : Text} {faces others : List (TokenKind × Text)}

theorem trans (h : Reads x faces y) (h' : Reads y others z) : Reads x (faces ++ others) z := by
  induction h with
  | done x => exact h'
  | token hg hc h ih => exact .token hg hc (ih h')

/-- Blanks before the first token are passed over. -/
theorem skip (hg : gap.all isBlank = true) (h : Reads x faces y) (hne : faces ≠ []) :
    Reads (gap ++ x) faces y := by
  cases h with
  | done => exact absurd rfl hne
  | @token gap' cs y c faces hg' hc h =>
    rw [← List.append_assoc]
    refine .token ?_ hc h
    rw [List.all_append, hg, hg', Bool.and_self]

theorem of_run {cur last : Cursor} {ts : List Token} (h : Cursor.Run cur ts last) :
    Reads cur.rest (ts.map Token.face) last.rest := by
  induction h with
  | refl cur => exact .done cur.rest
  | step h rest ih =>
    obtain ⟨gap, c, cs, hr, hg, hc, rfl, rfl⟩ := Cursor.next?_eq_some h
    rw [hr]
    exact .token hg hc ih

theorem map_face_tokens (h : Reads x faces y) (hy : y.all isBlank = true) (offset : Nat) :
    (Cursor.tokens ⟨offset, x⟩).map Token.face = faces := by
  induction h generalizing offset with
  | done x => rw [Cursor.tokens_of_next?_none (Cursor.next?_eq_none.2 hy), List.map_nil]
  | token hg hc h ih =>
    rw [Cursor.tokens_of_next?_some (Cursor.next?_gap hg hc offset _), List.map_cons, ih hy]
    rfl

/-- What is read up to blanks is what the text holds. -/
theorem map_face_tokenize (h : Reads x faces y) (hy : y.all isBlank = true) :
    (tokenize x).map Token.face = faces :=
  h.map_face_tokens hy 0

end Reads

/-- The text is read as these tokens, one at least, before any text but a quote. -/
structure ReadsAs (text : Text) (faces : List (TokenKind × Text)) : Prop where
  ne_nil : faces ≠ []
  reads : ∀ y : Text, y.head? ≠ some '\x27' → Reads (text ++ y) faces y

/-- Texts that are joined by blank lines are read one after the other. -/
theorem reads_joinWith {α : Type} {items : List α} {texts : List Text}
    {faces : α → List (TokenKind × Text)}
    (h : List.Forall₂ (fun item text => ReadsAs text (faces item)) items texts) :
    Reads (joinWith ['\n', '\n'] texts ++ ['\n']) (items.flatMap faces) ['\n'] := by
  induction h with
  | nil => exact .done ['\n']
  | @cons item text items texts hread hrest ih =>
    cases hrest with
    | nil =>
      rw [joinWith, List.flatMap_singleton]
      exact hread.reads _ (by decide)
    | @cons next text' items texts hnext hrest =>
      have hblank : (['\n', '\n'] : Text).all isBlank = true := by decide +kernel
      have hne : (next :: items).flatMap faces ≠ [] := by
        rw [List.flatMap_cons]
        intro hnil
        exact hnext.ne_nil (List.append_eq_nil_iff.1 hnil).1
      rw [joinWith, List.flatMap_cons, List.append_assoc, List.append_assoc]
      · exact (hread.reads _ (by simp)).trans (ih.skip hblank hne)
      · exact nofun

namespace Cursor

variable {cur mid : Cursor} {as bs : List Token} {a b t : Token} {gap rest w x y z : Text}
  {offset stop : Nat}

/-- A comment or a closing bracket that blanks follow stands before those blanks and any other
text. -/
theorem Run.stands_before_gap (h : Run cur (as ++ [a]) mid)
    (ha : (∃ kind, a.kind = .comment kind) ∨ a.kind.isStop = true) (hmid : mid.rest = gap ++ rest)
    (hg : gap.all isBlank = true) (hrest : ∃ c, rest.head? = some c ∧ isBlank c = false)
    (hw : w.head? ≠ some '\x27') : a.Stands (gap ++ w) := by
  obtain ⟨d, hd, hblank⟩ := hrest
  have hquote : isBlank '\x27' = false := by decide +kernel
  have hnewline : isBlank '\n' = true := by decide +kernel
  rcases ha with ⟨kind, hkind⟩ | hstop
  · obtain ⟨c, cs, hchars, hk, hclosed, hr⟩ := h.exists_read
    refine Token.stands_of_comment hchars hk hclosed hkind ?_ ?_
    · rw [← hr, hmid]
      intro hnil
      rw [(List.append_eq_nil_iff.1 hnil).2] at hd
      cases hd
    · rw [← hr, hmid]
      cases gap with
      | nil =>
        intro hhead
        obtain rfl : d = '\n' := Option.some.inj (hd.symm.trans hhead)
        rw [hnewline] at hblank
        cases hblank
      | cons e gap => exact id
  · apply h.stands_of_isStop hstop
    cases gap with
    | nil => exact hw
    | cons e gap =>
      intro hhead
      obtain rfl : e = '\x27' := Option.some.inj hhead
      simp [hquote] at hg

/-- What stands before a token is read before other texts as the tokens before it, up to the blanks
behind the last of them. -/
theorem Run.reads_before (h : Run ⟨offset, x ++ rest⟩ (as ++ [a] ++ [b]) mid)
    (hcut : b.start = offset + byteLength x)
    (ha : (∃ kind, a.kind = .comment kind) ∨ a.kind.isStop = true) (hw : w.head? ≠ some '\x27') :
    ∃ gap, gap.all isBlank = true ∧ Reads (x ++ w) ((as ++ [a]).map Token.face) (gap ++ w) := by
  obtain ⟨last, h₁, h₂⟩ := h.split
  obtain ⟨gap, rest', hrest, hg, hgap, hhead, -⟩ := h₂.skip
  obtain ⟨taken, htaken, hoff⟩ := h₁.exists_consumed
  simp only at htaken hoff
  have hwhole : x ++ rest = (taken ++ gap) ++ rest' := by
    rw [htaken, hrest, List.append_assoc]
  obtain ⟨rfl, -⟩ := append_inj_of_byteLength hwhole (by rw [byteLength_append]; omega)
  have hstands := h₁.stands_before_gap ha hrest hg hhead hw
  rw [htaken] at h₁
  refine ⟨gap, hg, ?_⟩
  rw [List.append_assoc]
  exact Reads.of_run (h₁.replace_rest hstands)

end Cursor
end Unbundle
