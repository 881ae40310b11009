import Unbundle.Proofs.Token.Locality.Comment
import Unbundle.Proofs.Token.Locality.Raw

/-! A token is read the same before texts that look the same, and a bracket or a semicolon before
any text. -/
namespace Unbundle

variable {c : Char} {cs y : Text}

/-- The first character starts a comment or a quoted literal, given the one after it. -/
def startsOpaque (c : Char) (next : Option Char) : Prop :=
  c = '"' ∨ c = '\x27' ∨ (c = '/' ∧ (next = some '/' ∨ next = some '*'))

/-- Outside comments and quotes a token is a word, a number or a mark. -/
theorem lexeme_plain (h : ¬ startsOpaque c cs.head?) :
    lexeme c cs =
      if c = 'r' ∨ c = 'b' ∨ c = 'c' then lettered c cs
      else if isIdentStart c then word c cs
      else if c.isDigit then ⟨(numberTail cs).after [c], .literal .number⟩
      else mark c cs := by
  unfold startsOpaque at h
  unfold lexeme
  split <;> simp_all

/-- What is taken before a text that looks the same goes on with the same character. -/
theorem head?_taken_tail_append (h : Ahead (lexeme c cs).rest y) :
    ((lexeme c cs).taken.tail ++ y).head? = cs.head? := by
  have hw := whole_lexeme c cs
  have hh := head?_lexeme c cs
  cases ht : (lexeme c cs).taken with
  | nil => simp [ht] at hh
  | cons b bs =>
    rw [ht, List.head?_cons, Option.some.injEq] at hh
    subst hh
    rw [Cut.whole, ht, List.cons_append, List.cons.injEq] at hw
    cases bs with
    | nil =>
      rw [List.tail_cons, List.nil_append, ← h.head?_eq]
      exact congrArg List.head? hw.2
    | cons a as =>
      have hd := congrArg List.head? hw.2
      rwa [List.cons_append, List.head?_cons] at hd

/-- A token is read the same before a text that looks the same. -/
theorem lexeme_withRest (h : Ahead (lexeme c cs).rest y) :
    lexeme c ((lexeme c cs).taken.tail ++ y) = (lexeme c cs).withRest y := by
  by_cases ho : startsOpaque c cs.head?
  · rcases ho with rfl | rfl | ⟨rfl, ho⟩
    · exact lexeme_string_withRest h
    · exact afterQuote_withRest h
    · obtain ⟨d, ds, rfl⟩ : ∃ d ds, cs = d :: ds := by cases cs <;> simp_all
      rw [List.head?_cons, Option.some.injEq, Option.some.injEq] at ho
      rcases ho with rfl | rfl
      · exact lexeme_lineComment_withRest h
      · exact lexeme_blockComment_closed h.ne_nil y
  · have hp := lexeme_plain ho
    have hp' := lexeme_plain ((head?_taken_tail_append h).symm ▸ ho)
    rw [hp']
    rw [hp] at h ⊢
    split
    · rename_i hl
      rw [if_pos hl] at h
      exact lettered_withRest h
    · rename_i hl
      rw [if_neg hl] at h
      split
      · rename_i hi
        rw [if_pos hi] at h
        exact word_withRest h
      · rename_i hi
        rw [if_neg hi] at h
        split
        · rename_i hd
          rw [if_pos hd] at h
          have hr : Ahead (numberTail cs).rest y := h
          have happ := numberTail_withRest hr
          simp only [Cut.after, List.cons_append, List.nil_append, List.tail_cons, happ]
          rfl
        · rfl

/-- The kinds of token that nothing after them can change or lengthen. -/
def TokenKind.isStop : TokenKind → Bool
  | .opener _ => true
  | .closer _ => true
  | .punct c => c == ';'
  | _ => false

def TokenKind.isLettered : TokenKind → Bool
  | .ident => true
  | .rawIdent => true
  | .literal _ => true
  | _ => false

theorem isLettered_rawOrWord {kind : LiteralKind} {before : Text} {l : Lexeme}
    (hl : l.kind.isLettered = true) : (rawOrWord kind before cs l).kind.isLettered = true := by
  unfold rawOrWord
  split
  · rfl
  · exact hl

theorem isLettered_lettered (c : Char) (cs : Text) : (lettered c cs).kind.isLettered = true := by
  unfold lettered
  split
  · exact isLettered_rawOrWord rfl
  · apply isLettered_rawOrWord
    split <;> rfl
  · rfl
  · rfl
  · exact isLettered_rawOrWord rfl
  · rfl
  · exact isLettered_rawOrWord rfl
  · rfl

theorem isStop_lettered (c : Char) (cs : Text) : (lettered c cs).kind.isStop = false := by
  have hkind := isLettered_lettered c cs
  cases hk : (lettered c cs).kind <;> simp_all [TokenKind.isLettered, TokenKind.isStop]

theorem isStop_afterQuote (cs : Text) : (afterQuote cs).kind.isStop = false := by
  unfold afterQuote
  split <;> (try split) <;> rfl

theorem eq_mark_of_isStop (h : (lexeme c cs).kind.isStop = true) : lexeme c cs = mark c cs := by
  unfold lexeme at h ⊢
  split at h
  · cases h
  · cases h
  · cases h
  · rw [isStop_afterQuote] at h
    cases h
  · split at h
    · rw [isStop_lettered] at h
      cases h
    · split at h
      · cases h
      · split at h
        · cases h
        · simp_all

theorem mem_of_isStop_mark (h : (mark c cs).kind.isStop = true) :
    c ∈ ['(', '[', '{', ')', ']', '}', ';'] := by
  unfold mark Delimiter.ofOpener? Delimiter.ofCloser? at h
  grind [TokenKind.isStop]

/-- A bracket is the character of its kind. -/
theorem taken_of_opener {d : Delimiter} (h : (lexeme c cs).kind = .opener d) :
    (lexeme c cs).taken = [c] ∧ Delimiter.ofOpener? c = some d := by
  have hmark := eq_mark_of_isStop (show (lexeme c cs).kind.isStop = true by rw [h]; rfl)
  rw [hmark] at h ⊢
  refine ⟨rfl, ?_⟩
  unfold mark at h
  simp only at h
  split at h
  · cases h
    assumption
  · cases h
  · cases h

theorem taken_of_closer {d : Delimiter} (h : (lexeme c cs).kind = .closer d) :
    (lexeme c cs).taken = [c] ∧ Delimiter.ofCloser? c = some d := by
  have hmark := eq_mark_of_isStop (show (lexeme c cs).kind.isStop = true by rw [h]; rfl)
  rw [hmark] at h ⊢
  refine ⟨rfl, ?_⟩
  unfold mark at h
  simp only at h
  split at h
  · cases h
  · cases h
    assumption
  · cases h

/-- Brackets and semicolons are read alone, before any text. -/
theorem lexeme_stop (h : (lexeme c cs).kind.isStop = true) :
    isFirm c = true ∧ ∀ y, lexeme c y = ⟨⟨[c], y, true⟩, (lexeme c cs).kind⟩ := by
  have hm := eq_mark_of_isStop h
  rw [hm] at h ⊢
  have hplain : isFirm c = true ∧ isIdentStart c = false ∧ c.isDigit = false ∧ c ≠ 'r' ∧ c ≠ 'b' ∧
      c ≠ 'c' ∧ c ≠ '"' ∧ c ≠ '\x27' ∧ c ≠ '/' := by
    have hc := mem_of_isStop_mark h
    simp only [List.mem_cons, List.not_mem_nil, or_false] at hc
    rcases hc with rfl | rfl | rfl | rfl | rfl | rfl | rfl <;> decide
  obtain ⟨hf, hi, hd, hr, hb, hcc, hq, hq', hs⟩ := hplain
  refine ⟨hf, fun y => ?_⟩
  have hletter : ¬ (c = 'r' ∨ c = 'b' ∨ c = 'c') := by simp [hr, hb, hcc]
  rw [lexeme_plain (by simp [startsOpaque, hq, hq', hs]), if_neg hletter, if_neg (by simp [hi]),
    if_neg (by simp [hd])]
  rfl

end Unbundle
