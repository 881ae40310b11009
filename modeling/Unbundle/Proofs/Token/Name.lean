import Unbundle.Proofs.Token.Run

/-! The tokens that can name an item are spelled as words, or as words behind `r#`. -/
namespace Unbundle

variable {c : Char} {cs w : Text}

def TokenKind.isName (kind : TokenKind) : Bool := kind == .ident || kind == .rawIdent

/-- A word: it starts as words do and goes on as words do. -/
def isIdentifier : Text → Bool
  | [] => false
  | c :: cs => isIdentStart c && cs.all isIdentContinue

/-- The spelling of a name: a word, or one behind `r#`. -/
inductive Spells : TokenKind → Text → Prop
  | word {w : Text} (h : isIdentifier w = true) : Spells .ident w
  | raw {w : Text} (h : isIdentifier w = true) : Spells .rawIdent ('r' :: '#' :: w)

theorem isIdentContinue_of_isIdentStart (h : isIdentStart c = true) : isIdentContinue c = true := by
  unfold isIdentStart at h
  unfold isIdentContinue
  rw [h, Bool.true_or]

theorem all_of_isIdentifier (h : isIdentifier w = true) : w.all isIdentContinue = true := by
  cases w with
  | nil => rfl
  | cons c cs =>
    rw [isIdentifier, Bool.and_eq_true] at h
    rw [List.all_cons, isIdentContinue_of_isIdentStart h.1, h.2, Bool.and_self]

/-- A character that no word goes on with is in none. -/
theorem notMem_of_isIdentifier (hc : isIdentContinue c = false) (h : isIdentifier w = true) :
    c ∉ w := by
  intro hmem
  rw [List.all_eq_true.1 (all_of_isIdentifier h) c hmem] at hc
  cases hc

theorem all_identTail (cs : Text) : (identTail cs).taken.all isIdentContinue = true :=
  List.all_takeWhile

theorem isIdentifier_identTail (h : cs.head?.any isIdentStart = true) :
    isIdentifier (identTail cs).taken = true := by
  cases cs with
  | nil => cases h
  | cons c cs =>
    have hc : isIdentStart c = true := h
    have htail : (identTail (c :: cs)).taken = c :: (identTail cs).taken :=
      List.takeWhile_cons_of_pos (isIdentContinue_of_isIdentStart hc)
    rw [htail, isIdentifier, hc, all_identTail, Bool.and_self]

theorem spells_word (hc : isIdentStart c = true) : Spells (word c cs).kind (word c cs).taken := by
  apply Spells.word
  simp only [word, Cut.after, List.singleton_append, isIdentifier, hc, all_identTail, Bool.and_self]

/-- A raw string is no name. -/
theorem spells_rawOrWord {kind : LiteralKind} {before : Text} {l : Lexeme}
    (hl : Spells l.kind l.taken) (h : (rawOrWord kind before cs l).kind.isName = true) :
    Spells (rawOrWord kind before cs l).kind (rawOrWord kind before cs l).taken := by
  unfold rawOrWord at h ⊢
  split at h
  · cases h
  · exact hl

theorem spells_lettered (hc : isIdentStart c = true) (h : (lettered c cs).kind.isName = true) :
    Spells (lettered c cs).kind (lettered c cs).taken := by
  unfold lettered at h ⊢
  split at h
  · exact spells_rawOrWord (spells_word hc) h
  · refine spells_rawOrWord ?_ h
    split
    · rename_i hstart
      exact .raw (isIdentifier_identTail hstart)
    · exact spells_word hc
  · cases h
  · cases h
  · exact spells_rawOrWord (spells_word hc) h
  · cases h
  · exact spells_rawOrWord (spells_word hc) h
  · exact spells_word hc

theorem isName_afterQuote (cs : Text) : (afterQuote cs).kind.isName = false := by
  unfold afterQuote
  split <;> (try split) <;> rfl

theorem isName_mark (c : Char) (cs : Text) : (mark c cs).kind.isName = false := by
  unfold mark
  simp only
  split <;> rfl

/-- What is read as a name is spelled as one. -/
theorem spells_lexeme (h : (lexeme c cs).kind.isName = true) :
    Spells (lexeme c cs).kind (lexeme c cs).taken := by
  unfold lexeme at h ⊢
  split at h
  · cases h
  · cases h
  · cases h
  · rw [isName_afterQuote] at h
    cases h
  · split at h
    · rename_i hletter
      rw [if_pos hletter]
      refine spells_lettered ?_ h
      rcases hletter with rfl | rfl | rfl <;> decide +kernel
    · rename_i hletter
      rw [if_neg hletter]
      split at h
      · rename_i hstart
        rw [if_pos hstart]
        exact spells_word hstart
      · split at h
        · cases h
        · rw [isName_mark] at h
          cases h

/-- So every name in a text is. -/
theorem spells_of_mem_tokenize {text : Text} {t : Token} (ht : t ∈ tokenize text)
    (hname : t.isName = true) : Spells t.kind t.chars := by
  obtain ⟨before, c, cs, -, -, -, hkind, hchars, -⟩ := exists_lexeme_of_mem ht
  rw [hkind, hchars]
  apply spells_lexeme
  rw [← hkind]
  exact hname

end Unbundle
