import Unbundle.Proofs.Text.Words
import Unbundle.Proofs.Token.Name
import Unbundle.Proofs.Token.Reading

/-! What a text shows to its reader, and how words stand in it: a word that is followed by no
literal and by no other word is read back as it is written. -/
namespace Unbundle

variable {c d : Char} {cs gap rest w x y : Text} {kind : TokenKind}
  {shown : List (TokenKind × Text)}

section Faces

def faces (text : Text) : List (TokenKind × Text) := (tokenize text).map Token.face

/-- They do not depend on where the text starts. -/
theorem map_face_tokens (offset : Nat) (x : Text) :
    (Cursor.tokens ⟨offset, x⟩).map Token.face = faces x := by
  have hshift := Cursor.tokens_shift offset ⟨0, x⟩
  rw [Nat.add_zero] at hshift
  rw [hshift, List.map_map]
  rfl

theorem faces_of_blank (h : x.all isBlank = true) : faces x = [] := by
  have hnone : (⟨0, x⟩ : Cursor).next? = none := Cursor.next?_eq_none.2 h
  rw [faces, tokenize, Cursor.tokens_of_next?_none hnone, List.map_nil]

@[simp] theorem faces_nil : faces [] = [] := faces_of_blank rfl

theorem faces_gap_cons (hg : gap.all isBlank = true) (hc : isBlank c = false) (cs : Text) :
    faces (gap ++ c :: cs) =
      ((lexeme c cs).kind, (lexeme c cs).taken) :: faces (lexeme c cs).rest := by
  rw [faces, tokenize, Cursor.tokens_of_next?_some (Cursor.next?_gap hg hc 0 cs), List.map_cons,
    map_face_tokens]
  rfl

theorem faces_cons (hc : isBlank c = false) (cs : Text) :
    faces (c :: cs) = ((lexeme c cs).kind, (lexeme c cs).taken) :: faces (lexeme c cs).rest := by
  rw [← List.nil_append (c :: cs)]
  exact faces_gap_cons rfl hc cs

theorem faces_gap (hg : gap.all isBlank = true) (x : Text) : faces (gap ++ x) = faces x := by
  rcases blank_or_gap_cons x with hx | ⟨inner, c, cs, hinner, hc, rfl⟩
  · rw [faces_of_blank hx, faces_of_blank (by rw [List.all_append, hg, hx]; rfl)]
  · have hboth : (gap ++ inner).all isBlank = true := by
      rw [List.all_append, hg, hinner]
      rfl
    rw [← List.append_assoc, faces_gap_cons hboth hc, faces_gap_cons hinner hc]

theorem Reads.faces_eq (h : Reads x shown y) : faces x = shown ++ faces y := by
  induction h with
  | done x => rfl
  | token hg hc h ih => rw [faces_gap_cons hg hc, ih, List.cons_append]

end Faces

section Identifiers

/-- No blank belongs to a word. -/
theorem isBlank_of_isIdentContinue (h : isIdentContinue c = true) : isBlank c = false := by
  simp only [isIdentContinue, Bool.or_eq_true, beq_iff_eq] at h
  rcases h with (rfl | h) | h
  · decide +kernel
  · exact isBlank_eq_false_of_inRanges (by decide +kernel) h
  · exact isBlank_eq_false_of_inRanges (by decide +kernel) h

theorem isIdentContinue_of_isBlank (h : isBlank c = true) : isIdentContinue c = false := by
  rw [← Bool.not_eq_true]
  intro hc
  rw [isBlank_of_isIdentContinue hc] at h
  cases h

theorem isLetter_of_isAlpha (h : c.isAlpha = true) : isLetter c = true := by
  have h : (decide (65 ≤ c.val ∧ c.val ≤ 90) || decide (97 ≤ c.val) && decide (c.val ≤ 122)) =
    true := h
  simp only [Bool.or_eq_true, Bool.and_eq_true, decide_eq_true_eq, UInt32.le_iff_toNat_le] at h
  have hranges : letterRanges = (0x41, 0x5A) :: (0x61, 0x7A) :: letterRanges.drop 2 := rfl
  rw [isLetter, hranges, inRanges, inRanges]
  change (65 ≤ c.toNat ∧ c.toNat ≤ 90) ∨ (97 ≤ c.toNat ∧ c.toNat ≤ 122) at h
  split_ifs <;> first | rfl | omega

theorem isNumeral_of_isDigit (h : c.isDigit = true) : isNumeral c = true := by
  simp only [Char.isDigit, Bool.and_eq_true, decide_eq_true_eq, ge_iff_le,
    UInt32.le_iff_toNat_le] at h
  have hranges : numeralRanges = (0x30, 0x39) :: numeralRanges.drop 1 := rfl
  rw [isNumeral, hranges, inRanges]
  change 48 ≤ c.toNat ∧ c.toNat ≤ 57 at h
  split_ifs <;> first | rfl | omega

theorem isIdentStart_of_isAlpha (h : (c == '_' || c.isAlpha) = true) : isIdentStart c = true := by
  rw [Bool.or_eq_true] at h
  rcases h with h | h
  · rw [isIdentStart, h, Bool.true_or]
  · rw [isIdentStart, isLetter_of_isAlpha h, Bool.or_true]

theorem isIdentContinue_of_isAlphanum (h : (c == '_' || c.isAlphanum) = true) :
    isIdentContinue c = true := by
  rw [Char.isAlphanum, ← Bool.or_assoc, Bool.or_eq_true] at h
  rcases h with h | h
  · exact isIdentContinue_of_isIdentStart (isIdentStart_of_isAlpha h)
  · rw [isIdentContinue, isNumeral_of_isDigit h, Bool.or_true]

/-- The character ends a word before it: it belongs to no word, and makes no literal and no raw word
of what stands before it. -/
def endsWord (c : Char) : Bool := !isIdentContinue c && c != '"' && c != '\x27' && c != '#'

theorem isIdentContinue_of_endsWord (h : endsWord c = true) : isIdentContinue c = false := by
  simp only [endsWord, Bool.and_eq_true, Bool.not_eq_true'] at h
  exact h.1.1.1

/-- Behind the letters of a word no raw string starts. -/
theorem rawString?_word (hw : w.all isIdentContinue = true)
    (hrest : ∀ d ∈ rest.head?, endsWord d = true) : rawString? (w ++ rest) = none := by
  have hhash : isIdentContinue '#' = false := by decide +kernel
  have hquote : isIdentContinue '"' = false := by decide +kernel
  have hfirst : ∀ d ∈ (w ++ rest).head?, d ≠ '#' ∧ d ≠ '"' := by
    cases w with
    | nil =>
      intro d hd
      have hends := hrest d hd
      simp only [endsWord, Bool.and_eq_true, bne_iff_ne] at hends
      exact ⟨hends.2, hends.1.1.2⟩
    | cons e w =>
      rintro d ⟨⟩
      rw [List.all_cons, Bool.and_eq_true] at hw
      constructor
      · rintro rfl
        simp [hhash] at hw
      · rintro rfl
        simp [hquote] at hw
  rw [rawString?_eq_none_iff]
  cases hx : w ++ rest with
  | nil => simp
  | cons d ds =>
    obtain ⟨hne, hne'⟩ := hfirst d (by rw [hx]; rfl)
    simp [hne, hne']

theorem word_append (hw : w.all isIdentContinue = true)
    (hrest : ∀ d ∈ rest.head?, isIdentContinue d = false) (c : Char) :
    word c (w ++ rest) = ⟨⟨c :: w, rest, true⟩, .ident⟩ := by
  rw [word, identTail, run_append hw hrest]
  rfl

/-- The letters that may start a literal start a word, too. -/
theorem lettered_append (hw : w.all isIdentContinue = true)
    (hrest : ∀ d ∈ rest.head?, endsWord d = true) (c : Char) :
    lettered c (w ++ rest) = word c (w ++ rest) := by
  by_cases hp : startsPrefixed c (w ++ rest).head?
  · have hnone := rawString?_word hw hrest
    have hr : (c = 'b' ∨ c = 'c') ∧ ∃ v, w = 'r' :: v := by
      cases w with
      | nil =>
        have hr : isIdentContinue 'r' = true := by decide +kernel
        exfalso
        rcases hp with ⟨-, h | h⟩ | ⟨-, h | h | h⟩ | ⟨-, h | h⟩ <;>
          · have hends := hrest _ h
            simp [endsWord, hr] at hends
      | cons e v =>
        have hquote : isIdentContinue '"' = false := by decide +kernel
        have hsingle : isIdentContinue '\x27' = false := by decide +kernel
        have hhash : isIdentContinue '#' = false := by decide +kernel
        simp only [List.all_cons, Bool.and_eq_true] at hw
        rcases hp with ⟨-, h | h⟩ | ⟨rfl, h | h | h⟩ | ⟨rfl, h | h⟩ <;>
          obtain rfl : e = _ := Option.some.inj h <;> simp_all
    obtain ⟨hc, v, rfl⟩ := hr
    rw [List.all_cons, Bool.and_eq_true] at hw
    have hnone := rawString?_word hw.2 hrest
    rcases hc with rfl | rfl
    · exact rawOrWord_none hnone _
    · exact rawOrWord_none hnone _
  · exact lettered_word hp

theorem not_startsOpaque_of_isIdentStart (hc : isIdentStart c = true) (next : Option Char) :
    ¬ startsOpaque c next := by
  have hquote : isIdentStart '"' = false := by decide +kernel
  have hsingle : isIdentStart '\x27' = false := by decide +kernel
  have hslash : isIdentStart '/' = false := by decide +kernel
  rintro (rfl | rfl | ⟨rfl, -⟩) <;> simp_all

/-- A word is read back where it ends. -/
theorem lexeme_identifier (hw : isIdentifier (c :: w) = true)
    (hrest : ∀ d ∈ rest.head?, endsWord d = true) :
    lexeme c (w ++ rest) = ⟨⟨c :: w, rest, true⟩, .ident⟩ := by
  rw [isIdentifier, Bool.and_eq_true] at hw
  have hend : ∀ d ∈ rest.head?, isIdentContinue d = false := by
    intro d hd
    exact isIdentContinue_of_endsWord (hrest d hd)
  rw [lexeme_plain (not_startsOpaque_of_isIdentStart hw.1 _), if_pos hw.1,
    lettered_append hw.2 hrest, ite_self, word_append hw.2 hend]

/-- So is a raw one. -/
theorem lexeme_rawIdentifier (hw : isIdentifier w = true)
    (hrest : ∀ d ∈ rest.head?, isIdentContinue d = false) :
    lexeme 'r' ('#' :: (w ++ rest)) = ⟨⟨'r' :: '#' :: w, rest, true⟩, .rawIdent⟩ := by
  have hall := all_of_isIdentifier hw
  have hhash : isIdentStart '#' = false := by decide +kernel
  have hquote : isIdentStart '"' = false := by decide +kernel
  cases w with
  | nil => cases hw
  | cons c w =>
    rw [isIdentifier, Bool.and_eq_true] at hw
    have hnone : rawString? ('#' :: (c :: w ++ rest)) = none := by
      have hne : c ≠ '#' := by
        rintro rfl
        simp [hhash] at hw
      have hne' : c ≠ '"' := by
        rintro rfl
        simp [hquote] at hw
      rw [rawString?_eq_none_iff]
      simp [hne, hne']
    have hopaque : ¬ startsOpaque 'r' ('#' :: (c :: w ++ rest)).head? := by simp [startsOpaque]
    rw [lexeme_plain hopaque, if_pos (.inl rfl), lettered_r_hash, rawOrWord_none hnone,
      if_pos (by simp [hw.1]), identTail, run_append hall hrest]
    rfl

theorem isIdentifier_of_ident (h : (lexeme c cs).kind = .ident) :
    isIdentifier (lexeme c cs).taken = true := by
  have hspell := spells_lexeme (show (lexeme c cs).kind.isName = true by rw [h]; rfl)
  rw [h] at hspell
  generalize (lexeme c cs).taken = w at hspell
  cases hspell with
  | word hw => exact hw

theorem isIdentStart_of_ident (h : (lexeme c cs).kind = .ident) : isIdentStart c = true := by
  have hword := isIdentifier_of_ident h
  obtain ⟨w, hw⟩ := List.head?_eq_some_iff.1 (head?_lexeme c cs)
  rw [hw, isIdentifier, Bool.and_eq_true] at hword
  exact hword.1

theorem rest_word (c : Char) (cs : Text) :
    ∀ d ∈ (word c cs).rest.head?, isIdentContinue d = false := by
  intro d hd
  have hfirst := List.head?_dropWhile_not isIdentContinue cs
  have hd : (cs.dropWhile isIdentContinue).head? = some d := hd
  simpa [hd] using hfirst

theorem rest_rawOrWord {literal : LiteralKind} {before : Text} {l : Lexeme}
    (hl : l.kind = .ident → ∀ d ∈ l.rest.head?, isIdentContinue d = false)
    (h : (rawOrWord literal before cs l).kind = .ident) :
    ∀ d ∈ (rawOrWord literal before cs l).rest.head?, isIdentContinue d = false := by
  unfold rawOrWord at h ⊢
  split at h
  · cases h
  · exact hl h

theorem rest_lettered (h : (lettered c cs).kind = .ident) :
    ∀ d ∈ (lettered c cs).rest.head?, isIdentContinue d = false := by
  unfold lettered at h ⊢
  split at h
  · exact rest_rawOrWord (fun _ => rest_word _ _) h
  · refine rest_rawOrWord ?_ h
    split
    · exact nofun
    · exact fun _ => rest_word _ _
  · cases h
  · cases h
  · exact rest_rawOrWord (fun _ => rest_word _ _) h
  · cases h
  · exact rest_rawOrWord (fun _ => rest_word _ _) h
  · exact rest_word _ _

/-- A word is read to its end. -/
theorem rest_of_ident (h : (lexeme c cs).kind = .ident) :
    ∀ d ∈ (lexeme c cs).rest.head?, isIdentContinue d = false := by
  have hstart := isIdentStart_of_ident h
  rw [lexeme_plain (not_startsOpaque_of_isIdentStart hstart _), if_pos hstart] at h ⊢
  split
  · rename_i hletter
    rw [if_pos hletter] at h
    exact rest_lettered h
  · exact rest_word c cs

end Identifiers

section Reading

/-- The character is a token of its own, whatever follows it. -/
def standsAlone (c : Char) : Bool :=
  !isIdentStart c && !c.isDigit && !isBlank c && c != '"' && c != '\x27' && c != '/'

theorem lexeme_mark (hc : standsAlone c = true) (rest : Text) : lexeme c rest = mark c rest := by
  simp only [standsAlone, Bool.and_eq_true, Bool.not_eq_true', bne_iff_ne] at hc
  obtain ⟨⟨⟨⟨⟨hstart, hdigit⟩, -⟩, hquote⟩, hsingle⟩, hslash⟩ := hc
  have hletter : ¬ (c = 'r' ∨ c = 'b' ∨ c = 'c') := by
    rintro (rfl | rfl | rfl) <;> revert hstart <;> decide +kernel
  have hopaque : ¬ startsOpaque c rest.head? := by simp [startsOpaque, hquote, hsingle, hslash]
  rw [lexeme_plain hopaque, if_neg hletter, if_neg (by simp [hstart]), if_neg (by simp [hdigit])]

theorem faces_mark (hc : standsAlone c = true) (rest : Text) :
    faces (c :: rest) = ((mark c rest).kind, [c]) :: faces rest := by
  have hblank : isBlank c = false := by
    simp only [standsAlone, Bool.and_eq_true, Bool.not_eq_true'] at hc
    exact hc.1.1.1.2
  have hread := faces_cons hblank rest
  rwa [lexeme_mark hc] at hread

theorem faces_identifier (hw : isIdentifier w = true)
    (hrest : ∀ d ∈ rest.head?, endsWord d = true) :
    faces (w ++ rest) = (.ident, w) :: faces rest := by
  cases w with
  | nil => cases hw
  | cons c w =>
    have hblank : isBlank c = false := by
      rw [isIdentifier, Bool.and_eq_true] at hw
      exact isBlank_of_isIdentContinue (isIdentContinue_of_isIdentStart hw.1)
    have hread := faces_cons hblank (w ++ rest)
    rwa [lexeme_identifier hw hrest] at hread

/-- A text may be told a word before its first token. -/
theorem Reads.identifier (h : Reads x shown y) (hg : gap.all isBlank = true)
    (hw : isIdentifier w = true) (hx : ∀ d ∈ x.head?, endsWord d = true) :
    Reads (gap ++ (w ++ x)) ((.ident, w) :: shown) y := by
  cases w with
  | nil => cases hw
  | cons c w =>
    have hlex := lexeme_identifier hw hx
    have hrest : Reads (lexeme c (w ++ x)).rest shown y := by rwa [hlex]
    rw [isIdentifier, Bool.and_eq_true] at hw
    have hblank := isBlank_of_isIdentContinue (isIdentContinue_of_isIdentStart hw.1)
    have hread := Reads.token hg hblank hrest
    rwa [hlex] at hread

theorem faces_rawIdentifier (hw : isIdentifier w = true)
    (hrest : ∀ d ∈ rest.head?, isIdentContinue d = false) :
    faces ('r' :: '#' :: (w ++ rest)) = (.rawIdent, 'r' :: '#' :: w) :: faces rest := by
  have hblank : isBlank 'r' = false := by decide +kernel
  have hread := faces_cons hblank ('#' :: (w ++ rest))
  rwa [lexeme_rawIdentifier hw hrest] at hread

/-- What is spelled as a name is read back as that name. -/
theorem Spells.faces_append (h : Spells kind w) (hrest : ∀ d ∈ rest.head?, endsWord d = true) :
    faces (w ++ rest) = (kind, w) :: faces rest := by
  cases h with
  | word hw => exact faces_identifier hw hrest
  | raw hw =>
    refine faces_rawIdentifier hw ?_
    intro d hd
    exact isIdentContinue_of_endsWord (hrest d hd)

end Reading
section Words

variable {ws : List Text}

theorem endsWord_of_isBlank (h : isBlank c = true) : endsWord c = true := by
  have hhash : isBlank '#' = false := by decide +kernel
  have hquote : isBlank '"' = false := by decide +kernel
  have hsingle : isBlank '\x27' = false := by decide +kernel
  simp only [endsWord, isIdentContinue_of_isBlank h, Bool.not_false, Bool.true_and,
    Bool.and_eq_true, bne_iff_ne]
  refine ⟨⟨?_, ?_⟩, ?_⟩ <;>
    · rintro rfl
      simp_all

theorem isWord_of_isIdentifier (hw : isIdentifier w = true) : IsWord w := by
  refine ⟨?_, List.all_eq_true.2 ?_⟩
  · rintro rfl
    cases hw
  · intro c hc
    have hcont := List.all_eq_true.1 (all_of_isIdentifier hw) c hc
    rw [isBlank_of_isIdentContinue hcont, Bool.not_false]

/-- Only blanks show nothing. -/
theorem isBlank_of_faces_eq_nil (h : faces x = []) : x.all isBlank = true := by
  rcases blank_or_gap_cons x with hx | ⟨gap, c, cs, hg, hc, rfl⟩
  · exact hx
  · rw [faces_gap_cons hg hc] at h
    cases h

theorem faces_paren : faces [')'] = [(.closer .paren, [')'])] := by
  have hmark := faces_mark (show standsAlone ')' = true by decide +kernel) []
  rwa [faces_nil] at hmark

/-- Words that are identifiers are read back, before what ends a word. -/
theorem faces_of_words (hx : words x = ws) (hws : ∀ w ∈ ws, isIdentifier w = true)
    (hy : ∀ d ∈ y.head?, endsWord d = true) : faces (x ++ y) = ws.map (.ident, ·) ++ faces y := by
  induction ws generalizing x with
  | nil => rw [faces_gap (isBlank_of_words_eq_nil hx), List.map_nil, List.nil_append]
  | cons w ws ih =>
    rcases blank_or_gap_cons x with hblank | ⟨gap, c, cs, hg, hc, rfl⟩
    · rw [words_of_blank hblank] at hx
      cases hx
    · obtain ⟨v, rest, -, hsplit, hwords, hrest⟩ := exists_first_word hc cs
      rw [words_gap hg, hwords] at hx
      obtain ⟨rfl, hwords'⟩ := List.cons.inj hx
      have hends : ∀ d ∈ (rest ++ y).head?, endsWord d = true := by
        cases rest with
        | nil => exact hy
        | cons d rest =>
          rintro e ⟨⟩
          exact endsWord_of_isBlank (hrest d rfl)
      rw [hsplit, List.append_assoc, faces_gap hg, List.append_assoc,
        faces_identifier (hws v List.mem_cons_self) hends,
        ih hwords' (fun w hw => hws w (List.mem_cons_of_mem v hw))]
      rfl

/-- What shows words before a closing parenthesis consists of them. -/
theorem words_of_faces (h : faces (x ++ [')']) = ws.map (.ident, ·) ++ [(.closer .paren, [')'])]) :
    words x = ws := by
  induction ws generalizing x with
  | nil =>
    rcases blank_or_gap_cons x with hx | ⟨gap, c, cs, hg, hc, rfl⟩
    · exact words_of_blank hx
    · rw [List.append_assoc, List.cons_append, faces_gap_cons hg hc] at h
      obtain ⟨hface, hrest⟩ := List.cons.inj h
      have hwhole := whole_lexeme c (cs ++ [')'])
      rw [Cut.whole, (Prod.mk.inj hface).2, List.singleton_append] at hwhole
      have hblank := isBlank_of_faces_eq_nil hrest
      have hparen : isBlank ')' = false := by decide +kernel
      simp [(List.cons.inj hwhole).2, hparen] at hblank
  | cons w ws ih =>
    rcases blank_or_gap_cons x with hx | ⟨gap, c, cs, hg, hc, rfl⟩
    · rw [faces_gap hx, faces_paren] at h
      cases h
    · rw [List.append_assoc, List.cons_append, faces_gap_cons hg hc] at h
      obtain ⟨hface, hrest⟩ := List.cons.inj h
      obtain ⟨hkind, rfl⟩ := Prod.mk.inj hface
      have hwhole := whole_lexeme c (cs ++ [')'])
      have hend := rest_of_ident hkind
      have hword := isIdentifier_of_ident hkind
      rw [Cut.whole] at hwhole
      generalize (lexeme c (cs ++ [')'])).taken = w at *
      generalize (lexeme c (cs ++ [')'])).rest = rest at *
      rcases List.eq_nil_or_concat rest with rfl | ⟨r, d, rfl⟩
      · simp at hrest
      rw [List.concat_eq_append] at hwhole hend hrest
      rw [← List.append_assoc, ← List.cons_append] at hwhole
      obtain ⟨hsplit, hd⟩ := List.append_inj' hwhole rfl
      obtain rfl := List.singleton_inj.1 hd
      have hx := ih hrest
      have hblank : ∀ e ∈ r.head?, isBlank e = true := by
        intro e he
        obtain ⟨tail, rfl⟩ := List.head?_eq_some_iff.1 he
        by_contra hne
        have hne : isBlank e = false := by simpa using hne
        cases ws with
        | nil =>
          have hall := isBlank_of_words_eq_nil hx
          rw [List.all_cons, hne] at hall
          cases hall
        | cons v ws =>
          rw [List.cons_append, faces_cons hne] at hrest
          have hkind := (Prod.mk.inj (List.cons.inj hrest).1).1
          have hcont := isIdentContinue_of_isIdentStart (isIdentStart_of_ident hkind)
          rw [hend e rfl] at hcont
          cases hcont
      rw [words_gap hg, ← hsplit, words_word (isWord_of_isIdentifier hword) hblank, hx]

end Words
end Unbundle
