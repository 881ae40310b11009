import Unbundle.Proofs.Token.Grammar.Shortest

/-! The grammar of literals and comments. Each of them is the shortest word of its form where it
starts; one that is not ended there runs to the end of the text, and then it is the last token. -/
namespace Unbundle

variable {c q : Char} {cs lead rest x y : Text} {m n : Nat} {cut : Cut} {kind : TokenKind}
  {literal : LiteralKind}

section Lexemes

/-- The form that a token's kind stands for. Its second character tells whether a character is
escaped, and whether a doc comment is a block. -/
def formOf? : TokenKind → Text → Option TokenForm
  | .literal .str, _ => some (.quoted [] '"')
  | .literal .byteStr, _ => some (.quoted ['b'] '"')
  | .literal .cStr, _ => some (.quoted ['c'] '"')
  | .literal .byte, _ => some (.quoted ['b'] '\x27')
  | .literal .rawStr, _ => some (.raw ['r'])
  | .literal .rawByteStr, _ => some (.raw ['b', 'r'])
  | .literal .rawCStr, _ => some (.raw ['c', 'r'])
  | .literal .char, w => if w[1]? = some '\\' then some (.quoted [] '\x27') else some .character
  | .comment .line, _ => some .lineComment
  | .comment .block, _ => some .blockComment
  | .comment _, w => if w[1]? = some '*' then some .blockComment else some .lineComment
  | _, _ => none

theorem TokenForm.Delimits.mayRunOut_of_not_word {form : TokenForm} (h : form.Delimits w rest)
    (hw : ¬ form.Word w) : form.mayRunOut = true ∧ rest = [] := by
  cases h with
  | line _ hword _ => exact absurd hword hw
  | ended _ hword _ => exact absurd hword hw
  | runsOut hrun _ hrest _ => exact ⟨hrun, hrest⟩

/-- What is read is of no form, and ended, or is what its form has there; then it is ended exactly
when it is a word of the form. -/
inductive Lexeme.Obeys (l : Lexeme) : Prop
  | formless (hform : formOf? l.kind l.taken = none) (hclosed : l.closed = true)
  | formed (form : TokenForm) (hform : formOf? l.kind l.taken = some form)
      (hdelimits : form.Delimits l.taken l.rest) (hclosed : l.closed = true ↔ form.Word l.taken)

theorem obeys_of_shortest {form : TokenForm} (hform : formOf? kind cut.taken = some form)
    (hrun : form.mayRunOut = true) (hopens : form.Opens cut.taken) (h : cut.Shortest form.Word) :
    Lexeme.Obeys ⟨cut, kind⟩ := by
  have hword : cut.closed = true ↔ form.Word cut.taken := by
    refine ⟨h.taken, ?_⟩
    intro hw
    exact (h.first _ (List.prefix_append _ _) hw).1
  refine .formed form hform ?_ hword
  by_cases hc : cut.closed = true
  · refine .ended ?_ (h.taken hc) (fun v hv hw => (h.first v hv hw).2)
    rintro rfl
    cases hrun
  · refine .runsOut hrun hopens (h.rest (by simpa using hc)) ?_
    intro v hv hw
    exact hc (h.first v (hv.trans (List.prefix_append _ _)) hw).1

theorem obeys_quoted (lead : Text) (q : Char) (hq : q ≠ '\\')
    (hform : formOf? (.literal literal) (lead ++ [q] ++ (quotedBody q cs).taken) =
      some (.quoted lead q)) :
    Lexeme.Obeys ⟨(quotedBody q cs).after (lead ++ [q]), .literal literal⟩ := by
  refine obeys_of_shortest hform rfl (List.prefix_append _ _) ?_
  refine (shortest_quotedBody hq cs).after ?_ ?_
  · intro w hw
    exact ⟨w, by simp, hw⟩
  · rintro v - ⟨w, rfl, hw⟩
    exact ⟨w, by simp, hw⟩

theorem hashes_inj (h : List.replicate m '#' ++ '"' :: x = List.replicate n '#' ++ '"' :: y) :
    m = n ∧ x = y := by
  induction m generalizing n with
  | zero =>
    cases n with
    | zero => simpa using h
    | succ n => simp [List.replicate_succ] at h
  | succ m ih =>
    cases n with
    | zero => simp [List.replicate_succ] at h
    | succ n =>
      simp only [List.replicate_succ, List.cons_append, List.cons.injEq, true_and] at h
      obtain ⟨rfl, rfl⟩ := ih h
      exact ⟨rfl, rfl⟩

theorem rawString?_eq_some (h : rawString? cs = some cut) :
    ∃ hashes body, cs = List.replicate hashes '#' ++ '"' :: body ∧
      cut = (rawBody hashes body).after (List.replicate hashes '#' ++ ['"']) := by
  unfold rawString? at h
  split at h
  · rename_i body hb
    cases h
    have hhashes : cs.takeWhile (· == '#') =
        List.replicate (cs.takeWhile (· == '#')).length '#' := by
      refine List.eq_replicate_iff.2 ⟨rfl, ?_⟩
      intro b hb
      simpa using List.all_eq_true.1 List.all_takeWhile b hb
    refine ⟨(cs.takeWhile (· == '#')).length, body, ?_, ?_⟩
    · rw [← hhashes, ← hb, List.takeWhile_append_dropWhile]
    · rw [← hhashes]
  · cases h

theorem obeys_rawOrWord (hform : ∀ w, formOf? (.literal literal) w = some (.raw lead))
    (h : l.Obeys) : (rawOrWord literal lead cs l).Obeys := by
  cases hs : rawString? cs with
  | none => rwa [rawOrWord_none hs]
  | some cut =>
    rw [rawOrWord_some hs]
    obtain ⟨hashes, body, rfl, rfl⟩ := rawString?_eq_some hs
    have hafter : ((rawBody hashes body).after (List.replicate hashes '#' ++ ['"'])).after lead =
        (rawBody hashes body).after (lead ++ (List.replicate hashes '#' ++ ['"'])) := by
      simp [Cut.after]
    rw [hafter]
    refine obeys_of_shortest (hform _) rfl ⟨hashes, List.prefix_append _ _⟩ ?_
    refine (shortest_rawBody hashes body).after ?_ ?_
    · intro w hw
      exact ⟨hashes, w, by simp, hw⟩
    · rintro v ⟨y, hv⟩ ⟨n, w, rfl, hw⟩
      rw [whole_rawBody] at hv
      simp only [List.append_assoc, List.cons_append, List.nil_append, List.append_cancel_left_eq]
        at hv
      obtain ⟨rfl, -⟩ := hashes_inj hv
      exact ⟨w, by simp, hw⟩

theorem obeys_word (c : Char) (cs : Text) : (word c cs).Obeys := .formless rfl rfl

theorem obeys_lettered (c : Char) (cs : Text) : (lettered c cs).Obeys := by
  unfold lettered
  split
  · exact obeys_rawOrWord (fun _ => rfl) (obeys_word _ _)
  · refine obeys_rawOrWord (fun _ => rfl) ?_
    split
    · exact .formless rfl rfl
    · exact obeys_word _ _
  · exact obeys_quoted ['b'] '"' (by decide) rfl
  · exact obeys_quoted ['b'] '\x27' (by decide) rfl
  · exact obeys_rawOrWord (fun _ => rfl) (obeys_word _ _)
  · exact obeys_quoted ['c'] '"' (by decide) rfl
  · exact obeys_rawOrWord (fun _ => rfl) (obeys_word _ _)
  · exact obeys_word _ _

theorem obeys_character (hq : c ≠ '\x27') (hc : c ≠ '\\') (cs : Text) :
    Lexeme.Obeys ⟨⟨['\x27', c, '\x27'], cs, true⟩, .literal .char⟩ := by
  have hword : TokenForm.character.Word ['\x27', c, '\x27'] := ⟨c, hq, hc, rfl⟩
  refine .formed .character ?_ (.ended nofun hword ?_) (iff_of_true rfl hword)
  · simp [formOf?, hc]
  · rintro v - ⟨d, -, -, rfl⟩
    exact Nat.le_refl _

theorem obeys_afterQuote (cs : Text) : (afterQuote cs).Obeys := by
  cases cs with
  | nil => exact .formless rfl rfl
  | cons c cs =>
    by_cases hc : c = '\\'
    · subst hc
      rw [afterQuote_escape]
      obtain ⟨tail, htail⟩ :=
        List.head?_eq_some_iff.1 (head?_taken_quotedBody_escape '\x27' cs)
      refine obeys_quoted [] '\x27' (by decide) ?_
      simp [formOf?, htail]
    · by_cases hcs : cs.head? = some '\x27'
      · obtain ⟨tail, rfl⟩ := List.head?_eq_some_iff.1 hcs
        rw [afterQuote_char hc]
        split
        · exact .formless rfl rfl
        · rename_i hq
          exact obeys_character hq hc tail
      · rw [afterQuote_cons hc hcs]
        split
        · exact .formless rfl rfl
        · exact .formless rfl rfl

theorem obeys_lineComment (cs : Text) : (lexeme '/' ('/' :: cs)).Obeys := by
  have hkind : ∀ w, formOf? (.comment (lineCommentKind ('/' :: '/' :: cs))) ('/' :: '/' :: w) =
      some .lineComment := by
    intro w
    unfold lineCommentKind
    split <;> simp [formOf?]
  have htaken : (lexeme '/' ('/' :: cs)).taken = '/' :: '/' :: cs.takeWhile (· != '\n') := by
    rw [lexeme_lineComment]
    simp [Cut.after, Cut.run]
  have hword : TokenForm.lineComment.Word (lexeme '/' ('/' :: cs)).taken := by
    rw [htaken]
    refine ⟨⟨_, rfl⟩, ?_⟩
    intro hmem
    simp only [List.mem_cons] at hmem
    rcases hmem with h | h | h
    · revert h; decide
    · revert h; decide
    · have hne := List.all_eq_true.1 (List.all_takeWhile (p := (· != '\n')) (l := cs)) _ h
      simp at hne
  refine .formed .lineComment ?_ (.line rfl hword ?_) (iff_of_true ?_ hword)
  · rw [htaken, lexeme_lineComment]
    exact hkind _
  · intro c hc
    have hne : (lexeme '/' ('/' :: cs)).rest ≠ [] := by
      intro hnil
      rw [hnil] at hc
      cases hc
    obtain ⟨u, hu⟩ := rest_lineComment cs hne
    rw [hu] at hc
    exact (Option.some.inj hc).symm
  · rw [lexeme_lineComment]
    rfl

theorem obeys_blockComment (cs : Text) : (lexeme '/' ('*' :: cs)).Obeys := by
  have hkind : ∀ w, formOf? (.comment (blockCommentKind ('/' :: '*' :: cs))) ('/' :: '*' :: w) =
      some .blockComment := by
    intro w
    unfold blockCommentKind
    split <;> simp [formOf?]
  rw [lexeme_blockComment]
  refine obeys_of_shortest (hkind _) rfl (List.prefix_append _ _) ?_
  refine (shortest_blockBody 0 cs).after ?_ ?_
  · intro w hw
    exact ⟨List.prefix_append _ _, closesComments_open.2 hw⟩
  · rintro v - ⟨⟨w, rfl⟩, hw⟩
    exact ⟨w, rfl, closesComments_open.1 hw⟩

theorem closed_numberTail (cs : Text) : (numberTail cs).closed = true := by
  fun_induction numberTail cs with
  | case1 => rfl
  | case2 c cs hc ih => exact ih
  | case3 c cs hc => rfl

theorem obeys_mark (c : Char) (cs : Text) : (mark c cs).Obeys := by
  refine .formless ?_ rfl
  unfold mark
  split <;> rfl

/-- Whatever is read obeys the grammar. -/
theorem obeys_lexeme (c : Char) (cs : Text) : (lexeme c cs).Obeys := by
  by_cases ho : startsOpaque c cs.head?
  · rcases ho with rfl | rfl | ⟨rfl, ho⟩
    · rw [lexeme_string]
      exact obeys_quoted [] '"' (by decide) rfl
    · exact obeys_afterQuote cs
    · rcases ho with ho | ho
      · obtain ⟨tail, rfl⟩ := List.head?_eq_some_iff.1 ho
        exact obeys_lineComment tail
      · obtain ⟨tail, rfl⟩ := List.head?_eq_some_iff.1 ho
        exact obeys_blockComment tail
  · rw [lexeme_plain ho]
    split
    · exact obeys_lettered c cs
    · split
      · exact obeys_word c cs
      · split
        · exact .formless rfl (closed_numberTail cs)
        · exact obeys_mark c cs

end Lexemes

section Tokens

variable {text : Text} {t u : Token} {ts us : List Token}

namespace Token

def form? (t : Token) : Option TokenForm := formOf? t.kind t.chars

/-- The token is of a form whose words may lack their end, and lacks it. -/
def RunsOut (t : Token) : Prop :=
  ∃ form, t.form? = some form ∧ form.mayRunOut = true ∧ ¬ form.Word t.chars

theorem exists_form
    (h : t.isComment = true ∨ ∃ literal, t.kind = .literal literal ∧ literal ≠ .number) :
    ∃ form, t.form? = some form := by
  rw [← Option.isSome_iff_exists, form?]
  rcases h with h | ⟨literal, h, hne⟩
  · rw [isComment] at h
    split at h
    · rename_i kind hkind
      rw [hkind]
      cases kind <;> simp only [formOf?] <;> first | rfl | split <;> rfl
    · cases h
  · rw [h]
    cases literal <;> simp only [formOf?] <;> first | rfl | exact absurd rfl hne | split <;> rfl

end Token

theorem closed_iff_not_runsOut (h : t ∈ tokenize text) : t.closed = true ↔ ¬ t.RunsOut := by
  obtain ⟨before, c, cs, -, -, -, hkind, hchars, hclosed⟩ := exists_lexeme_of_mem h
  simp only [Token.RunsOut, Token.form?, hkind, hchars, hclosed]
  cases obeys_lexeme c cs with
  | formless hform hended => simp [hform, hended]
  | formed form hform hdelimits hended =>
    rw [hended, hform]
    constructor
    · rintro hw ⟨_, ⟨⟩, -, hnot⟩
      exact hnot hw
    · intro hnot
      by_contra hw
      exact hnot ⟨form, rfl, (hdelimits.mayRunOut_of_not_word hw).1, hw⟩

/-- Only the last token can lack its end. -/
theorem closed_of_tokenize_append (h : tokenize text = ts ++ t :: us) (hus : us ≠ []) :
    t.closed = true := by
  obtain ⟨before, c, cs, -, -, -, -, -, hclosed, hrest⟩ := exists_lexeme h
  rw [hclosed]
  cases obeys_lexeme c cs with
  | formless _ hended => exact hended
  | formed form hform hdelimits hended =>
    rw [hended]
    by_contra hw
    exact hus (hrest (hdelimits.mayRunOut_of_not_word hw).2)

theorem unclosed_append (h : tokenize text = ts ++ [t]) :
    Token.unclosed (tokenize text) = if t.closed then [] else [t.start] := by
  have hbefore : ts.filter (!·.closed) = [] := by
    rw [List.filter_eq_nil_iff]
    intro u hu
    obtain ⟨as, bs, rfl⟩ := List.append_of_mem hu
    rw [List.append_assoc] at h
    simp [closed_of_tokenize_append h (by simp)]
  rw [Token.unclosed, h, List.filter_append, hbefore, List.nil_append]
  cases ht : t.closed <;> simp [ht]

/-- Each comment and each literal but a number is what its form has where it starts. The text has
one unterminated token when its last token lacks the end of its form, and none otherwise. -/
structure Grammatical (text : Text) : Prop where
  delimits : ∀ t ∈ tokenize text,
    (t.isComment = true ∨ ∃ literal, t.kind = .literal literal ∧ literal ≠ .number) →
      ∃ form before rest, t.form? = some form ∧ text = before ++ (t.chars ++ rest) ∧
        byteLength before = t.start ∧ form.Delimits t.chars rest
  unclosed : ∀ t, (tokenize text).getLast? = some t → t.RunsOut →
    Token.unclosed (tokenize text) = [t.start]
  allClosed : (∀ t, (tokenize text).getLast? = some t → ¬ t.RunsOut) →
    Token.unclosed (tokenize text) = []
  atMostOne : (Token.unclosed (tokenize text)).length ≤ 1

theorem tokenize_grammatical (text : Text) : Grammatical text := by
  have hlast : ∀ t, (tokenize text).getLast? = some t →
      Token.unclosed (tokenize text) = if t.closed then [] else [t.start] := by
    intro t ht
    obtain ⟨ts, hts⟩ := List.getLast?_eq_some_iff.1 ht
    exact unclosed_append hts
  refine ⟨?_, ?_, ?_, ?_⟩
  · intro t ht hkind
    obtain ⟨form, hform⟩ := Token.exists_form hkind
    obtain ⟨before, c, cs, htext, hstart, -, hk, hchars, -⟩ := exists_lexeme_of_mem ht
    rw [Token.form?, hk, hchars] at hform
    have hwhole : c :: cs = (lexeme c cs).taken ++ (lexeme c cs).rest := (whole_lexeme c cs).symm
    refine ⟨form, before, (lexeme c cs).rest, ?_, ?_, hstart, ?_⟩
    · rwa [Token.form?, hk, hchars]
    · rw [htext, hchars, ← hwhole]
    · cases obeys_lexeme c cs with
      | formless hnone _ =>
        rw [hnone] at hform
        cases hform
      | formed form' hform' hdelimits _ =>
        obtain rfl : form' = form := Option.some.inj (hform'.symm.trans hform)
        rwa [hchars]
  · intro t ht hruns
    have hopen := mt (closed_iff_not_runsOut (List.mem_of_getLast? ht)).1 (not_not.2 hruns)
    rw [hlast t ht, if_neg hopen]
  · intro hnone
    cases ht : (tokenize text).getLast? with
    | none => rw [List.getLast?_eq_none_iff.1 ht, Token.unclosed, List.filter_nil, List.map_nil]
    | some t =>
      have hclosed := (closed_iff_not_runsOut (List.mem_of_getLast? ht)).2 (hnone t ht)
      rw [hlast t ht, if_pos hclosed]
  · cases ht : (tokenize text).getLast? with
    | none => simp [List.getLast?_eq_none_iff.1 ht, Token.unclosed]
    | some t =>
      rw [hlast t ht]
      split <;> simp

/-- A block comment that closes one of the two it opens is one token, up to the end of the text. -/
example : Token.unclosed (tokenize "a /* /* */ b".toList) = [2] := by decide +kernel

end Tokens

end Unbundle
