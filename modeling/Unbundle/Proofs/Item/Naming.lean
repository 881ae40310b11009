import Unbundle.Proofs.Item.Form
import Unbundle.Proofs.Scan.Remainder
import Unbundle.Proofs.Survey
import Unbundle.Proofs.Token.Word

/-! Under which name an applet is kept. The signature gives the name by the characters of names, the
tokens give it by the characters of words, and the two classes differ: what is kept is the longest
beginning of the signature's name that is spelled as words are. -/
namespace Unbundle

section Parts

variable {c d : Char} {cs rest : Text}

def endsName (c : Char) : Bool := isBlank c || c == '('

theorem isNameContinue_ne {d : Char} (h : isNameContinue d = true) :
    d ≠ '"' ∧ d ≠ '\x27' ∧ d ≠ '#' ∧ d ≠ '.' ∧ d ≠ '/' := by
  refine ⟨?_, ?_, ?_, ?_, ?_⟩ <;>
  · rintro rfl
    revert h
    decide +kernel

theorem endsWord_of_endsName (h : endsName c = true) : endsWord c = true ∧ c ≠ '.' := by
  rw [endsName, Bool.or_eq_true, beq_iff_eq] at h
  rcases h with h | rfl
  · refine ⟨endsWord_of_isBlank h, ?_⟩
    rintro rfl
    revert h
    decide
  · decide +kernel

/-- Blanks that must stand behind a word end it. -/
theorem endsWord_of_apart {gap : Text} (hg : gap.all isBlank = true)
    (hs : Signature.Spacing.apart.allows gap = true) :
    ∀ d ∈ (gap ++ rest).head?, endsWord d = true := by
  cases gap with
  | nil => cases hs
  | cons e gap =>
    rw [List.all_cons, Bool.and_eq_true] at hg
    rintro d ⟨⟩
    exact endsWord_of_isBlank hg.1

/-- The parameters end the name. -/
theorem endsName_of_laid {x argc argv : Text} {comma : Bool}
    (h : Signature.Laid (Signature.tailForm argc argv comma) x) :
    ∀ d ∈ (x ++ rest).head?, endsName d = true := by
  obtain ⟨d, ds, rfl, hd⟩ := h.exists_head
  rintro d ⟨⟩
  rcases hd with hd | rfl
  · rw [endsName, hd, Bool.true_or]
  · decide

theorem all_isNameContinue_dropWhile (hcs : cs.all isNameContinue = true) :
    (cs.dropWhile isIdentContinue).all isNameContinue = true := by
  rw [List.all_eq_true]
  intro d hd
  exact List.all_eq_true.1 hcs d ((List.dropWhile_suffix isIdentContinue).subset hd)

/-- What follows the letters of words at the beginning of a name ends a word. -/
theorem endsWord_behind (hcs : cs.all isNameContinue = true)
    (hrest : ∀ d ∈ rest.head?, endsName d = true) :
    ∀ d ∈ (cs.dropWhile isIdentContinue ++ rest).head?, endsWord d = true ∧ d ≠ '.' := by
  have hfirst := List.head?_dropWhile_not isIdentContinue cs
  have hmem := List.all_eq_true.1 (all_isNameContinue_dropWhile hcs)
  cases hdrop : cs.dropWhile isIdentContinue with
  | nil =>
    intro d hd
    exact endsWord_of_endsName (hrest d hd)
  | cons e es =>
    rintro d ⟨⟩
    rw [hdrop] at hfirst hmem
    have hne := isNameContinue_ne (hmem e List.mem_cons_self)
    have hnot : isIdentContinue e = false := by simpa using hfirst
    simp [endsWord, hnot, hne]

theorem numberTail_append {w : Text} (hw : w.all isIdentContinue = true)
    (hrest : ∀ d ∈ rest.head?, isIdentContinue d = false ∧ d ≠ '.') :
    numberTail (w ++ rest) = ⟨w, rest, true⟩ := by
  induction w with
  | nil =>
    cases rest with
    | nil => rfl
    | cons d ds =>
      obtain ⟨hd, hne⟩ := hrest d rfl
      simp [numberTail, hd, hne]
  | cons c w ih =>
    rw [List.all_cons, Bool.and_eq_true] at hw
    rw [List.cons_append, numberTail, hw.1, Bool.true_or, if_pos rfl, ih hw.2]
    rfl

theorem kind_mark_of_isNameContinue (h : isNameContinue c = true) (cs : Text) :
    (mark c cs).kind = .punct c := by
  have hopen : Delimiter.ofOpener? c = none := by
    unfold Delimiter.ofOpener?
    split <;> first | rfl | (revert h; decide +kernel)
  have hclose : Delimiter.ofCloser? c = none := by
    unfold Delimiter.ofCloser?
    split <;> first | rfl | (revert h; decide +kernel)
  simp [mark, hopen, hclose]

/-- How a part of a name is read: as a word, as a number, or as a mark for its first character. -/
theorem lexeme_part (hc : isNameContinue c = true) (hcs : cs.all isNameContinue = true)
    (hrest : ∀ d ∈ rest.head?, endsName d = true) :
    (isIdentStart c = true ∧ lexeme c (cs ++ rest) =
      ⟨⟨c :: cs.takeWhile isIdentContinue, cs.dropWhile isIdentContinue ++ rest, true⟩, .ident⟩) ∨
    (c.isDigit = true ∧ lexeme c (cs ++ rest) =
      ⟨⟨c :: cs.takeWhile isIdentContinue, cs.dropWhile isIdentContinue ++ rest, true⟩,
        .literal .number⟩) ∨
    (isIdentStart c = false ∧ c.isDigit = false ∧
      lexeme c (cs ++ rest) = ⟨⟨[c], cs ++ rest, true⟩, .punct c⟩) := by
  have hbehind := endsWord_behind hcs hrest
  have hcut : cs ++ rest =
      cs.takeWhile isIdentContinue ++ (cs.dropWhile isIdentContinue ++ rest) := by
    rw [← List.append_assoc, List.takeWhile_append_dropWhile]
  have hne := isNameContinue_ne hc
  by_cases hstart : isIdentStart c = true
  · left
    refine ⟨hstart, ?_⟩
    rw [hcut]
    refine lexeme_identifier ?_ fun d hd => (hbehind d hd).1
    rw [isIdentifier, hstart, List.all_takeWhile, Bool.and_self]
  · by_cases hdigit : c.isDigit = true
    · right; left
      refine ⟨hdigit, ?_⟩
      have hletter : ¬ (c = 'r' ∨ c = 'b' ∨ c = 'c') := by
        rintro (rfl | rfl | rfl) <;> revert hdigit <;> decide
      have hopaque : ¬ startsOpaque c (cs ++ rest).head? := by simp [startsOpaque, hne]
      rw [lexeme_plain hopaque, if_neg hletter, if_neg hstart, if_pos hdigit, hcut,
        numberTail_append List.all_takeWhile]
      · rfl
      · intro d hd
        exact ⟨isIdentContinue_of_endsWord (hbehind d hd).1, (hbehind d hd).2⟩
    · right; right
      rw [Bool.not_eq_true] at hstart hdigit
      refine ⟨hstart, hdigit, ?_⟩
      have halone : standsAlone c = true := by
        simp [standsAlone, hstart, hdigit, isBlank_of_isNameContinue hc, hne]
      rw [lexeme_mark halone, ← kind_mark_of_isNameContinue hc (cs ++ rest)]
      rfl

/-- A raw name is read up to the end of its word. -/
theorem lexeme_raw_part (hstart : isIdentStart c = true) (hcs : cs.all isNameContinue = true)
    (hrest : ∀ d ∈ rest.head?, endsName d = true) :
    lexeme 'r' ('#' :: c :: (cs ++ rest)) =
      ⟨⟨'r' :: '#' :: c :: cs.takeWhile isIdentContinue,
        cs.dropWhile isIdentContinue ++ rest, true⟩, .rawIdent⟩ := by
  have hident : isIdentifier (c :: cs.takeWhile isIdentContinue) = true := by
    rw [isIdentifier, hstart, List.all_takeWhile, Bool.and_self]
  have hcut : c :: (cs ++ rest) = c :: cs.takeWhile isIdentContinue ++
      (cs.dropWhile isIdentContinue ++ rest) := by
    rw [List.cons_append, ← List.append_assoc, List.takeWhile_append_dropWhile]
  rw [hcut]
  refine lexeme_rawIdentifier hident ?_
  intro d hd
  exact isIdentContinue_of_endsWord (endsWord_behind hcs hrest d hd).1

/-- Behind `r#` there is a word only where a letter follows. -/
theorem lexeme_r_hash (hc : isNameContinue c = true) (hstart : isIdentStart c = false) (cs : Text) :
    lexeme 'r' ('#' :: c :: cs) = ⟨⟨['r'], '#' :: c :: cs, true⟩, .ident⟩ := by
  have hne := isNameContinue_ne hc
  have hhash : isIdentContinue '#' = false := by decide +kernel
  have hnone : rawString? ('#' :: c :: cs) = none := by
    rw [rawString?_eq_none_iff]
    simp [hne]
  have hopaque : ¬ startsOpaque 'r' ('#' :: c :: cs).head? := by simp [startsOpaque]
  rw [lexeme_plain hopaque, if_pos (.inl rfl), lettered_r_hash, rawOrWord_none hnone,
    if_neg (by simp [hstart]), word, identTail_cons_of_not hhash]
  rfl

end Parts

section Names

variable {c : Char} {cs name own rest : Text} {kind : TokenKind}

/-- The text is the longest beginning of the name that is spelled as words are. -/
structure LongestSpelled (own name : Text) : Prop where
  begins : own <+: name
  spelled : ∃ kind, Spells kind own
  longest : ∀ kind w, w <+: name → Spells kind w → w.length ≤ own.length

theorem LongestSpelled.eq_iff (h : LongestSpelled own name) :
    own = name ↔ ∃ kind, Spells kind name := by
  constructor
  · rintro rfl
    exact h.spelled
  · rintro ⟨kind, hspell⟩
    exact h.begins.eq_of_length_le (h.longest kind name List.prefix_rfl hspell)

theorem length_le_takeWhile {p : Char → Bool} {w : Text} (h : w <+: cs) (hw : w.all p = true) :
    w.length ≤ (cs.takeWhile p).length := by
  obtain ⟨t, rfl⟩ := h
  rw [List.takeWhile_append_of_pos (List.all_eq_true.1 hw), List.length_append]
  omega

/-- The words at the beginning of a word behind `r#` are the letter before the hash. -/
theorem length_le_one_of_raw {w : Text} (h : w <+: 'r' :: '#' :: cs) (hw : isIdentifier w = true) :
    w.length ≤ 1 := by
  have hhash : isIdentContinue '#' = false := by decide +kernel
  have hle := length_le_takeWhile h (all_of_isIdentifier hw)
  refine hle.trans ?_
  rw [List.takeWhile_cons]
  split <;> simp [hhash]

/-- Read as a token that can name an item, a name gives its longest beginning that is spelled as
words are. -/
theorem longestSpelled_lexeme (hname : Signature.NameText (c :: cs))
    (hrest : ∀ d ∈ rest.head?, endsName d = true)
    (hkind : (lexeme c (cs ++ rest)).kind.isName = true) :
    LongestSpelled (lexeme c (cs ++ rest)).taken (c :: cs) := by
  cases hname with
  | plain hc hcs =>
    rcases lexeme_part (Signature.isNameContinue_of_start hc) hcs hrest with
      ⟨hstart, hread⟩ | ⟨-, hread⟩ | ⟨-, -, hread⟩
    · rw [hread]
      refine ⟨List.cons_prefix_cons.2 ⟨rfl, List.takeWhile_prefix _⟩, ⟨_, .word ?_⟩, ?_⟩
      · rw [isIdentifier, hstart, List.all_takeWhile, Bool.and_self]
      · intro kind w hw hspell
        cases hspell with
        | word hident =>
          have hle := length_le_takeWhile hw (all_of_isIdentifier hident)
          rwa [List.takeWhile_cons_of_pos (isIdentContinue_of_isIdentStart hstart)] at hle
        | raw =>
          obtain ⟨t, rfl⟩ := (List.cons_prefix_cons.1 hw).2
          rw [List.cons_append, List.all_cons, Bool.and_eq_true] at hcs
          exact absurd rfl (isNameContinue_ne hcs.1).2.2.1
    · rw [hread] at hkind
      cases hkind
    · rw [hread] at hkind
      cases hkind
  | @raw c cs hc hcs =>
    have hcont := Signature.isNameContinue_of_start hc
    rw [List.cons_append, List.cons_append]
    by_cases hstart : isIdentStart c = true
    · rw [lexeme_raw_part hstart hcs hrest]
      refine ⟨?_, ⟨_, .raw ?_⟩, ?_⟩
      · simp only [List.cons_prefix_cons, true_and]
        exact List.takeWhile_prefix _
      · rw [isIdentifier, hstart, List.all_takeWhile, Bool.and_self]
      · intro kind w hw hspell
        cases hspell with
        | word hident =>
          have hle := length_le_one_of_raw hw hident
          simp only [List.length_cons]
          omega
        | @raw v hident =>
          simp only [List.cons_prefix_cons, true_and] at hw
          have hle := length_le_takeWhile hw (all_of_isIdentifier hident)
          rw [List.takeWhile_cons_of_pos (isIdentContinue_of_isIdentStart hstart)] at hle
          simpa using hle
    · rw [Bool.not_eq_true] at hstart
      have hletter : isIdentifier ['r'] = true := by decide +kernel
      rw [lexeme_r_hash hcont hstart]
      refine ⟨by simp, ⟨_, .word hletter⟩, ?_⟩
      intro kind w hw hspell
      cases hspell with
      | word hident => exact length_le_one_of_raw hw hident
      | @raw v hident =>
        simp only [List.cons_prefix_cons, true_and] at hw
        cases v with
        | nil => cases hident
        | cons d v =>
          rw [isIdentifier, Bool.and_eq_true, (List.cons_prefix_cons.1 hw).1, hstart] at hident
          cases hident.1

theorem Signature.NameText.head_ne_slash (h : Signature.NameText (c :: cs)) : c ≠ '/' := by
  cases h with
  | plain hc => exact (isNameContinue_ne (isNameContinue_of_start hc)).2.2.2.2
  | raw => decide

theorem Token.isWord_of_face {t : Token} {w : String} (h : t.face = (.ident, w.toList)) :
    t.isWord w = true := by
  have hkind : t.kind = .ident := congrArg Prod.fst h
  have hchars : t.chars = w.toList := congrArg Prod.snd h
  simp [Token.isWord, hkind, hchars]

theorem Token.exists_kind_of_isComment {t : Token} (h : t.isComment = true) :
    ∃ kind, t.kind = .comment kind := by
  unfold Token.isComment at h
  split at h
  · exact ⟨_, by assumption⟩
  · cases h

end Names

namespace Scan

variable {s : Scan} {k : Nat} {f : Function} {t : Token}

/-- The tokens from an index on are what the rest of the text is read as. -/
theorem Faithful.faces_from {i : Nat} {before x : Text} (hs : s.Faithful) (ht : s.token? i = some t)
    (htext : s.text = before ++ x) (hb : byteLength before = t.start) :
    faces x = (s.tokens.toList.drop i).map Token.face := by
  have r := hs.remainder ht htext hb
  rw [r.tokens, List.map_map]
  rfl

/-- A function is an applet if the text from its start to its body is an applet's signature. -/
theorem IsFunction.exists_signature (hf : s.IsFunction k f) :
    ∃ sig, s.slice f.head.itemStart f.body.start = .ok sig ∧
      (f.isApplet = true ↔ (appletName? sig).isSome = true) := by
  obtain ⟨n, opened, t, -, -, h⟩ := hf.exists_name
  obtain ⟨head, hhead, h⟩ := Checked.bind_eq_ok.1 h
  obtain ⟨brace, -, h⟩ := Checked.bind_eq_ok.1 h
  obtain ⟨sig, hsig, h⟩ := Checked.bind_eq_ok.1 h
  obtain ⟨span, -, h⟩ := Checked.bind_eq_ok.1 h
  obtain ⟨body, hbody, h⟩ := Checked.bind_eq_ok.1 h
  cases h
  obtain ⟨-, rfl⟩ := Span.make_eq_ok_iff.1 hbody
  refine ⟨sig, hsig, ?_⟩
  cases appletName? sig <;> simp [Function.isApplet]

/-- What the text of a signature is read as, whatever follows it. -/
theorem faces_signature {sig name : Text} (h : appletName? sig = some name) (after : Text) :
    ∃ c cs rest, name = c :: cs ∧ Signature.NameText name ∧
      (∀ d ∈ rest.head?, endsName d = true) ∧
      faces (sig ++ after) = (.ident, "pub".toList) :: (.ident, "fn".toList) ::
        ((lexeme c (cs ++ rest)).kind, (lexeme c (cs ++ rest)).taken) ::
          faces (lexeme c (cs ++ rest)).rest := by
  obtain ⟨hname, argc, -, argv, -, comma, core, tail, rfl, -, hlaid⟩ := appletName?_eq_some_iff.1 h
  obtain ⟨gap, x₁, hg, -, rfl, hfn⟩ := Signature.laid_cons_iff.1 hlaid
  obtain ⟨gap₁, x₂, hg₁, hs₁, rfl, hnamed⟩ := Signature.laid_cons_iff.1 hfn
  obtain ⟨gap₂, x₃, hg₂, hs₂, rfl, htail⟩ := Signature.laid_cons_iff.1 hnamed
  cases hcs : name with
  | nil => exact absurd hcs hname.ne_nil
  | cons c cs =>
    have hblank : isBlank c = false :=
      (hname.plain_of_mem (by rw [hcs]; exact List.mem_cons_self)).1
    refine ⟨c, cs, x₃ ++ (tail ++ after), rfl, hcs ▸ hname, endsName_of_laid htail, ?_⟩
    simp only [List.append_assoc]
    rw [faces_gap hg, faces_identifier (by decide +kernel) (endsWord_of_apart hg₁ hs₁),
      faces_gap hg₁, faces_identifier (by decide +kernel) (endsWord_of_apart hg₂ hs₂),
      faces_gap hg₂, List.cons_append, faces_cons hblank]

/-- The keyword of a function whose head starts with `pub fn` is that `fn`. -/
theorem FunctionAt.keyword_eq {lead first opened stop : Nat} {u v : Token}
    (h : s.FunctionAt k f lead first opened stop) (hs : s.Faithful)
    (hu : s.token? first = some u) (hpub : u.isWord "pub" = true)
    (hv : s.token? (first + 1) = some v) (hfn : v.isWord "fn" = true) : k = first + 1 := by
  have hne : k ≠ first := by
    rintro rfl
    have hword := h.word
    simp [isWord, hu, Token.isWord_eq_false hpub (show "pub" ≠ "fn" by decide)] at hword
  have hle := h.head.first_le
  apply Nat.le_antisymm _ (by omega)
  apply Nat.le_of_not_lt
  intro hlt
  obtain ⟨r, hr, rfl⟩ := h.head.reach
  obtain ⟨r', hr', hclear⟩ := hs.exists_reach (Nat.le_of_lt h.lt_size) (h.openBefore_eq_nil hs)
  obtain rfl : r = r' := Except.ok.inj (hr.symm.trans hr')
  have hopen : openBefore s.kinds (r.first + 1) = [] :=
    openBefore_succ_eq_nil hclear.opened (by simp [kind?, hu, Token.kind_of_isWord hpub])
  have hbarrier : s.isBarrier (r.first + 1) = true := by
    simp [Scan.isBarrier, hs.isTopLevel_of_openBefore (lt_size hv) hopen, hv, hfn]
  rw [hclear.clear (r.first + 1) (by omega) hlt] at hbarrier
  cases hbarrier

/-- An applet is kept under the longest beginning of its signature's name that is spelled as words
are. -/
theorem IsFunction.longestSpelled (hf : s.IsFunction k f) (hs : s.Faithful)
    (happ : f.isApplet = true) :
    ∃ sig name, s.slice f.head.itemStart f.body.start = .ok sig ∧
      appletName? sig = some name ∧ LongestSpelled f.name.toList name := by
  obtain ⟨sig, hsig, hiff⟩ := hf.exists_signature
  obtain ⟨name, hname⟩ := Option.isSome_iff_exists.1 (hiff.1 happ)
  refine ⟨sig, name, hsig, hname, ?_⟩
  obtain ⟨lead, first, opened, stop, hat⟩ := hf.exists_functionAt hs
  obtain ⟨u, hu, hstart⟩ := hat.head.itemStarts
  obtain ⟨before, after, htext, hb, -⟩ := slice_eq_ok hsig
  obtain ⟨c, cs, rest, rfl, htxt, hrest, hfaces⟩ := faces_signature hname after
  rw [hs.faces_from hu htext (by omega)] at hfaces
  have htoken (j : Nat) : (s.token? (first + j)).map Token.face =
      ((s.tokens.toList.drop first).map Token.face)[j]? := by
    rw [List.getElem?_map, List.getElem?_drop, token?, Array.getElem?_toList]
  have hpub := htoken 0
  have hfn := htoken 1
  have hnamed := htoken 2
  rw [hfaces] at hpub hfn hnamed
  simp only [Nat.add_zero, hu, Option.map_some] at hpub
  obtain ⟨v, hv, hvface⟩ := Option.map_eq_some_iff.1 hfn
  obtain ⟨t, ht, htface⟩ := Option.map_eq_some_iff.1 hnamed
  have hkind : t.kind = (lexeme c (cs ++ rest)).kind := congrArg Prod.fst htface
  have hchars : t.chars = (lexeme c (cs ++ rest)).taken := congrArg Prod.snd htface
  have hupub : u.isWord "pub" = true := Token.isWord_of_face (Option.some.inj hpub)
  have hvfn : v.isWord "fn" = true := Token.isWord_of_face hvface
  obtain rfl := hat.keyword_eq hs hu hupub hv hvfn
  obtain ⟨n, t', hcode, hisName, hfname⟩ := hat.named
  obtain rfl : n = first + 2 := by
    apply Nat.le_antisymm _ hcode.le
    apply Nat.le_of_not_lt
    intro hlt
    obtain ⟨w, hw, hcomment⟩ := hcode.comments (first + 2) (Nat.le_refl _) hlt
    obtain rfl : w = t := Option.some.inj (hw.symm.trans ht)
    obtain ⟨kind, hk⟩ := Token.exists_kind_of_isComment hcomment
    exact htxt.head_ne_slash (eq_comment (hkind ▸ hk)).1
  obtain rfl : t' = t := Option.some.inj (hcode.token.symm.trans ht)
  rw [hfname, Token.text, String.toList_ofList, hchars]
  refine longestSpelled_lexeme htxt hrest ?_
  rw [← hkind]
  exact hisName

/-- The functions of a text are found at its tokens. -/
theorem Faithful.exists_functions (hs : s.Faithful) :
    ∃ fs, s.functions = .ok fs ∧ s.Functions fs := by
  obtain ⟨v, hv⟩ := hs.exists_survey
  exact ⟨v.functions, functions_of_survey hv,
    (hs.functions (survey_eq_ok.1 hv).1).sublist (sublist_keptOf _ [] _)⟩

end Scan

/-- Every applet of a text is kept under the longest beginning of its signature's name that is
spelled as words are; so it is kept under its own name exactly when that name is. -/
theorem functions_longestSpelled (text : Text) :
    ∃ fs, (Scan.ofText text).functions = .ok fs ∧ ∀ f ∈ fs, f.isApplet = true →
      ∃ sig name, slice text f.head.itemStart f.body.start = .ok sig ∧
        appletName? sig = some name ∧ LongestSpelled f.name.toList name ∧
        (f.name.toList = name ↔ ∃ kind, Spells kind name) := by
  have hs := Scan.faithful_ofText text
  obtain ⟨fs, hfs, hfound⟩ := hs.exists_functions
  refine ⟨fs, hfs, ?_⟩
  intro f hf happ
  obtain ⟨k, hk⟩ := hfound.each f hf
  obtain ⟨sig, name, hsig, hname, hown⟩ := hk.longestSpelled hs happ
  exact ⟨sig, name, hsig, hname, hown, hown.eq_iff⟩

/-- An applet whose name is a letter and an accent that belongs to it. -/
def accentedApplet : Text :=
  "pub fn e\u0301(argc: i32, argv: *const *const u8) -> i32 {}\n".toList

theorem functions_accentedApplet :
    (Scan.ofText accentedApplet).functions = .ok
      [⟨"e", .applet, ⟨0, 55⟩, ⟨0, 0, none, .pub, some ⟨0, 3⟩⟩, ⟨53, 55⟩, true⟩] := by
  decide +kernel

theorem signature_accentedApplet :
    slice accentedApplet 0 53 = .ok (accentedApplet.take 52) ∧
      appletName? (accentedApplet.take 52) = some ['e', '\u0301'] := by
  decide +kernel

/-- It is kept under the letter alone. -/
theorem accentedApplet_longestSpelled : LongestSpelled ['e'] ['e', '\u0301'] := by
  obtain ⟨fs, hfs, hall⟩ := functions_longestSpelled accentedApplet
  rw [functions_accentedApplet] at hfs
  cases hfs
  obtain ⟨sig, name, hsig, hname, hown, -⟩ := hall _ List.mem_cons_self rfl
  obtain ⟨hslice, hcaptured⟩ := signature_accentedApplet
  obtain rfl := Except.ok.inj (hslice.symm.trans hsig)
  obtain rfl := Option.some.inj (hcaptured.symm.trans hname)
  exact hown

/-- So not every applet is kept under the name that its signature gives. -/
theorem not_forall_name_eq :
    ¬ ∀ text fs f sig name, (Scan.ofText text).functions = .ok fs → f ∈ fs → f.isApplet = true →
      slice text f.head.itemStart f.body.start = .ok sig → appletName? sig = some name →
        f.name.toList = name := by
  intro h
  have heq := h _ _ _ _ _ functions_accentedApplet List.mem_cons_self rfl signature_accentedApplet.1
    signature_accentedApplet.2
  revert heq
  decide

end Unbundle
