import Unbundle.Proofs.Item.Layout.Abreast

/-! A name of a signature may be several tokens. Where two texts are followed side by side, it is
the same name in both. -/
namespace Unbundle

variable {x y : Cursor} {p q : Token} {c : Char} {cs gap name r rest : Text}

theorem isDigit_of_isNameStart (hc : (c == '_' || isNameStart c) = true) : c.isDigit = false := by
  rw [← Bool.not_eq_true]
  intro hdigit
  simp only [Char.isDigit, Bool.and_eq_true, decide_eq_true_eq, ge_iff_le,
    UInt32.le_iff_toNat_le] at hdigit
  simp only [Bool.or_eq_true, beq_iff_eq] at hc
  rcases hc with rfl | hc
  · revert hdigit
    decide
  · have hranges : nameStartRanges = (0x41, 0x5A) :: nameStartRanges.drop 1 := rfl
    rw [isNameStart, hranges, inRanges, if_pos] at hc
    · cases hc
    · change 48 ≤ c.toNat ∧ c.toNat ≤ 57 at hdigit
      omega

def startsNone (c : Char) : Bool := !isIdentStart c && !c.isDigit

theorem startsNone_of_endsWord (h : endsWord c = true) : startsNone c = true := by
  have hcont := isIdentContinue_of_endsWord h
  have hstart : isIdentStart c = false := by
    rw [← Bool.not_eq_true]
    intro hc
    rw [isIdentContinue_of_isIdentStart hc] at hcont
    cases hcont
  have hdigit : c.isDigit = false := by
    rw [← Bool.not_eq_true]
    intro hc
    rw [isIdentContinue, isNumeral_of_isDigit hc, Bool.or_true] at hcont
    cases hcont
  rw [startsNone, hstart, hdigit]
  rfl

/-- The first part of a name or of what is left of one. If it is no mark, it goes to the end of a
word or number. -/
theorem lexeme_namePart (hc : isNameContinue c = true) (hcs : cs.all isNameContinue = true)
    (hrest : ∀ d ∈ rest.head?, endsName d = true) :
    ∃ w left, c :: cs = w ++ left ∧ w ≠ [] ∧ left.all isNameContinue = true ∧
      (lexeme c (cs ++ rest)).taken = w ∧ (lexeme c (cs ++ rest)).rest = left ++ rest ∧
      isNamePart ((lexeme c (cs ++ rest)).kind, w) = true ∧
      (isNameMark ((lexeme c (cs ++ rest)).kind, w) = true ∨
        startsNone c = false ∧ ∀ d ∈ (left ++ rest).head?, startsNone d = true) := by
  have hcut : c :: cs = c :: cs.takeWhile isIdentContinue ++ cs.dropWhile isIdentContinue := by
    rw [List.cons_append, List.takeWhile_append_dropWhile]
  have hdrop := all_isNameContinue_dropWhile hcs
  have hnone : ∀ d ∈ (cs.dropWhile isIdentContinue ++ rest).head?, startsNone d = true := by
    intro d hd
    exact startsNone_of_endsWord (endsWord_behind hcs hrest d hd).1
  rcases lexeme_part hc hcs hrest with ⟨hstart, hread⟩ | ⟨hdigit, hread⟩ | ⟨-, -, hread⟩
  · rw [hread]
    have hstarts : startsNone c = false := by simp [startsNone, hstart]
    exact ⟨_, _, hcut, List.cons_ne_nil _ _, hdrop, rfl, rfl, rfl, .inr ⟨hstarts, hnone⟩⟩
  · rw [hread]
    have hstarts : startsNone c = false := by simp [startsNone, hdigit]
    exact ⟨_, _, hcut, List.cons_ne_nil _ _, hdrop, rfl, rfl, rfl, .inr ⟨hstarts, hnone⟩⟩
  · rw [hread]
    have hmark : isNameMark (.punct c, [c]) = true := hc
    have hpart : isNamePart (.punct c, [c]) = true := by simp [isNamePart, hmark]
    exact ⟨[c], cs, rfl, List.cons_ne_nil _ _, hcs, rfl, rfl, hpart, .inl hmark⟩

theorem minds_of_isNamePart {a b : TokenKind × Text} (ha : isNamePart a = true ∨ a.2 = ['#'])
    (hb : isNamePart b = true) (h : isNameMark a = true ∨ isNameMark b = true) :
    minds a b = true := by
  rcases h with h | h
  · simp [minds, h, hb]
  · rcases ha with ha | ha <;> simp [minds, h, ha]

/-- The parts of a name touch in both texts, so the name goes on alike. -/
theorem Behind.name_rest (h : Behind p q x y)
    (hp : isNameMark p.face = true ∨ ∀ d ∈ x.rest.head?, startsNone d = true)
    (hpart : isNamePart p.face = true ∨ p.chars = ['#']) (hr : r.all isNameContinue = true)
    (hx : x.rest = r ++ rest) (hrest : ∀ d ∈ rest.head?, endsName d = true) :
    ∃ x' y', Abreast x' y' ∧ x'.rest = rest ∧ y.rest = r ++ y'.rest := by
  induction hn : r.length using Nat.strongRecOn generalizing p q x y r with
  | ind n ih =>
    cases r with
    | nil => exact ⟨x, y, h.abreast, hx, rfl⟩
    | cons c cs =>
      rw [List.all_cons, Bool.and_eq_true] at hr
      have hfirst : x.rest = [] ++ c :: (cs ++ rest) := hx
      obtain ⟨a, b, x', y', gap', hface, hx', -, hy, hab, htouch, -⟩ :=
        h.token rfl (isBlank_of_isNameContinue hr.1) hfirst
      obtain ⟨w, left, hcut, hne, hleft, htaken, hrem, hwpart, hwmark⟩ :=
        lexeme_namePart hr.1 hr.2 hrest
      rw [htaken] at hface hy
      rw [hrem] at hx'
      rw [← hface] at hwpart hwmark
      have hminds : minds p.face a.face = true := by
        refine minds_of_isNamePart hpart hwpart ?_
        rcases hp with hp | hp
        · exact .inl hp
        · rcases hwmark with hwmark | ⟨hstarts, -⟩
          · exact .inr hwmark
          · rw [hp c (by rw [hx]; rfl)] at hstarts
            cases hstarts
      obtain rfl : gap' = [] := (htouch hminds).1 rfl
      have hlen : left.length < n := by
        have hlength := congrArg List.length hcut
        have hpos := List.length_pos_iff.2 hne
        rw [List.length_append] at hlength
        omega
      have hnext : isNameMark a.face = true ∨ ∀ d ∈ x'.rest.head?, startsNone d = true := by
        rw [hx']
        exact hwmark.imp_right And.right
      obtain ⟨x₁, y₁, hab₁, hx₁, hy₁⟩ := ih _ hlen hab hnext (.inl hwpart) hleft hx' rfl
      exact ⟨x₁, y₁, hab₁, hx₁, by rw [hy, hy₁, hcut, List.append_assoc, List.nil_append]⟩

/-- A plain name behind a word stands apart from it in both texts, and is the same name. -/
theorem Behind.plain_name (h : Behind p q x y) (hp : p.kind = .ident)
    (hc : (c == '_' || isNameStart c) = true) (hcs : cs.all isNameContinue = true)
    (hg : gap.all isBlank = true) (hne : gap ≠ []) (hx : x.rest = gap ++ (c :: cs ++ rest))
    (hrest : ∀ d ∈ rest.head?, endsName d = true) :
    ∃ gap' x' y', gap'.all isBlank = true ∧ gap' ≠ [] ∧ y.rest = gap' ++ (c :: cs ++ y'.rest) ∧
      Abreast x' y' ∧ x'.rest = rest := by
  have hcont := Signature.isNameContinue_of_start hc
  rw [List.cons_append] at hx
  obtain ⟨a, b, x', y', gap', hface, hx', hg', hy, hab, htouch, happart⟩ :=
    h.token hg (isBlank_of_isNameContinue hcont) hx
  obtain ⟨w, left, hcut, -, hleft, htaken, hrem, hwpart, hwmark⟩ := lexeme_namePart hcont hcs hrest
  rw [htaken] at hface hy
  rw [hrem] at hx'
  rw [← hface] at hwpart hwmark
  have hne' : gap' ≠ [] := by
    by_cases hstart : isIdentStart c = true
    · exact happart hp (isIdentContinue_of_isIdentStart hstart)
    · have hmark : isNameMark a.face = true := by
        refine hwmark.resolve_right ?_
        rintro ⟨hstarts, -⟩
        simp [startsNone, hstart, isDigit_of_isNameStart hc] at hstarts
      have hword : isNamePart p.face = true := by simp [isNamePart, Token.face, hp]
      have hminds := minds_of_isNamePart (.inl hword) hwpart (.inr hmark)
      exact fun hnil => hne ((htouch hminds).2 hnil)
  have hnext : isNameMark a.face = true ∨ ∀ d ∈ x'.rest.head?, startsNone d = true := by
    rw [hx']
    exact hwmark.imp_right And.right
  obtain ⟨x₁, y₁, hab₁, hx₁, hy₁⟩ := hab.name_rest hnext (.inl hwpart) hleft hx' hrest
  exact ⟨gap', x₁, y₁, hg', hne', by rw [hy, hy₁, hcut, List.append_assoc], hab₁, hx₁⟩

/-- A raw name that goes on with the first letter of a word begins with a raw word. -/
theorem Behind.raw_word (h : Behind p q x y) (hp : p.kind = .ident) (hc : isIdentStart c = true)
    (hcs : cs.all isNameContinue = true) (hg : gap.all isBlank = true)
    (hx : x.rest = gap ++ 'r' :: ('#' :: c :: (cs ++ rest)))
    (hrest : ∀ d ∈ rest.head?, endsName d = true) :
    ∃ gap' x' y', gap'.all isBlank = true ∧ gap' ≠ [] ∧
      y.rest = gap' ++ ('r' :: '#' :: c :: cs ++ y'.rest) ∧ Abreast x' y' ∧ x'.rest = rest := by
  obtain ⟨a, b, x', y', gap', hface, hx', hg', hy, hab, -, happart⟩ :=
    h.token hg (show isBlank 'r' = false by decide +kernel) hx
  have hne' := happart hp (by decide +kernel)
  rw [lexeme_raw_part hc hcs hrest] at hface hx' hy
  have hnone : ∀ d ∈ x'.rest.head?, startsNone d = true := by
    intro d hd
    rw [hx'] at hd
    exact startsNone_of_endsWord (endsWord_behind hcs hrest d hd).1
  obtain ⟨x₁, y₁, hab₁, hx₁, hy₁⟩ := hab.name_rest (.inr hnone) (.inl (by rw [hface]; rfl))
    (all_isNameContinue_dropWhile hcs) hx' hrest
  refine ⟨gap', x₁, y₁, hg', hne', ?_, hab₁, hx₁⟩
  rw [hy, hy₁]
  simp only [List.cons_append]
  rw [← List.append_assoc (cs.takeWhile _), List.takeWhile_append_dropWhile]

/-- Any other raw name is of a letter, a hash and what follows it. -/
theorem Behind.raw_mark (h : Behind p q x y) (hp : p.kind = .ident)
    (hc : (c == '_' || isNameStart c) = true) (hstart : isIdentStart c = false)
    (hcs : cs.all isNameContinue = true) (hg : gap.all isBlank = true)
    (hx : x.rest = gap ++ 'r' :: ('#' :: c :: (cs ++ rest)))
    (hrest : ∀ d ∈ rest.head?, endsName d = true) :
    ∃ gap' x' y', gap'.all isBlank = true ∧ gap' ≠ [] ∧
      y.rest = gap' ++ ('r' :: '#' :: c :: cs ++ y'.rest) ∧ Abreast x' y' ∧ x'.rest = rest := by
  have hcont := Signature.isNameContinue_of_start hc
  obtain ⟨a, b, x', y', gap', hface, hx', hg', hy, hab, -, happart⟩ :=
    h.token hg (show isBlank 'r' = false by decide +kernel) hx
  have hne' := happart hp (by decide +kernel)
  rw [lexeme_r_hash hcont hstart] at hface hx' hy
  have hhash : x'.rest = [] ++ '#' :: (c :: (cs ++ rest)) := hx'
  have hmark : lexeme '#' (c :: (cs ++ rest)) = ⟨⟨['#'], c :: (cs ++ rest), true⟩, .punct '#'⟩ :=
    lexeme_mark (by decide +kernel) _
  obtain ⟨a₁, b₁, x₁, y₁, gap₁, hface₁, hx₁, -, hy₁, hab₁, htouch₁, -⟩ :=
    hab.token rfl (show isBlank '#' = false by decide +kernel) hhash
  rw [hmark] at hface₁ hx₁ hy₁
  have hminds : minds a.face a₁.face = true := by
    rw [hface, hface₁]
    simp [minds]
  obtain rfl : gap₁ = [] := (htouch₁ hminds).1 rfl
  have hnone : ∀ d ∈ x₁.rest.head?, startsNone d = true := by
    intro d hd
    rw [hx₁] at hd
    cases hd
    simp [startsNone, hstart, isDigit_of_isNameStart hc]
  have hall : (c :: cs).all isNameContinue = true := by
    rw [List.all_cons, hcont, hcs]
    rfl
  obtain ⟨x₂, y₂, hab₂, hx₂, hy₂⟩ :=
    hab₁.name_rest (.inr hnone) (.inr (congrArg Prod.snd hface₁)) hall hx₁ hrest
  exact ⟨gap', x₂, y₂, hg', hne', by rw [hy, hy₁, hy₂]; rfl, hab₂, hx₂⟩

/-- A name behind a word stands apart from it in both texts, and is the same name. -/
theorem Behind.whole_name (h : Behind p q x y) (hp : p.kind = .ident)
    (hname : Signature.NameText name) (hg : gap.all isBlank = true) (hne : gap ≠ [])
    (hx : x.rest = gap ++ (name ++ rest))
    (hrest : ∀ d ∈ rest.head?, endsName d = true) :
    ∃ gap' x' y', gap'.all isBlank = true ∧ gap' ≠ [] ∧ y.rest = gap' ++ (name ++ y'.rest) ∧
      Abreast x' y' ∧ x'.rest = rest := by
  cases hname with
  | plain hc hcs => exact h.plain_name hp hc hcs hg hne hx hrest
  | @raw c cs hc hcs =>
    by_cases hstart : isIdentStart c = true
    · exact h.raw_word hp hstart hcs hg hx hrest
    · exact h.raw_mark hp hc (Bool.eq_false_iff.2 hstart) hcs hg hx hrest

end Unbundle
