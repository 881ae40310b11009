import Unbundle.Proofs.Item.Layout.Names

/-! Layout and applets: of two texts that are read as the same tokens both are signatures of an
applet, and of the same, or neither is, if they agree on the blanks that a signature minds. -/
namespace Unbundle

section Forms

open Signature

variable {x y : Cursor} {p q : Token} {form : Form} {gap prev rest tail v w : Text}

/-- The piece is read as a single token: it is a word, or a character that stands alone. -/
def isPiece (w : Text) : Bool :=
  isIdentifier w ||
    match w with
    | [c] => standsAlone c
    | _ => false

def pieceFace (w : Text) : TokenKind × Text :=
  (if isIdentifier w then .ident else (mark (w.headD ' ') []).kind, w)

/-- The spacing before the piece can be told from the tokens and from the blanks that are minded,
and the piece before it ends there. -/
def joins (prev : Text) (spacing : Spacing) (w : Text) : Bool :=
  match spacing with
  | .tight => minds (pieceFace prev) (pieceFace w) && w.head?.all endsWord
  | .loose => !isIdentifier prev || w.head?.all endsWord
  | .apart => minds (pieceFace prev) (pieceFace w) ||
    (isIdentifier prev && w.head?.any isIdentContinue)

/-- So it is with all pieces that follow. -/
def joined (prev : Text) : Form → Bool
  | [] => true
  | (spacing, w) :: form => isPiece w && joins prev spacing w && joined w form

theorem lexeme_piece {c : Char} (hw : isPiece (c :: w) = true)
    (hrest : isIdentifier (c :: w) = true → ∀ d ∈ rest.head?, endsWord d = true) :
    lexeme c (w ++ rest) = ⟨⟨c :: w, rest, true⟩, (pieceFace (c :: w)).1⟩ := by
  by_cases hident : isIdentifier (c :: w) = true
  · rw [lexeme_identifier hident (hrest hident), pieceFace, if_pos hident]
  · rw [Bool.not_eq_true] at hident
    unfold isPiece at hw
    rw [hident, Bool.false_or] at hw
    split at hw
    · rename_i d hd
      obtain ⟨rfl, rfl⟩ := List.cons.inj hd
      rw [pieceFace, if_neg (by simp [hident]), List.nil_append, lexeme_mark hw]
      rfl
    · cases hw

theorem isBlank_of_isPiece {c : Char} (hw : isPiece (c :: w) = true) : isBlank c = false := by
  unfold isPiece at hw
  rw [Bool.or_eq_true] at hw
  rcases hw with hw | hw
  · rw [isIdentifier, Bool.and_eq_true] at hw
    exact isBlank_of_isIdentContinue (isIdentContinue_of_isIdentStart hw.1)
  · split at hw
    · rename_i d hd
      obtain ⟨rfl, rfl⟩ := List.cons.inj hd
      simp only [standsAlone, Bool.and_eq_true, Bool.not_eq_true'] at hw
      exact hw.1.1.1.2
    · cases hw

/-- A word ends where the next piece begins. -/
theorem Signature.Laid.endsWord_head (h : Laid form v) (hjoined : joined prev form = true)
    (hprev : isIdentifier prev = true) (htail : tail.all isBlank = true) :
    ∀ d ∈ (v ++ tail).head?, endsWord d = true := by
  have hblank {gap : Text} (hg : gap.all isBlank = true) {d : Char} (hd : d ∈ gap.head?) :
      endsWord d = true :=
    endsWord_of_isBlank (List.all_eq_true.1 hg d (List.mem_of_mem_head? hd))
  cases h with
  | nil =>
    intro d hd
    exact hblank htail hd
  | @cons spacing gap w v form hg hs h =>
    rw [joined, Bool.and_eq_true, Bool.and_eq_true] at hjoined
    obtain ⟨⟨hw, hjoins⟩, -⟩ := hjoined
    intro d hd
    cases gap with
    | cons e gap =>
      cases hd
      exact hblank hg rfl
    | nil =>
      cases w with
      | nil => cases hw
      | cons c w =>
        obtain rfl : c = d := Option.some.inj hd
        cases spacing with
        | tight =>
          rw [joins, Bool.and_eq_true] at hjoins
          simpa using hjoins.2
        | loose => simpa [joins, hprev] using hjoins
        | apart => cases hs

/-- The spacing before a piece carries over to the other text. -/
theorem allows_of_joins {c : Char} {gap' : Text} {spacing : Spacing}
    (hjoins : joins prev spacing (c :: w) = true) (hs : spacing.allows gap = true)
    (htouch : minds (pieceFace prev) (pieceFace (c :: w)) = true → (gap = [] ↔ gap' = []))
    (hword : isIdentifier prev = true → isIdentContinue c = true → gap' ≠ []) :
    spacing.allows gap' = true := by
  cases spacing with
  | tight =>
    rw [joins, Bool.and_eq_true] at hjoins
    exact List.isEmpty_iff.2 ((htouch hjoins.1).1 (List.isEmpty_iff.1 hs))
  | loose => rfl
  | apart =>
    have hne : gap ≠ [] := by
      rintro rfl
      cases hs
    have hne' : gap' ≠ [] := by
      rw [joins, Bool.or_eq_true, Bool.and_eq_true] at hjoins
      rcases hjoins with hminds | ⟨hprev, hc⟩
      · exact fun hnil => hne ((htouch hminds).2 hnil)
      · exact hword hprev hc
    simpa [Spacing.allows] using hne'

/-- One piece that blanks may precede, in both texts. -/
theorem Abreast.piece (h : Abreast x y) (hw : isPiece w = true)
    (hrest : isIdentifier w = true → ∀ d ∈ rest.head?, endsWord d = true)
    (hg : gap.all isBlank = true) (hx : x.rest = gap ++ (w ++ rest)) :
    ∃ a b x' y' gap', a.face = pieceFace w ∧ x'.rest = rest ∧ gap'.all isBlank = true ∧
      y.rest = gap' ++ (w ++ y'.rest) ∧ Behind a b x' y' := by
  cases w with
  | nil => cases hw
  | cons c w =>
    obtain ⟨a, b, x', y', gap', hface, hx', hg', hy, hab⟩ := h.token hg (isBlank_of_isPiece hw) hx
    rw [List.append_eq, lexeme_piece hw hrest] at hface hx' hy
    exact ⟨a, b, x', y', gap', hface, hx', hg', hy, hab⟩

/-- One piece behind another, in both texts. -/
theorem Behind.piece {spacing : Spacing} (h : Behind p q x y) (hp : p.face = pieceFace prev)
    (hw : isPiece w = true) (hjoins : joins prev spacing w = true)
    (hrest : isIdentifier w = true → ∀ d ∈ rest.head?, endsWord d = true)
    (hg : gap.all isBlank = true) (hs : spacing.allows gap = true)
    (hx : x.rest = gap ++ (w ++ rest)) :
    ∃ a b x' y' gap', a.face = pieceFace w ∧ x'.rest = rest ∧ gap'.all isBlank = true ∧
      spacing.allows gap' = true ∧ y.rest = gap' ++ (w ++ y'.rest) ∧ Behind a b x' y' := by
  cases w with
  | nil => cases hw
  | cons c w =>
    obtain ⟨a, b, x', y', gap', hface, hx', hg', hy, hab, htouch, hword⟩ :=
      h.token hg (isBlank_of_isPiece hw) hx
    rw [List.append_eq, lexeme_piece hw hrest] at hface hx' hy
    have hface : a.face = pieceFace (c :: w) := hface
    refine ⟨a, b, x', y', gap', hface, hx', hg', ?_, hy, hab⟩
    rw [hp, hface] at htouch
    refine allows_of_joins hjoins hs htouch fun hprev => hword ?_
    have hkind : p.kind = (pieceFace prev).1 := congrArg Prod.fst hp
    rw [hkind, pieceFace, if_pos hprev]

/-- All pieces behind one, in both texts. -/
theorem Behind.laid (h : Behind p q x y) (hp : p.face = pieceFace prev)
    (hjoined : joined prev form = true) (hv : Laid form v) (hx : x.rest = v ++ tail)
    (htail : tail.all isBlank = true) :
    ∃ v' tail', y.rest = v' ++ tail' ∧ tail'.all isBlank = true ∧ Laid form v' := by
  induction hv generalizing p q x y prev with
  | nil =>
    have hnone : y.tokens = [] := by
      have hfaces := h.faces
      rw [Cursor.tokens_of_next?_none (Cursor.next?_eq_none.2 (hx ▸ htail)), List.map_nil, eq_comm,
        List.map_eq_nil_iff] at hfaces
      exact hfaces
    refine ⟨[], y.rest, rfl, ?_, .nil⟩
    cases hy : y.next? with
    | none => exact Cursor.next?_eq_none.1 hy
    | some found =>
      rw [Cursor.tokens_of_next?_some hy] at hnone
      cases hnone
  | @cons spacing gap w v form hg hs hv ih =>
    rw [joined, Bool.and_eq_true, Bool.and_eq_true] at hjoined
    obtain ⟨⟨hw, hjoins⟩, hnext⟩ := hjoined
    rw [List.append_assoc, List.append_assoc] at hx
    obtain ⟨a, b, x', y', gap', hface, hx', hg', hs', hy, hab⟩ :=
      h.piece hp hw hjoins (fun hident => hv.endsWord_head hnext hident htail) hg hs hx
    obtain ⟨v', tail', hy', htail', hlaid⟩ := ih hab hface hnext hx'
    refine ⟨gap' ++ (w ++ v'), tail', ?_, htail', .cons hg' hs' hlaid⟩
    rw [hy, hy', List.append_assoc, List.append_assoc]

theorem joined_tailForm :
    ∀ argc ∈ argcNames, ∀ argv ∈ argvNames, ∀ comma,
      joined ['('] (tailForm argc argv comma).tail = true := by
  decide +kernel

/-- From two places that are abreast, the parameters and the result are laid out alike. -/
theorem Abreast.laid_tail {argc argv : Text} {comma : Bool} (h : Abreast x y)
    (hargc : argc ∈ argcNames) (hargv : argv ∈ argvNames) (hv : Laid (tailForm argc argv comma) v)
    (hx : x.rest = v ++ tail)
    (htail : tail.all isBlank = true) :
    ∃ v' tail', y.rest = v' ++ tail' ∧ tail'.all isBlank = true ∧
      Laid (tailForm argc argv comma) v' := by
  obtain ⟨gap, v₁, hg, hs, rfl, hrest⟩ := laid_cons_iff.1 hv
  rw [List.append_assoc, List.append_assoc] at hx
  obtain ⟨a, b, x', y', gap', hface, hx', hg', hy, hab⟩ :=
    h.piece (by decide +kernel) (fun hident => absurd hident (by decide +kernel)) hg hx
  obtain ⟨v', tail', hy', htail', hlaid⟩ :=
    hab.laid hface (joined_tailForm argc hargc argv hargv comma) hrest hx' htail
  refine ⟨gap' ++ (['('] ++ v'), tail', ?_, htail', .cons hg' rfl hlaid⟩
  rw [hy, hy', List.append_assoc, List.append_assoc]

/-- The whole signature of an applet is laid out alike in both texts. -/
theorem Abreast.appletName?_eq_some {t u name : Text} (h : Abreast ⟨0, t⟩ ⟨0, u⟩)
    (ht : appletName? t = some name) : appletName? u = some name := by
  obtain ⟨hname, argc, hargc, argv, hargv, comma, core, tail, rfl, htail, hcore⟩ :=
    appletName?_eq_some_iff.1 ht
  obtain ⟨gap, x, hg, -, rfl, hfn⟩ := laid_cons_iff.1 hcore
  obtain ⟨gap₁, x₁, hg₁, hs₁, rfl, hnamed⟩ := laid_cons_iff.1 hfn
  obtain ⟨gap₂, x₂, hg₂, hs₂, rfl, hafter⟩ := laid_cons_iff.1 hnamed
  have hx :
      (⟨0, gap ++ ("pub".toList ++ (gap₁ ++ ("fn".toList ++ (gap₂ ++ (name ++ x₂))))) ++ tail⟩ :
      Cursor).rest = gap ++ ("pub".toList ++ (gap₁ ++ ("fn".toList ++
        (gap₂ ++ (name ++ (x₂ ++ tail)))))) := by
    simp only [List.append_assoc]
  obtain ⟨a, b, x', y', gap', hface, hx', hg', hy, hpub⟩ :=
    h.piece (by decide +kernel) (fun _ => endsWord_of_apart hg₁ hs₁) hg hx
  obtain ⟨a₁, b₁, x₁', y₁', gap₁', hface₁, hx₁', hg₁', hs₁', hy₁, hkeyword⟩ :=
    hpub.piece hface (by decide +kernel) (by decide +kernel)
      (fun _ => endsWord_of_apart hg₂ hs₂) hg₁ hs₁ hx'
  have hkind : a₁.kind = .ident := congrArg Prod.fst hface₁
  have hne : gap₂ ≠ [] := by
    rintro rfl
    cases hs₂
  obtain ⟨gap₂', x₂', y₂', hg₂', hne', hy₂, hbehind, hx₂'⟩ :=
    hkeyword.whole_name hkind hname hg₂ hne hx₁' (endsName_of_laid hafter)
  obtain ⟨v', tail', hy₃, htail', hlaid⟩ := hbehind.laid_tail hargc hargv hafter hx₂' htail
  have hs₂' : Spacing.apart.allows gap₂' = true := by simpa [Spacing.allows] using hne'
  have hform : Laid (signatureForm name argc argv comma) _ :=
    .cons hg' rfl (.cons hg₁' hs₁' (.cons hg₂' hs₂' hlaid))
  refine appletName?_eq_some_iff.2
    ⟨hname, argc, hargc, argv, hargv, comma, _, tail', ?_, htail', hform⟩
  have hu : u = _ := hy
  rw [hu, hy₁, hy₂, hy₃]
  simp only [List.append_assoc]

end Forms

/-- Layout does not decide what is an applet: two texts with the same tokens that also agree on the
blanks inside an arrow, between `const` and a star, and inside a name are signatures of the same
applet, or neither is one. -/
theorem appletName_eq_of_faces (t u : Text) (hfaces : faces t = faces u)
    (hseams : seams (tokenize t) = seams (tokenize u)) : appletName? t = appletName? u := by
  have hab : Abreast ⟨0, t⟩ ⟨0, u⟩ := ⟨hfaces, hseams⟩
  have hba : Abreast ⟨0, u⟩ ⟨0, t⟩ := ⟨hfaces.symm, hseams.symm⟩
  apply Option.ext
  intro name
  exact ⟨hab.appletName?_eq_some, hba.appletName?_eq_some⟩

def plainSignature : Text := "pub fn ls(argc: i32, argv: *const *const u8) -> i32".toList

def spreadSignature : Text :=
  "\npub\tfn  ls ( argc:i32,\n  argv : * const *const\nu8 )->i32 ".toList

theorem spreadSignature_appletName :
    faces plainSignature = faces spreadSignature ∧
      appletName? spreadSignature = some ['l', 's'] := by
  have hfaces : faces plainSignature = faces spreadSignature := by decide +kernel
  have hplain : appletName? plainSignature = some ['l', 's'] := by decide +kernel
  refine ⟨hfaces, ?_⟩
  rw [← appletName_eq_of_faces plainSignature spreadSignature hfaces (by decide +kernel)]
  exact hplain

def brokenArrow : Text := "pub fn ls(argc: i32, argv: *const *const u8) - > i32".toList

/-- So the tokens alone do not tell: the arrow of a signature is not to be taken apart. -/
theorem not_forall_appletName_eq :
    ¬ ∀ t u, (tokenize t).all (!·.isComment) = true → (tokenize u).all (!·.isComment) = true →
      faces t = faces u → appletName? t = appletName? u := by
  intro h
  have heq :=
    h plainSignature brokenArrow (by decide +kernel) (by decide +kernel) (by decide +kernel)
  revert heq
  decide +kernel

end Unbundle
