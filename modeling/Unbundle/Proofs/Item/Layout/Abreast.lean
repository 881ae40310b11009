import Unbundle.Proofs.Item.Naming

/-! Two texts that are read as the same tokens, and agree on the few blanks that a signature minds
and the reader of tokens does not, are followed token by token. -/
namespace Unbundle

section Seams

/-- The token is a mark for a character of names, which belongs to no word. -/
def isNameMark : TokenKind × Text → Bool
  | (.punct c, _) => isNameContinue c
  | _ => false

def isNamePart (face : TokenKind × Text) : Bool :=
  face.1 == .ident || face.1 == .rawIdent || face.1 == .literal .number || isNameMark face

/-- Between these two tokens a signature minds whether there are blanks, while they are the same two
tokens with blanks and without: inside the arrow, between `const` and the star behind it, and where
a name is of several tokens. -/
def minds (a b : TokenKind × Text) : Bool :=
  (a.2 == ['-'] && b.2 == ['>']) || (a.2 == "const".toList && b.2 == ['*']) ||
    (a.2 == ['r'] && b.2 == ['#']) || (isNameMark a && isNamePart b) ||
    ((isNamePart a || a.2 == ['#']) && isNameMark b)

/-- Of the neighbours between which a signature minds blanks, whether they touch. -/
def seams : List Token → List Bool
  | a :: b :: ts => (if minds a.face b.face then [a.stop == b.start] else []) ++ seams (b :: ts)
  | _ => []

end Seams

section Abreast

variable {x y x' y' : Cursor} {p q a b : Token} {c : Char} {cs gap : Text} {ts us : List Token}

/-- Two places from which the same tokens follow, and the same where a signature minds blanks. -/
structure Abreast (x y : Cursor) : Prop where
  faces : x.tokens.map Token.face = y.tokens.map Token.face
  seams : seams x.tokens = seams y.tokens

/-- Two places behind tokens of one face, from which the same follows. -/
structure Behind (p q : Token) (x y : Cursor) : Prop where
  face : p.face = q.face
  offset : x.offset = p.stop
  offset' : y.offset = q.stop
  faces : x.tokens.map Token.face = y.tokens.map Token.face
  seams : seams (p :: x.tokens) = seams (q :: y.tokens)
  ended : q.kind = .ident → ∀ d ∈ y.rest.head?, isIdentContinue d = false

/-- Tokens of one face follow the two places, or none do. -/
theorem exists_next?_of_faces (h : x.tokens.map Token.face = y.tokens.map Token.face)
    (hx : x.next? = some (a, x')) : ∃ b y', y.next? = some (b, y') ∧ a.face = b.face ∧
      x'.tokens.map Token.face = y'.tokens.map Token.face := by
  rw [Cursor.tokens_of_next?_some hx, List.map_cons] at h
  cases hy : y.next? with
  | none =>
    rw [Cursor.tokens_of_next?_none hy] at h
    cases h
  | some found =>
    obtain ⟨b, y'⟩ := found
    rw [Cursor.tokens_of_next?_some hy, List.map_cons] at h
    exact ⟨b, y', rfl, (List.cons.inj h).1, (List.cons.inj h).2⟩

/-- One token further, the two places stand behind it. -/
theorem Abreast.behind (h : Abreast x y) (hx : x.next? = some (a, x')) :
    ∃ b y', y.next? = some (b, y') ∧ Behind a b x' y' := by
  obtain ⟨b, y', hy, hface, hfaces⟩ := exists_next?_of_faces h.faces hx
  have hseams := h.seams
  rw [Cursor.tokens_of_next?_some hx, Cursor.tokens_of_next?_some hy] at hseams
  obtain ⟨-, -, -, -, hoffset, -⟩ := Cursor.exists_consumed_next? hx
  obtain ⟨-, -, -, -, hoffset', -⟩ := Cursor.exists_consumed_next? hy
  refine ⟨b, y', hy, hface, hoffset, hoffset', hfaces, hseams, ?_⟩
  obtain ⟨gap, c, cs, -, -, -, rfl, rfl⟩ := Cursor.next?_eq_some hy
  exact rest_of_ident

theorem seams_cons (hface : p.face = q.face) (hnext : a.face = b.face)
    (h : seams (p :: a :: ts) = seams (q :: b :: us)) :
    (minds p.face a.face = true → (p.stop = a.start ↔ q.stop = b.start)) ∧
      seams (a :: ts) = seams (b :: us) := by
  rw [seams, seams, ← hface, ← hnext] at h
  split_ifs at h with hminds
  · obtain ⟨htouch, hrest⟩ := List.cons.inj h
    refine ⟨fun _ => ?_, hrest⟩
    rw [← beq_iff_eq, htouch, beq_iff_eq]
  · exact ⟨fun hm => absurd hm hminds, h⟩

theorem Behind.abreast (h : Behind p q x y) : Abreast x y := by
  refine ⟨h.faces, ?_⟩
  have hfaces := h.faces
  have hseams := h.seams
  cases hx : x.tokens with
  | nil =>
    rw [hx, List.map_nil, eq_comm, List.map_eq_nil_iff] at hfaces
    rw [hfaces]
  | cons a ts =>
    rw [hx, List.map_cons, eq_comm, List.map_eq_cons_iff] at hfaces
    obtain ⟨b, us, hy, hface, -⟩ := hfaces
    rw [hx, hy] at hseams
    rw [hy]
    exact (seams_cons h.face hface.symm hseams).2

/-- A token that is read from the first place is read from the second. -/
theorem Abreast.token (h : Abreast x y) (hg : gap.all isBlank = true) (hc : isBlank c = false)
    (hx : x.rest = gap ++ c :: cs) :
    ∃ a b x' y' gap', a.face = ((lexeme c cs).kind, (lexeme c cs).taken) ∧
      x'.rest = (lexeme c cs).rest ∧ gap'.all isBlank = true ∧
      y.rest = gap' ++ ((lexeme c cs).taken ++ y'.rest) ∧ Behind a b x' y' := by
  have hnext : x.next? = _ := hx ▸ Cursor.next?_gap hg hc x.offset cs
  obtain ⟨b, y', hy, hbehind⟩ := h.behind hnext
  obtain ⟨gap', hg', hrest, -⟩ := Cursor.exists_consumed_next? hy
  have hchars : b.chars = (lexeme c cs).taken := (congrArg Prod.snd hbehind.face).symm
  rw [hchars] at hrest
  exact ⟨_, b, _, y', gap', rfl, rfl, hg', hrest, hbehind⟩

theorem byteLength_eq_zero_iff {x : Text} : byteLength x = 0 ↔ x = [] :=
  ⟨eq_nil_of_byteLength_eq_zero, fun h => by rw [h, byteLength_nil]⟩

/-- A token that is read behind the first place is read behind the second: the same blanks stand
before it where they are minded, and some stand before it where it would lengthen a word. -/
theorem Behind.token (h : Behind p q x y) (hg : gap.all isBlank = true) (hc : isBlank c = false)
    (hx : x.rest = gap ++ c :: cs) :
    ∃ a b x' y' gap', a.face = ((lexeme c cs).kind, (lexeme c cs).taken) ∧
      x'.rest = (lexeme c cs).rest ∧ gap'.all isBlank = true ∧
      y.rest = gap' ++ ((lexeme c cs).taken ++ y'.rest) ∧ Behind a b x' y' ∧
      (minds p.face a.face = true → (gap = [] ↔ gap' = [])) ∧
      (p.kind = .ident → isIdentContinue c = true → gap' ≠ []) := by
  have hnext : x.next? = _ := hx ▸ Cursor.next?_gap hg hc x.offset cs
  obtain ⟨b, y', hy, hbehind⟩ := h.abreast.behind hnext
  obtain ⟨gap', hg', hrest, hstart, -, -⟩ := Cursor.exists_consumed_next? hy
  have hchars : b.chars = (lexeme c cs).taken := (congrArg Prod.snd hbehind.face).symm
  have hseams := h.seams
  rw [Cursor.tokens_of_next?_some hnext, Cursor.tokens_of_next?_some hy] at hseams
  rw [hchars] at hrest
  refine ⟨_, b, _, y', gap', rfl, rfl, hg', hrest, hbehind, ?_, ?_⟩
  · intro hminds
    have htouch := (seams_cons h.face hbehind.face hseams).1 hminds
    have hoffset := h.offset
    have hoffset' := h.offset'
    rw [← byteLength_eq_zero_iff, ← byteLength_eq_zero_iff]
    constructor
    · intro hzero
      have := htouch.1 (by simp only [hzero]; omega)
      omega
    · intro hzero
      have := htouch.2 (by omega)
      simp only at this
      omega
  · rintro hkind hcont rfl
    have hq : q.kind = .ident := (congrArg Prod.fst h.face).symm.trans hkind
    have hhead : y.rest.head? = some c := by
      have hfirst := head?_lexeme c cs
      rw [hrest, List.nil_append, List.head?_append, hfirst]
      rfl
    rw [h.ended hq c hhead] at hcont
    cases hcont

end Abreast

end Unbundle
