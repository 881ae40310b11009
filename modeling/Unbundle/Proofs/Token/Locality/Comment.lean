import Unbundle.Proofs.Token.Locality.Ahead

/-! A line comment is read the same up to the end of its line, and a block comment that is closed
before any text. -/
namespace Unbundle

variable {c : Char} {cs y : Text} {depth : Nat}

theorem rest_blockBody (h : (blockBody depth cs).closed = false) :
    (blockBody depth cs).rest = [] := by
  fun_induction blockBody depth cs <;> simp_all [Cut.after]

theorem blockBody_cons (h₁ : ¬ (c = '/' ∧ cs.head? = some '*'))
    (h₂ : ¬ (c = '*' ∧ cs.head? = some '/')) (depth : Nat) :
    blockBody depth (c :: cs) = (blockBody depth cs).after [c] := by
  rw [blockBody] <;> grind

theorem taken_blockBody_ne_nil (h : (blockBody depth cs).closed = true) :
    (blockBody depth cs).taken ≠ [] := by
  fun_induction blockBody depth cs <;> simp_all [Cut.after]

theorem blockBody_append (h : (blockBody depth cs).closed = true) (y : Text) :
    blockBody depth ((blockBody depth cs).taken ++ y) = (blockBody depth cs).withRest y := by
  fun_induction blockBody depth cs with
  | case1 => simp at h
  | case2 depth cs ih =>
    have := ih h
    simp_all [blockBody, Cut.after, Cut.withRest]
  | case3 cs => simp [blockBody, Cut.withRest]
  | case4 depth cs ih =>
    have := ih h
    simp_all [blockBody, Cut.after, Cut.withRest]
  | case5 depth c cs h₁ h₂ h₃ ih =>
    have hhead : ((blockBody depth cs).taken ++ y).head? = cs.head? := by
      rw [Cut.head?_taken_append (taken_blockBody_ne_nil h), whole_blockBody]
    have hopen : ¬ (c = '/' ∧ cs.head? = some '*') := by
      rintro ⟨rfl, hs⟩
      cases cs <;> simp_all
    have hclose : ¬ (c = '*' ∧ cs.head? = some '/') := by
      rintro ⟨rfl, hs⟩
      cases cs <;> cases depth <;> simp_all
    simp only [Cut.after, List.cons_append, List.nil_append]
    rw [blockBody_cons (hhead ▸ hopen) (hhead ▸ hclose), ih h]
    rfl

/-- The two characters after its slashes tell the kind of a line comment. -/
theorem lineCommentKind_cons (a b : Char) (u : Text) :
    lineCommentKind ('/' :: '/' :: a :: b :: u) =
      if a = '/' then if b = '/' then .line else .outerDoc
      else if a = '!' then .innerDoc else .line := by
  by_cases ha : a = '/'
  · subst ha
    by_cases hb : b = '/'
    · simp [lineCommentKind, hb]
    · simp [lineCommentKind, hb]
  · by_cases hi : a = '!'
    · simp [lineCommentKind, hi]
    · simp [lineCommentKind, ha, hi]

theorem lineCommentKind_newline (t u v : Text) :
    lineCommentKind ('/' :: '/' :: (t ++ '\n' :: u)) =
      lineCommentKind ('/' :: '/' :: (t ++ '\n' :: v)) := by
  rcases t with _ | ⟨a, _ | ⟨b, t⟩⟩
  · simp [lineCommentKind]
  · simp only [List.cons_append, List.nil_append, lineCommentKind_cons]
  · simp only [List.cons_append, lineCommentKind_cons]

theorem blockCommentKind_cons (a b : Char) (u : Text) :
    blockCommentKind ('/' :: '*' :: a :: b :: u) =
      if a = '*' then if b = '*' ∨ b = '/' then .block else .outerDoc
      else if a = '!' then .innerDoc else .block := by
  by_cases ha : a = '*'
  · subst ha
    by_cases hb : b = '*'
    · simp [blockCommentKind, hb]
    · by_cases hs : b = '/'
      · simp [blockCommentKind, hs]
      · simp [blockCommentKind, hb, hs]
  · by_cases hi : a = '!'
    · simp [blockCommentKind, hi]
    · simp [blockCommentKind, ha, hi]

theorem two_le_length_taken_blockBody (h : (blockBody depth cs).closed = true) :
    2 ≤ (blockBody depth cs).taken.length := by
  fun_induction blockBody depth cs with
  | case5 depth c cs h₁ h₂ h₃ ih =>
    have := ih h
    simp only [Cut.after, List.length_append, List.length_singleton]
    omega
  | _ => simp_all [Cut.after]

theorem lexeme_lineComment (cs : Text) :
    lexeme '/' ('/' :: cs) =
      ⟨(Cut.run (· != '\n') ('/' :: cs)).after ['/'],
        .comment (lineCommentKind ('/' :: '/' :: cs))⟩ := by
  simp [lexeme]

/-- A line comment is read the same wherever its line ends. -/
theorem lexeme_lineComment_newline {u : Text} (hu : (lexeme '/' ('/' :: cs)).rest = '\n' :: u)
    (v : Text) : lexeme '/' ((lexeme '/' ('/' :: cs)).taken.tail ++ '\n' :: v) =
      (lexeme '/' ('/' :: cs)).withRest ('\n' :: v) := by
  rw [lexeme_lineComment] at hu ⊢
  have hslash : ('/' != '\n') = true := by decide
  have hcons (z : Text) : Cut.run (· != '\n') ('/' :: z) = (Cut.run (· != '\n') z).after ['/'] := by
    simp [Cut.run, Cut.after]
  rw [hcons] at hu ⊢
  have hu : (Cut.run (· != '\n') cs).rest = '\n' :: u := hu
  have happ : Cut.run (· != '\n') ((Cut.run (· != '\n') cs).taken ++ '\n' :: v) =
      (Cut.run (· != '\n') cs).withRest ('\n' :: v) :=
    run_append List.all_takeWhile (by simp)
  have hcs : cs = (Cut.run (· != '\n') cs).taken ++ '\n' :: u := by
    rw [← hu]
    exact (Cut.whole_run _ _).symm
  have hkind := lineCommentKind_newline (Cut.run (· != '\n') cs).taken u v
  rw [← hcs] at hkind
  simp only [Cut.after, List.cons_append, List.nil_append, List.tail_cons]
  rw [lexeme_lineComment, hcons, happ, hkind]
  rfl

/-- The rest of a line comment is the end of its line, or of the text. -/
theorem rest_lineComment (cs : Text) (hne : (lexeme '/' ('/' :: cs)).rest ≠ []) :
    ∃ u, (lexeme '/' ('/' :: cs)).rest = '\n' :: u := by
  rw [lexeme_lineComment] at hne ⊢
  have hhead := List.head?_dropWhile_not (· != '\n') ('/' :: cs)
  cases hd : ('/' :: cs).dropWhile (· != '\n') with
  | nil => exact absurd hd hne
  | cons b u =>
    rw [hd] at hhead
    exact ⟨u, by simp_all [Cut.run]⟩

theorem lexeme_lineComment_withRest (h : Ahead (lexeme '/' ('/' :: cs)).rest y) :
    lexeme '/' ((lexeme '/' ('/' :: cs)).taken.tail ++ y) =
      (lexeme '/' ('/' :: cs)).withRest y := by
  obtain ⟨u, hu⟩ := rest_lineComment cs h.ne_nil
  obtain ⟨v, rfl⟩ : ∃ v, y = '\n' :: v := by
    have hhead := h.head?_eq
    rw [hu, List.head?_cons] at hhead
    cases y with
    | nil => cases hhead
    | cons b v =>
      cases hhead
      exact ⟨v, rfl⟩
  exact lexeme_lineComment_newline hu v

theorem lexeme_blockComment (cs : Text) :
    lexeme '/' ('*' :: cs) =
      ⟨(blockBody 0 cs).after ['/', '*'], .comment (blockCommentKind ('/' :: '*' :: cs))⟩ := by
  simp [lexeme]

/-- A block comment that is closed is read the same before any text. -/
theorem lexeme_blockComment_closed (hne : (lexeme '/' ('*' :: cs)).rest ≠ []) (y : Text) :
    lexeme '/' ((lexeme '/' ('*' :: cs)).taken.tail ++ y) =
      (lexeme '/' ('*' :: cs)).withRest y := by
  rw [lexeme_blockComment] at hne ⊢
  have hclosed : (blockBody 0 cs).closed = true := by
    rw [← Bool.not_eq_false]
    exact fun hf => hne (rest_blockBody hf)
  have happ := blockBody_append hclosed y
  have hlen := two_le_length_taken_blockBody hclosed
  have hw := whole_blockBody 0 cs
  obtain ⟨a, b, t, ht⟩ : ∃ a b t, (blockBody 0 cs).taken = a :: b :: t := by
    match hm : (blockBody 0 cs).taken with
    | [] | [_] => simp [hm] at hlen
    | a :: b :: t => exact ⟨a, b, t, rfl⟩
  have hcs : cs = a :: b :: (t ++ (blockBody 0 cs).rest) := by
    rw [← List.cons_append, ← List.cons_append, ← ht]
    exact hw.symm
  have hkind : blockCommentKind ('/' :: '*' :: ((blockBody 0 cs).taken ++ y)) =
      blockCommentKind ('/' :: '*' :: cs) := by
    have hk := blockCommentKind_cons a b (t ++ (blockBody 0 cs).rest)
    rw [← hcs] at hk
    rw [ht, hk, List.cons_append, List.cons_append, blockCommentKind_cons]
  simp only [Cut.after, List.cons_append, List.nil_append, List.tail_cons]
  rw [lexeme_blockComment, happ, hkind]
  rfl

end Unbundle
