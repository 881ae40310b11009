import Unbundle.Proofs.Token.Locality

/-! The words of literals and comments, and the readers that look for their ends: what is read
behind the opening is the shortest word there is, or everything when there is none. -/
namespace Unbundle

variable {c q : Char} {cs lead v w : Text} {depth hashes n : Nat} {cut : Cut}

section Words

/-- A quoted literal behind its opening quote: backslashes with one character each and characters
other than the quote and the backslash, and the closing quote. -/
inductive QuotedRest (q : Char) : Text → Prop
  | close : QuotedRest q [q]
  | escaped (c : Char) {w : Text} (h : QuotedRest q w) : QuotedRest q ('\\' :: c :: w)
  | plain {c : Char} {w : Text} (hq : c ≠ q) (hc : c ≠ '\\') (h : QuotedRest q w) :
      QuotedRest q (c :: w)

def RawRest (hashes : Nat) (w : Text) : Prop :=
  ∃ body, w = body ++ '"' :: List.replicate hashes '#'

/-- Where comments are opened (`true`) and closed (`false`), from left to right and without
overlap. -/
def commentMarks : Text → List Bool
  | [] => []
  | '/' :: '*' :: cs => true :: commentMarks cs
  | '*' :: '/' :: cs => false :: commentMarks cs
  | _ :: cs => commentMarks cs

/-- The text closes so many more comments than it opens. -/
def ClosesComments (n : Nat) (w : Text) : Prop :=
  (commentMarks w).count false = (commentMarks w).count true + n

/-- The forms of literals and comments. A quoted literal has letters in front of its quote, and a
raw one in front of its hashes. -/
inductive TokenForm
  | quoted (lead : Text) (quote : Char)
  | raw (lead : Text)
  | lineComment
  | blockComment
  | character
deriving DecidableEq, Repr

namespace TokenForm

def Word : TokenForm → Text → Prop
  | quoted lead quote, w => ∃ v, w = lead ++ quote :: v ∧ QuotedRest quote v
  | raw lead, w =>
    ∃ hashes v, w = lead ++ (List.replicate hashes '#' ++ '"' :: v) ∧ RawRest hashes v
  | lineComment, w => ['/', '/'] <+: w ∧ '\n' ∉ w
  | blockComment, w => ['/', '*'] <+: w ∧ ClosesComments 0 w
  | character, w => ∃ c, c ≠ '\x27' ∧ c ≠ '\\' ∧ w = ['\x27', c, '\x27']

/-- Words of the form may lack their end. -/
def mayRunOut : TokenForm → Bool
  | quoted .. | raw _ | blockComment => true
  | lineComment | character => false

def Opens : TokenForm → Text → Prop
  | quoted lead quote, w => lead ++ [quote] <+: w
  | raw lead, w => ∃ hashes, lead ++ (List.replicate hashes '#' ++ ['"']) <+: w
  | lineComment, w => ['/', '/'] <+: w
  | blockComment, w => ['/', '*'] <+: w
  | character, w => ['\x27'] <+: w

/-- The text `w` before `rest` is what the form has there: a line comment goes up to the next
newline, and any other word is the shortest there is, or is not ended before the end of the text. -/
inductive Delimits (form : TokenForm) (w rest : Text) : Prop
  | line (hform : form = .lineComment) (hw : form.Word w) (hrest : ∀ c ∈ rest.head?, c = '\n')
  | ended (hform : form ≠ .lineComment) (hw : form.Word w)
      (hfirst : ∀ v, v <+: w ++ rest → form.Word v → w.length ≤ v.length)
  | runsOut (hform : form.mayRunOut = true) (hopens : form.Opens w) (hrest : rest = [])
      (hnone : ∀ v, v <+: w → ¬ form.Word v)

end TokenForm
end Words

section Bodies

/-- The first part is the shortest with a property, or the whole text when no first part has it. -/
structure Cut.Shortest (cut : Cut) (P : Text → Prop) : Prop where
  taken : cut.closed = true → P cut.taken
  first : ∀ v, v <+: cut.whole → P v → cut.closed = true ∧ cut.taken.length ≤ v.length
  rest : cut.closed = false → cut.rest = []

theorem Cut.Shortest.after {P Q : Text → Prop} (h : cut.Shortest P) (hP : ∀ w, P w → Q (lead ++ w))
    (hQ : ∀ v, v <+: lead ++ cut.whole → Q v → ∃ w, v = lead ++ w ∧ P w) :
    (cut.after lead).Shortest Q := by
  refine ⟨fun hc => hP _ (h.taken hc), ?_, h.rest⟩
  intro v hv hw
  rw [Cut.whole_after] at hv
  obtain ⟨w, rfl, hrest⟩ := hQ v hv hw
  obtain ⟨hc, hle⟩ := h.first w ((List.prefix_append_right_inj lead).1 hv) hrest
  refine ⟨hc, ?_⟩
  simp only [Cut.after, List.length_append]
  omega

theorem quotedBody_of_rest (hq : q ≠ '\\') (h : QuotedRest q w) (y : Text) :
    quotedBody q (w ++ y) = ⟨w, y, true⟩ := by
  induction h with
  | close => rw [List.singleton_append, quotedBody_cons hq, if_pos rfl]
  | escaped c h ih =>
    rw [List.cons_append, List.cons_append, quotedBody, ih]
    rfl
  | plain hne hc h ih =>
    rw [List.cons_append, quotedBody_cons hc, if_neg hne, ih]
    rfl

theorem quotedRest_of_closed (h : (quotedBody q cs).closed = true) :
    QuotedRest q (quotedBody q cs).taken := by
  fun_induction quotedBody q cs with
  | case1 => cases h
  | case2 => cases h
  | case3 c cs ih => exact .escaped c (ih h)
  | case4 cs h₁ h₂ => exact .close
  | case5 c cs h₁ h₂ hq ih =>
    have hc : c ≠ '\\' := by
      rintro rfl
      cases cs <;> simp_all
    exact .plain hq hc (ih h)

theorem shortest_quotedBody (hq : q ≠ '\\') (cs : Text) :
    (quotedBody q cs).Shortest (QuotedRest q) := by
  refine ⟨quotedRest_of_closed, ?_, rest_quotedBody⟩
  intro v hv hw
  rw [whole_quotedBody] at hv
  obtain ⟨y, rfl⟩ := hv
  rw [quotedBody_of_rest hq hw]
  exact ⟨rfl, Nat.le_refl _⟩

theorem rawRest_of_closed (h : (rawBody hashes cs).closed = true) :
    RawRest hashes (rawBody hashes cs).taken := by
  fun_induction rawBody hashes cs with
  | case1 => cases h
  | case2 c cs hc =>
    obtain ⟨rest, rfl⟩ := List.isPrefixOf_iff_prefix.1 hc.2
    exact ⟨[], by simp [hc.1]⟩
  | case3 c cs hc ih =>
    obtain ⟨body, hbody⟩ := ih h
    exact ⟨c :: body, by simp [Cut.after, hbody]⟩

theorem first_rawBody (hv : v <+: cs) (hw : RawRest hashes v) :
    (rawBody hashes cs).closed = true ∧ (rawBody hashes cs).taken.length ≤ v.length := by
  obtain ⟨body, rfl⟩ := hw
  fun_induction rawBody hashes cs generalizing body with
  | case1 => simp at hv
  | case2 c cs hc =>
    refine ⟨rfl, ?_⟩
    simp
    omega
  | case3 c cs hc ih =>
    cases body with
    | nil =>
      rw [List.nil_append, List.cons_prefix_cons] at hv
      exact absurd ⟨hv.1.symm, List.isPrefixOf_iff_prefix.2 hv.2⟩ hc
    | cons b body =>
      rw [List.cons_append, List.cons_prefix_cons] at hv
      obtain ⟨hclosed, hle⟩ := ih body hv.2
      refine ⟨hclosed, ?_⟩
      simp only [Cut.after, List.cons_append, List.nil_append, List.length_cons]
      omega

theorem shortest_rawBody (hashes : Nat) (cs : Text) :
    (rawBody hashes cs).Shortest (RawRest hashes) := by
  refine ⟨rawRest_of_closed, ?_, rest_rawBody⟩
  intro v hv hw
  rw [whole_rawBody] at hv
  exact first_rawBody hv hw

theorem commentMarks_cons (h₁ : ¬ (c = '/' ∧ cs.head? = some '*'))
    (h₂ : ¬ (c = '*' ∧ cs.head? = some '/')) : commentMarks (c :: cs) = commentMarks cs := by
  rw [commentMarks] <;> grind

theorem closesComments_nil : ClosesComments n [] ↔ n = 0 := by
  simp [ClosesComments, commentMarks, eq_comm]

theorem closesComments_open :
    ClosesComments n ('/' :: '*' :: w) ↔ ClosesComments (n + 1) w := by
  simp only [ClosesComments, commentMarks, List.count_cons]
  simp
  omega

theorem closesComments_close :
    ClosesComments (n + 1) ('*' :: '/' :: w) ↔ ClosesComments n w := by
  simp only [ClosesComments, commentMarks, List.count_cons]
  simp
  omega

theorem closesComments_cons (h₁ : ¬ (c = '/' ∧ cs.head? = some '*'))
    (h₂ : ¬ (c = '*' ∧ cs.head? = some '/')) :
    ClosesComments n (c :: cs) ↔ ClosesComments n cs := by
  rw [ClosesComments, commentMarks_cons h₁ h₂, ClosesComments]

theorem closesComments_of_closed (h : (blockBody depth cs).closed = true) :
    ClosesComments (depth + 1) (blockBody depth cs).taken := by
  fun_induction blockBody depth cs with
  | case1 => cases h
  | case2 depth cs ih => exact closesComments_open.2 (ih h)
  | case3 cs => exact closesComments_close.2 (closesComments_nil.2 rfl)
  | case4 depth cs ih => exact closesComments_close.2 (ih h)
  | case5 depth c cs h₁ h₂ h₃ ih =>
    have hhead : (blockBody depth cs).taken.head? = cs.head? := by
      have hne := taken_blockBody_ne_nil h
      rw [← List.append_nil (blockBody depth cs).taken, Cut.head?_taken_append hne, whole_blockBody]
    refine (closesComments_cons ?_ ?_).2 (ih h)
    · rintro ⟨rfl, hs⟩
      cases cs <;> simp_all
    · rintro ⟨rfl, hs⟩
      cases cs <;> cases depth <;> simp_all

/-- What closes a comment has the two characters of a mark. -/
theorem ClosesComments.exists_cons_cons (h : ClosesComments (n + 1) w) :
    ∃ a b v, w = a :: b :: v := by
  cases w with
  | nil => exact absurd (closesComments_nil.1 h) (Nat.succ_ne_zero n)
  | cons a w =>
    cases w with
    | nil => simp [ClosesComments, commentMarks] at h
    | cons b v => exact ⟨a, b, v, rfl⟩

theorem first_blockBody (hv : v <+: cs) (hw : ClosesComments (depth + 1) v) :
    (blockBody depth cs).closed = true ∧ (blockBody depth cs).taken.length ≤ v.length := by
  fun_induction blockBody depth cs generalizing v with
  | case1 depth =>
    obtain rfl := List.prefix_nil.1 hv
    exact absurd (closesComments_nil.1 hw) (Nat.succ_ne_zero depth)
  | case2 depth cs ih =>
    obtain ⟨a, b, v, rfl⟩ := hw.exists_cons_cons
    simp only [List.cons_prefix_cons] at hv
    obtain ⟨rfl, rfl, hv⟩ := hv
    obtain ⟨hclosed, hle⟩ := ih hv (closesComments_open.1 hw)
    refine ⟨hclosed, ?_⟩
    simp only [Cut.after, List.cons_append, List.nil_append, List.length_cons]
    omega
  | case3 cs =>
    obtain ⟨a, b, v, rfl⟩ := hw.exists_cons_cons
    exact ⟨rfl, by simp⟩
  | case4 depth cs ih =>
    obtain ⟨a, b, v, rfl⟩ := hw.exists_cons_cons
    simp only [List.cons_prefix_cons] at hv
    obtain ⟨rfl, rfl, hv⟩ := hv
    obtain ⟨hclosed, hle⟩ := ih hv (closesComments_close.1 hw)
    refine ⟨hclosed, ?_⟩
    simp only [Cut.after, List.cons_append, List.nil_append, List.length_cons]
    omega
  | case5 depth c cs h₁ h₂ h₃ ih =>
    cases v with
    | nil => exact absurd (closesComments_nil.1 hw) (Nat.succ_ne_zero depth)
    | cons a v =>
      rw [List.cons_prefix_cons] at hv
      obtain ⟨rfl, hv⟩ := hv
      have hhead (d : Char) (hd : v.head? = some d) : ∃ ds, cs = d :: ds := by
        obtain ⟨y, rfl⟩ := hv
        obtain ⟨tail, rfl⟩ := List.head?_eq_some_iff.1 hd
        exact ⟨tail ++ y, rfl⟩
      have hcons : ClosesComments (depth + 1) v := by
        refine (closesComments_cons ?_ ?_).1 hw
        · rintro ⟨rfl, hd⟩
          obtain ⟨ds, rfl⟩ := hhead _ hd
          exact h₁ _ rfl rfl
        · rintro ⟨rfl, hd⟩
          obtain ⟨ds, rfl⟩ := hhead _ hd
          cases depth with
          | zero => exact h₂ _ rfl rfl rfl
          | succ depth => exact h₃ _ _ rfl rfl rfl
      obtain ⟨hclosed, hle⟩ := ih hv hcons
      refine ⟨hclosed, ?_⟩
      simp only [Cut.after, List.cons_append, List.nil_append, List.length_cons]
      omega

theorem shortest_blockBody (depth : Nat) (cs : Text) :
    (blockBody depth cs).Shortest (ClosesComments (depth + 1)) := by
  refine ⟨closesComments_of_closed, ?_, rest_blockBody⟩
  intro v hv hw
  rw [whole_blockBody] at hv
  exact first_blockBody hv hw

end Bodies

end Unbundle
