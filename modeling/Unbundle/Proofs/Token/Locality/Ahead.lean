import Unbundle.Proofs.Token.Run

/-! What a reader sees of the text behind what it takes. Two texts look the same to it when they
agree up to a character that belongs to no word, number or quote. -/
namespace Unbundle

variable {cs x y : Text}

/-- The same cut before another text. -/
def Cut.withRest (cut : Cut) (y : Text) : Cut := ⟨cut.taken, y, cut.closed⟩

theorem Cut.head?_taken_append {cut : Cut} (h : cut.taken ≠ []) (y : Text) :
    (cut.taken ++ y).head? = cut.whole.head? := by
  cases ht : cut.taken with
  | nil => exact absurd ht h
  | cons a as => simp [whole, ht]

def Lexeme.withRest (l : Lexeme) (y : Text) : Lexeme := ⟨l.toCut.withRest y, l.kind⟩

/-- A character after which no reader looks: it belongs to no word or number, and starts or ends
nothing that a quote, a point or hashes lead up to. -/
def isFirm (c : Char) : Bool := !isIdentContinue c && c != '\x27' && c != '.' && c != '#'

/-- Two texts look the same to a token before them: they agree up to a firm character, and what
follows it in the second is no quote. -/
inductive Ahead : Text → Text → Prop
  | firm {c : Char} {x y : Text} (hc : isFirm c = true) (hy : y.head? ≠ some '\x27') :
      Ahead (c :: x) (c :: y)
  | cons (c : Char) {x y : Text} (h : Ahead x y) : Ahead (c :: x) (c :: y)

namespace Ahead

theorem ne_nil (h : Ahead x y) : x ≠ [] := by
  cases h <;> simp

theorem head?_eq (h : Ahead x y) : x.head? = y.head? := by
  cases h <;> rfl

/-- They still look the same after a run of hashes. -/
theorem dropWhile_hash (h : Ahead x y) :
    x.takeWhile (· == '#') = y.takeWhile (· == '#') ∧
      Ahead (x.dropWhile (· == '#')) (y.dropWhile (· == '#')) := by
  induction h with
  | @firm c x y hc hy =>
    have hne : (c == '#') = false := by simp_all [isFirm]
    simp only [List.takeWhile_cons, List.dropWhile_cons, hne]
    exact ⟨rfl, .firm hc hy⟩
  | cons c h ih =>
    by_cases hc : (c == '#') = true
    · simp only [List.takeWhile_cons, List.dropWhile_cons, hc]
      exact ⟨by simp [ih.1], ih.2⟩
    · simp only [List.takeWhile_cons, List.dropWhile_cons, hc]
      exact ⟨rfl, .cons c h⟩

theorem of_append (a : Text) {c : Char} (hc : isFirm c = true) (hy : y.head? ≠ some '\x27')
    (x : Text) : Ahead (a ++ c :: x) (a ++ c :: y) := by
  induction a with
  | nil => exact .firm hc hy
  | cons b a ih => exact .cons b ih

theorem append (a : Text) (h : Ahead x y) : Ahead (a ++ x) (a ++ y) := by
  induction a with
  | nil => exact h
  | cons b a ih => exact .cons b ih

end Ahead

theorem run_append {p : Char → Bool} {a : Text} (ha : a.all p) (hy : ∀ c ∈ y.head?, p c = false) :
    Cut.run p (a ++ y) = ⟨a, y, true⟩ := by
  have hall : ∀ b ∈ a, p b = true := by simpa using ha
  unfold Cut.run
  rw [List.takeWhile_append_of_pos hall, List.dropWhile_append_of_pos hall]
  cases y with
  | nil => simp
  | cons c y => simp_all

/-- A run is read the same before a text that looks the same. -/
theorem run_withRest {p : Char → Bool} (h : Ahead (Cut.run p cs).rest y) :
    Cut.run p ((Cut.run p cs).taken ++ y) = (Cut.run p cs).withRest y := by
  apply run_append
  · exact List.all_takeWhile
  · rw [← h.head?_eq]
    have := List.head?_dropWhile_not p cs
    intro c hc
    have hc : (cs.dropWhile p).head? = some c := hc
    simp_all

end Unbundle
