import Unbundle.Text

/-! How alike two words are, by the letters they share in nearly the same places. -/
namespace Unbundle

/-- The place of the first letter `c` of a word that is not taken yet and lies from `low` on and
before `high`. `i` is the place of the first letter given. -/
def partnerOf? (c : Char) (low high : Nat) (taken : List Nat) : Nat → Text → Option Nat
  | _, [] => none
  | i, d :: ds =>
    if low ≤ i ∧ i < high ∧ c = d ∧ i ∉ taken then some i
    else partnerOf? c low high taken (i + 1) ds

/-- Pairs the letters of a word with equal letters of `b` at most `reach` places away: each with the
first that is free. -/
def pairUp (b : Text) (reach : Nat) (taken : List Nat) : Nat → Text → List (Char × Nat)
  | _, [] => []
  | i, c :: cs =>
    match partnerOf? c (i - reach) (i + reach + 1) taken 0 b with
    | some j => (c, j) :: pairUp b reach (j :: taken) (i + 1) cs
    | none => pairUp b reach taken (i + 1) cs

/-- How many shared letters stand in another order in the second word. -/
def misplaced (b : Text) (pairs : List (Char × Nat)) : Nat :=
  let inOrder := b.zipIdx.filter fun (_, j) => (pairs.map Prod.snd).contains j
  ((pairs.zip inOrder).filter fun (p, q) => p.1 != q.1).length

/-- How alike two words are, from 0 to 1: the mean of the shared parts of either and of the part
that keeps its order. -/
def nearness (a b : Text) : Float :=
  if a.isEmpty && b.isEmpty then 1.0
  else
    let reach := max a.length b.length / 2 - 1
    let pairs := pairUp b reach [] 0 a
    if pairs.isEmpty then 0.0
    else
      let shared := pairs.length
      let kept := shared - misplaced b pairs / 2
      (shared.toFloat / a.length.toFloat + shared.toFloat / b.length.toFloat +
        kept.toFloat / shared.toFloat) / 3.0

/-- Words this near may have been mistaken for each other. -/
def isMistakenFor (a b : String) : Bool := nearness a.toList b.toList > 0.7

end Unbundle
