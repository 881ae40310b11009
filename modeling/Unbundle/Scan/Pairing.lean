import Unbundle.Token

/-! Pairing brackets in a run of tokens, with recovery from brackets that do not match. -/
namespace Unbundle

/-- The open groups, innermost first: the token that opened each and its bracket. -/
abbrev OpenGroups := List (Nat × Delimiter)

/-- Closes the innermost open group of kind `d`, and with it the groups opened after it, which stay
without a partner. `none` when no group of that kind is open. -/
def closeGroup (d : Delimiter) : OpenGroups → Option (Nat × OpenGroups)
  | [] => none
  | (i, e) :: below => if e = d then some (i, below) else closeGroup d below

/-- Which brackets belong together, by token index, and how many groups enclose each token. A
bracket counts as outside the group it opens or closes. -/
structure Pairing where
  pairs : List (Nat × Nat)
  depths : List Nat
deriving DecidableEq, Repr

namespace Pairing

/-- Adds the depth of one token before the others. -/
def atDepth (p : Pairing) (depth : Nat) : Pairing := { p with depths := depth :: p.depths }

/-- Adds one pair before the others. -/
def withPair (p : Pairing) (i j : Nat) : Pairing := { p with pairs := (i, j) :: p.pairs }

/-- Pairs the brackets of the tokens from index `i` on, inside the groups `opened`. A closing
bracket without a partner is passed over. -/
def ofKinds (opened : OpenGroups) (i : Nat) : List TokenKind → Pairing
  | [] => ⟨[], []⟩
  | .opener d :: ks => (ofKinds ((i, d) :: opened) (i + 1) ks).atDepth opened.length
  | .closer d :: ks =>
    match closeGroup d opened with
    | some (j, below) => ((ofKinds below (i + 1) ks).withPair j i).atDepth below.length
    | none => (ofKinds opened (i + 1) ks).atDepth opened.length
  | _ :: ks => (ofKinds opened (i + 1) ks).atDepth opened.length

/-- Every token has a depth. -/
theorem length_depths_ofKinds (opened : OpenGroups) (i : Nat) (ks : List TokenKind) :
    (ofKinds opened i ks).depths.length = ks.length := by
  fun_induction ofKinds opened i ks <;> simp_all [atDepth, withPair]

/-- The bracket that belongs to the bracket at index `i`. -/
def partner? (p : Pairing) (i : Nat) : Option Nat :=
  p.pairs.findSome? fun (a, b) => if a = i then some b else if b = i then some a else none

end Pairing
end Unbundle
