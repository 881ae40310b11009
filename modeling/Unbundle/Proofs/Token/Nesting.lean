import Unbundle.Proofs.Text.Slice
import Unbundle.Token.Lexer

/-! How deep block comments nest: a counter of open comments that is a machine number does not
overflow in any text of less than four gigabytes. -/
namespace Unbundle

/-- Signed numbers of 32 bits are below this bound. -/
def counterBound : Nat := Nat.pow 2 31

/-- Texts of less than four gigabytes are shorter than this. -/
def sizeBound : Nat := Nat.pow 2 32

/-- The rest of a block comment, read with a counter of the comments that are open, itself included.
Refuses when the counter overflows. -/
def countedBlockBody : Nat → Text → Checked Cut
  | _, [] => .ok ⟨[], [], false⟩
  | count, '/' :: '*' :: cs =>
    if count + 1 < counterBound then (countedBlockBody (count + 1) cs).map (Cut.after ['/', '*'])
    else .error .overflow
  | count, '*' :: '/' :: cs =>
    if count = 1 then .ok ⟨['*', '/'], cs, true⟩
    else (countedBlockBody (count - 1) cs).map (Cut.after ['*', '/'])
  | count, c :: cs => (countedBlockBody count cs).map (Cut.after [c])

/-- Every open comment has taken two bytes, so that the counter stays below its bound. -/
theorem countedBlockBody_eq_ok {depth : Nat} {cs : Text}
    (h : 2 * (depth + 1) + byteLength cs < sizeBound) :
    countedBlockBody (depth + 1) cs = .ok (blockBody depth cs) := by
  have hslash : '/'.utf8Size = 1 := by decide
  have hstar : '*'.utf8Size = 1 := by decide
  fun_induction blockBody depth cs with
  | case1 depth => rfl
  | case2 depth cs ih =>
    simp only [byteLength_cons, hslash, hstar] at h
    have hlt : depth + 1 + 1 < counterBound := by
      have : counterBound * 2 = sizeBound := by decide
      omega
    have ih := ih (by omega)
    simp only [countedBlockBody, if_pos hlt, ih]
    rfl
  | case3 cs => rfl
  | case4 depth cs ih =>
    simp only [byteLength_cons, hslash, hstar] at h
    have ih := ih (by omega)
    have hne : ¬ depth + 1 + 1 = 1 := by omega
    simp only [countedBlockBody, if_neg hne, Nat.add_sub_cancel, ih]
    rfl
  | case5 depth c cs hopen hclose hclose' ih =>
    have hpos := c.utf8Size_pos
    rw [byteLength_cons] at h
    have ih := ih (by omega)
    have hother : countedBlockBody (depth + 1) (c :: cs) =
        (countedBlockBody (depth + 1) cs).map (Cut.after [c]) := by
      rw [countedBlockBody]
      · intro ds hc hds
        exact hopen ds hc hds
      · intro ds hc hds
        cases depth with
        | zero => exact hclose ds rfl hc hds
        | succ depth => exact hclose' depth ds rfl hc hds
    rw [hother, ih]
    rfl

/-- Wherever a block comment opens, its nesting can be counted. -/
theorem countedBlockBody_of_append {before body : Text}
    (h : byteLength (before ++ '/' :: '*' :: body) < sizeBound) :
    countedBlockBody 1 body = .ok (blockBody 0 body) := by
  apply countedBlockBody_eq_ok
  have hslash : '/'.utf8Size = 1 := by decide
  have hstar : '*'.utf8Size = 1 := by decide
  rw [byteLength_append, byteLength_cons, byteLength_cons, hslash, hstar] at h
  omega

end Unbundle
