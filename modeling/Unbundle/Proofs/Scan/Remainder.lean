import Unbundle.Proofs.Scan.Nesting
import Unbundle.Proofs.Scan.Window

/-! Remainders: a scan of what is left of a text from one of its tokens on, without the groups that
are open there. Its brackets are paired as in the whole text until one of those groups closes. -/
namespace Unbundle

variable {ks : List TokenKind} {opened outer below : OpenGroups} {a i j k m n : Nat} {d : Delimiter}

/-- Of the open groups, those opened last are closed first. -/
theorem closeGroup_append (h : closeGroup d opened = some (a, below)) (outer : OpenGroups) :
    closeGroup d (opened ++ outer) = some (a, below ++ outer) := by
  induction opened with
  | nil => cases h
  | cons top rest ih =>
    rw [List.cons_append]
    simp only [closeGroup] at h ⊢
    split at h
    · rename_i he
      rw [if_pos he]
      cases h
      rfl
    · rename_i he
      rw [if_neg he]
      exact ih h

theorem closeGroup_append_of_none (h : closeGroup d opened = none) (outer : OpenGroups) :
    closeGroup d (opened ++ outer) = closeGroup d outer := by
  induction opened with
  | nil => rfl
  | cons top rest ih =>
    rw [List.cons_append]
    simp only [closeGroup] at h ⊢
    split at h
    · cases h
    · rename_i he
      rw [if_neg he]
      exact ih h

/-- A token leaves the groups below as they were, or it closes one of them. -/
theorem openedAfter_append (i : Nat) (k : TokenKind) (opened outer : OpenGroups) :
    openedAfter i k (opened ++ outer) = openedAfter i k opened ++ outer ∨
      ∃ d a below, k = .closer d ∧ closeGroup d opened = none ∧
        closeGroup d outer = some (a, below) := by
  cases k with
  | opener d => exact .inl rfl
  | closer d =>
    cases hc : closeGroup d opened with
    | some entry =>
      left
      simp only [openedAfter, hc, closeGroup_append hc]
    | none =>
      cases ho : closeGroup d outer with
      | some entry => exact .inr ⟨d, entry.1, entry.2, rfl, hc, ho⟩
      | none =>
        left
        simp only [openedAfter, hc, closeGroup_append_of_none hc, ho]
  | _ => exact .inl rfl

/-- From the token at `i` on and up to the one at `n`, no group closes that was opened before
`i`. -/
def Uncut (ks : List TokenKind) (i n : Nat) : Prop := ∀ a j, a < i → i ≤ j → j < n → ¬ Closes ks a j

theorem Uncut.mono (h : Uncut ks i n) (hmn : m ≤ n) : Uncut ks i m := by
  intro a j hai hij hjm
  exact h a j hai hij (by omega)

/-- Until then the open groups are those of the remainder, on top of those that were open at `i`. -/
theorem Uncut.openBefore_eq (h : Uncut ks i (i + m)) :
    openBefore ks (i + m) = shiftGroups i (openBefore (ks.drop i) m) ++ openBefore ks i := by
  induction m with
  | zero => rfl
  | succ m ih =>
    have ih := ih (h.mono (by omega))
    have hdrop : (ks.drop i)[m]? = ks[i + m]? := List.getElem?_drop
    cases hk : ks[i + m]? with
    | none =>
      rw [hk] at hdrop
      simpa [← Nat.add_assoc, openBefore, hk, hdrop] using ih
    | some k =>
      rw [hk] at hdrop
      rw [← Nat.add_assoc, openBefore_succ hk, openBefore_succ hdrop, ih, ← openedAfter_shift]
      rcases openedAfter_append (i + m) k (shiftGroups i (openBefore (ks.drop i) m))
        (openBefore ks i) with heq | ⟨d, a, below, rfl, hnone, hsome⟩
      · exact heq
      · obtain ⟨hai, -⟩ := openBefore_entry (suffix_of_closeGroup hsome)
        have hc : Closes ks a (i + m) := by
          refine ⟨d, below, hk, ?_⟩
          rw [ih, closeGroup_append_of_none hnone, hsome]
        exact absurd hc (h a (i + m) hai (by omega) (by omega))

/-- So the brackets of the remainder are paired as in the whole. -/
theorem Uncut.closes_iff (h : Uncut ks i (i + n)) :
    Closes (ks.drop i) m n ↔ Closes ks (i + m) (i + n) := by
  have hdrop : (ks.drop i)[n]? = ks[i + n]? := List.getElem?_drop
  constructor
  · rintro ⟨d, below, hk, hc⟩
    refine ⟨d, shiftGroups i below ++ openBefore ks i, hdrop ▸ hk, ?_⟩
    rw [h.openBefore_eq]
    apply closeGroup_append
    rw [closeGroup_shift, hc]
    rfl
  · rintro ⟨d, below, hk, hc⟩
    rw [h.openBefore_eq] at hc
    cases hin : closeGroup d (openBefore (ks.drop i) n) with
    | some entry =>
      refine ⟨d, entry.2, hdrop.trans hk, ?_⟩
      have hshift : closeGroup d (shiftGroups i (openBefore (ks.drop i) n)) =
          some (i + entry.1, shiftGroups i entry.2) := by
        rw [closeGroup_shift, hin]
        rfl
      rw [closeGroup_append hshift, Option.some.injEq, Prod.mk.injEq] at hc
      rw [hin, show m = entry.1 by omega]
    | none =>
      have hshift : closeGroup d (shiftGroups i (openBefore (ks.drop i) n)) = none := by
        rw [closeGroup_shift, hin]
        rfl
      rw [closeGroup_append_of_none hshift] at hc
      obtain ⟨hlt, -⟩ := openBefore_entry (suffix_of_closeGroup hc)
      omega

/-- Inside a pair no group closes that was opened before it. -/
theorem Closes.uncut (h : Closes ks i j) : Uncut ks i j := by
  intro a b hai hib hbj hc
  rcases Nat.eq_or_lt_of_le hib with rfl | hib
  · exact hc.not_both h
  · have := hc.nested h hai hib
    omega

/-- Nor does one where none is open. -/
theorem uncut_of_openBefore_eq_nil (h : openBefore ks i = []) (n : Nat) : Uncut ks i n := by
  intro a j hai hij _ hc
  obtain ⟨d, -, -, -, -, hopen⟩ := hc.spec
  have hsuffix := hopen i hai hij
  rw [h] at hsuffix
  have hle := hsuffix.length_le
  simp at hle

theorem exists_closes_of_not_uncut (h : ¬ Uncut ks i n) :
    ∃ a j, a < i ∧ i ≤ j ∧ j < n ∧ Closes ks a j := by
  simp only [Uncut] at h
  push Not at h
  exact h

namespace Scan

variable {s s' : Scan} {before : Text} {t u : Token}

/-- The scan `s'` reads what is left of the text of `s` from the token at `i` on, behind
`before`. -/
structure Remainder (s s' : Scan) (i : Nat) (before : Text) : Prop where
  faithful : s.Faithful
  faithful' : s'.Faithful
  text : s.text = before ++ s'.text
  tokens : s.tokens.toList.drop i = s'.tokens.toList.map (Token.shift (byteLength before))

/-- What is left of a text from a token on is read as the tokens that are left. -/
theorem Faithful.remainder {rest : Text} (hs : s.Faithful) (ht : s.token? i = some t)
    (htext : s.text = before ++ rest) (hb : byteLength before = t.start) :
    s.Remainder (ofText rest) i before := by
  refine ⟨hs, rfl, htext, ?_⟩
  have hcut : tokenize s.text = s.tokens.toList.take i ++ (t :: s.tokens.toList.drop (i + 1)) := by
    rw [← drop_tokens ht, List.take_append_drop, hs.tokens_eq]
  obtain ⟨cur, last, hpassed, hleft, hblank⟩ := exists_run_tokenize hcut
  obtain ⟨taken, htaken, hoffset⟩ := hpassed.exists_consumed
  obtain ⟨gap, rest', hrest, -, hstart, -, hrun⟩ := hleft.skip
  have hsame : before ++ rest = (taken ++ gap) ++ rest' := by
    rw [← htext, List.append_assoc, ← hrest]
    exact htaken
  simp only at hoffset
  obtain ⟨-, rfl⟩ := append_inj_of_byteLength hsame (by rw [byteLength_append]; omega)
  have htokens := hrun.tokens_eq
  rw [Cursor.tokens_of_next?_none (Cursor.next?_eq_none.2 hblank), List.append_nil] at htokens
  rw [drop_tokens ht, ← htokens, ← hb]
  exact Cursor.tokens_shift (byteLength before) ⟨0, rest⟩

namespace Remainder

theorem kinds_eq (r : s.Remainder s' i before) : s'.kinds = s.kinds.drop i := by
  rw [kinds, kinds, ← List.map_drop, r.tokens, List.map_map]
  rfl

theorem token (r : s.Remainder s' i before) (hu : s'.token? m = some u) :
    s.token? (i + m) = some (u.shift (byteLength before)) := by
  rw [token?, ← Array.getElem?_toList] at hu ⊢
  rw [← List.getElem?_drop, r.tokens, List.getElem?_map, hu]
  rfl

end Remainder
end Scan
end Unbundle
