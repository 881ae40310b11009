import Unbundle.Proofs.Scan.Ending
import Unbundle.Proofs.Token.Locality

/-! Windows: a scan of a piece cut out of a text. Where no group is open before the piece, its
tokens are paired and stand at the same depth in the piece as in the text. -/
namespace Unbundle

variable {a b i j : Nat} {d : Delimiter} {opened below : OpenGroups}

def shiftGroups (a : Nat) (opened : OpenGroups) : OpenGroups :=
  opened.map fun (i, d) => (a + i, d)

theorem closeGroup_shift (a : Nat) (d : Delimiter) (opened : OpenGroups) :
    closeGroup d (shiftGroups a opened) =
      (closeGroup d opened).map fun (i, below) => (a + i, shiftGroups a below) := by
  induction opened with
  | nil => rfl
  | cons top rest ih =>
    by_cases he : top.2 = d
    · simp [shiftGroups, closeGroup, he]
    · simp only [shiftGroups, List.map_cons, closeGroup, he, if_false]
      exact ih

theorem openedAfter_shift (a i : Nat) (k : TokenKind) (opened : OpenGroups) :
    openedAfter (a + i) k (shiftGroups a opened) = shiftGroups a (openedAfter i k opened) := by
  cases k with
  | opener d => rfl
  | closer d =>
    simp only [openedAfter, closeGroup_shift]
    cases closeGroup d opened <;> rfl
  | _ => rfl

namespace Scan

variable {s s' : Scan} {t u : Token} {pre piece post rest : Text} {blockEnds : Bool}
  {m n o : Nat} {x : Text}

/-- The scan `s'` reads the tokens of `s` from the index `a` on. They make up `piece`, which `pre`
and `post` enclose in the text of `s`, and `rest` follows in that of `s'`. -/
structure Window (s s' : Scan) (a : Nat) (pre piece post rest : Text) : Prop where
  faithful : s.Faithful
  faithful' : s'.Faithful
  text : s.text = pre ++ (piece ++ post)
  text' : s'.text = piece ++ rest
  opened : openBefore s.kinds a = []
  token : ∀ i t, s'.token? i = some t → s.token? (a + i) = some (t.shift (byteLength pre))
  inside : ∀ i t, s'.token? i = some t → t.stop ≤ byteLength piece

namespace Window

theorem kind?_eq (w : s.Window s' a pre piece post rest) (hi : i < s'.size) :
    s.kind? (a + i) = s'.kind? i := by
  obtain ⟨t, ht⟩ := exists_token? hi
  rw [kind?, kind?, w.token i t ht, ht]
  rfl

theorem isWord_eq (w : s.Window s' a pre piece post rest) (hi : i < s'.size) (v : String) :
    s.isWord (a + i) v = s'.isWord i v := by
  obtain ⟨t, ht⟩ := exists_token? hi
  rw [isWord, isWord, w.token i t ht, ht]
  rfl

theorem openBefore_eq (w : s.Window s' a pre piece post rest) (hi : i ≤ s'.size) :
    openBefore s.kinds (a + i) = shiftGroups a (openBefore s'.kinds i) := by
  induction i with
  | zero => exact w.opened
  | succ i ih =>
    obtain ⟨t, ht⟩ := exists_token? hi
    have hk := kinds_of_token? (w.token i t ht)
    rw [openBefore_succ (kinds_of_token? ht), ← openedAfter_shift, ← ih (by omega)]
    exact openBefore_succ hk

theorem depthAt_eq (w : s.Window s' a pre piece post rest) (hi : i < s'.size) :
    depthAt s.kinds (a + i) = depthAt s'.kinds i := by
  have hlen (n : Nat) (hn : n ≤ s'.size) :
      (openBefore s.kinds (a + n)).length = (openBefore s'.kinds n).length := by
    rw [w.openBefore_eq hn]
    exact List.length_map _
  have hk : s.kinds[a + i]? = s'.kinds[i]? := by
    rw [getElem?_kinds, getElem?_kinds, w.kind?_eq hi]
  by_cases hc : ∃ d, s'.kinds[i]? = some (.closer d)
  · obtain ⟨d, hd⟩ := hc
    rw [depthAt_closer hd, depthAt_closer (hk.trans hd)]
    exact hlen (i + 1) hi
  · have hd : ∀ d, s'.kinds[i]? ≠ some (.closer d) := fun d hd => hc ⟨d, hd⟩
    rw [depthAt_of_ne hd, depthAt_of_ne (hk ▸ hd), hlen i (Nat.le_of_lt hi)]

/-- A pair whose second bracket lies in the window lies in it as a whole. -/
theorem exists_closes (w : s.Window s' a pre piece post rest) (hj : j < s'.size)
    (h : Closes s.kinds b (a + j)) : ∃ i, b = a + i ∧ Closes s'.kinds i j := by
  obtain ⟨d, below, hk, hc⟩ := h
  rw [w.openBefore_eq (Nat.le_of_lt hj), closeGroup_shift] at hc
  obtain ⟨⟨i, below'⟩, hi, heq⟩ := Option.map_eq_some_iff.1 hc
  cases heq
  rw [getElem?_kinds, w.kind?_eq hj, ← getElem?_kinds] at hk
  exact ⟨i, rfl, d, below', hk, hi⟩

theorem closes (w : s.Window s' a pre piece post rest) (h : Closes s'.kinds i j) :
    Closes s.kinds (a + i) (a + j) := by
  obtain ⟨d, below, hk, hc⟩ := h
  rw [getElem?_kinds] at hk
  obtain ⟨t, ht, -⟩ := Option.map_eq_some_iff.1 hk
  have hj := lt_size ht
  refine ⟨d, shiftGroups a below, by rw [getElem?_kinds, w.kind?_eq hj, hk], ?_⟩
  rw [w.openBefore_eq (Nat.le_of_lt hj), closeGroup_shift, hc]
  rfl

theorem lt_size (w : s.Window s' a pre piece post rest) (hi : i < s'.size) : a + i < s.size := by
  obtain ⟨t, ht⟩ := exists_token? hi
  exact Scan.lt_size (w.token i t ht)

/-- The tokens of the window are those of the whole text, one after the other. -/
theorem tokens_eq (w : s.Window s' a pre piece post rest) :
    s'.tokens.toList.map (Token.shift (byteLength pre)) =
      (s.tokens.toList.drop a).take s'.size := by
  apply List.ext_getElem?
  intro i
  rw [List.getElem?_map, List.getElem?_take, List.getElem?_drop, Array.getElem?_toList,
    Array.getElem?_toList]
  by_cases hi : i < s'.size
  · obtain ⟨t, ht⟩ := exists_token? hi
    have htoken := w.token i t ht
    rw [token?] at ht htoken
    rw [if_pos hi, ht, htoken]
    rfl
  · rw [if_neg hi, Array.getElem?_eq_none (Nat.le_of_not_lt hi)]
    rfl

theorem isTopLevel_eq (w : s.Window s' a pre piece post rest) (hi : i < s'.size) :
    s.isTopLevel (a + i) = s'.isTopLevel i := by
  rw [Bool.eq_iff_iff, w.faithful.isTopLevel_iff, w.faithful'.isTopLevel_iff, w.depthAt_eq hi]
  simp [hi, w.lt_size hi]

theorem isEnder_eq (w : s.Window s' a pre piece post rest) (hi : i < s'.size) :
    s.isEnder blockEnds (a + i) = s'.isEnder blockEnds i := by
  rw [isEnder, isEnder, w.isTopLevel_eq hi, w.kind?_eq hi]

theorem firstEnder (w : s.Window s' a pre piece post rest)
    (h : s.FirstEnder blockEnds (a + i) (a + j)) (hj : j < s'.size) :
    s'.FirstEnder blockEnds i j := by
  have hle := h.le
  refine ⟨by omega, w.isEnder_eq hj ▸ h.ends, ?_⟩
  intro m him hmj
  rw [← w.isEnder_eq (by omega)]
  exact h.first (a + m) (by omega) (by omega)

theorem start_eq (w : s.Window s' a pre piece post rest) (h : s.StartsAt (a + i) m)
    (h' : s'.StartsAt i n) : m = byteLength pre + n := by
  obtain ⟨t, ht, rfl⟩ := h
  obtain ⟨t', ht', rfl⟩ := h'
  rw [Option.some.inj (ht.symm.trans (w.token i t' ht')), Token.shift_start]

/-- What lies between two offsets of the piece is the same in both texts. -/
theorem slice (w : s.Window s' a pre piece post rest)
    (h : s.slice (byteLength pre + m) (byteLength pre + n) = .ok x) (hn : n ≤ byteLength piece) :
    s'.slice m n = .ok x := by
  obtain ⟨before, after, htext, hb, hx⟩ := slice_eq_ok h
  rw [w.text] at htext
  obtain ⟨first, rfl, htail⟩ := exists_between htext (by omega)
  rw [← List.append_assoc] at htail
  rw [byteLength_append] at hb
  obtain ⟨last, hpiece, -⟩ := exists_between htail.symm (by rw [byteLength_append]; omega)
  have hslice := slice_append first x (last ++ rest)
  rw [Scan.slice, w.text', hpiece]
  rw [show byteLength first = m by omega, show m + byteLength x = n by omega] at hslice
  simpa using hslice

theorem textBefore (w : s.Window s' a pre piece post rest)
    (h : textBefore s.text (byteLength pre + m) = .ok x) (hm : m ≤ byteLength piece) :
    ∃ y, x = pre ++ y ∧ Unbundle.textBefore s'.text m = .ok y := by
  obtain ⟨after, htext, hx⟩ := textBefore_eq_ok h
  rw [w.text] at htext
  obtain ⟨y, rfl, htail⟩ := exists_between htext (by omega)
  rw [byteLength_append] at hx
  obtain ⟨last, hpiece, -⟩ := exists_between htail.symm (by omega)
  refine ⟨y, rfl, ?_⟩
  have hbefore := textBefore_append y (last ++ rest)
  rw [show byteLength y = m by omega] at hbefore
  rw [w.text', hpiece, List.append_assoc]
  exact hbefore

end Window

theorem exists_tokens (hu : s.token? a = some u) (ht : s.token? b = some t) (hab : a ≤ b) :
    ∃ before ts after, s.tokens.toList = before ++ (ts ++ [t] ++ after) ∧ before.length = a ∧
      a + ts.length = b ∧ (ts ++ [t]).head? = some u := by
  have hb := lt_size ht
  have hdrop := drop_tokens ht
  rw [token?, ← Array.getElem?_toList] at hu ht
  have hlen : s.tokens.toList.length = s.size := Array.length_toList
  refine ⟨s.tokens.toList.take a, (s.tokens.toList.drop a).take (b - a),
    s.tokens.toList.drop (b + 1), ?_, ?_, ?_, ?_⟩
  · rw [List.append_assoc, List.singleton_append, ← hdrop, ← Nat.add_sub_cancel' hab,
      ← List.drop_drop, Nat.add_sub_cancel_left, List.take_append_drop, List.take_append_drop]
  · rw [List.length_take]
    omega
  · rw [List.length_take, List.length_drop]
    omega
  · rcases Nat.eq_or_lt_of_le hab with rfl | hlt
    · rw [Nat.sub_self, List.take_zero, List.nil_append, List.head?_cons, ← ht, hu]
    · rw [List.head?_append, List.head?_take, if_neg (by omega), List.head?_drop, hu]
      rfl

/-- Tokens that end with a bracket or a semicolon, cut out of a text, are a window of it. -/
theorem Faithful.window (hs : s.Faithful) (htext : s.text = pre ++ (piece ++ post))
    (ho : openBefore s.kinds a = []) (hu : s.token? a = some u) (hstart : u.start = byteLength pre)
    (ht : s.token? b = some t) (hstop : t.stop = byteLength pre + byteLength piece)
    (hk : t.kind.isStop = true) (hab : a ≤ b) (hrest : rest.all isBlank = true) :
    s.Window (ofText (piece ++ rest)) a pre piece post rest ∧
      a + (ofText (piece ++ rest)).size = b + 1 := by
  have hquote : rest.head? ≠ some '\x27' := by
    intro hq
    have := List.all_eq_true.1 hrest _ (List.mem_of_mem_head? hq)
    revert this
    decide
  have hnone : tokenize rest = [] := Cursor.tokens_of_next?_none (Cursor.next?_eq_none.2 hrest)
  obtain ⟨before, ts, after, htokens, hbefore, hts, hhead⟩ := exists_tokens hu ht hab
  rw [hs.tokens_eq, htext] at htokens
  have hpiece := tokenize_piece htokens hhead hstart hstop hk hquote
  rw [hnone, List.map_nil, List.append_nil] at hpiece
  have hsize : a + (ofText (piece ++ rest)).size = b + 1 := by
    have hlen := congrArg List.length hpiece
    rw [List.length_map, List.length_append, List.length_singleton] at hlen
    have hsize : (ofText (piece ++ rest)).size = (tokenize (piece ++ rest)).length :=
      List.size_toArray ..
    omega
  have htoken (i : Nat) (x : Token) (hx : (ofText (piece ++ rest)).token? i = some x) :
      s.token? (a + i) = some (x.shift (byteLength pre)) := by
    have hi := lt_size hx
    have hx : (tokenize (piece ++ rest))[i]? = some x := by
      rw [← hx, token?, ← Array.getElem?_toList]
      rfl
    rw [token?, ← Array.getElem?_toList, hs.tokens_eq, htext, htokens,
      List.getElem?_append_right (by omega), ← hbefore, Nat.add_sub_cancel_left, ← hpiece,
      List.getElem?_append_left (by rw [hpiece, List.length_append, List.length_singleton]; omega),
      List.getElem?_map, hx]
    rfl
  refine ⟨⟨hs, rfl, htext, rfl, ho, htoken, ?_⟩, hsize⟩
  intro i x hx
  have hle := hs.stop_le_stop (htoken i x hx) ht (by have := lt_size hx; omega)
  rw [Token.shift_stop] at hle
  omega

end Scan
end Unbundle
