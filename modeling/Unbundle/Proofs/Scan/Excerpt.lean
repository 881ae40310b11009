import Unbundle.Proofs.Scan.Places
import Unbundle.Proofs.Token.Tiling
import Unbundle.Proofs.Token.Word

/-! Excerpts: the text from one token to another. An excerpt whose last token is a bracket or a
semicolon is read as the same tokens wherever it stands, before blanks or any other text but a
quote. -/
namespace Unbundle

/-- The token in a text with `k` bytes less before it. -/
def Token.back (k : Nat) (t : Token) : Token := { t with start := t.start - k }

theorem Token.back_shift {k m : Nat} (h : k ≤ m) (t : Token) :
    (t.shift m).back k = t.shift (m - k) := by
  have hstart : m + t.start - k = m - k + t.start := by omega
  rw [shift, back, shift, hstart]

@[simp] theorem Token.shift_zero (t : Token) : t.shift 0 = t := by
  rw [shift, Nat.zero_add]

namespace Scan

variable {s : Scan} {a b c i j m n : Nat} {t u v : Token} {piece w x y : Text}

/-- The tokens from the index `a` up to, and without, `b`. -/
def between (s : Scan) (a b : Nat) : List Token := (s.tokens.extract a b).toList

theorem getElem?_between :
    (s.between a b)[n]? = some t ↔ a + n < b ∧ s.token? (a + n) = some t := by
  rw [between, Array.getElem?_toList, Array.getElem?_extract]
  constructor
  · intro h
    split_ifs at h with hlt
    exact ⟨by omega, h⟩
  · rintro ⟨hlt, ht⟩
    have hsize := lt_size ht
    rw [size] at hsize
    rw [if_pos (by omega)]
    exact ht

theorem mem_between : t ∈ s.between a b ↔ ∃ i, a ≤ i ∧ i < b ∧ s.token? i = some t := by
  rw [List.mem_iff_getElem?]
  constructor
  · rintro ⟨n, hn⟩
    obtain ⟨hlt, ht⟩ := getElem?_between.1 hn
    exact ⟨a + n, Nat.le_add_right a n, hlt, ht⟩
  · rintro ⟨i, hai, hib, ht⟩
    obtain ⟨n, rfl⟩ := Nat.exists_eq_add_of_le hai
    exact ⟨n, getElem?_between.2 ⟨hib, ht⟩⟩

theorem between_append (hab : a ≤ b) (hbc : b ≤ c) :
    s.between a b ++ s.between b c = s.between a c := by
  rw [between, between, ← Array.toList_append, Array.extract_append_extract, Nat.min_eq_left hab,
    Nat.max_eq_right hbc, between]

theorem between_self (s : Scan) (a : Nat) : s.between a a = [] := by
  rw [between, Array.extract_eq_empty_of_le (Nat.min_le_left _ _), Array.toList_empty]

theorem between_succ (ht : s.token? a = some t) : s.between a (a + 1) = [t] := by
  apply List.ext_getElem?
  intro n
  rw [between, Array.getElem?_toList, Array.getElem?_extract]
  have hsize := lt_size ht
  rw [size] at hsize
  cases n with
  | zero =>
    rw [if_pos (by omega)]
    exact ht
  | succ n =>
    rw [if_neg (by omega)]
    rfl

theorem between_concat (ht : s.token? b = some t) (hab : a ≤ b) :
    s.between a (b + 1) = s.between a b ++ [t] := by
  rw [← between_append hab (Nat.le_succ b), between_succ ht]

theorem map_face_between_ne_nil (ht : s.token? b = some t) (hab : a ≤ b) :
    (s.between a (b + 1)).map Token.face ≠ [] := by
  rw [between_concat ht hab]
  simp

theorem between_cons (ht : s.token? a = some t) (hab : a < b) :
    s.between a b = t :: s.between (a + 1) b := by
  rw [← between_append (Nat.le_succ a) hab, between_succ ht, List.singleton_append]

/-- The tokens of a scan, cut at two indices. -/
theorem tokens_eq_between (hab : a ≤ b) (hb : b ≤ s.size) :
    s.tokens.toList = s.between 0 a ++ (s.between a b ++ s.between b s.size) := by
  rw [between_append hab hb, between_append (Nat.zero_le a) (Nat.le_trans hab hb), between, size,
    Array.extract_size]

def inside (s : Scan) (span : Span) : List Token :=
  s.tokens.toList.filter fun t => span.start ≤ t.start && t.stop ≤ span.stop

namespace Faithful

/-- Tokens in a row are those inside the span from the first to the last of them. -/
theorem inside_eq (hs : s.Faithful) (hu : s.token? a = some u) (ht : s.token? b = some t)
    (hab : a ≤ b) : s.inside ⟨u.start, t.stop⟩ = s.between a (b + 1) := by
  have hbefore : ∀ x ∈ s.between 0 a,
      ¬ (decide (u.start ≤ x.start) && decide (x.stop ≤ t.stop)) = true := by
    intro x hx
    obtain ⟨n, -, hn, hx⟩ := mem_between.1 hx
    have hlt := (hs.start_lt_start_iff hx hu).2 hn
    simp
    omega
  have hin : ∀ x ∈ s.between a (b + 1),
      (decide (u.start ≤ x.start) && decide (x.stop ≤ t.stop)) = true := by
    intro x hx
    obtain ⟨n, han, hnb, hx⟩ := mem_between.1 hx
    have hfrom := hs.start_le_start hu hx han
    have hto := hs.stop_le_stop hx ht (Nat.le_of_lt_succ hnb)
    simp [hfrom, hto]
  have hbehind : ∀ x ∈ s.between (b + 1) s.size,
      ¬ (decide (u.start ≤ x.start) && decide (x.stop ≤ t.stop)) = true := by
    intro x hx
    obtain ⟨n, hbn, -, hx⟩ := mem_between.1 hx
    have hle := hs.stop_le_start ht hx hbn
    have hlt := hs.start_lt_stop hx
    simp
    omega
  rw [inside, tokens_eq_between (Nat.le_succ_of_le hab) (lt_size ht), List.filter_append,
    List.filter_append, List.filter_eq_nil_iff.2 hbefore, List.filter_eq_self.2 hin,
    List.filter_eq_nil_iff.2 hbehind, List.nil_append, List.append_nil]

theorem inside_span (hs : s.Faithful) (ht : s.token? a = some t) : s.inside t.span = [t] := by
  rw [Token.span, hs.inside_eq ht ht (Nat.le_refl _), between_succ ht]

/-- An empty span holds no token. -/
theorem inside_empty (hs : s.Faithful) (m : Nat) : s.inside ⟨m, m⟩ = [] := by
  rw [inside, List.filter_eq_nil_iff]
  intro t ht
  obtain ⟨i, hi⟩ := List.mem_iff_getElem?.1 ht
  have hpos := hs.start_lt_stop (show s.token? i = some t by rwa [token?, ← Array.getElem?_toList])
  simp
  omega

/-- Of tokens in a row, those before the first one from an offset on and the others. -/
theorem filter_between (hs : s.Faithful) (hm : s.firstFrom m = b) (hab : a ≤ b) (hbc : b ≤ c) :
    (s.between a c).filter (·.start < m) = s.between a b ∧
      (s.between a c).filter (m ≤ ·.start) = s.between b c := by
  have hbefore : ∀ x ∈ s.between a b, x.start < m := by
    intro x hx
    obtain ⟨i, -, hib, hi⟩ := mem_between.1 hx
    exact (hs.lt_firstFrom_iff hi m).1 (hm ▸ hib)
  have hbehind : ∀ x ∈ s.between b c, m ≤ x.start := by
    intro x hx
    obtain ⟨i, hbi, -, hi⟩ := mem_between.1 hx
    have hnot := hs.lt_firstFrom_iff hi m
    omega
  rw [← between_append hab hbc, List.filter_append, List.filter_append]
  constructor
  · rw [List.filter_eq_self.2, List.filter_eq_nil_iff.2, List.append_nil]
    · intro x hx
      simpa using hbehind x hx
    · intro x hx
      simpa using hbefore x hx
  · rw [List.filter_eq_nil_iff.2, List.filter_eq_self.2, List.nil_append]
    · intro x hx
      simpa using hbehind x hx
    · intro x hx
      simpa using hbefore x hx

/-- The text from one token to another stands in the whole text with the tokens between them. -/
theorem exists_cut (hs : s.Faithful) (hu : s.token? a = some u) (ht : s.token? b = some t)
    (hab : a ≤ b) (hpiece : s.slice u.start t.stop = .ok piece) :
    ∃ pre post before after,
      tokenize (pre ++ (piece ++ post)) = before ++ (s.between a b ++ [t] ++ after) ∧
      (s.between a b ++ [t]).head? = some u ∧ u.start = byteLength pre ∧
      t.stop = byteLength pre + byteLength piece := by
  obtain ⟨pre, post, htext, hpre, hlen⟩ := slice_eq_ok hpiece
  have htokens := tokens_eq_between (Nat.le_succ_of_le hab) (lt_size ht)
  rw [between_concat ht hab, hs.tokens_eq, htext] at htokens
  refine ⟨pre, post, _, _, htokens, ?_, hpre.symm, by omega⟩
  rw [← between_concat ht hab, between_cons hu (Nat.lt_succ_of_le hab), List.head?_cons]

/-- It is read on the way between them. -/
theorem exists_run (hs : s.Faithful) (hu : s.token? a = some u) (ht : s.token? b = some t)
    (hab : a ≤ b) (hpiece : s.slice u.start t.stop = .ok piece) :
    ∃ rest, Cursor.Run ⟨u.start, piece ++ rest⟩ (s.between a b ++ [t]) ⟨t.stop, rest⟩ := by
  obtain ⟨pre, post, before, after, htokens, hhead, hstart, hstop⟩ := hs.exists_cut hu ht hab hpiece
  exact ⟨post, run_of_piece htokens hhead hstart hstop⟩

/-- An excerpt that ends with a bracket or a semicolon is read as its tokens before any text but a
quote. -/
theorem reads_between (hs : s.Faithful) (hu : s.token? a = some u) (ht : s.token? b = some t)
    (hab : a ≤ b) (hpiece : s.slice u.start t.stop = .ok piece) (hk : t.kind.isStop = true)
    (hy : y.head? ≠ some '\x27') :
    Reads (piece ++ y) ((s.between a (b + 1)).map Token.face) y := by
  obtain ⟨rest, hrun⟩ := hs.exists_run hu ht hab hpiece
  rw [between_concat ht hab]
  exact Reads.of_run (hrun.replace hk hy)

theorem tokenize_between (hs : s.Faithful) (hu : s.token? a = some u) (ht : s.token? b = some t)
    (hab : a ≤ b) (hpiece : s.slice u.start t.stop = .ok piece) (hk : t.kind.isStop = true)
    (hy : y.head? ≠ some '\x27') :
    tokenize (piece ++ y) = (s.between a (b + 1)).map (Token.back u.start) ++
      (tokenize y).map (Token.shift (t.stop - u.start)) := by
  obtain ⟨pre, post, before, after, htokens, hhead, hstart, hstop⟩ := hs.exists_cut hu ht hab hpiece
  have hshifted := tokenize_piece htokens hhead hstart hstop hk hy
  rw [← hstart, ← between_concat ht hab] at hshifted
  have hback := congrArg (List.map (Token.back u.start)) hshifted
  rw [List.map_append, List.map_map, List.map_map] at hback
  have hself : Token.back u.start ∘ Token.shift u.start = id := by
    funext x
    rw [Function.comp, Token.back_shift (Nat.le_refl _), Nat.sub_self, Token.shift_zero, id]
  have hother : Token.back u.start ∘ Token.shift t.stop = Token.shift (t.stop - u.start) := by
    funext x
    exact Token.back_shift (by omega) x
  rwa [hself, hother, List.map_id] at hback

theorem slice_chars (hs : s.Faithful) (ht : s.token? i = some t) :
    s.slice t.start t.stop = .ok t.chars := by
  obtain ⟨before, after, htext, hlen, -⟩ := exists_place_of_mem_tokenize (hs.mem_tokenize ht)
  rw [Scan.slice, htext, ← hlen, Token.stop, ← hlen]
  exact slice_append before t.chars after

/-- An excerpt starts with the characters of its first token. -/
theorem exists_eq_chars_append (hs : s.Faithful) (hu : s.token? i = some u)
    (ht : s.token? j = some t) (hij : i ≤ j) (hpiece : s.slice u.start t.stop = .ok piece) :
    ∃ rest, piece = u.chars ++ rest := by
  have hpos := hs.start_lt_stop hu
  obtain ⟨x, rest, rfl, hx, -, -⟩ := exists_cut_within hpiece (hs.boundary_stop hu)
    (Nat.le_of_lt hpos) (hs.stop_le_stop hu ht hij)
  have hslice := (slice_of_append hpiece).1
  rw [hx] at hslice
  obtain rfl := Except.ok.inj ((hs.slice_chars hu).symm.trans hslice)
  exact ⟨rest, rfl⟩

/-- Between neighbours there are blanks only. -/
theorem exists_gap (hs : s.Faithful) (hu : s.token? i = some u) (ht : s.token? (i + 1) = some t) :
    ∃ gap, s.slice u.stop t.start = .ok gap ∧ gap.all isBlank = true := by
  have htokens := tokens_eq_between (Nat.le_succ i) (lt_size hu)
  rw [between_succ hu, between_cons ht (lt_size ht), ← List.append_assoc, hs.tokens_eq] at htokens
  obtain ⟨cur, last, hrun, hrest, -⟩ := exists_run_tokenize htokens
  have hoffset := hrun.offset_eq
  obtain ⟨taken, htaken, hlen⟩ := hrun.exists_consumed
  cases hrest with
  | @step _ mid _ _ _ h _ =>
    obtain ⟨gap, hg, hgap, hstart, -, -⟩ := Cursor.exists_consumed_next? h
    refine ⟨gap, ?_, hg⟩
    have hslice := slice_append taken gap (t.chars ++ mid.rest)
    simp only at htaken hlen
    rwa [← hgap, ← htaken, ← Nat.zero_add (byteLength taken), ← hlen, ← hstart, hoffset] at hslice

/-- Behind a token stand blanks, and then what begins with the next token. -/
theorem exists_behind (hs : s.Faithful) (hu : s.token? i = some u) (hv : s.token? (i + 1) = some v)
    (ht : s.token? j = some t) (hij : i < j) (hpiece : s.slice u.stop t.stop = .ok piece) :
    ∃ gap rest, piece = gap ++ rest ∧ gap.all isBlank = true ∧ u.stop + byteLength gap = v.start ∧
      s.slice v.start t.stop = .ok rest := by
  have huv := hs.stop_le_start hu hv (Nat.lt_succ_self i)
  have hvt := hs.stop_le_stop hv ht hij
  have hpos := hs.start_lt_stop hv
  obtain ⟨gap, rest, rfl, hgap, -, -⟩ :=
    exists_cut_within hpiece (hs.boundary_start hv) huv (by omega)
  obtain ⟨hbefore, hbehind⟩ := slice_of_append hpiece
  rw [hgap] at hbefore hbehind
  obtain ⟨gap', hgap', hblank⟩ := hs.exists_gap hu hv
  obtain rfl := Except.ok.inj (hgap'.symm.trans hbefore)
  exact ⟨gap', rest, rfl, hblank, hgap, hbehind⟩

/-- What stands before a token is read as its tokens before other texts, if the last of them is a
comment or a bracket. -/
theorem reads_before {b : Token} (hs : s.Faithful) (hu : s.token? a = some u)
    (hv : s.token? i = some v) (hb : s.token? (i + 1) = some b) (ht : s.token? j = some t)
    (hai : a ≤ i) (hij : i < j)
    (hpiece : s.slice u.start t.stop = .ok (x ++ y)) (hcut : u.start + byteLength x = b.start)
    (hk : (∃ kind, v.kind = .comment kind) ∨ v.kind.isStop = true) (hw : w.head? ≠ some '\x27') :
    ∃ gap, gap.all isBlank = true ∧
      Reads (x ++ w) ((s.between a (i + 1)).map Token.face) (gap ++ w) := by
  obtain ⟨rest, hrun⟩ := hs.exists_run hu ht (by omega) hpiece
  have htokens :
      s.between a j ++ [t] = s.between a i ++ [v] ++ [b] ++ s.between (i + 2) (j + 1) := by
    rw [← between_concat ht (by omega), ← between_concat hv hai, ← between_concat hb (by omega),
      between_append (by omega) (by omega)]
  rw [htokens, List.append_assoc x y rest] at hrun
  obtain ⟨mid, hrun, -⟩ := hrun.split
  rw [between_concat hv hai]
  exact hrun.reads_before hcut.symm hk hw

end Faithful
end Scan

/-- Lexing is local: an excerpt whose last token is a bracket or a semicolon is read as its own
tokens, and a text behind it that is empty or starts with a blank is read as it is alone. -/
theorem tokenize_excerpt {text w : Text} {i j : Nat} {u t : Token}
    (hu : (tokenize text)[i]? = some u) (ht : (tokenize text)[j]? = some t) (hij : i ≤ j)
    (hk : t.kind.isStop = true)
    (hw : ∀ c ∈ w.head?, isBlank c = true) :
    ∃ piece, slice text u.start t.stop = .ok piece ∧
      (∀ v ∈ (tokenize text).extract i (j + 1), u.start ≤ v.start) ∧
      tokenize (piece ++ w) = ((tokenize text).extract i (j + 1)).map (Token.back u.start) ++
        (tokenize w).map (Token.shift (t.stop - u.start)) := by
  have hs := Scan.faithful_ofText text
  have hu : (Scan.ofText text).token? i = some u := by
    rwa [← List.getElem?_toArray] at hu
  have ht : (Scan.ofText text).token? j = some t := by
    rwa [← List.getElem?_toArray] at ht
  have hextract : (tokenize text).extract i (j + 1) = (Scan.ofText text).between i (j + 1) := by
    rw [Scan.between, Array.toList_extract]
    rfl
  have hquote : w.head? ≠ some '\x27' := by
    intro hhead
    have hblank := hw '\x27' hhead
    revert hblank
    decide +kernel
  have hle := hs.stop_le_stop hu ht hij
  have hlt := hs.start_lt_stop hu
  obtain ⟨before, piece, after, -, -, -, hpiece⟩ :=
    exists_slice (hs.boundary_start hu) (hs.boundary_stop ht) (by omega)
  rw [hextract]
  refine ⟨piece, hpiece, ?_, hs.tokenize_between hu ht hij hpiece hk hquote⟩
  intro v hv
  obtain ⟨n, hin, -, hn⟩ := Scan.mem_between.1 hv
  exact hs.start_le_start hu hn hin

def quotedPieces : Text := "f 'a r#\"\x7d\"# 0..1; 'b'".toList

/-- Cut out up to the semicolon, they are read as before. -/
theorem tokenize_excerpt_quotes :
    ∃ piece, slice quotedPieces 2 17 = .ok piece ∧
      tokenize (piece ++ " 'c' //".toList) = ((tokenize quotedPieces).extract 1 8).map
        (Token.back 2) ++ (tokenize " 'c' //".toList).map (Token.shift 15) := by
  have hfirst : (tokenize quotedPieces)[1]? = some ⟨.lifetime, 2, "'a".toList, true⟩ := by
    decide +kernel
  have hlast : (tokenize quotedPieces)[7]? = some ⟨.punct ';', 16, [';'], true⟩ := by decide +kernel
  have hw : ∀ c ∈ " 'c' //".toList.head?, isBlank c = true := by
    rintro _ ⟨⟩
    decide +kernel
  obtain ⟨piece, hpiece, -, htokens⟩ := tokenize_excerpt hfirst hlast (by decide) rfl hw
  exact ⟨piece, hpiece, htokens⟩

end Unbundle
