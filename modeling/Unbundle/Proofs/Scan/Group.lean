import Unbundle.Proofs.Scan.Remainder

/-! Groups: at which offsets of a text one opens, and where it closes. Read from its bracket on,
without what stands before it, a group closes where it does in the whole text, unless a group around
it closes first. -/
namespace Unbundle

variable {text before after cs : Text} {c : Char} {offset i j m : Nat} {d : Delimiter}

/-- The character `c` begins at the byte offset. -/
def CharAt (text : Text) (offset : Nat) (c : Char) : Prop :=
  ∃ before after, text = before ++ c :: after ∧ byteLength before = offset

theorem CharAt.boundary (h : CharAt text offset c) : Boundary text offset := by
  obtain ⟨before, after, htext, hb⟩ := h
  exact ⟨before, c :: after, htext, hb⟩

theorem CharAt.lt (h : CharAt text offset c) : offset < byteLength text := by
  obtain ⟨before, after, rfl, rfl⟩ := h
  have hpos := c.utf8Size_pos
  rw [byteLength_append, byteLength_cons]
  omega

/-- Before the end of a text every boundary is the beginning of a character. -/
theorem Boundary.exists_charAt (h : Boundary text offset) (hlt : offset < byteLength text) :
    ∃ c, CharAt text offset c := by
  obtain ⟨before, after, rfl, rfl⟩ := h
  cases after with
  | nil =>
    rw [List.append_nil] at hlt
    omega
  | cons c after => exact ⟨c, before, after, rfl, rfl⟩

theorem cutAt_eq_none (h : ¬ Boundary text offset) : cutAt offset text = none := by
  cases hcut : cutAt offset text with
  | none => rfl
  | some parts =>
    obtain ⟨htext, hb⟩ := cutAt_eq_some hcut
    exact absurd ⟨parts.1, parts.2, htext, hb⟩ h

theorem lastOffset_append (before : Text) (c : Char) (cs : Text) :
    lastOffset (before ++ c :: cs) = byteLength before + lastOffset (c :: cs) := by
  induction before with
  | nil => simp
  | cons b before ih =>
    obtain ⟨e, rest, he⟩ : ∃ e rest, before ++ c :: cs = e :: rest := by
      cases before with
      | nil => exact ⟨c, cs, rfl⟩
      | cons e rest => exact ⟨e, _, rfl⟩
    rw [he] at ih
    rw [List.cons_append, he, lastOffset, ih, byteLength_cons, Nat.add_assoc]
    simp

def Group.shift (k : Nat) (g : Group) : Group := ⟨k + g.close, k + g.stop, g.closed⟩

/-- Only the character at the offset decides whether a group is looked for there. -/
theorem matchingBracket_of_opener (htext : text = before ++ c :: cs)
    (hb : byteLength before = offset) (hc : Delimiter.ofOpener? c = some d) :
    matchingBracket text offset = .ok (((Scan.ofText (c :: cs)).group 0).shift offset) := by
  rw [matchingBracket, htext, ← hb, cutAt_append]
  simp [hc, Group.shift, Nat.add_comm]

theorem matchingBracket_eq_ok_iff :
    (∃ g, matchingBracket text offset = .ok g) ↔
      ∃ c, CharAt text offset c ∧ (Delimiter.ofOpener? c).isSome = true := by
  constructor
  · rintro ⟨g, hg⟩
    unfold matchingBracket at hg
    split at hg
    · rename_i before c cs hcut
      split at hg
      · rename_i hopener
        obtain ⟨htext, hb⟩ := cutAt_eq_some hcut
        exact ⟨c, ⟨before, cs, htext, hb⟩, hopener⟩
      · cases hg
    · cases hg
  · rintro ⟨c, ⟨before, cs, htext, hb⟩, hopener⟩
    obtain ⟨d, hd⟩ := Option.isSome_iff_exists.1 hopener
    exact ⟨_, matchingBracket_of_opener htext hb hd⟩

namespace Scan

variable {s : Scan}

theorem Faithful.tokenAt?_eq_some_iff (hs : s.Faithful) :
    s.tokenAt? offset = some i ↔ s.StartsAt i offset := by
  rw [tokenAt?, Array.findIdx?_eq_some_iff_getElem]
  constructor
  · rintro ⟨hi, hstart, -⟩
    exact ⟨_, Array.getElem?_eq_getElem hi, by simpa using hstart⟩
  · rintro ⟨t, ht, rfl⟩
    have hi : i < s.tokens.size := lt_size ht
    have hti : s.tokens[i] = t := Option.some.inj ((Array.getElem?_eq_getElem hi).symm.trans ht)
    refine ⟨hi, by simp [hti], ?_⟩
    intro j hji
    have hu : s.token? j = some s.tokens[j] := Array.getElem?_eq_getElem (by omega)
    have hlt := (hs.start_lt_start_iff hu ht).2 hji
    simp
    omega

/-- The token at `i` is an opening bracket and starts at the offset. -/
def OpensAt (s : Scan) (i offset : Nat) : Prop :=
  ∃ t d, s.token? i = some t ∧ t.start = offset ∧ t.kind = .opener d

theorem OpensAt.startsAt (h : s.OpensAt i offset) : s.StartsAt i offset := by
  obtain ⟨t, d, ht, hstart, -⟩ := h
  exact ⟨t, ht, hstart⟩

/-- Every token begins with a character. -/
theorem StartsAt.exists_charAt (h : s.StartsAt i offset) (hs : s.Faithful) :
    ∃ c, CharAt s.text offset c := by
  obtain ⟨t, ht, rfl⟩ := h
  have hpos := hs.start_lt_stop ht
  have hle := (hs.boundary_stop ht).le
  exact (hs.boundary_start ht).exists_charAt (by omega)

/-- What comes of looking for a group at an offset. -/
inductive Answers (s : Scan) (offset : Nat) : Checked (Except GroupError Group) → Prop
  | past (h : byteLength s.text ≤ offset) :
      Answers s offset (.ok (.error (.outOfBounds offset (byteLength s.text))))
  | opens {i : Nat} (h : s.OpensAt i offset) : Answers s offset (.ok (.ok (s.group i)))
  | other {c : Char} (hc : CharAt s.text offset c) (hn : ∀ i, ¬ s.OpensAt i offset) :
      Answers s offset (.ok (.error (.notAnOpener offset c)))
  | inside (hlt : offset < byteLength s.text) (hn : ¬ Boundary s.text offset) :
      Answers s offset (.error (.slice offset (byteLength s.text)))

theorem notAnOpenerAt_of_charAt (hc : CharAt s.text offset c) :
    s.notAnOpenerAt offset = .ok (.notAnOpener offset c) := by
  obtain ⟨before, after, htext, rfl⟩ := hc
  rw [notAnOpenerAt, htext, textFrom, cutAt_append]
  rfl

theorem notAnOpenerAt_of_not_boundary (hn : ¬ Boundary s.text offset) :
    s.notAnOpenerAt offset = .error (.slice offset (byteLength s.text)) := by
  rw [notAnOpenerAt, textFrom, cutAt_eq_none hn]
  rfl

theorem Faithful.groupAt_of_opensAt (hs : s.Faithful) (h : s.OpensAt i offset) :
    s.groupAt offset = .ok (.ok (s.group i)) := by
  obtain ⟨c, hc⟩ := h.startsAt.exists_charAt hs
  have hat := hs.tokenAt?_eq_some_iff.2 h.startsAt
  obtain ⟨t, d, ht, -, hk⟩ := h
  have hopener : (s.token? i).any Token.isOpener = true := by
    rw [ht, Option.any_some]
    exact Token.isOpener_iff.2 ⟨d, hk⟩
  rw [groupAt, if_neg (Nat.not_le_of_lt hc.lt), hat]
  simp only [hopener, if_true]

/-- Where no bracket opens, the answer hangs on the character there alone. -/
theorem Faithful.groupAt_of_not_opensAt (hs : s.Faithful) (hlt : offset < byteLength s.text)
    (hn : ∀ i, ¬ s.OpensAt i offset) :
    s.groupAt offset = (s.notAnOpenerAt offset).map .error := by
  rw [groupAt, if_neg (Nat.not_le_of_lt hlt)]
  split
  · rename_i i hat
    obtain ⟨t, ht, hstart⟩ := hs.tokenAt?_eq_some_iff.1 hat
    have hopener : (s.token? i).any Token.isOpener = false := by
      rw [← Bool.not_eq_true, ht, Option.any_some, Token.isOpener_iff]
      rintro ⟨d, hd⟩
      exact hn i ⟨t, d, ht, hstart, hd⟩
    simp [hopener]
  · rfl

theorem Faithful.answers_groupAt (hs : s.Faithful) (offset : Nat) :
    s.Answers offset (s.groupAt offset) := by
  rcases Nat.lt_or_ge offset (byteLength s.text) with hlt | hge
  · by_cases hopens : ∃ i, s.OpensAt i offset
    · obtain ⟨i, hi⟩ := hopens
      rw [hs.groupAt_of_opensAt hi]
      exact .opens hi
    · have hn : ∀ i, ¬ s.OpensAt i offset := fun i hi => hopens ⟨i, hi⟩
      rw [hs.groupAt_of_not_opensAt hlt hn]
      by_cases hb : Boundary s.text offset
      · obtain ⟨c, hc⟩ := hb.exists_charAt hlt
        rw [notAnOpenerAt_of_charAt hc]
        exact .other hc hn
      · rw [notAnOpenerAt_of_not_boundary hb]
        exact .inside hlt hb
  · rw [groupAt, if_pos hge]
    exact .past hge

theorem Answers.groupAt_eq {r : Checked (Except GroupError Group)} (h : s.Answers offset r)
    (hs : s.Faithful) : s.groupAt offset = r := by
  cases h with
  | past h => rw [groupAt, if_pos h]
  | opens hi => exact hs.groupAt_of_opensAt hi
  | other hc hn =>
    rw [hs.groupAt_of_not_opensAt hc.lt hn, notAnOpenerAt_of_charAt hc]
    rfl
  | inside hlt hn =>
    have hopens : ∀ i, ¬ s.OpensAt i offset := by
      intro i hi
      obtain ⟨c, hc⟩ := hi.startsAt.exists_charAt hs
      exact hn hc.boundary
    rw [hs.groupAt_of_not_opensAt hlt hopens, notAnOpenerAt_of_not_boundary hn]
    rfl

/-- So an answer is given exactly where its condition is met. -/
theorem Faithful.groupAt_eq_iff {r : Checked (Except GroupError Group)} (hs : s.Faithful) :
    s.groupAt offset = r ↔ s.Answers offset r := by
  constructor
  · rintro rfl
    exact hs.answers_groupAt offset
  · intro h
    exact h.groupAt_eq hs

theorem Faithful.groupAt_eq_outOfBounds_iff (hs : s.Faithful) :
    s.groupAt offset = .ok (.error (.outOfBounds offset (byteLength s.text))) ↔
      byteLength s.text ≤ offset := by
  rw [hs.groupAt_eq_iff]
  constructor
  · intro h
    cases h with
    | past h => exact h
  · intro h
    exact .past h

theorem Faithful.groupAt_eq_ok_iff (hs : s.Faithful) :
    (∃ g, s.groupAt offset = .ok (.ok g)) ↔ ∃ i, s.OpensAt i offset := by
  simp only [hs.groupAt_eq_iff]
  constructor
  · rintro ⟨g, h⟩
    cases h with
    | opens hi => exact ⟨_, hi⟩
  · rintro ⟨i, hi⟩
    exact ⟨_, .opens hi⟩

theorem Faithful.groupAt_eq_notAnOpener_iff (hs : s.Faithful) :
    s.groupAt offset = .ok (.error (.notAnOpener offset c)) ↔
      CharAt s.text offset c ∧ ∀ i, ¬ s.OpensAt i offset := by
  rw [hs.groupAt_eq_iff]
  constructor
  · intro h
    cases h with
    | other hc hn => exact ⟨hc, hn⟩
  · rintro ⟨hc, hn⟩
    exact .other hc hn

/-- Only inside a character there is no answer. -/
theorem Faithful.exists_groupAt_iff (hs : s.Faithful) :
    (∃ r, s.groupAt offset = .ok r) ↔ byteLength s.text ≤ offset ∨ Boundary s.text offset := by
  constructor
  · rintro ⟨r, hr⟩
    rw [hs.groupAt_eq_iff] at hr
    cases hr with
    | past h => exact .inl h
    | opens hi =>
      obtain ⟨c, hc⟩ := hi.startsAt.exists_charAt hs
      exact .inr hc.boundary
    | other hc hn => exact .inr hc.boundary
  · intro h
    have hanswers := hs.answers_groupAt offset
    generalize s.groupAt offset = r at hanswers
    cases hanswers with
    | past => exact ⟨_, rfl⟩
    | opens => exact ⟨_, rfl⟩
    | other => exact ⟨_, rfl⟩
    | inside hlt hn =>
      rcases h with hle | hb
      · exact absurd hlt (Nat.not_lt_of_le hle)
      · exact absurd hb hn

/-- What is answered at an offset. Where no group opens it is refused with the reason, but for the
inside of a character: there the character to be named cannot be cut out of the text. Without regard
to what comes before, a group opens wherever a character is an opening bracket. -/
structure ToldAt (text : Text) (offset : Nat) : Prop where
  outOfBounds :
    (ofText text).groupAt offset = .ok (.error (.outOfBounds offset (byteLength text))) ↔
      byteLength text ≤ offset
  opens : (∃ g, (ofText text).groupAt offset = .ok (.ok g)) ↔ ∃ i, (ofText text).OpensAt i offset
  notAnOpener : ∀ c, (ofText text).groupAt offset = .ok (.error (.notAnOpener offset c)) ↔
    CharAt text offset c ∧ ∀ i, ¬ (ofText text).OpensAt i offset
  answered : (∃ r, (ofText text).groupAt offset = .ok r) ↔
    byteLength text ≤ offset ∨ Boundary text offset
  alone : (∃ g, matchingBracket text offset = .ok g) ↔
    ∃ c, CharAt text offset c ∧ (Delimiter.ofOpener? c).isSome = true
  partners : ∀ i j, (ofText text).partner? i = some j → j < (ofText text).size

end Scan

/-- So it is at every offset of every text. -/
theorem groupAt_outcomes (text : Text) (offset : Nat) : Scan.ToldAt text offset := by
  have hs := Scan.faithful_ofText text
  constructor
  · exact hs.groupAt_eq_outOfBounds_iff
  · exact hs.groupAt_eq_ok_iff
  · exact fun c => hs.groupAt_eq_notAnOpener_iff
  · exact hs.exists_groupAt_iff
  · exact matchingBracket_eq_ok_iff
  · exact fun i j h => (hs.partner?_bounds h).2

/-- So the offset of a byte inside a character gets no answer. -/
theorem not_forall_groupAt_answers :
    ¬ ∀ text offset, ∃ r, (Scan.ofText text).groupAt offset = .ok r := by
  intro h
  obtain ⟨r, hr⟩ := h ['é'] 1
  have hfault : (Scan.ofText ['é']).groupAt 1 = .error (.slice 1 2) := by decide +kernel
  rw [hfault] at hr
  cases hr

namespace Scan

variable {s s' : Scan} {t u : Token} {g : Group}

/-- A group around the one at `i` closes before the offset, and cuts that one off. -/
def CutShort (s : Scan) (i offset : Nat) : Prop :=
  s.partner? i = none ∧ ∃ a j u, s.partner? a = some j ∧ a < i ∧ i < j ∧ s.token? j = some u ∧
    u.stop ≤ offset

namespace Remainder

/-- A group that closes in the whole text closes there in the remainder. -/
theorem group_of_closes (r : s.Remainder s' i before) (hc : Closes s.kinds i j) :
    (s'.group 0).shift (byteLength before) = s.group i := by
  obtain ⟨m, rfl⟩ := Nat.exists_eq_add_of_lt hc.lt
  have hc' : Closes s'.kinds 0 (m + 1) := by
    rw [r.kinds_eq]
    exact hc.uncut.closes_iff.2 hc
  obtain ⟨u, -, hu, -⟩ := exists_closer hc'
  rw [r.faithful'.group_of_closes hc' hu, r.faithful.group_of_closes hc (r.token hu),
    Token.shift_start, Token.shift_stop]
  rfl

theorem group_of_not_closes {c : Char} (r : s.Remainder s' i before) (htext : s'.text = c :: cs)
    (hn : ∀ j, ¬ Closes s.kinds i j) (hn' : ∀ j, ¬ Closes s'.kinds 0 j) :
    (s'.group 0).shift (byteLength before) = s.group i := by
  rw [r.faithful.group_of_not_closes hn, r.faithful'.group_of_not_closes hn', openEnded, openEnded,
    r.text, htext, lastOffset_append, byteLength_append]
  rfl

/-- One that closes in the remainder only is cut short, and stands inside a group. -/
theorem cutShort (r : s.Remainder s' i before) (hk : s.kind? i = some (.opener d))
    (hn : ∀ j, ¬ Closes s.kinds i j) (hc' : Closes s'.kinds 0 m) :
    s.CutShort i ((s'.group 0).shift (byteLength before)).close ∧ s.isTopLevel i = false := by
  have hcut : ¬ Uncut s.kinds i (i + m) := by
    intro huncut
    rw [r.kinds_eq] at hc'
    exact hn _ (huncut.closes_iff.1 hc')
  constructor
  · obtain ⟨a, j, hai, hij, hjm, hc⟩ := exists_closes_of_not_uncut hcut
    obtain ⟨u, e, hu, hue⟩ := exists_closer hc
    obtain ⟨v, -, hv, -⟩ := exists_closer hc'
    have hne : i ≠ j := by
      rintro rfl
      rw [kind?, hu, Option.map_some, hue] at hk
      cases hk
    refine ⟨?_, a, j, u, r.faithful.partner?_eq_some_iff.2 (.inl hc), hai, by omega, hu, ?_⟩
    · cases hp : s.partner? i with
      | none => rfl
      | some j => exact absurd (r.faithful.closes_of_opener hk hp) (hn j)
    · have hle := r.faithful.stop_le_start hu (r.token hv) hjm
      rw [Token.shift_start] at hle
      rw [r.faithful'.group_of_closes hc' hv]
      exact hle
  · rw [← Bool.not_eq_true]
    intro htop
    have ho := r.faithful.openBefore_eq_nil htop (by simp [hk])
    exact hcut (uncut_of_openBefore_eq_nil ho _)

/-- So it is the same group, or one that closes in the remainder only. -/
theorem group_eq_or_cutShort {c : Char} (r : s.Remainder s' i before) (htext : s'.text = c :: cs)
    (hk : s.kind? i = some (.opener d)) :
    (s'.group 0).shift (byteLength before) = s.group i ∨
      (s.group i).closed = false ∧ (s'.group 0).closed = true ∧ s.isTopLevel i = false ∧
        s.CutShort i ((s'.group 0).shift (byteLength before)).close := by
  by_cases hc : ∃ j, Closes s.kinds i j
  · obtain ⟨j, hc⟩ := hc
    exact .inl (r.group_of_closes hc)
  · have hn : ∀ j, ¬ Closes s.kinds i j := fun j hj => hc ⟨j, hj⟩
    by_cases hc' : ∃ m, Closes s'.kinds 0 m
    · right
      obtain ⟨m, hc'⟩ := hc'
      obtain ⟨hcut, htop⟩ := r.cutShort hk hn hc'
      obtain ⟨v, -, hv, -⟩ := exists_closer hc'
      refine ⟨?_, ?_, htop, hcut⟩
      · rw [r.faithful.group_of_not_closes hn]
        rfl
      · rw [r.faithful'.group_of_closes hc' hv]
    · exact .inl (r.group_of_not_closes htext hn fun m hm => hc' ⟨m, hm⟩)

end Remainder

/-- Where a bracket opens, the remainder of the text begins with its character. -/
theorem OpensAt.exists_remainder (h : s.OpensAt i offset) (hs : s.Faithful) :
    ∃ before c cs d, s.Remainder (ofText (c :: cs)) i before ∧ byteLength before = offset ∧
      s.kind? i = some (.opener d) ∧ Delimiter.ofOpener? c = some d := by
  obtain ⟨t, d, ht, rfl, hk⟩ := h
  obtain ⟨before, c, cs, htext, hb, -, hkind, -⟩ := exists_lexeme_of_mem (hs.mem_tokenize ht)
  have hc := (taken_of_opener (hkind.symm.trans hk)).2
  exact ⟨before, c, cs, d, hs.remainder ht htext hb, hb, by simp [kind?, ht, hk], hc⟩

end Scan

/-- A group that opens at an offset of the whole text opens there without regard to what comes
before. It is the same group if it closes in the whole text, stands outside all others or closes in
neither; and where it is another, a group around it has closed first. -/
theorem matchingBracket_of_groupAt {text : Text} {offset : Nat} {g : Group}
    (h : (Scan.ofText text).groupAt offset = .ok (.ok g)) :
    let s := Scan.ofText text
    ∃ i g', s.tokenAt? offset = some i ∧ matchingBracket text offset = .ok g' ∧
      (g.closed = true ∨ s.isTopLevel i = true ∨ g'.closed = false → g' = g) ∧
      (g' ≠ g → s.CutShort i g'.close) := by
  intro s
  have hs : s.Faithful := Scan.faithful_ofText text
  have hanswers := hs.groupAt_eq_iff.1 h
  cases hanswers with
  | @opens i hi =>
    obtain ⟨before, c, cs, d, r, rfl, hk, hopener⟩ := hi.exists_remainder hs
    refine ⟨i, _, hs.tokenAt?_eq_some_iff.2 hi.startsAt,
      matchingBracket_of_opener r.text rfl hopener, ?_⟩
    rcases r.group_eq_or_cutShort rfl hk with heq | ⟨hclosed, hclosed', htop, hcut⟩
    · exact ⟨fun _ => heq, fun hne => absurd heq hne⟩
    · refine ⟨?_, fun _ => hcut⟩
      rintro (h | h | h)
      · rw [hclosed] at h
        cases h
      · rw [htop] at h
        cases h
      · exact absurd h (by simp [Group.shift, hclosed'])

def cutBrace : Text := "(\x7b)\x7d".toList

theorem cutBrace_cutShort :
    (Scan.ofText cutBrace).groupAt 1 = .ok (.ok ⟨3, 4, false⟩) ∧
      matchingBracket cutBrace 1 = .ok ⟨3, 4, true⟩ ∧ (Scan.ofText cutBrace).CutShort 1 3 := by
  have hwhole : (Scan.ofText cutBrace).groupAt 1 = .ok (.ok ⟨3, 4, false⟩) := by decide +kernel
  have halone : matchingBracket cutBrace 1 = .ok ⟨3, 4, true⟩ := by decide +kernel
  have hat : (Scan.ofText cutBrace).tokenAt? 1 = some 1 := by decide +kernel
  obtain ⟨i, g', hi, hg', -, hcut⟩ := matchingBracket_of_groupAt hwhole
  obtain rfl := Option.some.inj (hi.symm.trans hat)
  obtain rfl := Except.ok.inj (hg'.symm.trans halone)
  exact ⟨hwhole, halone, hcut (by decide)⟩

end Unbundle
