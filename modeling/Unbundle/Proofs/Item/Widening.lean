import Unbundle.Proofs.Item.Promotion
import Unbundle.Proofs.Item.Restriction

/-! What moving an item to the shared module does to its tokens: those of its visibility are
replaced, and the others stay, unless a word stands right behind `pub(self)`. -/
namespace Unbundle

/-- Where the visibility of an item stands; for an item without one, where the item proper
starts. -/
def Head.place (h : Head) : Span := h.visibilitySpan.getD ⟨h.itemStart, h.itemStart⟩

/-- Before any text but a quote, `x` is read as these tokens, up to blanks at its end. -/
def LeadsIn (x : Text) (shown : List (TokenKind × Text)) : Prop :=
  ∀ w : Text, w.head? ≠ some '\x27' →
    ∃ gap, gap.all isBlank = true ∧ Reads (x ++ w) shown (gap ++ w)

/-- The word `pub` is put into a text, with a blank behind it. -/
theorem Reads.pub {x y z gap : Text} {shown others : List (TokenKind × Text)} (h : Reads z others y)
    (hx : LeadsIn x shown) (hgap : gap.all isBlank = true) (hne : gap ≠ [])
    (hothers : others ≠ []) :
    Reads (x ++ ("pub".toList ++ (gap ++ z))) (shown ++ (.ident, "pub".toList) :: others) y := by
  have hends : ∀ d ∈ (gap ++ z).head?, endsWord d = true := by
    cases gap with
    | nil => exact absurd rfl hne
    | cons e gap =>
      rw [List.all_cons, Bool.and_eq_true] at hgap
      rintro d ⟨⟩
      exact endsWord_of_isBlank hgap.1
  have hword : isIdentifier "pub".toList = true := by decide +kernel
  obtain ⟨blanks, hblanks, hbefore⟩ := hx ("pub".toList ++ (gap ++ z)) (by simp)
  exact hbefore.trans ((h.skip hgap hothers).identifier hblanks hword hends)

namespace Scan

variable {s : Scan} {blockEnds : Bool} {a i j k lead first stop : Nat} {span : Span} {h : Head}
  {t : Token} {text x y : Text}

/-- The tokens of the visibility that an item needs in the shared module. One that it has already
stays as it is written. -/
def widenedFaces (s : Scan) (h : Head) : List (TokenKind × Text) :=
  if h.visibility.widen .sharedModule = h.visibility then (s.inside h.place).map Token.face
  else faces (h.visibility.widen .sharedModule).text.toList

theorem widenedFaces_of_narrow (hv : h.visibility = .priv ∨ h.visibility = .selfOnly) :
    s.widenedFaces h = [(.ident, "pub".toList)] := by
  have hpub : faces "pub".toList = [(.ident, "pub".toList)] := by decide +kernel
  rcases hv with hv | hv <;>
    · rw [widenedFaces, hv, if_neg (by decide)]
      exact hpub

/-- What an item shows with the tokens of its visibility replaced. -/
def promotedFaces (s : Scan) (span : Span) (h : Head) : List (TokenKind × Text) :=
  ((s.inside span).filter (·.start < h.place.start)).map Token.face ++
    (s.widenedFaces h ++ ((s.inside span).filter (h.place.stop ≤ ·.start)).map Token.face)

/-- The item's own module sees it only, and the next token follows its visibility without a
blank. -/
def Crowded (s : Scan) (h : Head) : Prop :=
  h.visibility = .selfOnly ∧ ∃ v i, h.visibilitySpan = some v ∧ s.StartsAt i v.stop

namespace ItemAt

theorem stop_eq (hat : s.ItemAt blockEnds k span h lead first stop) (hs : s.Faithful)
    (ht : s.token? j = some t) (hstop : t.stop = span.stop) : stop = j + 1 := by
  rw [← hat.ends.stopsBefore.firstFrom_eq hs, ← hstop]
  exact (StopsBefore.token ht).firstFrom_eq hs

theorem inside_eq (hat : s.ItemAt blockEnds k span h lead first stop) (hs : s.Faithful)
    (ht : s.token? j = some t) (hstop : t.stop = span.stop) :
    s.inside span = s.between lead (j + 1) := by
  obtain ⟨u, hu, hustart⟩ := hat.head.starts
  have hle := hat.head.clear.le
  have hkstop := hat.lt_stop
  have hj := hat.stop_eq hs ht hstop
  have hspan : span = ⟨u.start, t.stop⟩ := by rw [hustart, ← hat.start, hstop]
  rw [hspan]
  exact hs.inside_eq hu ht (by omega)

/-- Comments and attributes, if any, end right before the item proper. -/
theorem lead_eq_or (hat : s.ItemAt blockEnds k span h lead first stop) (hs : s.Faithful) :
    lead = first ∨ ∃ i a, first = i + 1 ∧ lead ≤ i ∧ s.token? i = some a ∧
      ((∃ kind, a.kind = .comment kind) ∨ a.kind.isStop = true) := by
  rcases Nat.eq_or_lt_of_le hat.head.lead_le with heq | hlt
  · exact .inl heq
  · obtain ⟨i, rfl⟩ : ∃ i, first = i + 1 := ⟨first - 1, by omega⟩
    obtain ⟨b, hb, -⟩ := hat.head.itemStarts
    by_cases hstep : ∃ o, s.LeadStep i o
    · obtain ⟨o, hstep⟩ := hstep
      obtain ⟨a, ha, hkind⟩ := hstep.exists_token
      refine .inr ⟨i, a, rfl, Nat.le_of_lt_succ hlt, ha, ?_⟩
      rcases hkind with hkind | hkind
      · exact .inl hkind
      · exact .inr (by rw [hkind]; rfl)
    · have hlead := hs.leadFrom_of_not_step (Scan.lt_size hb) (not_exists.1 hstep)
      rw [hat.head.leadFrom] at hlead
      exact .inl (Except.ok.inj hlead)

/-- What stands before the item proper is read as its tokens before other texts. -/
theorem leadsIn (hat : s.ItemAt blockEnds k span h lead first stop) (hs : s.Faithful)
    (ht : s.token? j = some t) (hstop : t.stop = span.stop)
    (hpiece : s.slice span.start span.stop = .ok (x ++ y))
    (hcut : span.start + byteLength x = h.itemStart) :
    LeadsIn x ((s.between lead first).map Token.face) := by
  intro w hw
  obtain ⟨u, hu, hustart⟩ := hat.head.starts
  obtain ⟨b, hb, hbstart⟩ := hat.head.itemStarts
  have hspan := hat.start
  rcases hat.lead_eq_or hs with rfl | ⟨i, a, rfl, hle, ha, hkind⟩
  · obtain rfl := Option.some.inj (hu.symm.trans hb)
    obtain rfl : x = [] := eq_nil_of_byteLength_eq_zero (by omega)
    rw [between_self]
    exact ⟨[], rfl, .done w⟩
  · have hfirst := hat.head.first_le
    have hkstop := hat.lt_stop
    have hj := hat.stop_eq hs ht hstop
    rw [hspan, ← hustart, ← hstop] at hpiece
    exact hs.reads_before hu ha hb ht hle (by omega) hpiece (by omega) hkind hw

end ItemAt

namespace PlacedAt

/-- The tokens of the visibility are the first ones of the item proper, before the keyword. -/
theorem exists_place (hat : s.PlacedAt blockEnds k span h lead first stop) (hs : s.Faithful) :
    ∃ n, first ≤ n ∧ n ≤ k ∧ h.place.start = h.itemStart ∧ s.firstFrom h.place.stop = n ∧
      s.inside h.place = s.between first n := by
  obtain ⟨b, hb, hbstart⟩ := hat.head.itemStarts
  cases hspan : h.visibilitySpan with
  | none =>
    have hplace : h.place = ⟨h.itemStart, h.itemStart⟩ := by rw [Head.place, hspan]; rfl
    refine ⟨first, Nat.le_refl _, hat.head.first_le, by rw [hplace], ?_, ?_⟩
    · rw [hplace]
      exact hat.head.itemStarts.firstFrom_eq hs
    · rw [hplace, between_self, hs.inside_empty]
  | some v =>
    obtain ⟨v', -, hread⟩ := hat.visibility
    obtain ⟨c, p, q, hp, hq, hfirst, hck, rfl⟩ := hread.bounds hspan
    obtain rfl := Option.some.inj (hb.symm.trans hp)
    have hplace : h.place = ⟨b.start, q.stop⟩ := by rw [Head.place, hspan]; rfl
    refine ⟨c + 1, Nat.le_succ_of_le hfirst, hck, by rw [hplace]; exact hbstart, ?_, ?_⟩
    · rw [hplace]
      exact (StopsBefore.token hq).firstFrom_eq hs
    · rw [hplace, hs.inside_eq hp hq hfirst]

theorem promotedFaces_eq (hat : s.PlacedAt blockEnds k span h lead first stop) (hs : s.Faithful)
    (ht : s.token? j = some t) (hstop : t.stop = span.stop) :
    ∃ n, first ≤ n ∧ n ≤ j ∧ s.firstFrom h.place.stop = n ∧ s.inside h.place = s.between first n ∧
      s.promotedFaces span h = (s.between lead first).map Token.face ++
        (s.widenedFaces h ++ (s.between n (j + 1)).map Token.face) := by
  obtain ⟨n, hfirst, hnk, hstart, hend, hplace⟩ := hat.exists_place hs
  have hlead := hat.head.lead_le
  have hkstop := hat.lt_stop
  have hj := hat.stop_eq hs ht hstop
  have hfrom : s.firstFrom h.place.start = first := by
    rw [hstart]
    exact hat.head.itemStarts.firstFrom_eq hs
  have hbefore := (hs.filter_between hfrom hlead (show first ≤ j + 1 by omega)).1
  have hbehind := (hs.filter_between hend (show lead ≤ n by omega) (show n ≤ j + 1 by omega)).2
  refine ⟨n, hfirst, by omega, hend, hplace, ?_⟩
  rw [promotedFaces, hat.inside_eq hs ht hstop, hbefore, hbehind]

/-- An item that keeps its visibility shows its tokens. -/
theorem promotedFaces_of_widen_eq (hat : s.PlacedAt blockEnds k span h lead first stop)
    (hs : s.Faithful) (ht : s.token? j = some t) (hstop : t.stop = span.stop)
    (hv : h.visibility.widen .sharedModule = h.visibility) :
    s.promotedFaces span h = (s.between lead (j + 1)).map Token.face := by
  obtain ⟨n, hfirst, hnj, -, hplace, hfaces⟩ := hat.promotedFaces_eq hs ht hstop
  rw [hfaces, widenedFaces, if_pos hv, hplace, ← List.map_append, ← List.map_append,
    between_append hfirst (by omega), between_append hat.head.lead_le (by omega)]

/-- A private item shows `pub` before the item proper. -/
theorem promotedFaces_of_priv (hat : s.PlacedAt blockEnds k span h lead first stop)
    (hs : s.Faithful) (ht : s.token? j = some t) (hstop : t.stop = span.stop)
    (hv : h.visibility = .priv) :
    s.promotedFaces span h = (s.between lead first).map Token.face ++
      (.ident, "pub".toList) :: (s.between first (j + 1)).map Token.face := by
  obtain ⟨n, -, -, hend, -, hfaces⟩ := hat.promotedFaces_eq hs ht hstop
  obtain rfl : first = n := by
    rw [← hend, Head.place, hat.visibilitySpan_of_priv hv]
    exact (hat.head.itemStarts.firstFrom_eq hs).symm
  rw [hfaces, widenedFaces_of_narrow (.inl hv), List.singleton_append]

/-- What `pub(self)` was read from: it ends before a word. -/
theorem exists_of_selfOnly (hat : s.PlacedAt blockEnds k span h lead first stop)
    (hv : h.visibility = .selfOnly) :
    ∃ c q u, s.token? c = some q ∧ s.token? (c + 1) = some u ∧ u.kind = .ident ∧ first ≤ c ∧ c < k ∧
      h.visibilitySpan = some ⟨h.itemStart, q.stop⟩ := by
  obtain ⟨v, hor, hread⟩ := hat.visibility
  obtain rfl : Visibility.selfOnly = v := by
    rcases hor with heq | heq
    · exact hv.symm.trans heq
    · rw [hv] at heq
      cases heq
  obtain ⟨b, hb, hbstart⟩ := hat.head.itemStarts
  cases hread with
  | bare hv' _ => cases hv'
  | pub _ _ _ hv' _ => cases hv'
  | @restricted c p o q inside hp hw ho hq hk hclose hck hpassed hinside hv' hspan =>
    obtain rfl := Option.some.inj (hb.symm.trans hp)
    obtain ⟨u, hu, hkind⟩ : ∃ u, s.token? (c + 1) = some u ∧ u.kind = .ident := by
      rcases Nat.eq_or_lt_of_le hck with heq | hlt
      · subst heq
        exact Option.map_eq_some_iff.1 hat.kind
      · obtain ⟨u, hu, hkind⟩ := isPassed_iff.1 (hpassed (c + 1) (Nat.lt_succ_self c) hlt)
        refine ⟨u, hu, ?_⟩
        rcases hkind with hkind | ⟨-, -, hword⟩
        · obtain ⟨w, -, hw⟩ := Token.exists_isWord_of_isQualifier hkind
          exact Token.kind_of_isWord hw
        · obtain ⟨q', hq', hword⟩ := exists_token?_of_isWord hword
          obtain rfl := Option.some.inj (hq.symm.trans hq')
          rw [Token.kind_of_isWord hword] at hk
          cases hk
    refine ⟨c, q, u, hq, hu, hkind, Nat.le_of_lt (Nat.lt_of_succ_lt hclose.lt), hck, ?_⟩
    rw [← hbstart]
    exact hspan

end PlacedAt

/-- An item with `pub(self)` that moves: comments and attributes `x`, the word `pub`, the blanks
`gap`, and `z` from the token `n` to the token `j`, which is the last. -/
structure Rewritten (s : Scan) (span : Span) (h : Head) (lead first n j : Nat) (x gap z : Text) :
    Prop where
  le : n ≤ j
  promote : promote s.text span h = .ok (x ++ ("pub".toList ++ (gap ++ z)))
  faces : s.promotedFaces span h = (s.between lead first).map Token.face ++
    (.ident, "pub".toList) :: (s.between n (j + 1)).map Token.face
  leading : LeadsIn x ((s.between lead first).map Token.face)
  blank : gap.all isBlank = true
  crowded : gap = [] ↔ s.Crowded h
  word : ∃ u, s.token? n = some u ∧ u.kind = .ident ∧ s.slice u.start span.stop = .ok z

theorem PlacedAt.exists_rewritten (hat : s.PlacedAt blockEnds k span h lead first stop)
    (hs : s.Faithful) (ht : s.token? j = some t) (hstop : t.stop = span.stop)
    (hv : h.visibility = .selfOnly) :
    ∃ n x gap z, s.Rewritten span h lead first n j x gap z := by
  obtain ⟨c, q, u, hq, hu, hkind, hfirst, hck, hspan⟩ := hat.exists_of_selfOnly hv
  obtain ⟨n, -, -, hend, -, hfaces⟩ := hat.promotedFaces_eq hs ht hstop
  obtain ⟨b, hb, hbstart⟩ := hat.head.itemStarts
  have hkstop := hat.lt_stop
  have hj := hat.stop_eq hs ht hstop
  have hstart := hat.start_le_itemStart hs
  have hqstop := hat.stop_le hs hq (Nat.le_of_lt hck)
  have hbq := hs.start_le_start hb hq hfirst
  have hpos := hs.start_lt_stop hq
  have hplace : h.place = ⟨h.itemStart, q.stop⟩ := by rw [Head.place, hspan]; rfl
  obtain rfl : n = c + 1 := by
    rw [← hend, hplace]
    exact (StopsBefore.token hq).firstFrom_eq hs
  obtain ⟨piece, hpiece⟩ := hat.holds.exists_slice hs
  obtain ⟨x, rest, hx, hxstart, hbefore, -⟩ := hat.exists_cut hs hpiece
  obtain ⟨x', z', hz, hzstop, -, hbehind⟩ :=
    exists_cut_within hpiece (hs.boundary_stop hq) (by omega) hqstop
  have hslice := (slice_of_append (hz ▸ hpiece)).2
  rw [hzstop, ← hstop] at hslice
  obtain ⟨gap, z, rfl, hblank, hgap, hzslice⟩ := hs.exists_behind hq hu ht (by omega) hslice
  have hleading := hat.leadsIn hs ht hstop (hx ▸ hpiece) hxstart
  refine ⟨c + 1, x, gap, z, by omega, ?_, ?_, hleading, hblank, ?_, u, hu, hkind, hstop ▸ hzslice⟩
  · exact promote_of_selfOnly hpiece hv hspan hstart (by simp only; omega) hbefore hbehind
  · rw [hfaces, widenedFaces_of_narrow (.inr hv), List.singleton_append]
  · constructor
    · rintro rfl
      exact ⟨hv, _, c + 1, hspan, u, hu, by rw [← hgap]; rfl⟩
    · rintro ⟨-, v, i, hv', hi⟩
      obtain rfl := Option.some.inj (hspan.symm.trans hv')
      have heq : c + 1 = i := by
        rw [← hi.firstFrom_eq hs]
        exact ((StopsBefore.token hq).firstFrom_eq hs).symm
      obtain ⟨u', hu', hstart'⟩ := hi
      rw [← heq, hu] at hu'
      obtain rfl := Option.some.inj hu'
      exact eq_nil_of_byteLength_eq_zero (by simp only at hstart'; omega)

namespace Rewritten

variable {n : Nat} {gap z : Text}

/-- With a blank behind it, `pub` is read as a word. -/
theorem readsAs (hr : s.Rewritten span h lead first n j x gap z) (hs : s.Faithful)
    (ht : s.token? j = some t) (hstop : t.stop = span.stop) (hk : t.kind.isStop = true)
    (hgap : gap ≠ []) : ReadsAs (x ++ ("pub".toList ++ (gap ++ z))) (s.promotedFaces span h) := by
  obtain ⟨u, hu, -, hz⟩ := hr.word
  rw [hr.faces]
  refine ⟨by simp, ?_⟩
  intro y hy
  have hread := (hs.reads_between hu ht hr.le (hstop ▸ hz) hk hy).pub hr.leading hr.blank hgap
    (map_face_between_ne_nil ht hr.le)
  simpa only [List.append_assoc] using hread

/-- Without one, it is read together with the word behind it. -/
theorem faces_ne (hr : s.Rewritten span h lead first n j x gap z) (hs : s.Faithful)
    (hstop : t.stop = span.stop) (ht : s.token? j = some t) (hgap : gap = []) :
    Unbundle.faces (x ++ ("pub".toList ++ (gap ++ z))) ≠ s.promotedFaces span h := by
  subst hgap
  obtain ⟨u, hu, hkind, hz⟩ := hr.word
  obtain ⟨blanks, hblanks, hbefore⟩ := hr.leading ("pub".toList ++ z) (by simp)
  obtain ⟨c, tail, rfl, hc⟩ : ∃ c tail, z = c :: tail ∧ isIdentStart c = true := by
    obtain ⟨rest, rfl⟩ := hs.exists_eq_chars_append hu ht hr.le (hstop ▸ hz)
    obtain ⟨-, c, cs, -, -, -, hkind', hchars, -⟩ := exists_lexeme_of_mem (hs.mem_tokenize hu)
    obtain ⟨tail, htail⟩ := List.head?_eq_some_iff.1 (head?_lexeme c cs)
    rw [hchars, htail]
    exact ⟨c, tail ++ rest, rfl, isIdentStart_of_ident (hkind'.symm.trans hkind)⟩
  rw [List.nil_append, hbefore.faces_eq, hr.faces, Ne, List.append_cancel_left_eq]
  intro heq
  rw [faces_gap hblanks, show "pub".toList ++ c :: tail = 'p' :: ('u' :: 'b' :: c :: tail) from rfl,
    faces_cons (by decide +kernel)] at heq
  obtain ⟨hkind, htaken⟩ := Prod.mk.inj (List.cons.inj heq).1
  have hwhole := whole_lexeme 'p' ('u' :: 'b' :: c :: tail)
  have hend := rest_of_ident hkind
  rw [Cut.whole, htaken] at hwhole
  have hrest : (lexeme 'p' ('u' :: 'b' :: c :: tail)).rest = c :: tail := by
    simpa using hwhole
  rw [hrest] at hend
  have hcont := isIdentContinue_of_isIdentStart hc
  rw [hend c rfl] at hcont
  cases hcont

end Rewritten

/-- An item that moves is read as its tokens with those of its visibility replaced, unless a word
stands right behind `pub(self)`. -/
theorem PlacedAt.reads_promoted (hat : s.PlacedAt blockEnds k span h lead first stop)
    (hs : s.Faithful) (ht : s.token? j = some t) (hstop : t.stop = span.stop)
    (hk : t.kind.isStop = true) (hapart : ¬ s.Crowded h) (hp : promote s.text span h = .ok text) :
    ReadsAs text (s.promotedFaces span h) := by
  have hlead := hat.head.lead_le
  have hfirst := hat.head.first_le
  have hkstop := hat.lt_stop
  have hj := hat.stop_eq hs ht hstop
  by_cases hself : h.visibility = .selfOnly
  · obtain ⟨n, x, gap, z, hr⟩ := hat.exists_rewritten hs ht hstop hself
    obtain rfl := Except.ok.inj (hr.promote.symm.trans hp)
    exact hr.readsAs hs ht hstop hk (mt hr.crowded.1 hapart)
  obtain ⟨u, hu, hustart⟩ := hat.head.starts
  obtain ⟨piece, hpiece⟩ := hat.holds.exists_slice hs
  have hpiece' : s.slice u.start t.stop = .ok piece := by rwa [hustart, ← hat.start, hstop]
  by_cases hpriv : h.visibility = .priv
  · obtain ⟨b, hb, hbstart⟩ := hat.head.itemStarts
    obtain ⟨x, z, rfl, hcut, hx, hz⟩ := hat.exists_cut hs hpiece
    rw [promote_of_priv hpiece hpriv (hat.visibilitySpan_of_priv hpriv) (hat.start_le_itemStart hs)
      hx hz] at hp
    obtain rfl := Except.ok.inj hp
    have hbehind := (slice_of_append hpiece).2
    rw [hcut, ← hbstart, ← hstop] at hbehind
    rw [hat.promotedFaces_of_priv hs ht hstop hpriv]
    refine ⟨by simp, ?_⟩
    intro y hy
    have hblank : ([' '] : Text).all isBlank = true := by decide +kernel
    have hleading := hat.leadsIn hs ht hstop hpiece hcut
    have hread := (hs.reads_between hb ht (by omega) hbehind hk hy).pub hleading hblank (by simp)
      (map_face_between_ne_nil ht (by omega))
    have hpub : "pub ".toList = "pub".toList ++ [' '] := rfl
    simpa only [List.append_assoc, hpub] using hread
  · have hwide := Visibility.widen_eq_self_iff.2 ⟨hpriv, hself⟩
    rw [promote_of_widen_eq hpiece hwide] at hp
    obtain rfl := Except.ok.inj hp
    rw [hat.promotedFaces_of_widen_eq hs ht hstop hwide]
    exact ⟨map_face_between_ne_nil ht (by omega),
      fun y hy => hs.reads_between hu ht (by omega) hpiece' hk hy⟩

/-- With a word right behind `pub(self)` it is not. -/
theorem PlacedAt.faces_ne_of_crowded (hat : s.PlacedAt blockEnds k span h lead first stop)
    (hs : s.Faithful) (ht : s.token? j = some t) (hstop : t.stop = span.stop)
    (hcrowded : s.Crowded h) (hp : promote s.text span h = .ok text) :
    faces text ≠ s.promotedFaces span h := by
  obtain ⟨n, x, gap, z, hr⟩ := hat.exists_rewritten hs ht hstop hcrowded.1
  obtain rfl := Except.ok.inj (hr.promote.symm.trans hp)
  exact hr.faces_ne hs hstop ht (hr.crowded.2 hcrowded)

/-- Where an item of the shared module lies that a bracket or a semicolon ends. -/
def ClosedAt (s : Scan) (span : Span) (h : Head) : Prop :=
  ∃ blockEnds k lead first stop j t, s.PlacedAt blockEnds k span h lead first stop ∧
    s.token? j = some t ∧ t.kind.isStop = true ∧ t.stop = span.stop

theorem FunctionAt.exists_last {f : Function} {opened : Nat}
    (hat : s.FunctionAt k f lead first opened stop) (hs : s.Faithful) (hclosed : f.closed = true) :
    ∃ j t, s.token? j = some t ∧ t.kind.isStop = true ∧ t.stop = f.span.stop := by
  rw [hat.closed_eq] at hclosed
  obtain ⟨c, hc⟩ := hs.exists_closes_of_closed hat.brace hclosed
  obtain ⟨t, d, ht, hk⟩ := exists_closer hc
  exact ⟨c, t, ht, by rw [hk]; rfl, (hat.stop_of_closes hs hc ht).1.symm⟩

theorem Faithful.exists_last_of_declarationEnd (hs : s.Faithful) {kind : DeclarationKind}
    (ho : openBefore s.kinds (k + 1) = []) (h : s.declarationEnd k kind = .ok (stop, true)) :
    ∃ j t, s.token? j = some t ∧ t.kind.isStop = true ∧ t.stop = stop := by
  have hwalk : s.Walked kind.endsWithBlock (k + 1) (s.terminator? kind.endsWithBlock (k + 1)) :=
    walked_terminator? hs ho
  unfold declarationEnd at h
  split at h
  · rename_i j hterm
    rw [hterm] at hwalk
    obtain ⟨t, ht, hk⟩ := Option.map_eq_some_iff.1 hwalk.2
    rw [token_eq_ok ht] at h
    cases h
    exact ⟨j, t, ht, by rw [hk]; rfl, rfl⟩
  · rename_i opened hterm
    rw [hterm] at hwalk
    obtain ⟨hstop, hclosed⟩ := Prod.mk.inj (Except.ok.inj h)
    obtain ⟨c, hc⟩ := hs.exists_closes_of_closed hwalk.2 hclosed
    obtain ⟨t, d, ht, hk⟩ := exists_closer hc
    rw [hs.group_of_closes hc ht] at hstop
    exact ⟨c, t, ht, by rw [hk]; rfl, hstop⟩
  · cases h

theorem IsDeclaration.exists_last {functions : List Span} {d : Declaration}
    (hd : s.IsDeclaration functions k d) (hs : s.Faithful) (hclosed : d.closed = true) :
    ∃ j t, s.token? j = some t ∧ t.kind.isStop = true ∧ t.stop = d.span.stop := by
  obtain ⟨head, -, hat, -⟩ := hd.found
  obtain ⟨-, -, -, -, -, hend⟩ := declarationAt_eq_ok hat
  rw [hclosed] at hend
  have hopen := hs.openBefore_eq_nil hd.keyword (by simp [hd.kind])
  exact hs.exists_last_of_declarationEnd (openBefore_succ_eq_nil hopen (by simp [hd.kind])) hend

theorem Yields.closedAt_helper {u : Inventory} {f : Function} (hy : s.Yields u) (hs : s.Faithful)
    (hf : f ∈ u.helpers) (hclosed : f.closed = true) : s.ClosedAt f.span f.head := by
  obtain ⟨k, hk⟩ := hy.helpers.each f hf
  obtain ⟨lead, first, stop, hat⟩ := hk.exists_placed hs
  obtain ⟨lead', first', opened, stop', hat'⟩ := hk.exists_functionAt hs
  obtain ⟨j, t, ht, hstop, hend⟩ := hat'.exists_last hs hclosed
  exact ⟨_, k, lead, first, stop, j, t, hat, ht, hstop, hend⟩

theorem Yields.closedAt_declaration {u : Inventory} {d : Declaration} (hy : s.Yields u)
    (hs : s.Faithful) (hd : d ∈ u.declarations) (hclosed : d.closed = true) :
    s.ClosedAt d.span d.head := by
  obtain ⟨k, -, hk⟩ := hy.declarations.each d hd
  obtain ⟨lead, first, stop, hat⟩ := hk.exists_placed hs
  obtain ⟨j, t, ht, hstop, hend⟩ := hk.exists_last hs hclosed
  exact ⟨_, k, lead, first, stop, j, t, hat, ht, hstop, hend⟩

/-- The visibility of an item is written as it is spelled, unless the item takes none or it is a
path. -/
theorem PlacedAt.faces_place (hat : s.PlacedAt blockEnds k span h lead first stop) (hs : s.Faithful)
    (hsimple : h.visibility.isSimple = true) :
    (s.inside h.place).map Token.face = faces h.visibility.text.toList := by
  obtain ⟨v, hor, hread⟩ := hat.visibility
  obtain rfl : v = h.visibility := by
    rcases hor with heq | heq
    · exact heq.symm
    · rw [heq] at hsimple
      cases hsimple
  rw [Head.place]
  cases hspan : h.visibilitySpan with
  | some v =>
    rw [hspan] at hread
    exact hread.faces_eq hs hsimple rfl
  | none =>
    rw [hspan] at hread
    cases hread with
    | bare hv _ =>
      simp only at hv
      rw [hv, Option.getD_none, hs.inside_empty]
      exact faces_nil.symm
    | pub _ _ _ _ hspan => cases hspan
    | restricted _ _ _ _ _ _ _ _ _ _ hspan => cases hspan

/-- What moving a closed item does to its tokens. -/
structure Moves (s : Scan) (span : Span) (h : Head) : Prop where
  promoted : ∃ text, promote s.text span h = .ok text ∧
    (faces text = s.promotedFaces span h ↔ ¬ s.Crowded h)
  written : h.visibility.isSimple = true →
    (s.inside h.place).map Token.face = faces h.visibility.text.toList

theorem ClosedAt.moves (hc : s.ClosedAt span h) (hs : s.Faithful) : s.Moves span h := by
  obtain ⟨blockEnds, k, lead, first, stop, j, t, hat, ht, hk, hstop⟩ := hc
  obtain ⟨text, hp⟩ := hat.exists_promote hs
  refine ⟨⟨text, hp, ?_, ?_⟩, hat.faces_place hs⟩
  · intro heq hcrowded
    exact hat.faces_ne_of_crowded hs ht hstop hcrowded hp heq
  · intro hapart
    have hread := (hat.reads_promoted hs ht hstop hk hapart hp).reads [] (by simp)
    rw [List.append_nil] at hread
    exact hread.map_face_tokenize rfl

end Scan

section Inventory

variable {source : Source} {u : Inventory}

/-- Each closed item of the shared module is read there as its own tokens, those of its visibility
replaced, exactly when no word stands right behind its `pub(self)`. -/
theorem moves_of_analyze (hu : analyze source = .ok (.ok u)) :
    (∀ f ∈ u.helpers, f.closed = true → (Scan.ofText source.text).Moves f.span f.head) ∧
      ∀ d ∈ u.declarations, d.closed = true → (Scan.ofText source.text).Moves d.span d.head := by
  have hs := Scan.faithful_ofText source.text
  have hy := yields_of_analyze hu
  exact ⟨fun f hf hclosed => (hy.closedAt_helper hs hf hclosed).moves hs,
    fun d hd hclosed => (hy.closedAt_declaration hs hd hclosed).moves hs⟩

def crowdedSelf : Source := .ofString "text" "pub(self)fn f() {}\n"

theorem analyze_crowdedSelf :
    analyze crowdedSelf = .ok (.ok
      { applets := []
        helpers := [⟨"f", .helper, ⟨0, 18⟩, ⟨0, 0, none, .selfOnly, some ⟨0, 9⟩⟩, ⟨16, 18⟩, true⟩]
        declarations := []
        skipped := [] }) := by
  have hv : (Scan.ofText crowdedSelf.text).survey = .ok
      ⟨[.function ⟨"f", .helper, ⟨0, 18⟩, ⟨0, 0, none, .selfOnly, some ⟨0, 9⟩⟩, ⟨16, 18⟩, true⟩],
        []⟩ := by
    refine Scan.survey_eq_ok.2 ⟨by decide +kernel, ?_⟩
    rw [functionSpans_of_pairwise]
    · decide +kernel
    · decide
  exact analyze_of_survey hv rfl

theorem crowdedSelf_moves :
    (Scan.ofText crowdedSelf.text).Moves ⟨0, 18⟩ ⟨0, 0, none, .selfOnly, some ⟨0, 9⟩⟩ :=
  (moves_of_analyze analyze_crowdedSelf).1 _ (List.mem_singleton_self _) rfl

/-- Its keyword is lost in the shared module. -/
theorem not_forall_promotedFaces :
    ¬ ∀ source u, analyze source = .ok (.ok u) →
      (∀ f ∈ u.helpers, f.closed = true → ∃ text, promote source.text f.span f.head = .ok text ∧
        faces text = (Scan.ofText source.text).promotedFaces f.span f.head) ∧
      ∀ d ∈ u.declarations, d.closed = true → ∃ text, promote source.text d.span d.head = .ok text ∧
        faces text = (Scan.ofText source.text).promotedFaces d.span d.head := by
  intro h
  obtain ⟨text, hp, hfaces⟩ :=
    (h _ _ analyze_crowdedSelf).1 _ (List.mem_singleton_self _) rfl
  have htext : promote crowdedSelf.text ⟨0, 18⟩ ⟨0, 0, none, .selfOnly, some ⟨0, 9⟩⟩ =
      .ok "pubfn f() \x7b\x7d".toList := by
    rfl
  obtain rfl := Except.ok.inj (htext.symm.trans hp)
  revert hfaces
  decide +kernel

end Inventory
end Unbundle
