import Unbundle.Proofs.Item.Visibility
import Unbundle.Proofs.Partition
import Unbundle.Proofs.Scan.Excerpt

/-! Restricted visibilities: how they are written, and which of them stay when their item moves to
the shared module. -/
namespace Unbundle

section Written

variable {c : Char} {cs inside x : Text} {t : Token} {ws : List Text} {v : Visibility}

theorem joinWith_blank_eq {w : Text} (hw : ' ' ∉ w) :
    joinWith [' '] ws = w ↔ ws = [w] ∨ ws = [] ∧ w = [] := by
  match ws with
  | [] => simp [joinWith, eq_comm]
  | [u] => simp [joinWith]
  | u :: v :: ws =>
    simp only [joinWith, List.cons.injEq, reduceCtorEq, and_false, false_and, or_self, iff_false]
    rintro rfl
    simp at hw

theorem ofPathWords_eq_self_iff :
    Visibility.ofPathWords ws = .inPath "self" ↔ ws = ["self".toList] := by
  rw [Visibility.ofPathWords, Visibility.inPath.injEq, ← String.toList_inj, String.toList_ofList,
    joinWith_blank_eq (by decide)]
  simp

/-- Only the words `in self` give the path to the module itself. -/
theorem restricted_eq_self_iff :
    Visibility.restricted inside = .inPath "self" ↔
      words inside = ["in".toList, "self".toList] := by
  unfold Visibility.restricted
  simp only
  split_ifs with hcrate hsuper hself
  · simp [hcrate]
  · simp [hsuper]
  · simp [hself]
  · split
    · rename_i w v vs hws
      split_ifs with hin
      · rw [ofPathWords_eq_self_iff, hws, hin]
        simp
      · rw [ofPathWords_eq_self_iff, hws]
        refine iff_of_false (by simp) ?_
        intro heq
        exact hin (List.cons.inj heq).1
    · rename_i hnot
      rw [ofPathWords_eq_self_iff]
      refine iff_of_false hself ?_
      intro hws
      exact hnot _ _ _ hws

def Visibility.isSimple : Visibility → Bool
  | priv | pub | crate | super | selfOnly => true
  | inherited | inPath _ => false

/-- A restriction to one of three words is written with that word alone. -/
theorem restricted_of_isSimple (h : (Visibility.restricted inside).isSimple = true) :
    ∃ w ∈ ["crate".toList, "super".toList, "self".toList], words inside = [w] ∧
      (Visibility.restricted inside).text.toList = "pub(".toList ++ (w ++ [')']) := by
  unfold Visibility.restricted at h ⊢
  simp only at h ⊢
  split_ifs at h ⊢ with hcrate hsuper hself
  · exact ⟨_, by simp, hcrate, rfl⟩
  · exact ⟨_, by simp, hsuper, rfl⟩
  · exact ⟨_, by simp, hself, rfl⟩
  · split at h <;> (try split_ifs at h) <;> cases h

end Written
namespace Scan

variable {s : Scan} {i k c : Nat} {p o t : Token} {inside : Text} {ws : List Text} {h : Head}

theorem Faithful.face_opener (hs : s.Faithful) (ht : s.token? i = some t)
    (hk : t.kind = .opener .paren) : t.face = (.opener .paren, ['(']) := by
  obtain ⟨before, a, cs, -, -, -, hkind, hchars, -⟩ := exists_lexeme_of_mem (hs.mem_tokenize ht)
  obtain ⟨htaken, hof⟩ := taken_of_opener (hkind.symm.trans hk)
  have ha : a = '(' := by
    unfold Delimiter.ofOpener? at hof
    split at hof <;> first | rfl | cases hof
  rw [Token.face, hk, hchars, htaken, ha]

theorem Faithful.face_closer (hs : s.Faithful) (ht : s.token? i = some t)
    (hk : t.kind = .closer .paren) : t.face = (.closer .paren, [')']) := by
  obtain ⟨before, a, cs, -, -, -, hkind, hchars, -⟩ := exists_lexeme_of_mem (hs.mem_tokenize ht)
  obtain ⟨htaken, hof⟩ := taken_of_closer (hkind.symm.trans hk)
  have ha : a = ')' := by
    unfold Delimiter.ofCloser? at hof
    split at hof <;> first | rfl | cases hof
  rw [Token.face, hk, hchars, htaken, ha]

/-- What lies between parentheses shows the tokens between them. -/
theorem Faithful.faces_inside (hs : s.Faithful) (ho : s.token? i = some o)
    (ht : s.token? c = some t) (hic : i < c) (hk : t.kind = .closer .paren)
    (hinside : s.slice o.stop t.start = .ok inside) :
    (s.between (i + 1) (c + 1)).map Token.face = faces (inside ++ [')']) := by
  obtain ⟨n, hn⟩ := exists_token? (Nat.lt_of_le_of_lt hic (lt_size ht))
  have hle := hs.stop_le_start ho ht hic
  have hpos := hs.start_lt_stop ht
  obtain ⟨before, whole, after, -, -, -, hwhole⟩ :=
    Unbundle.exists_slice (hs.boundary_stop ho) (hs.boundary_stop ht) (by omega)
  obtain ⟨x, y, rfl, hx, -, -⟩ :=
    exists_cut_within hwhole (hs.boundary_start ht) hle (Nat.le_of_lt hpos)
  obtain ⟨hbefore, hbehind⟩ := slice_of_append hwhole
  rw [hx] at hbefore hbehind
  obtain rfl := Except.ok.inj (hbefore.symm.trans hinside)
  obtain rfl := Except.ok.inj (hbehind.symm.trans (hs.slice_chars ht))
  obtain ⟨gap, rest, hcut, hblank, -, hrest⟩ := hs.exists_behind ho hn ht hic hwhole
  have hread := hs.reads_between hn ht hic hrest (by rw [hk]; rfl) (y := []) (by simp)
  rw [List.append_nil] at hread
  rw [← (Prod.mk.inj (hs.face_closer ht hk)).2, hcut, faces_gap hblank]
  exact (hread.map_face_tokenize rfl).symm

/-- A restricted visibility shows `pub`, the parentheses and what lies between them. -/
theorem Faithful.faces_restricted (hs : s.Faithful) (hp : s.token? i = some p)
    (hw : p.isWord "pub" = true) (ho : s.token? (i + 1) = some o) (ht : s.token? c = some t)
    (hk : t.kind = .closer .paren) (hclose : Closes s.kinds (i + 1) c)
    (hinside : s.slice o.stop t.start = .ok inside) :
    (s.inside ⟨p.start, t.stop⟩).map Token.face =
      (.ident, "pub".toList) :: (.opener .paren, ['(']) :: faces (inside ++ [')']) := by
  have hlt := hclose.lt
  have hopener : o.kind = .opener .paren := by
    obtain ⟨d, -, ho', ht', -⟩ := hclose.spec
    rw [kinds_of_token? ho, Option.some.injEq] at ho'
    rw [kinds_of_token? ht, Option.some.injEq, hk] at ht'
    cases ht'
    exact ho'
  have hpub : p.face = (.ident, "pub".toList) := by
    rw [Token.isWord, Bool.and_eq_true, beq_iff_eq, beq_iff_eq] at hw
    rw [Token.face, hw.1, hw.2]
  rw [hs.inside_eq hp ht (by omega), between_cons hp (by omega), between_cons ho (by omega),
    List.map_cons, List.map_cons, hpub, hs.face_opener ho hopener,
    hs.faces_inside ho ht hlt hk hinside]

/-- So it reads as `pub(…)` around certain words exactly when these are its words. -/
theorem Faithful.faces_restricted_iff (hs : s.Faithful) (hp : s.token? i = some p)
    (hw : p.isWord "pub" = true) (ho : s.token? (i + 1) = some o) (ht : s.token? c = some t)
    (hk : t.kind = .closer .paren) (hclose : Closes s.kinds (i + 1) c)
    (hinside : s.slice o.stop t.start = .ok inside) (hws : ∀ w ∈ ws, isIdentifier w = true) :
    (s.inside ⟨p.start, t.stop⟩).map Token.face =
        (.ident, "pub".toList) :: (.opener .paren, ['(']) ::
          (ws.map (.ident, ·) ++ [(.closer .paren, [')'])]) ↔
      words inside = ws := by
  have hparen : ∀ d ∈ ([')'] : Text).head?, endsWord d = true := by
    rintro d ⟨⟩
    decide +kernel
  rw [hs.faces_restricted hp hw ho ht hk hclose hinside, List.cons_inj_right, List.cons_inj_right]
  refine ⟨words_of_faces, ?_⟩
  intro hwords
  rw [faces_of_words hwords hws hparen, faces_paren]

theorem Faithful.readVisibility_of_head (hs : s.Faithful) (hh : s.head k = .ok h) :
    ∃ first, s.ReadVisibility k ⟨first, h.visibility, h.visibilitySpan⟩ := by
  obtain ⟨r, lead, hr, -, -, -, hv, hspan, -⟩ := head_eq_ok hh
  refine ⟨r.first, ?_⟩
  rw [hv, hspan]
  exact hs.readVisibility hr

/-- A visibility is the path to the module itself exactly when it is written so. -/
theorem ReadVisibility.eq_self_iff {r : Reach} (hread : s.ReadVisibility i r) (hs : s.Faithful) :
    r.visibility = .inPath "self" ↔
      ∃ v, r.visibilitySpan = some v ∧
        (s.inside v).map Token.face = faces "pub(in self)".toList := by
  have hfaces : faces "pub(in self)".toList =
      (.ident, "pub".toList) :: (.opener .paren, ['(']) ::
        (["in".toList, "self".toList].map (.ident, ·) ++ [(.closer .paren, [')'])]) := by
    decide +kernel
  cases hread with
  | bare hv hspan => simp [hv, hspan]
  | @pub t ht hw hlt hv hspan =>
    rw [hv, hspan]
    refine iff_of_false nofun ?_
    rintro ⟨v, ⟨⟩, hone⟩
    rw [hs.inside_span ht, hfaces] at hone
    cases (List.cons.inj hone).2
  | restricted hp hw ho ht hk hclose _ _ hinside hv hspan =>
    have hws : ∀ w ∈ ["in".toList, "self".toList], isIdentifier w = true := by decide +kernel
    rw [hv, restricted_eq_self_iff, hfaces,
      ← hs.faces_restricted_iff hp hw ho ht hk hclose hinside hws, hspan]
    simp

/-- A visibility of one word, or of none in parentheses, is written as it is spelled. -/
theorem ReadVisibility.faces_eq {r : Reach} {v : Span} (hread : s.ReadVisibility i r)
    (hs : s.Faithful) (hsimple : r.visibility.isSimple = true) (hv : r.visibilitySpan = some v) :
    (s.inside v).map Token.face = faces r.visibility.text.toList := by
  cases hread with
  | bare _ hspan =>
    rw [hspan] at hv
    cases hv
  | @pub t ht hw hlt hpub hspan =>
    obtain rfl := Option.some.inj (hspan.symm.trans hv)
    rw [Token.isWord, Bool.and_eq_true, beq_iff_eq, beq_iff_eq] at hw
    rw [hs.inside_span ht, hpub, List.map_singleton, Token.face, hw.1, hw.2]
    decide +kernel
  | restricted hp hw ho ht hk hclose _ _ hinside hres hspan =>
    obtain rfl := Option.some.inj (hspan.symm.trans hv)
    rw [hres] at hsimple ⊢
    obtain ⟨w, hmem, hwords, htext⟩ := restricted_of_isSimple hsimple
    have hspelled : ∀ w ∈ ["crate".toList, "super".toList, "self".toList],
        isIdentifier w = true ∧ faces ("pub(".toList ++ (w ++ [')'])) =
          (.ident, "pub".toList) :: (.opener .paren, ['(']) ::
            ([w].map (.ident, ·) ++ [(.closer .paren, [')'])]) := by
      decide +kernel
    obtain ⟨hw', hfaces⟩ := hspelled w hmem
    rw [htext, hfaces]
    refine (hs.faces_restricted_iff hp hw ho ht hk hclose hinside ?_).2 hwords
    intro w' hmem'
    rwa [List.mem_singleton.1 hmem']

end Scan

/-- Only the item's own module sees it. -/
def Visibility.isOwn : Visibility → Bool
  | priv | selfOnly => true
  | inPath path => path == "self"
  | inherited | pub | crate | super => false

theorem Visibility.isOwn_widen_iff {v : Visibility} :
    (v.widen .sharedModule).isOwn = true ↔ v = .inPath "self" := by
  cases v <;> simp [widen, isOwn]

/-- In the shared module an item is seen there only exactly when it is written with
`pub(in self)`. -/
theorem isOwn_widen_iff_faces {source : Source} {u : Inventory}
    (hu : analyze source = .ok (.ok u)) :
    (∀ f ∈ u.helpers, (f.head.visibility.widen .sharedModule).isOwn = true ↔
      ∃ v, f.head.visibilitySpan = some v ∧
        ((Scan.ofText source.text).inside v).map Token.face = faces "pub(in self)".toList) ∧
      ∀ d ∈ u.declarations, d.kind ≠ .aggregate .impl →
        ((d.head.visibility.widen .sharedModule).isOwn = true ↔
          ∃ v, d.head.visibilitySpan = some v ∧
            ((Scan.ofText source.text).inside v).map Token.face =
              faces "pub(in self)".toList) := by
  have hs := Scan.faithful_ofText source.text
  have hy := yields_of_analyze hu
  constructor
  · intro f hf
    obtain ⟨k, hk⟩ := hy.helpers.each f hf
    obtain ⟨first, hread⟩ := hs.readVisibility_of_head hk.head_eq.1
    rw [Visibility.isOwn_widen_iff]
    exact hread.eq_self_iff hs
  · intro d hd hkind
    obtain ⟨k, -, hk⟩ := hy.declarations.each d hd
    obtain ⟨head, hhead, hat, -⟩ := hk.found
    obtain rfl := Scan.declarationAt_head_eq hat hkind
    obtain ⟨first, hread⟩ := hs.readVisibility_of_head hhead
    rw [Visibility.isOwn_widen_iff]
    exact hread.eq_self_iff hs

def inSelf : Source := .ofString "text" "pub(in self) fn f() {}\n"

theorem analyze_inSelf :
    analyze inSelf = .ok (.ok
      { applets := []
        helpers :=
          [⟨"f", .helper, ⟨0, 22⟩, ⟨0, 0, none, .inPath "self", some ⟨0, 12⟩⟩, ⟨20, 22⟩, true⟩]
        declarations := []
        skipped := [] }) := by
  have hv : (Scan.ofText inSelf.text).survey = .ok
      ⟨[.function
        ⟨"f", .helper, ⟨0, 22⟩, ⟨0, 0, none, .inPath "self", some ⟨0, 12⟩⟩, ⟨20, 22⟩, true⟩],
          []⟩ := by
    refine Scan.survey_eq_ok.2 ⟨by decide +kernel, ?_⟩
    rw [functionSpans_of_pairwise]
    · decide +kernel
    · decide
  exact analyze_of_survey hv rfl

/-- Only the shared module sees it when it has moved there. -/
theorem inSelf_isOwn :
    ∃ v, some (⟨0, 12⟩ : Span) = some v ∧
      ((Scan.ofText inSelf.text).inside v).map Token.face = faces "pub(in self)".toList :=
  ((isOwn_widen_iff_faces analyze_inSelf).1 _ (List.mem_singleton_self _)).1 (by decide +kernel)

/-- So not every item that moves can be used by the applets. -/
theorem not_forall_isOwn_eq_false :
    ¬ ∀ source u, analyze source = .ok (.ok u) →
      (∀ f ∈ u.helpers, (f.head.visibility.widen .sharedModule).isOwn = false) ∧
        ∀ d ∈ u.declarations, d.kind ≠ .aggregate .impl →
          (d.head.visibility.widen .sharedModule).isOwn = false := by
  intro h
  have hown := (h _ _ analyze_inSelf).1 _ (List.mem_singleton_self _)
  revert hown
  decide +kernel

end Unbundle
