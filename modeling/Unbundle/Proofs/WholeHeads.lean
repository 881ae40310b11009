import Unbundle.Proofs.Partition

/-! What the walk back to the start of an item leaves before it. A head is whole when no attribute,
doc comment, visibility or qualifier stands before it with nothing but comments between; this fails
where a comment that is not attached, or a part out of order, has stopped the walk. -/
namespace Unbundle

namespace Scan

def endsAttribute (s : Scan) (i : Nat) : Bool :=
  s.kind? i == some (.closer .bracket) && (s.attributeStart? i).isSome

/-- The closing bracket at `i` belongs to a restricted visibility. -/
def endsRestriction (s : Scan) (i : Nat) : Bool :=
  s.kind? i == some (.closer .paren) &&
    match s.partner? i with
    | some (o + 1) => s.isWord o "pub"
    | _ => false

def endsQualification (s : Scan) (i : Nat) : Bool :=
  s.isWord i "pub" || s.endsRestriction i || (s.token? i).any Token.isQualifier

/-- The token at `p` is the last one before the offset that is no comment. -/
structure LastCodeBefore (s : Scan) (offset p : Nat) (t : Token) : Prop where
  token : s.token? p = some t
  code : t.isComment = false
  stop_le : t.stop ≤ offset
  last : ∀ q x, s.token? q = some x → x.isComment = false → x.stop ≤ offset → q ≤ p

/-- Nothing that belongs to a head stands before the offset with only comments between. -/
structure Whole (s : Scan) (offset : Nat) : Prop where
  code : ∀ p t, s.LastCodeBefore offset p t →
    s.endsAttribute p = false ∧ s.endsQualification p = false
  docs : ∀ i t, s.token? i = some t → t.kind = .comment .outerDoc → t.stop ≤ offset →
    ∃ p x, s.LastCodeBefore offset p x ∧ i < p

/-- The comment at `i` does not belong to what follows it: it documents what it stands in, or it
shares its line with code, or a blank line follows it. -/
def Detached (s : Scan) (i : Nat) (x : Token) : Prop :=
  x.kind = .comment .innerDoc ∨
    (x.kind = .comment .line ∨ x.kind = .comment .block) ∧
      ∃ u, s.token? (i + 1) = some u ∧ s.isAttached x u = .ok false

/-- Something that belongs to the head is cut off from it: by a comment that does not belong to it,
or because it is a visibility or qualifier that stands before the head's own attributes, comments or
visibility. -/
def CutOff (s : Scan) (h : Head) : Prop :=
  ∃ i x, s.token? i = some x ∧ s.StartsAt (i + 1) h.start ∧
    (s.Detached i x ∧ ¬ s.Whole x.start ∨
      s.endsQualification i = true ∧ (h.leading ≠ none ∨ h.visibilitySpan ≠ none))

variable {s : Scan} {i j k o lead offset p : Nat} {t u x : Token} {h : Head} {r : Reach}

/-- A token of a head is no comment. -/
theorem isComment_of_endsQualification (ht : s.token? i = some t)
    (h : s.endsQualification i = true) : t.isComment = false := by
  have hword {w : String} (hw : t.isWord w = true) : t.isComment = false := by
    simp [Token.isComment, Token.kind_of_isWord hw]
  simp only [endsQualification, endsRestriction, Bool.or_eq_true, Bool.and_eq_true, beq_iff_eq,
    isWord, kind?, ht, Option.any_some, Option.map_some, Option.some.injEq] at h
  rcases h with (h | h) | h
  · exact hword h
  · simp [Token.isComment, h.1]
  · obtain ⟨w, -, hw⟩ := Token.exists_isWord_of_isQualifier h
    exact hword hw

theorem Faithful.stop_le_iff (hs : s.Faithful) (hp : s.StartsAt k offset)
    (ht : s.token? i = some t) : t.stop ≤ offset ↔ i < k := by
  obtain ⟨u, hu, rfl⟩ := hp
  constructor
  · intro hle
    have := hs.start_lt_stop ht
    exact (hs.start_lt_start_iff ht hu).1 (by omega)
  · exact hs.stop_le_start ht hu

theorem LastCodeBefore.unique (h : s.LastCodeBefore offset p t) (h' : s.LastCodeBefore offset i u) :
    p = i :=
  Nat.le_antisymm (h'.last p t h.token h.code h.stop_le) (h.last i u h'.token h'.code h'.stop_le)

/-- The token directly before the offset is the last before it. -/
theorem Faithful.lastCodeBefore (hs : s.Faithful) (hx : s.token? i = some x)
    (hstart : s.StartsAt (i + 1) offset) (hcode : x.isComment = false) :
    s.LastCodeBefore offset i x := by
  refine ⟨hx, hcode, (hs.stop_le_iff hstart hx).2 (Nat.lt_succ_self i), ?_⟩
  intro q y hy _ hle
  exact Nat.le_of_lt_succ ((hs.stop_le_iff hstart hy).1 hle)

/-- A comment that is no doc comment does not matter for what stands before it. -/
theorem Faithful.lastCodeBefore_comment_iff (hs : s.Faithful) (hx : s.token? i = some x)
    (hstart : s.StartsAt (i + 1) offset) (hcomment : x.isComment = true) :
    s.LastCodeBefore offset p t ↔ s.LastCodeBefore x.start p t := by
  have hlt {q : Nat} {y : Token} (hy : s.token? q = some y) (hcode : y.isComment = false) :
      y.stop ≤ offset ↔ y.stop ≤ x.start := by
    rw [hs.stop_le_iff hstart hy, hs.stop_le_iff ⟨x, hx, rfl⟩ hy]
    have hne : q ≠ i := by
      rintro rfl
      obtain rfl := Option.some.inj (hx.symm.trans hy)
      simp [hcomment] at hcode
    omega
  constructor
  · intro h
    exact ⟨h.token, h.code, (hlt h.token h.code).1 h.stop_le,
      fun q y hy hc hle => h.last q y hy hc ((hlt hy hc).2 hle)⟩
  · intro h
    exact ⟨h.token, h.code, (hlt h.token h.code).2 h.stop_le,
      fun q y hy hc hle => h.last q y hy hc ((hlt hy hc).1 hle)⟩

theorem Faithful.whole_comment_iff (hs : s.Faithful) (hx : s.token? i = some x)
    (hstart : s.StartsAt (i + 1) offset) (hcomment : x.isComment = true)
    (hdoc : x.kind ≠ .comment .outerDoc) : s.Whole offset ↔ s.Whole x.start := by
  have hlast {p : Nat} {t : Token} :=
    hs.lastCodeBefore_comment_iff (p := p) (t := t) hx hstart hcomment
  constructor
  · intro h
    refine ⟨fun p t hp => h.code p t (hlast.2 hp), ?_⟩
    intro q y hy hk hle
    have := (hs.stop_le_iff ⟨x, hx, rfl⟩ hy).1 hle
    obtain ⟨p, z, hp, hlt⟩ := h.docs q y hy hk ((hs.stop_le_iff hstart hy).2 (by omega))
    exact ⟨p, z, hlast.1 hp, hlt⟩
  · intro h
    refine ⟨fun p t hp => h.code p t (hlast.1 hp), ?_⟩
    intro q y hy hk hle
    have hne : q ≠ i := by
      rintro rfl
      obtain rfl := Option.some.inj (hx.symm.trans hy)
      exact hdoc hk
    have := (hs.stop_le_iff hstart hy).1 hle
    obtain ⟨p, z, hp, hlt⟩ :=
      h.docs q y hy hk ((hs.stop_le_iff ⟨x, hx, rfl⟩ hy).2 (by omega))
    exact ⟨p, z, hlast.2 hp, hlt⟩

/-- Directly behind code, only that code counts. -/
theorem Faithful.whole_code_iff (hs : s.Faithful) (hx : s.token? i = some x)
    (hstart : s.StartsAt (i + 1) offset) (hcode : x.isComment = false) :
    s.Whole offset ↔ s.endsAttribute i = false ∧ s.endsQualification i = false := by
  have hlast := hs.lastCodeBefore hx hstart hcode
  refine ⟨fun h => h.code i x hlast, ?_⟩
  intro h
  constructor
  · intro p t hp
    obtain rfl := hp.unique hlast
    exact h
  · intro q y hy hk hle
    have hne : q ≠ i := by
      rintro rfl
      obtain rfl := Option.some.inj (hx.symm.trans hy)
      simp [Token.isComment, hk] at hcode
    have := (hs.stop_le_iff hstart hy).1 hle
    exact ⟨i, x, hlast, by omega⟩

/-- Before the first token there is nothing. -/
theorem Faithful.whole_zero (hs : s.Faithful) (hstart : s.StartsAt 0 offset) : s.Whole offset := by
  have hnone {q : Nat} {y : Token} (hy : s.token? q = some y) : ¬ y.stop ≤ offset := fun hle =>
    Nat.not_lt_zero q ((hs.stop_le_iff hstart hy).1 hle)
  exact ⟨fun p t hp => absurd hp.stop_le (hnone hp.token),
    fun i t ht _ hle => absurd hle (hnone ht)⟩

/-- The walk over comments and attributes stops where it cannot go on. -/
theorem Faithful.not_leadStep_of_leadFrom (hs : s.Faithful) (hi : i < s.size)
    (h : s.leadFrom i = .ok (j + 1)) : ∀ o, ¬ s.LeadStep j o := by
  induction i using Nat.strongRecOn with
  | ind i ih =>
    cases i with
    | zero =>
      rw [leadFrom] at h
      cases h
    | succ i =>
      by_cases hstep : ∃ o, s.LeadStep i o
      · obtain ⟨o, hstep⟩ := hstep
        have hlt := hstep.lt
        rw [hstep.leadFrom_eq hs] at h
        exact ih o hlt (by omega) h
      · have hstop := hs.leadFrom_of_not_step hi (not_exists.1 hstep)
        rw [hstop] at h
        cases h
        exact not_exists.1 hstep

theorem Faithful.restrictedReach?_eq_none (hs : s.Faithful) (ht : s.token? i = some t)
    (h : s.restrictedReach? i t = .ok none) : s.endsRestriction i = false := by
  unfold endsRestriction
  cases hk : s.kind? i == some (.closer .paren) with
  | false => rfl
  | true =>
    rw [beq_iff_eq] at hk
    have hkind : t.kind = .closer .paren := by simpa [kind?, ht] using hk
    rcases hs.restrictedReach?_cases ht hkind with ⟨-, hout⟩ | ⟨o, v, span, hr, -⟩
    · split
      · rename_i o hp
        simpa using hout o (hs.closes_of_closer hk hp)
      · rfl
    · rw [h] at hr
      cases hr

/-- Where the walk finds no visibility, it stops behind a token that is none and no qualifier. -/
theorem Faithful.endsQualification_of_reach (hs : s.Faithful) (hi : i ≤ s.size)
    (h : s.reach i = .ok r) (hv : r.visibilitySpan = none) (hj : r.first = j + 1) :
    s.endsQualification j = false := by
  induction i with
  | zero =>
    cases h
    cases hj
  | succ i ih =>
    obtain ⟨t, ht⟩ := exists_token? hi
    by_cases hp : s.isPassed i = true
    · rw [reach_of_isPassed hp] at h
      exact ih (by omega) h
    · have hq : t.isQualifier = false := by
        rw [← Bool.not_eq_true]
        exact fun hq => hp (isPassed_iff.2 ⟨t, ht, .inl hq⟩)
      have hstr : (t.isPlainString && i != 0 && s.isWord (i - 1) "extern") = false := by
        rw [← Bool.not_eq_true]
        intro hstr
        simp only [Bool.and_eq_true, bne_iff_ne] at hstr
        exact hp (isPassed_iff.2 ⟨t, ht, .inr ⟨hstr.1.1, hstr.1.2, hstr.2⟩⟩)
      rw [reach, token_eq_ok ht, Checked.ok_bind, hq, hstr] at h
      simp only [Bool.false_eq_true, if_false] at h
      split at h
      · cases h
        cases hv
      · rename_i hpub
        have hrest : r.first = i + 1 ∧ s.endsRestriction i = false := by
          split at h
          · rename_i hclose
            obtain ⟨found, hfound, h⟩ := Checked.bind_eq_ok.1 h
            cases found with
            | none =>
              cases h
              exact ⟨rfl, hs.restrictedReach?_eq_none ht hfound⟩
            | some found =>
              cases h
              rcases hs.restrictedReach?_cases ht hclose with ⟨hr, -⟩ | ⟨o, v, span, hr, -⟩
              · rw [hfound] at hr
                cases hr
              · rw [hfound] at hr
                cases hr
                cases hv
          · rename_i hclose
            cases h
            exact ⟨rfl, by simp [endsRestriction, kind?, ht, hclose]⟩
        obtain rfl : i = j := by omega
        simp [endsQualification, isWord, ht, hpub, hrest.2, hq]

/-- The token directly before a head closes no attribute; a comment there is detached; and it is no
visibility or qualifier, if the head has no visibility and no comments or attributes of its own. -/
theorem Faithful.before_head (hs : s.Faithful) (hk : k < s.size) (hh : s.head k = .ok h)
    (hx : s.token? i = some x) (hstart : s.StartsAt (i + 1) h.start) :
    s.endsAttribute i = false ∧ (x.isComment = true → s.Detached i x) ∧
      (h.leading = none → h.visibilitySpan = none → s.endsQualification i = false) := by
  obtain ⟨r, lead, hr, hl, hlead, hitem, -, hvis, hleading⟩ := head_eq_ok hh
  have hfirst := hs.reach_le (Nat.le_of_lt hk) hr
  have hle := hs.leadFrom_le (by omega) hl
  obtain rfl : lead = i + 1 := by
    have h₁ := hlead.lt_iff hstart hs
    have h₂ := hstart.lt_iff hlead hs
    omega
  have hstop := hs.not_leadStep_of_leadFrom (by omega) hl
  obtain ⟨u, hu, -⟩ := id hlead
  refine ⟨?_, ?_, ?_⟩
  · rw [← Bool.not_eq_true]
    intro hattr
    simp only [endsAttribute, Bool.and_eq_true, beq_iff_eq, Option.isSome_iff_exists] at hattr
    obtain ⟨hkind, o, ho⟩ := hattr
    obtain ⟨hp, hhash⟩ := attributeStart?_eq_some ho
    exact hstop o (.attr hkind (hs.closes_of_closer hkind hp) hhash)
  · intro hcomment
    have hplain (hkind : x.kind = .comment .line ∨ x.kind = .comment .block) : s.Detached i x := by
      obtain ⟨b, hb⟩ := hs.exists_isAttached hx hu (Nat.lt_succ_self i)
      cases b with
      | true => exact absurd (.comment hx hkind hu hb) (hstop i)
      | false => exact .inr ⟨hkind, u, hu, hb⟩
    cases hkind : x.kind with
    | comment kind =>
      cases kind with
      | line => exact hplain (.inl hkind)
      | block => exact hplain (.inr hkind)
      | outerDoc => exact absurd (.doc hx hkind) (hstop i)
      | innerDoc => exact .inl hkind
    | _ => simp [Token.isComment, hkind] at hcomment
  · intro hnone hv
    have hlt := hlead.lt_iff hitem hs
    have := hleading hnone
    exact hs.endsQualification_of_reach (Nat.le_of_lt hk) hr (hvis ▸ hv) (by omega)

theorem Detached.isComment (hd : s.Detached i x) : x.isComment = true := by
  rcases hd with hk | ⟨hk | hk, -⟩ <;> simp [Token.isComment, hk]

theorem Detached.ne_outerDoc (hd : s.Detached i x) : x.kind ≠ .comment .outerDoc := by
  rcases hd with hk | ⟨hk | hk, -⟩ <;> simp [hk]

/-- A head leaves something behind exactly when it is cut off. -/
theorem Faithful.not_whole_head_iff (hs : s.Faithful) (hk : k < s.size) (hh : s.head k = .ok h) :
    ¬ s.Whole h.start ↔ s.CutOff h := by
  constructor
  · intro hnot
    obtain ⟨r, lead, -, -, hlead, -⟩ := head_eq_ok hh
    cases lead with
    | zero => exact absurd (hs.whole_zero hlead) hnot
    | succ i =>
      obtain ⟨x, hx⟩ : ∃ x, s.token? i = some x := by
        obtain ⟨y, hy, -⟩ := hlead
        exact exists_token? (Nat.lt_of_succ_lt (lt_size hy))
      obtain ⟨hattr, hdetached, hqual⟩ := hs.before_head hk hh hx hlead
      refine ⟨i, x, hx, hlead, ?_⟩
      cases hc : x.isComment with
      | true =>
        have hd := hdetached hc
        exact .inl ⟨hd, fun hw => hnot ((hs.whole_comment_iff hx hlead hc hd.ne_outerDoc).2 hw)⟩
      | false =>
        rw [hs.whole_code_iff hx hlead hc] at hnot
        simp only [hattr, true_and, Bool.not_eq_false] at hnot
        refine .inr ⟨hnot, ?_⟩
        by_contra hnone
        simp only [not_or, not_not] at hnone
        rw [hqual hnone.1 hnone.2] at hnot
        cases hnot
  · rintro ⟨i, x, hx, hstart, ⟨hd, hnot⟩ | ⟨hq, -⟩⟩ hw
    · exact hnot ((hs.whole_comment_iff hx hstart hd.isComment hd.ne_outerDoc).1 hw)
    · have hcode := isComment_of_endsQualification hx hq
      rw [((hs.whole_code_iff hx hstart hcode).1 hw).2] at hq
      cases hq

end Scan

namespace Inventory

def items (u : Inventory) : List (Span × Head) :=
  (u.applets ++ u.helpers).map (fun f => (f.span, f.head)) ++
    u.declarations.map (fun d => (d.span, d.head))

end Inventory

/-- Every kept item starts with the head that the walk back from its keyword found. -/
theorem Scan.Yields.exists_head {s : Scan} {u : Inventory} (hy : s.Yields u) (hs : s.Faithful)
    {r : Span × Head} (hr : r ∈ u.items) :
    ∃ k v, k < s.size ∧ s.head k = .ok { r.2 with visibility := v } ∧ r.1.start = r.2.start := by
  rcases List.mem_append.1 hr with hr | hr
  · obtain ⟨f, hf, rfl⟩ := List.mem_map.1 hr
    obtain ⟨k, hk⟩ := hy.exists_isFunction hf
    exact ⟨k, f.head.visibility, hk.lt_size hs, hk.head_eq⟩
  · obtain ⟨d, hd, rfl⟩ := List.mem_map.1 hr
    obtain ⟨k, -, hk⟩ := hy.declarations.each d hd
    obtain ⟨t, ht, -⟩ := Option.map_eq_some_iff.1 hk.kind
    obtain ⟨head, hhead, hat, -⟩ := hk.found
    obtain ⟨heq, hstart⟩ := declarationAt_head hat
    exact ⟨k, head.visibility, lt_size ht, heq ▸ hhead, hstart⟩

/-- An item leaves part of its head behind exactly when that part is cut off from it. -/
theorem not_whole_iff_cutOff {source : Source} {u : Inventory} (hu : analyze source = .ok (.ok u))
    {r : Span × Head} (hr : r ∈ u.items) :
    ¬ (Scan.ofText source.text).Whole r.1.start ↔ (Scan.ofText source.text).CutOff r.2 := by
  have hs := Scan.faithful_ofText source.text
  obtain ⟨k, v, hk, hhead, hstart⟩ := (yields_of_analyze hu).exists_head hs hr
  rw [hstart]
  have hiff := hs.not_whole_head_iff hk hhead
  exact hiff

def remarkedAttribute : Source := .ofString "text" "#[inline] // hot\nfn f() {}\n"

theorem analyze_remarkedAttribute :
    analyze remarkedAttribute = .ok (.ok
      { applets := []
        helpers := [⟨"f", .helper, ⟨17, 26⟩, ⟨17, 17, none, .priv, none⟩, ⟨24, 26⟩, true⟩]
        declarations := []
        skipped := [] }) := by
  have hv : (Scan.ofText remarkedAttribute.text).survey = .ok
      ⟨[.function ⟨"f", .helper, ⟨17, 26⟩, ⟨17, 17, none, .priv, none⟩, ⟨24, 26⟩, true⟩], []⟩ := by
    refine Scan.survey_eq_ok.2 ⟨by decide +kernel, ?_⟩
    rw [functionSpans_of_pairwise]
    · decide +kernel
    · decide
  exact analyze_of_survey hv rfl

/-- The attribute is left behind. -/
theorem not_whole_remarkedAttribute : ¬ (Scan.ofText remarkedAttribute.text).Whole 17 := by
  have hs := Scan.faithful_ofText remarkedAttribute.text
  have hcomment : (Scan.ofText remarkedAttribute.text).token? 4 =
      some ⟨.comment .line, 10, "// hot".toList, true⟩ := by decide +kernel
  have hclose : (Scan.ofText remarkedAttribute.text).token? 3 =
      some ⟨.closer .bracket, 8, [']'], true⟩ := by decide +kernel
  have hfn : (Scan.ofText remarkedAttribute.text).StartsAt 5 17 :=
    ⟨⟨.ident, 17, ['f', 'n'], true⟩, by decide +kernel, rfl⟩
  rw [hs.whole_comment_iff hcomment hfn rfl (by decide),
    hs.whole_code_iff hclose ⟨_, hcomment, rfl⟩ rfl]
  rintro ⟨hattr, -⟩
  revert hattr
  decide +kernel

theorem remarkedAttribute_cutOff :
    (Scan.ofText remarkedAttribute.text).CutOff ⟨17, 17, none, .priv, none⟩ :=
  (not_whole_iff_cutOff analyze_remarkedAttribute (List.mem_singleton_self _)).1
    not_whole_remarkedAttribute

/-- So part of an item's head may be left behind. -/
theorem not_forall_whole :
    ¬ ∀ source u, analyze source = .ok (.ok u) → ∀ r ∈ u.items,
      (Scan.ofText source.text).Whole r.1.start := fun h =>
  not_whole_remarkedAttribute (h _ _ analyze_remarkedAttribute _ (List.mem_singleton_self _))

end Unbundle
