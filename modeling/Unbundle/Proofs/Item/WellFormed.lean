import Unbundle.Proofs.Item.Promotion
import Unbundle.Proofs.Token.Tiling

/-! Heads are well formed at every token, whatever groups are open there: they are found without a
request out of range, their offsets are those of tokens and in order, and the item can be moved
however far it reaches. -/
namespace Unbundle
namespace Scan

variable {s : Scan} {i j k : Nat} {t u : Token} {r : Reach} {v : Span}

/-- The text from one token's start to the end of another begins with the first token. -/
theorem Faithful.exists_slice_behind (hs : s.Faithful) (ht : s.token? i = some t)
    (hu : s.token? j = some u) (hij : i ≤ j) :
    ∃ rest, s.slice t.start u.stop = .ok (t.chars ++ rest) := by
  have hpos := hs.start_lt_stop ht
  have hle := hs.stop_le_stop ht hu hij
  obtain ⟨before, inside, after, -, -, -, hin⟩ :=
    Unbundle.exists_slice (hs.boundary_start ht) (hs.boundary_stop hu) (by omega)
  obtain ⟨x, rest, rfl, hx, -⟩ :=
    exists_cut_within hin (hs.boundary_stop ht) (Nat.le_of_lt hpos) hle
  have hfirst := (slice_of_append hin).1
  rw [hx, slice_of_mem_tokenize (hs.mem_tokenize ht)] at hfirst
  cases hfirst
  exact ⟨rest, hin⟩

/-- What a visibility is written with begins with `pub` and ends before the keyword. -/
theorem ReadVisibility.stands (h : s.ReadVisibility k r) (hs : s.Faithful)
    (ht : s.token? k = some t) (hv : r.visibilitySpan = some v) :
    s.StartsAt r.first v.start ∧ v.stop ≤ t.start ∧
      ∃ rest, s.slice v.start v.stop = .ok ("pub".toList ++ rest) := by
  obtain ⟨p, hp, hpub⟩ := h.exists_pub hv
  obtain ⟨c, p', u, hp', hu, hpc, hck, rfl⟩ := h.bounds hv
  obtain rfl : p = p' := Option.some.inj (hp.symm.trans hp')
  obtain ⟨rest, hslice⟩ := hs.exists_slice_behind hp hu hpc
  rw [Token.isWord, Bool.and_eq_true, beq_iff_eq, beq_iff_eq] at hpub
  rw [hpub.2] at hslice
  exact ⟨⟨p, hp, rfl⟩, hs.stop_le_start hu ht hck, rest, hslice⟩

end Scan

/-- What every head keeps to whose keyword is the token `t`. -/
structure Head.WellFormed (s : Scan) (t : Token) (h : Head) : Prop where
  start_le : h.start ≤ h.itemStart
  itemStart_le : h.itemStart ≤ t.start
  starts : ∃ i, s.StartsAt i h.start
  itemStarts : ∃ i, s.StartsAt i h.itemStart
  leading : h.leading = if h.start < h.itemStart then some ⟨h.start, h.itemStart⟩ else none
  visible : h.visibilitySpan.isSome = true ↔ h.visibility ≠ .priv
  visibility : ∀ v, h.visibilitySpan = some v → v.start = h.itemStart ∧ v.stop ≤ t.start ∧
    ∃ rest, s.slice v.start v.stop = .ok ("pub".toList ++ rest)
  /-- However far the item reaches behind its keyword, it can be moved. -/
  moves : ∀ stop, Boundary s.text stop → t.stop ≤ stop →
    ∃ moved, promote s.text ⟨h.start, stop⟩ h = .ok moved

/-- Every token has a head, and it is well formed. -/
theorem exists_wellFormed_head {text : Text} {k : Nat} {t : Token}
    (ht : (Scan.ofText text).token? k = some t) :
    ∃ h, (Scan.ofText text).head k = .ok h ∧ h.WellFormed (Scan.ofText text) t := by
  have hs := Scan.faithful_ofText text
  generalize Scan.ofText text = s at ht hs
  have hk := Scan.lt_size ht
  obtain ⟨r, hr, hfirst⟩ := hs.exists_reach_le (Nat.le_of_lt hk)
  have hfirstSize : r.first < s.size := Nat.lt_of_le_of_lt hfirst hk
  obtain ⟨lead, hl, hlead⟩ := hs.exists_leadFrom_le hfirstSize
  obtain ⟨p, hp⟩ := Scan.exists_token? hfirstSize
  obtain ⟨u, hu⟩ := Scan.exists_token? (Nat.lt_of_le_of_lt hlead hfirstSize)
  have hread := hs.readVisibility hr
  have hstart := hs.start_le_start hu hp hlead
  have hitem := hs.start_le_start hp ht hfirst
  refine ⟨_, hs.head_eq hr hl hu hp hlead, hstart, hitem, ⟨lead, u, hu, rfl⟩, ⟨r.first, p, hp, rfl⟩,
    rfl, hread.isSome_iff, ?_, ?_⟩
  · intro v hv
    obtain ⟨⟨p', hp', hpv⟩, hstop, hpub⟩ := hread.stands hs ht hv
    obtain rfl : p = p' := Option.some.inj (hp.symm.trans hp')
    exact ⟨hpv.symm, hstop, hpub⟩
  · intro stop hb hle
    have htpos := hs.start_lt_stop ht
    obtain ⟨before, inside, after, -, -, -, hin⟩ :=
      exists_slice (hs.boundary_start hu) hb (show u.start ≤ stop by omega)
    refine hread.exists_promote hs ⟨p, hp, rfl⟩ hfirst hstart ?_ hin
    intro i x hx hik
    exact Nat.le_trans (hs.stop_le_stop hx ht hik) hle

def openGroups : Text := "(\x7b /// d\n#[a]\npub(crate) const fn".toList

/-- It begins with its comment, inside the groups. -/
theorem openGroups_head :
    ∃ t h, (Scan.ofText openGroups).token? 12 = some t ∧ t.isWord "fn" = true ∧
      (Scan.ofText openGroups).depth 12 = .ok 2 ∧ (Scan.ofText openGroups).head 12 = .ok h ∧
      h.WellFormed (Scan.ofText openGroups) t := by
  have ht : (Scan.ofText openGroups).token? 12 = some ⟨.ident, 31, "fn".toList, true⟩ := by
    decide +kernel
  obtain ⟨h, hh, hwell⟩ := exists_wellFormed_head ht
  exact ⟨_, h, ht, by decide, by decide +kernel, hh, hwell⟩

end Unbundle
