import Unbundle.Item.Promotion
import Unbundle.Proofs.Item.Visibility

/-! Moving an item to the shared module never fails: its visibility stands where the item proper
begins, and both lie inside the item. -/
namespace Unbundle

theorem offsetWithin_eq {base offset : Nat} (h : base ≤ offset) :
    offsetWithin base offset = .ok (offset - base) :=
  if_pos h

theorem Visibility.widen_eq_self_iff {v : Visibility} :
    v.widen .sharedModule = v ↔ v ≠ .priv ∧ v ≠ .selfOnly := by
  cases v <;> simp [widen]

theorem promote_of_widen_eq {source text : Text} {span : Span} {h : Head}
    (htext : slice source span.start span.stop = .ok text)
    (hv : h.visibility.widen .sharedModule = h.visibility) : promote source span h = .ok text := by
  simp only [promote, htext, Checked.ok_bind, hv, if_true, Checked.pure_eq]

/-- An item without a visibility gets one where the item proper starts. -/
theorem promote_of_priv {source text x y : Text} {span : Span} {h : Head}
    (htext : slice source span.start span.stop = .ok text) (hv : h.visibility = .priv)
    (hspan : h.visibilitySpan = none) (hle : span.start ≤ h.itemStart)
    (hx : textBefore text (h.itemStart - span.start) = .ok x)
    (hy : textFrom text (h.itemStart - span.start) = .ok y) :
    promote source span h = .ok (x ++ "pub ".toList ++ y) := by
  simp only [promote, htext, hv, hspan, offsetWithin_eq hle, hx, hy, Checked.ok_bind,
    Checked.pure_eq]
  rw [List.append_assoc, List.append_assoc]
  rfl

/-- A visibility that is replaced leaves what stands before and behind it. -/
theorem promote_of_selfOnly {source text x y : Text} {span v : Span} {h : Head}
    (htext : slice source span.start span.stop = .ok text) (hv : h.visibility = .selfOnly)
    (hspan : h.visibilitySpan = some v) (hstart : span.start ≤ v.start)
    (hstop : span.start ≤ v.stop)
    (hx : textBefore text (v.start - span.start) = .ok x)
    (hy : textFrom text (v.stop - span.start) = .ok y) :
    promote source span h = .ok (x ++ ("pub".toList ++ y)) := by
  simp only [promote, htext, hv, hspan, offsetWithin_eq hstart, offsetWithin_eq hstop, hx, hy,
    Checked.ok_bind, Checked.pure_eq]
  rw [List.append_assoc]
  rfl

namespace Scan

variable {s : Scan} {blockEnds : Bool} {k lead first stop : Nat} {span : Span} {h : Head}

namespace ItemAt

theorem start_le_itemStart (hat : s.ItemAt blockEnds k span h lead first stop) (hs : s.Faithful) :
    span.start ≤ h.itemStart := by
  obtain ⟨t, ht, hstart⟩ := hat.head.starts
  obtain ⟨u, hu, hitem⟩ := hat.head.itemStarts
  have hle := hs.start_le_start ht hu hat.head.lead_le
  have hspan := hat.start
  omega

/-- Whatever stands before the keyword stands inside the item. -/
theorem stop_le (hat : s.ItemAt blockEnds k span h lead first stop) (hs : s.Faithful) {i : Nat}
    {t : Token} (ht : s.token? i = some t) (hik : i ≤ k) : t.stop ≤ span.stop :=
  hat.ends.stopsBefore.stop_le hs ht (Nat.lt_of_le_of_lt hik hat.lt_stop)

/-- The text of an item, cut where the item proper starts. -/
theorem exists_cut (hat : s.ItemAt blockEnds k span h lead first stop) (hs : s.Faithful)
    {text : Text} (htext : s.slice span.start span.stop = .ok text) :
    ∃ x y, text = x ++ y ∧ span.start + byteLength x = h.itemStart ∧
      textBefore text (h.itemStart - span.start) = .ok x ∧
      textFrom text (h.itemStart - span.start) = .ok y := by
  obtain ⟨t, ht, hitem⟩ := hat.head.itemStarts
  have hpos := hs.start_lt_stop ht
  have hstop := hat.stop_le hs ht hat.head.first_le
  apply exists_cut_within htext
  · rw [← hitem]
    exact hs.boundary_start ht
  · exact hat.start_le_itemStart hs
  · omega

end ItemAt

/-- An item can be moved in every span that starts no later than the item proper and reaches over
the keyword. -/
theorem ReadVisibility.exists_promote {v : Visibility}
    (hread : s.ReadVisibility k ⟨first, v, h.visibilitySpan⟩) (hs : s.Faithful)
    (hitem : s.StartsAt first h.itemStart) (hfirst : first ≤ k) (hstart : span.start ≤ h.itemStart)
    (hstop : ∀ i t, s.token? i = some t → i ≤ k → t.stop ≤ span.stop) {text : Text}
    (htext : s.slice span.start span.stop = .ok text) :
    ∃ moved, promote s.text span h = .ok moved := by
  by_cases hwide : h.visibility.widen .sharedModule = h.visibility
  · exact ⟨text, promote_of_widen_eq htext hwide⟩
  · have htext' : Unbundle.slice s.text span.start span.stop = .ok text := htext
    obtain ⟨p, hp, hpstart⟩ := hitem
    have hppos := hs.start_lt_stop hp
    have hpstop := hstop first p hp hfirst
    simp only [promote, htext', Checked.ok_bind, if_neg hwide]
    cases hv : h.visibilitySpan with
    | none =>
      obtain ⟨x, y, -, -, hx, hy⟩ := exists_cut_within htext (hpstart ▸ hs.boundary_start hp)
        hstart (by omega)
      simp only [offsetWithin_eq hstart, hx, hy, Checked.ok_bind, Checked.pure_eq]
      exact ⟨_, rfl⟩
    | some v =>
      obtain ⟨c, p', t, hp', ht, hfc, hck, rfl⟩ := hread.bounds hv
      obtain rfl : p = p' := Option.some.inj (hp.symm.trans hp')
      have hpt := hs.start_le_start hp ht hfc
      have htpos := hs.start_lt_stop ht
      have htstop := hstop c t ht (Nat.le_of_lt hck)
      have hfrom : span.start ≤ p.start := by omega
      have hto : span.start ≤ t.stop := by omega
      obtain ⟨x, x', -, -, hx, -⟩ := exists_cut_within htext (hs.boundary_start hp) hfrom (by omega)
      obtain ⟨y', y, -, -, -, hy⟩ := exists_cut_within htext (hs.boundary_stop ht) hto htstop
      simp only [offsetWithin_eq hfrom, offsetWithin_eq hto, hx, hy, Checked.ok_bind,
        Checked.pure_eq]
      exact ⟨_, rfl⟩

/-- Every item can be moved. -/
theorem PlacedAt.exists_promote (hat : s.PlacedAt blockEnds k span h lead first stop)
    (hs : s.Faithful) : ∃ text, promote s.text span h = .ok text := by
  obtain ⟨text, htext⟩ := hat.holds.exists_slice hs
  obtain ⟨v, -, hread⟩ := hat.visibility
  exact hread.exists_promote hs hat.head.itemStarts hat.head.first_le (hat.start_le_itemStart hs)
    (fun i t ht hik => hat.stop_le hs ht hik) htext

end Scan
end Unbundle
