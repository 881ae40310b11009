import Unbundle.Proofs.Item.Declaration
import Unbundle.Proofs.Item.Function

/-! The visibility of an item: which tokens it was read from, and that it stands where the item
proper begins. -/
namespace Unbundle

theorem Visibility.restricted_ne_priv (inside : Text) : Visibility.restricted inside ≠ .priv := by
  unfold restricted ofPathWords
  simp only
  split_ifs
  · exact nofun
  · exact nofun
  · exact nofun
  · split
    · split_ifs <;> exact nofun
    · exact nofun

namespace Scan

variable {s : Scan} {i k : Nat} {t : Token} {r : Reach}

/-- What the walk back from the token `i` tells of the visibility: that there is none, or which
tokens from the first one on it was read from. The walk has passed what stands behind a restricted
one. -/
inductive ReadVisibility (s : Scan) (i : Nat) (r : Reach) : Prop
  | bare (hv : r.visibility = .priv) (hspan : r.visibilitySpan = none)
  | pub {t : Token} (ht : s.token? r.first = some t) (hw : t.isWord "pub" = true)
      (hlt : r.first < i) (hv : r.visibility = .pub) (hspan : r.visibilitySpan = some t.span)
  | restricted {c : Nat} {p o t : Token} {inside : Text} (hp : s.token? r.first = some p)
      (hw : p.isWord "pub" = true) (ho : s.token? (r.first + 1) = some o)
      (ht : s.token? c = some t) (hk : t.kind = .closer .paren)
      (hclose : Closes s.kinds (r.first + 1) c) (hlt : c < i)
      (hpassed : ∀ n, c < n → n < i → s.isPassed n = true)
      (hinside : s.slice o.stop t.start = .ok inside) (hv : r.visibility = .restricted inside)
      (hspan : r.visibilitySpan = some ⟨p.start, t.stop⟩)

theorem ReadVisibility.step (h : s.ReadVisibility i r) (hi : s.isPassed i = true) :
    s.ReadVisibility (i + 1) r := by
  cases h with
  | bare hv hspan => exact .bare hv hspan
  | pub ht hw hlt hv hspan => exact .pub ht hw (Nat.lt_succ_of_lt hlt) hv hspan
  | restricted hp hw ho ht hk hclose hlt hpassed hinside hv hspan =>
    refine .restricted hp hw ho ht hk hclose (Nat.lt_succ_of_lt hlt) ?_ hinside hv hspan
    intro n hcn hni
    rcases Nat.eq_or_lt_of_le (Nat.le_of_lt_succ hni) with rfl | hlt
    · exact hi
    · exact hpassed n hcn hlt

/-- A restricted visibility is read from `pub` and the parentheses behind it. -/
theorem Faithful.readVisibility_of_restricted (hs : s.Faithful) (ht : s.token? i = some t)
    (hk : t.kind = .closer .paren) (h : s.restrictedReach? i t = .ok (some r)) :
    s.ReadVisibility (i + 1) r := by
  unfold restrictedReach? at h
  split at h
  · rename_i o hp
    split at h
    · rename_i hw
      obtain ⟨opened, hopened, h⟩ := Checked.bind_eq_ok.1 h
      obtain ⟨p, hpub, h⟩ := Checked.bind_eq_ok.1 h
      obtain ⟨inside, hinside, h⟩ := Checked.bind_eq_ok.1 h
      obtain ⟨span, hspan, h⟩ := Checked.bind_eq_ok.1 h
      cases h
      obtain ⟨-, rfl⟩ := Span.make_eq_ok_iff.1 hspan
      have hpub := token?_of_token hpub
      have hkind : s.kind? i = some (.closer .paren) := by simp [kind?, ht, hk]
      have hword : p.isWord "pub" = true := by simpa [isWord, hpub] using hw
      exact .restricted hpub hword (token?_of_token hopened) ht hk (hs.closes_of_closer hkind hp)
        (Nat.lt_succ_self i) (fun n hin hni => absurd hni (by omega)) hinside rfl rfl
    · cases h
  · cases h

/-- The walk to the visibility tells what it has met. -/
theorem Faithful.readVisibility (hs : s.Faithful) (h : s.reach i = .ok r) :
    s.ReadVisibility i r := by
  induction i with
  | zero =>
    cases h
    exact .bare rfl rfl
  | succ i ih =>
    rw [reach] at h
    obtain ⟨t, ht, h⟩ := Checked.bind_eq_ok.1 h
    have ht := token?_of_token ht
    split at h
    · rename_i hpub
      cases h
      exact .pub ht hpub (Nat.lt_succ_self i) rfl rfl
    · split at h
      · rename_i hqualifier
        exact (ih h).step (isPassed_iff.2 ⟨t, ht, .inl hqualifier⟩)
      · split at h
        · rename_i hstring
          simp only [Bool.and_eq_true, bne_iff_ne] at hstring
          exact (ih h).step
            (isPassed_iff.2 ⟨t, ht, .inr ⟨hstring.1.1, hstring.1.2, hstring.2⟩⟩)
        · split at h
          · rename_i hclose
            obtain ⟨found, hfound, h⟩ := Checked.bind_eq_ok.1 h
            cases found with
            | none =>
              cases h
              exact .bare rfl rfl
            | some found =>
              cases h
              exact hs.readVisibility_of_restricted ht hclose hfound
          · cases h
            exact .bare rfl rfl

/-- A visibility stands between the first token of the item proper and its keyword. -/
theorem ReadVisibility.bounds {v : Span} (h : s.ReadVisibility i r)
    (hv : r.visibilitySpan = some v) :
    ∃ c p t, s.token? r.first = some p ∧ s.token? c = some t ∧ r.first ≤ c ∧ c < i ∧
      v = ⟨p.start, t.stop⟩ := by
  cases h with
  | bare _ hspan =>
    rw [hspan] at hv
    cases hv
  | pub ht hw hlt _ hspan =>
    rw [hspan] at hv
    cases hv
    exact ⟨_, _, _, ht, ht, Nat.le_refl _, hlt, rfl⟩
  | restricted hp hw ho ht _ hclose hlt _ _ _ hspan =>
    rw [hspan] at hv
    cases hv
    exact ⟨_, _, _, hp, ht, Nat.le_of_lt (Nat.lt_of_succ_lt hclose.lt), hlt, rfl⟩

/-- It begins with the word `pub`. -/
theorem ReadVisibility.exists_pub {v : Span} (h : s.ReadVisibility i r)
    (hv : r.visibilitySpan = some v) : ∃ p, s.token? r.first = some p ∧ p.isWord "pub" = true := by
  cases h with
  | bare _ hspan =>
    rw [hspan] at hv
    cases hv
  | pub ht hw => exact ⟨_, ht, hw⟩
  | restricted hp hw => exact ⟨_, hp, hw⟩

/-- Whatever is not private has its visibility written somewhere, and the private has not. -/
theorem ReadVisibility.isSome_iff (h : s.ReadVisibility i r) :
    r.visibilitySpan.isSome = true ↔ r.visibility ≠ .priv := by
  cases h with
  | bare hv hspan => simp [hv, hspan]
  | pub _ _ _ hv hspan => simp [hv, hspan]
  | restricted _ _ _ _ _ _ _ _ _ hv hspan => simp [hv, hspan, Visibility.restricted_ne_priv]

/-- Where an item lies, and what its visibility was read from. An item that takes no visibility may
have one before it all the same. -/
structure PlacedAt (s : Scan) (blockEnds : Bool) (k : Nat) (span : Span) (h : Head)
    (lead first stop : Nat) : Prop extends s.ItemAt blockEnds k span h lead first stop where
  visibility : ∃ v, (h.visibility = v ∨ h.visibility = .inherited) ∧
    s.ReadVisibility k ⟨first, v, h.visibilitySpan⟩

/-- The first token that a head was found with is where the walk to the visibility came to. -/
theorem HeadAt.exists_visibility {h : Head} {lead first : Nat} (hat : s.HeadAt k h lead first)
    (hs : s.Faithful) {v : Visibility} (hh : s.head k = .ok { h with visibility := v }) :
    s.ReadVisibility k ⟨first, v, h.visibilitySpan⟩ := by
  obtain ⟨r, hr, hfirst⟩ := hat.reach
  obtain ⟨r', lead', hr', -, -, -, hv, hspan, -⟩ := head_eq_ok hh
  obtain rfl : r = r' := Except.ok.inj (hr.symm.trans hr')
  have heq : r = ⟨first, v, h.visibilitySpan⟩ := by
    cases r
    simp_all
  have hread := hs.readVisibility hr
  rwa [heq] at hread

theorem IsFunction.exists_placed {f : Function} (hf : s.IsFunction k f) (hs : s.Faithful) :
    ∃ lead first stop, s.PlacedAt true k f.span f.head lead first stop := by
  obtain ⟨lead, first, opened, stop, hat⟩ := hf.exists_functionAt hs
  have hread := hat.head.exists_visibility hs (v := f.head.visibility) hf.head_eq.1
  exact ⟨lead, first, stop, hat.toItemAt, f.head.visibility, .inl rfl, hread⟩

theorem IsDeclaration.exists_placed {functions : List Span} {d : Declaration}
    (hd : s.IsDeclaration functions k d) (hs : s.Faithful) :
    ∃ lead first stop, s.PlacedAt d.kind.endsWithBlock k d.span d.head lead first stop := by
  obtain ⟨lead, first, stop, hat⟩ := hd.exists_itemAt hs
  obtain ⟨head, hhead, hfound, -⟩ := hd.found
  obtain ⟨heq, -⟩ := declarationAt_head hfound
  have hvis := declarationAt_visibility hfound
  rw [heq] at hhead
  exact ⟨lead, first, stop, hat, head.visibility, hvis, hat.head.exists_visibility hs hhead⟩

/-- An item is private only where no visibility was met. -/
theorem PlacedAt.visibilitySpan_of_priv {blockEnds : Bool} {span : Span} {h : Head}
    {lead first stop : Nat} (hat : s.PlacedAt blockEnds k span h lead first stop)
    (hv : h.visibility = .priv) : h.visibilitySpan = none := by
  obtain ⟨v, hor, hread⟩ := hat.visibility
  obtain rfl : Visibility.priv = v := by
    rcases hor with heq | heq
    · exact hv.symm.trans heq
    · rw [hv] at heq
      cases heq
  have hnone := hread.isSome_iff
  simpa using hnone

end Scan
end Unbundle
