import Mathlib.Data.List.Induction
import Unbundle.Proofs.Manifest.Names

/-! Applets that have one name, and names that go to one module. A repeated name is reported with
the first function that bears it. -/
namespace Unbundle

section Names

variable {a b substitute : String} {kind kind' : TokenKind}

theorem bareName?_eq_some {x : String} : bareName? a = some x ↔ a = "r#" ++ x := by
  unfold bareName?
  constructor
  · intro h
    split at h
    · rename_i cs hcs
      cases h
      apply String.toList_injective
      simp [hcs]
    · cases h
  · rintro rfl
    have hlist : ("r#" ++ x).toList = 'r' :: '#' :: x.toList := by simp
    simp [hlist]

/-- The names are of one word: raw in the first, with the substitute for `r#` in the second. -/
def Twins (substitute a b : String) : Prop := ∃ x, a = "r#" ++ x ∧ b = substitute ++ x

/-- The word of a raw name holds no hash. -/
theorem Spells.hash_notMem {x : String} (h : Spells kind ("r#" ++ x).toList) : '#' ∉ x.toList := by
  have hhash : isIdentContinue '#' = false := by decide +kernel
  have hlist : ("r#" ++ x).toList = 'r' :: '#' :: x.toList := by simp
  rw [hlist] at h
  generalize hw : 'r' :: '#' :: x.toList = w at h
  cases h with
  | word hall =>
    have hnot := notMem_of_isIdentifier hhash hall
    rw [← hw] at hnot
    simp at hnot
  | raw hall =>
    cases hw
    exact notMem_of_isIdentifier hhash hall

/-- The second of two twins is not raw. -/
theorem Twins.bareName?_eq_none (h : Twins substitute a b) (hsub : '#' ∉ substitute.toList)
    (ha : Spells kind a.toList) : bareName? b = none := by
  obtain ⟨x, rfl, rfl⟩ := h
  have hx := ha.hash_notMem
  cases hb : bareName? (substitute ++ x) with
  | none => rfl
  | some y =>
    have heq := congrArg String.toList (bareName?_eq_some.1 hb)
    have hmem : '#' ∈ (substitute ++ x).toList := by
      rw [heq]
      simp
    rw [String.toList_append, List.mem_append] at hmem
    exact absurd hmem (not_or.2 ⟨hsub, hx⟩)

theorem Twins.moduleName_eq (h : Twins substitute a b) (hsub : '#' ∉ substitute.toList)
    (ha : Spells kind a.toList) : moduleName a substitute = moduleName b substitute := by
  have hb := h.bareName?_eq_none hsub ha
  obtain ⟨x, rfl, rfl⟩ := h
  simp only [moduleName, hb, bareName?_eq_some.2 rfl]

theorem Twins.ne (h : Twins substitute a b) (hsub : '#' ∉ substitute.toList)
    (ha : Spells kind a.toList) : a ≠ b := by
  rintro rfl
  have hnone := h.bareName?_eq_none hsub ha
  obtain ⟨x, hx, -⟩ := h
  rw [bareName?_eq_some.2 hx] at hnone
  cases hnone

/-- Different names go to different modules, but for twins. -/
theorem twins_of_moduleName_eq (hne : a ≠ b)
    (h : moduleName a substitute = moduleName b substitute) :
    Twins substitute a b ∨ Twins substitute b a := by
  unfold moduleName at h
  cases ha : bareName? a with
  | none =>
    cases hb : bareName? b with
    | none =>
      simp only [ha, hb] at h
      exact absurd h hne
    | some y =>
      simp only [ha, hb] at h
      exact .inr ⟨y, bareName?_eq_some.1 hb, h⟩
  | some x =>
    cases hb : bareName? b with
    | none =>
      simp only [ha, hb] at h
      exact .inl ⟨x, bareName?_eq_some.1 ha, h.symm⟩
    | some y =>
      simp only [ha, hb] at h
      have hxy : x = y := (String.append_right_inj substitute).1 h
      subst hxy
      exact absurd ((bareName?_eq_some.1 ha).trans (bareName?_eq_some.1 hb).symm) hne

end Names

section Repeats

variable {fs before mid : List Function} {f g : Function} {text : Text}

/-- The function `g` is the first whose name an earlier one bears, and `f` is that one. -/
def FirstRepeat (fs : List Function) (f g : Function) : Prop :=
  ∃ before between after, fs = before ++ f :: (between ++ g :: after) ∧ f.name = g.name ∧
    ((before ++ f :: between).map Function.name).Nodup

def seenOf (fs : List Function) : List (String × Nat) :=
  (fs.map fun f => (f.name, f.head.itemStart)).reverse

theorem lookup_seenOf_eq_none (h : ∀ f ∈ fs, f.name ≠ g.name) :
    (seenOf fs).lookup g.name = none := by
  apply List.lookup_eq_none_iff.2
  intro p hp
  obtain ⟨f, hf, rfl⟩ := List.mem_map.1 (List.mem_reverse.1 hp)
  exact bne_iff_ne.2 (h f hf).symm

theorem firstDuplicate?_append (before : List Function)
    (h : ((before ++ mid).map Function.name).Nodup) :
    firstDuplicate? (seenOf before) (mid ++ fs) = firstDuplicate? (seenOf (before ++ mid)) fs := by
  induction mid generalizing before with
  | nil => rw [List.append_nil, List.nil_append]
  | cons f mid ih =>
    have hfresh : ∀ g ∈ before, g.name ≠ f.name := by
      intro g hg
      rw [List.map_append, List.nodup_append] at h
      exact h.2.2 _ (List.mem_map_of_mem hg) _ (List.mem_map_of_mem List.mem_cons_self)
    rw [List.append_cons] at h ⊢
    rw [← ih (before ++ [f]) h, List.cons_append, firstDuplicate?, lookup_seenOf_eq_none hfresh]
    simp [seenOf]

/-- Functions with different names are passed over. -/
theorem firstDuplicate?_behind (h : (before.map Function.name).Nodup) :
    firstDuplicate? [] (before ++ fs) = firstDuplicate? (seenOf before) fs :=
  firstDuplicate?_append [] h

theorem firstDuplicate?_of_nodup (h : (fs.map Function.name).Nodup) :
    firstDuplicate? [] fs = none := by
  rw [← List.append_nil fs, firstDuplicate?_behind h, firstDuplicate?]

theorem FirstRepeat.firstDuplicate?_eq (h : FirstRepeat fs f g) :
    firstDuplicate? [] fs = some (g, f.head.itemStart) := by
  obtain ⟨before, between, after, rfl, hname, hnodup⟩ := h
  have hlater : ∀ h ∈ between, h.name ≠ g.name := by
    intro h hh heq
    rw [List.map_append, List.map_cons] at hnodup
    apply (List.nodup_cons.1 hnodup.of_append_right).1
    rw [hname, ← heq]
    exact List.mem_map_of_mem hh
  have hlookup : (seenOf (before ++ f :: between)).lookup g.name = some f.head.itemStart := by
    have hseen : seenOf (before ++ f :: between) =
        seenOf between ++ (g.name, f.head.itemStart) :: seenOf before := by
      simp [seenOf, hname]
    rw [hseen, List.lookup_append, lookup_seenOf_eq_none hlater]
    simp
  rw [← List.cons_append, ← List.append_assoc, firstDuplicate?_behind hnodup, firstDuplicate?,
    hlookup]

/-- Either all names are different, or there is a first one that repeats another. -/
theorem nodup_or_firstRepeat (fs : List Function) :
    (fs.map Function.name).Nodup ∨ ∃ f g, FirstRepeat fs f g := by
  induction fs using List.reverseRecOn with
  | nil => exact .inl .nil
  | append_singleton fs g ih =>
    rcases ih with hnodup | ⟨f, h, before, between, after, rfl, hname, hnodup⟩
    · by_cases hmem : g.name ∈ fs.map Function.name
      · obtain ⟨f, hf, hname⟩ := List.mem_map.1 hmem
        obtain ⟨before, between, rfl⟩ := List.append_of_mem hf
        exact .inr ⟨f, g, before, between, [], by simp, hname, hnodup⟩
      · left
        rw [List.map_append, List.nodup_append]
        refine ⟨hnodup, by simp, ?_⟩
        intro x hx y hy hxy
        rw [List.map_singleton, List.mem_singleton] at hy
        exact hmem (hy ▸ hxy ▸ hx)
    · exact .inr ⟨f, h, before, between, after ++ [g], by simp, hname, hnodup⟩

theorem FirstRepeat.not_nodup (h : FirstRepeat fs f g) : ¬ (fs.map Function.name).Nodup := by
  intro hnodup
  have hnone := firstDuplicate?_of_nodup hnodup
  rw [h.firstDuplicate?_eq] at hnone
  cases hnone

theorem FirstRepeat.checkNames_eq (h : FirstRepeat fs f g) (text : Text) :
    checkNames text fs = .error
      (.duplicateApplet g.name (lineOf text f.head.itemStart) (lineOf text g.head.itemStart)) := by
  rw [checkNames, h.firstDuplicate?_eq]

theorem checkNames_of_nodup (h : (fs.map Function.name).Nodup) (text : Text) :
    checkNames text fs = .ok () := by
  rw [checkNames, firstDuplicate?_of_nodup h]

end Repeats

end Unbundle
