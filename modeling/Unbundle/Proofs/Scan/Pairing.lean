import Mathlib.Data.Nat.Init
import Unbundle.Scan.Pairing

/-! The groups that are open before each token. Brackets are paired by a stack; every entry of the
stack tells the state in which it was pushed, and from this follow the laws of pairs and depths. -/
namespace Unbundle

variable {ks : List TokenKind} {a b i j m n : Nat} {d e : Delimiter} {below opened : OpenGroups}

/-- The open groups after the token of kind `k` at index `i`. -/
def openedAfter (i : Nat) (k : TokenKind) (opened : OpenGroups) : OpenGroups :=
  match k with
  | .opener d => (i, d) :: opened
  | .closer d =>
    match closeGroup d opened with
    | some (_, below) => below
    | none => opened
  | _ => opened

/-- The open groups before the token at index `n`. -/
def openBefore (ks : List TokenKind) : Nat → OpenGroups
  | 0 => []
  | n + 1 =>
    match ks[n]? with
    | some k => openedAfter n k (openBefore ks n)
    | none => openBefore ks n

theorem openBefore_succ {k : TokenKind} (hk : ks[n]? = some k) :
    openBefore ks (n + 1) = openedAfter n k (openBefore ks n) := by
  simp [openBefore, hk]

theorem suffix_of_closeGroup (h : closeGroup d opened = some (a, below)) :
    (a, d) :: below <:+ opened := by
  induction opened with
  | nil => simp [closeGroup] at h
  | cons top rest ih =>
    obtain ⟨i, e⟩ := top
    simp only [closeGroup] at h
    split at h
    · rename_i he
      simp_all
    · exact (ih h).trans (List.suffix_cons _ _)

/-- A token pushes one group, or it closes some of those that are open. -/
theorem openedAfter_cases (i : Nat) (k : TokenKind) (opened : OpenGroups) :
    (∃ d, k = .opener d ∧ openedAfter i k opened = (i, d) :: opened) ∨
      openedAfter i k opened <:+ opened := by
  unfold openedAfter
  split
  · exact Or.inl ⟨_, rfl, rfl⟩
  · split
    · rename_i h
      exact Or.inr ((List.suffix_cons _ _).trans (suffix_of_closeGroup h))
    · exact Or.inr List.suffix_rfl
  · exact Or.inr List.suffix_rfl

/-- An open group was pushed on the groups below it and has been open ever since. -/
theorem openBefore_entry (h : (a, d) :: below <:+ openBefore ks n) :
    a < n ∧ ks[a]? = some (.opener d) ∧ openBefore ks a = below ∧
      ∀ m, a < m → m ≤ n → (a, d) :: below <:+ openBefore ks m := by
  induction n with
  | zero => simp [openBefore] at h
  | succ n ih =>
    have keep (hn : (a, d) :: below <:+ openBefore ks n) :
        a < n + 1 ∧ ks[a]? = some (.opener d) ∧ openBefore ks a = below ∧
          ∀ m, a < m → m ≤ n + 1 → (a, d) :: below <:+ openBefore ks m := by
      obtain ⟨han, hk, hb, hm⟩ := ih hn
      refine ⟨by omega, hk, hb, ?_⟩
      intro m ham hmn
      rcases Nat.lt_or_ge n m with hlt | hle
      · have : m = n + 1 := by omega
        subst this
        exact h
      · exact hm m ham hle
    cases hk : ks[n]? with
    | none =>
      have hs : openBefore ks (n + 1) = openBefore ks n := by simp [openBefore, hk]
      exact keep (hs ▸ h)
    | some k =>
      have hs := openBefore_succ hk
      rcases openedAfter_cases n k (openBefore ks n) with ⟨e, rfl, he⟩ | hsuf
      · rw [hs, he, List.suffix_cons_iff] at h
        rcases h with heq | hn
        · obtain ⟨hp, rfl⟩ := List.cons.inj heq
          obtain ⟨rfl, rfl⟩ := Prod.mk.inj hp
          refine ⟨by omega, hk, rfl, ?_⟩
          intro m ham hmn
          have : m = a + 1 := by omega
          subst this
          exact ⟨[], by rw [hs, he, List.nil_append]⟩
        · exact keep hn
      · exact keep ((hs ▸ h).trans hsuf)

/-- The token at `b` closes the group that the token at `a` opened. -/
def Closes (ks : List TokenKind) (a b : Nat) : Prop :=
  ∃ d below, ks[b]? = some (.closer d) ∧ closeGroup d (openBefore ks b) = some (a, below)

/-- What a pair of brackets is: the same groups are open before the one and after the other, and
between them the group itself is open. -/
theorem Closes.spec (h : Closes ks a b) :
    ∃ d, a < b ∧ ks[a]? = some (.opener d) ∧ ks[b]? = some (.closer d) ∧
      openBefore ks (b + 1) = openBefore ks a ∧
      ∀ m, a < m → m ≤ b → (a, d) :: openBefore ks a <:+ openBefore ks m := by
  obtain ⟨d, below, hb, hc⟩ := h
  obtain ⟨hab, ha, rfl, hm⟩ := openBefore_entry (suffix_of_closeGroup hc)
  refine ⟨d, hab, ha, hb, ?_, hm⟩
  rw [openBefore_succ hb]
  simp [openedAfter, hc]

theorem Closes.lt (h : Closes ks a b) : a < b := by
  obtain ⟨d, hab, -⟩ := h.spec
  exact hab

/-- More groups are open inside a pair than around it. -/
theorem Closes.length_lt (h : Closes ks a b) (ham : a < m) (hmb : m ≤ b) :
    (openBefore ks a).length < (openBefore ks m).length := by
  obtain ⟨d, -, -, -, -, hm⟩ := h.spec
  have := (hm m ham hmb).length_le
  rw [List.length_cons] at this
  omega

theorem Closes.right_unique (h : Closes ks a b) (h' : Closes ks a j) : b = j := by
  obtain ⟨d, hab, -, -, hb, -⟩ := h.spec
  obtain ⟨e, haj, -, -, hj, -⟩ := h'.spec
  rcases Nat.lt_trichotomy b j with hlt | heq | hlt
  · have := h'.length_lt (m := b + 1) (by omega) hlt
    rw [hb] at this
    omega
  · exact heq
  · have := h.length_lt (m := j + 1) (by omega) hlt
    rw [hj] at this
    omega

theorem Closes.left_unique (h : Closes ks a b) (h' : Closes ks i b) : a = i := by
  obtain ⟨d, below, hb, hc⟩ := h
  obtain ⟨e, below', hb', hc'⟩ := h'
  rw [hb] at hb'
  cases hb'
  rw [hc] at hc'
  cases hc'
  rfl

/-- An opening bracket is not a closing one, so no token is in two pairs. -/
theorem Closes.not_both (h : Closes ks a b) : ¬ Closes ks b j := by
  intro h'
  obtain ⟨d, -, -, hb, -⟩ := h.spec
  obtain ⟨e, -, hb', -⟩ := h'.spec
  simp [hb] at hb'

/-- How many groups enclose a token of kind `k` at index `i`. -/
def groupsAround (i : Nat) (k : TokenKind) (opened : OpenGroups) : Nat :=
  match k with
  | .closer _ => (openedAfter i k opened).length
  | _ => opened.length

/-- How many groups enclose the token at index `n`. -/
def depthAt (ks : List TokenKind) (n : Nat) : Nat :=
  match ks[n]? with
  | some k => groupsAround n k (openBefore ks n)
  | none => (openBefore ks n).length

theorem depthAt_closer (h : ks[n]? = some (.closer d)) :
    depthAt ks n = (openBefore ks (n + 1)).length := by
  rw [openBefore_succ h]
  simp [depthAt, groupsAround, h]

theorem depthAt_of_ne (h : ∀ d, ks[n]? ≠ some (.closer d)) :
    depthAt ks n = (openBefore ks n).length := by
  unfold depthAt groupsAround
  split
  · split
    · rename_i d hk
      exact absurd hk (h d)
    · rfl
  · rfl

/-- A token is nowhere deeper than what is open before it. -/
theorem depthAt_le (ks : List TokenKind) (n : Nat) : depthAt ks n ≤ (openBefore ks n).length := by
  cases hk : ks[n]? with
  | none => exact Nat.le_of_eq (depthAt_of_ne (by simp [hk]))
  | some k =>
    rcases openedAfter_cases n k (openBefore ks n) with ⟨d, rfl, -⟩ | hs
    · exact Nat.le_of_eq (depthAt_of_ne (by simp [hk]))
    · by_cases hc : ∃ d, k = .closer d
      · obtain ⟨d, rfl⟩ := hc
        rw [depthAt_closer hk, openBefore_succ hk]
        exact hs.length_le
      · exact Nat.le_of_eq (depthAt_of_ne (by grind))

/-- Every token inside a pair is deeper than the pair, whose ends are equally deep. -/
theorem Closes.depthAt_lt (h : Closes ks a b) (ham : a < m) (hmb : m < b) :
    depthAt ks a < depthAt ks m := by
  obtain ⟨d, -, ha, -⟩ := h.spec
  rw [depthAt_of_ne (n := a) (by simp [ha])]
  by_cases hc : ∃ e, ks[m]? = some (.closer e)
  · obtain ⟨e, he⟩ := hc
    rw [depthAt_closer he]
    exact h.length_lt (by omega) (by omega)
  · rw [depthAt_of_ne (by simpa using hc)]
    exact h.length_lt ham (by omega)

theorem Closes.depthAt_eq (h : Closes ks a b) : depthAt ks a = depthAt ks b := by
  obtain ⟨d, -, ha, hb, heq, -⟩ := h.spec
  rw [depthAt_of_ne (n := a) (by simp [ha]), depthAt_closer hb, heq]

/-- A group that opens outside all others and is never closed stays open to the end. -/
theorem openBefore_of_unclosed (ha : ks[a]? = some (.opener d)) (hb : openBefore ks a = [])
    (hn : ∀ b, ¬ Closes ks a b) (ham : a < m) : [(a, d)] <:+ openBefore ks m := by
  induction m, ham using Nat.le_induction with
  | base =>
    rw [openBefore_succ ha, hb]
    simp [openedAfter]
  | succ m ham ih =>
    cases hk : ks[m]? with
    | none => simpa [openBefore, hk] using ih
    | some k =>
      rw [openBefore_succ hk]
      unfold openedAfter
      split
      · exact ih.trans (List.suffix_cons _ _)
      · split
        · rename_i e i below hc
          rcases List.suffix_or_suffix_of_suffix ih (suffix_of_closeGroup hc) with hs | hs
          · rcases List.suffix_cons_iff.1 hs with heq | hs
            · simp only [List.cons.injEq, Prod.mk.injEq] at heq
              obtain ⟨⟨rfl, rfl⟩, rfl⟩ := heq
              exact absurd ⟨_, _, hk, hc⟩ (hn m)
            · exact hs
          · have hl := hs.length_le
            have := hs.eq_of_length_le (by simp)
            simp only [List.cons.injEq, Prod.mk.injEq] at this
            obtain ⟨⟨rfl, rfl⟩, rfl⟩ := this
            exact absurd ⟨_, _, hk, hc⟩ (hn m)
        · exact ih
      · exact ih

namespace Pairing

theorem depths_ofKinds_cons (opened : OpenGroups) (i : Nat) (k : TokenKind) (ks : List TokenKind) :
    (ofKinds opened i (k :: ks)).depths =
      groupsAround i k opened :: (ofKinds (openedAfter i k opened) (i + 1) ks).depths := by
  cases k with
  | closer d =>
    cases hc : closeGroup d opened with
    | none => simp [ofKinds, openedAfter, groupsAround, atDepth, hc]
    | some p => simp [ofKinds, openedAfter, groupsAround, atDepth, withPair, hc]
  | _ => simp [ofKinds, openedAfter, groupsAround, atDepth]

theorem mem_pairs_ofKinds_cons {opened : OpenGroups} {i : Nat} {k : TokenKind}
    {ks : List TokenKind} {a b : Nat} :
    (a, b) ∈ (ofKinds opened i (k :: ks)).pairs ↔
      (b = i ∧ ∃ d below, k = .closer d ∧ closeGroup d opened = some (a, below)) ∨
        (a, b) ∈ (ofKinds (openedAfter i k opened) (i + 1) ks).pairs := by
  cases k with
  | closer d =>
    simp only [ofKinds, openedAfter]
    split
    · rename_i j below hc
      simp [withPair, atDepth, hc, and_comm, eq_comm]
    · rename_i hc
      simp [atDepth, hc]
  | _ => simp [ofKinds, openedAfter, atDepth]

theorem depths_ofKinds_append (before after : List TokenKind) :
    (ofKinds (openBefore (before ++ after) before.length) before.length after).depths =
      (List.range after.length).map fun n => depthAt (before ++ after) (before.length + n) := by
  induction after generalizing before with
  | nil => rfl
  | cons k after ih =>
    have hk : (before ++ k :: after)[before.length]? = some k := by simp
    have hrest := ih (before ++ [k])
    simp only [List.append_assoc, List.singleton_append, List.length_append, List.length_singleton]
      at hrest
    rw [depths_ofKinds_cons, ← openBefore_succ hk, hrest, List.length_cons,
      List.range_succ_eq_map, List.map_cons, List.map_map]
    congr 1
    · simp [depthAt]
    · apply List.map_congr_left
      intro n _
      simp only [Function.comp_apply]
      congr 1
      omega

theorem mem_pairs_ofKinds_append {before after : List TokenKind} {a b : Nat} :
    (a, b) ∈ (ofKinds (openBefore (before ++ after) before.length) before.length after).pairs ↔
      before.length ≤ b ∧ Closes (before ++ after) a b := by
  induction after generalizing before with
  | nil =>
    constructor
    · simp [ofKinds]
    · rintro ⟨hb, d, below, hk, -⟩
      simp [List.getElem?_eq_none hb] at hk
  | cons k after ih =>
    have hk : (before ++ k :: after)[before.length]? = some k := by simp
    have hrest := @ih (before ++ [k])
    simp only [List.append_assoc, List.singleton_append, List.length_append, List.length_singleton]
      at hrest
    rw [mem_pairs_ofKinds_cons, ← openBefore_succ hk, hrest]
    constructor
    · rintro (⟨rfl, d, below, rfl, hc⟩ | ⟨hb, hc⟩)
      · exact ⟨Nat.le_refl _, d, below, hk, hc⟩
      · exact ⟨by omega, hc⟩
    · rintro ⟨hb, hc⟩
      rcases Nat.eq_or_lt_of_le hb with rfl | hlt
      · obtain ⟨d, below, hd, hg⟩ := hc
        rw [hk] at hd
        exact Or.inl ⟨rfl, d, below, Option.some.inj hd, hg⟩
      · exact Or.inr ⟨hlt, hc⟩

/-- The depth of every token is the number of groups around it. -/
theorem getElem?_depths_ofKinds (ks : List TokenKind) (n : Nat) :
    (ofKinds [] 0 ks).depths[n]? = if n < ks.length then some (depthAt ks n) else none := by
  have h := depths_ofKinds_append [] ks
  simp only [List.nil_append, List.length_nil, Nat.zero_add, openBefore] at h
  rw [h]
  split
  · rename_i hn
    simp [hn]
  · rename_i hn
    simp only [List.getElem?_map, Option.map_eq_none_iff, List.getElem?_eq_none_iff,
      List.length_range]
    omega

theorem mem_pairs_ofKinds (ks : List TokenKind) (a b : Nat) :
    (a, b) ∈ (ofKinds [] 0 ks).pairs ↔ Closes ks a b := by
  have h := @mem_pairs_ofKinds_append [] ks a b
  simpa [openBefore] using h

/-- A bracket's partner is the one that closes it or that it closes. -/
theorem partner?_ofKinds (ks : List TokenKind) (i j : Nat) :
    (ofKinds [] 0 ks).partner? i = some j ↔ Closes ks i j ∨ Closes ks j i := by
  have hfound (j : Nat) (h : (ofKinds [] 0 ks).partner? i = some j) :
      Closes ks i j ∨ Closes ks j i := by
    obtain ⟨⟨a, b⟩, hmem, hab⟩ := List.exists_of_findSome?_eq_some h
    have hc := (mem_pairs_ofKinds ks a b).1 hmem
    simp only at hab
    split at hab
    · rename_i ha
      cases hab
      exact Or.inl (ha ▸ hc)
    · split at hab
      · rename_i hb
        cases hab
        exact Or.inr (hb ▸ hc)
      · cases hab
  refine ⟨hfound j, ?_⟩
  intro h
  have hsome : ((ofKinds [] 0 ks).partner? i).isSome := by
    simp only [partner?, List.findSome?_isSome_iff]
    rcases h with h | h
    · exact ⟨(i, j), (mem_pairs_ofKinds ks i j).2 h, by simp⟩
    · exact ⟨(j, i), (mem_pairs_ofKinds ks j i).2 h, by grind⟩
  obtain ⟨x, hx⟩ := Option.isSome_iff_exists.1 hsome
  rw [hx]
  congr 1
  rcases h with h | h <;> rcases hfound x hx with h' | h'
  · exact h'.right_unique h
  · exact absurd h (h'.not_both)
  · exact absurd h' (h.not_both)
  · exact h'.left_unique h

end Pairing

end Unbundle
