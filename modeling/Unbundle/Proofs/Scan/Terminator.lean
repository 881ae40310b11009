import Unbundle.Proofs.Scan.Ending

/-! The walk to a terminator against the depths of the tokens. The walk follows the pairs of
brackets and gives up on a group that is never closed; from every token outside all groups it still
comes to the first one that ends an item, and gives up only where there is none. -/
namespace Unbundle
namespace Scan

variable {s : Scan} {blockEnds : Bool} {i j n : Nat} {d : Delimiter} {e e' : Terminator}

theorem depth_eq_ok_iff : s.depth i = .ok n ↔ s.depths[i]? = some n := by
  unfold depth
  split
  · simp [*]
  · simp [*]

/-- A token in no group is one at the top level. -/
theorem isTopLevel_of_depth (h : s.depth i = .ok 0) : s.isTopLevel i = true := by
  simp [isTopLevel, depth_eq_ok_iff.1 h]

inductive Names (s : Scan) (j : Nat) : Terminator → Prop
  | semicolon (hk : s.kind? j = some (.punct ';')) : Names s j (.semicolon j)
  | block (hk : s.kind? j = some (.opener .brace)) : Names s j (.block j)

theorem Names.unique (h : s.Names j e) (h' : s.Names j e') : e = e' := by
  cases h with
  | semicolon hk =>
    cases h' with
    | semicolon => rfl
    | block hk' =>
      rw [hk] at hk'
      cases hk'
  | block hk =>
    cases h' with
    | semicolon hk' =>
      rw [hk] at hk'
      cases hk'
    | block => rfl

namespace Walked

theorem exists_firstEnder (h : s.Walked blockEnds i (some e)) :
    ∃ j, s.FirstEnder blockEnds i j ∧ s.Names j e := by
  cases e with
  | semicolon j => exact ⟨j, h.1, .semicolon h.2⟩
  | block j => exact ⟨j, h.1, .block h.2⟩

theorem not_none (h : s.Walked blockEnds i (some e)) : ¬ s.Walked blockEnds i none := by
  intro hnone
  obtain ⟨j, hfirst, -⟩ := h.exists_firstEnder
  have hout := hnone j hfirst.le
  rw [hfirst.ends] at hout
  cases hout

/-- The tokens leave a walk no choice. -/
theorem unique {r r' : Option Terminator} (h : s.Walked blockEnds i r)
    (h' : s.Walked blockEnds i r') : r = r' := by
  cases r with
  | none =>
    cases r' with
    | none => rfl
    | some e' => exact absurd h h'.not_none
  | some e =>
    cases r' with
    | none => exact absurd h' h.not_none
    | some e' =>
      obtain ⟨j, hfirst, hnames⟩ := h.exists_firstEnder
      obtain ⟨n, hfirst', hnames'⟩ := h'.exists_firstEnder
      obtain rfl := hfirst.unique hfirst'
      rw [hnames.unique hnames']

end Walked

/-- A walk steps over a closing bracket. -/
theorem terminator?_of_closer (hk : s.kind? i = some (.closer d)) :
    s.terminator? blockEnds i = s.terminator? blockEnds (i + 1) := by
  obtain ⟨t, ht, hkind⟩ := Option.map_eq_some_iff.1 hk
  rw [token?, Array.getElem?_eq_some_iff] at ht
  obtain ⟨hi, rfl⟩ := ht
  rw [terminator?, dif_pos hi, hkind]

/-- Behind a top-level token that closes a group no group is open. -/
theorem Faithful.openBefore_succ_of_closer (hs : s.Faithful) (htop : s.isTopLevel i = true)
    (hk : s.kind? i = some (.closer d)) : openBefore s.kinds (i + 1) = [] := by
  rw [hs.isTopLevel_iff, depthAt_closer (by rwa [getElem?_kinds])] at htop
  exact List.length_eq_zero_iff.1 htop.2

/-- A walk may start at any token of the top level, also at one that closes a group. -/
theorem Faithful.walked_of_isTopLevel (hs : s.Faithful) (htop : s.isTopLevel i = true) :
    s.Walked blockEnds i (s.terminator? blockEnds i) := by
  by_cases hc : ∃ d, s.kind? i = some (.closer d)
  · obtain ⟨d, hk⟩ := hc
    rw [terminator?_of_closer hk]
    refine (walked_terminator? hs (hs.openBefore_succ_of_closer htop hk)).extend (Nat.le_succ i) ?_
    intro m him hmi
    obtain rfl : m = i := by omega
    exact isEnder_of_closer hk
  · exact walked_terminator? hs (hs.openBefore_eq_nil htop (not_exists.1 hc))

/-- Behind the last token there is nothing to find. -/
theorem Faithful.walked_size (hs : s.Faithful) :
    s.Walked blockEnds s.size (s.terminator? blockEnds s.size) := by
  have hend : ¬ s.size < s.tokens.size := Nat.lt_irrefl s.size
  rw [terminator?, dif_neg hend]
  intro j hj
  apply isEnder_of_not_isTopLevel
  rw [← Bool.not_eq_true, hs.isTopLevel_iff]
  rintro ⟨hlt, -⟩
  exact Nat.not_lt_of_le hj hlt

/-- How a walk to a terminator goes from an index. Every leap over a group goes forward, so that the
walk comes to an end, and what it gives is the first token in no group that ends an item; it gives
nothing exactly where there is none. -/
structure WalksFrom (s : Scan) (blockEnds : Bool) (i : Nat) : Prop where
  forward : ∀ m d j, s.kind? m = some (.opener d) → s.partner? m = some j → m < j
  gives_iff : ∀ r, s.terminator? blockEnds i = r ↔ s.Walked blockEnds i r

/-- A walk may start from the end of all tokens and from every token in no group. -/
theorem terminator?_eq_iff (text : Text) (blockEnds : Bool) (i : Nat)
    (h : i = (ofText text).size ∨ (ofText text).depth i = .ok 0) :
    (ofText text).WalksFrom blockEnds i := by
  have hs := faithful_ofText text
  have hw : (ofText text).Walked blockEnds i ((ofText text).terminator? blockEnds i) := by
    rcases h with rfl | h
    · exact hs.walked_size
    · exact hs.walked_of_isTopLevel (isTopLevel_of_depth h)
  constructor
  · intro m d j hk hp
    exact (hs.closes_of_opener hk hp).lt
  · intro r
    constructor
    · rintro rfl
      exact hw
    · exact hw.unique

def lostBrackets : Text := "([);[;".toList

/-- The walk passes the group with the lost bracket whole, and does not come out of the one that is
never closed. -/
theorem lostBrackets_terminators :
    (ofText lostBrackets).depth 0 = .ok 0 ∧
      (ofText lostBrackets).terminator? false 0 = some (.semicolon 3) ∧
      (ofText lostBrackets).depth 4 = .ok 0 ∧
      (ofText lostBrackets).terminator? false 4 = none := by
  have hzero : (ofText lostBrackets).depth 0 = .ok 0 := by decide +kernel
  have hfour : (ofText lostBrackets).depth 4 = .ok 0 := by decide +kernel
  have hbefore : ∀ m < 3, (ofText lostBrackets).isEnder false m = false := by decide +kernel
  have hbehind : ∀ m < 6, 4 ≤ m → (ofText lostBrackets).isEnder false m = false := by decide +kernel
  have hsize : (ofText lostBrackets).size = 6 := by decide +kernel
  refine ⟨hzero, ((terminator?_eq_iff _ false 0 (.inr hzero)).gives_iff _).2 ?_, hfour,
    ((terminator?_eq_iff _ false 4 (.inr hfour)).gives_iff _).2 ?_⟩
  · refine ⟨⟨by decide, by decide +kernel, fun m _ hm => hbefore m hm⟩, by decide +kernel⟩
  · intro m hm
    rcases Nat.lt_or_ge m 6 with hlt | hge
    · exact hbehind m hlt hm
    · apply isEnder_eq_false
      intro k hk
      obtain ⟨t, ht, -⟩ := Option.map_eq_some_iff.1 hk
      have := lt_size ht
      omega

end Scan
end Unbundle
