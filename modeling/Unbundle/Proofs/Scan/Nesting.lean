import Mathlib.Data.List.Nodup
import Unbundle.Proofs.Scan.Pairing

/-! Nesting: whatever the tokens, pairs of brackets do not cross, and what a pair encloses is deeper
than the pair. Where the brackets make up a balanced word, each of them is paired with its match,
and the depth of a token is the number of pairs around it. -/
namespace Unbundle

variable {ks before inside after : List TokenKind} {k : TokenKind} {a b i j m n : Nat}
  {d : Delimiter}

def TokenKind.isBracket : TokenKind → Bool
  | .opener _ => true
  | .closer _ => true
  | _ => false

/-- The brackets are a balanced word. Tokens of other kinds may stand anywhere. -/
inductive Balanced : List TokenKind → Prop
  | nil : Balanced []
  | other {k : TokenKind} {ks : List TokenKind} (hk : k.isBracket = false) (rest : Balanced ks) :
      Balanced (k :: ks)
  | group {d : Delimiter} {inside after : List TokenKind} (hinside : Balanced inside)
      (hafter : Balanced after) : Balanced (.opener d :: (inside ++ .closer d :: after))

/-- The bracket at `j` is the match of the one at `i`: they are of one kind, and between them the
brackets are balanced. -/
def Matches (ks : List TokenKind) (i j : Nat) : Prop :=
  ∃ before d inside after, ks = before ++ .opener d :: (inside ++ .closer d :: after) ∧
    Balanced inside ∧ before.length = i ∧ i + inside.length + 1 = j

/-- Of two pairs, one that begins inside the other ends inside it. -/
theorem Closes.nested (h : Closes ks a b) (h' : Closes ks i j) (hai : a < i) (hib : i < b) :
    j < b := by
  obtain ⟨d, -, -, -, hb, -⟩ := h.spec
  rcases Nat.lt_trichotomy j b with hlt | rfl | hgt
  · exact hlt
  · have : a = i := h.left_unique h'
    omega
  · have houter := h.length_lt hai (Nat.le_of_lt hib)
    have hinner := h'.length_lt (m := b + 1) (by omega) hgt
    rw [hb] at hinner
    omega

/-- One that ends inside the other begins inside it. -/
theorem Closes.nested_left (h : Closes ks a b) (h' : Closes ks i j) (haj : a < j) (hjb : j < b) :
    a < i := by
  rcases Nat.lt_trichotomy a i with hlt | rfl | hgt
  · exact hlt
  · have : b = j := h.right_unique h'
    omega
  · have := h'.nested h hgt haj
    omega

theorem openBefore_succ_of_not_isBracket (hk : ks[n]? = some k) (h : k.isBracket = false) :
    openBefore ks (n + 1) = openBefore ks n := by
  rw [openBefore_succ hk]
  cases k with
  | opener d => cases h
  | closer d => cases h
  | _ => rfl

/-- An opening and a closing bracket of one kind are a pair if what was opened between them is
closed again. -/
theorem closes_of_openBefore_eq (hi : ks[i]? = some (.opener d)) (hj : ks[j]? = some (.closer d))
    (h : openBefore ks j = openBefore ks (i + 1)) : Closes ks i j := by
  refine ⟨d, openBefore ks i, hj, ?_⟩
  rw [h, openBefore_succ hi]
  simp [openedAfter, closeGroup]

/-- Behind a balanced word the same groups are open as before it, wherever it stands. -/
theorem Balanced.openBefore_eq (h : Balanced inside) (before after : List TokenKind)
    (hks : ks = before ++ (inside ++ after)) (hm : before.length = m) :
    openBefore ks (m + inside.length) = openBefore ks m := by
  induction h generalizing before after m with
  | nil => rfl
  | @other k inside hk rest ih =>
    have hat : ks[m]? = some k := by simp [hks, ← hm]
    have hrest := ih (before ++ [k]) after (m := m + 1) (by simp [hks]) (by simp [hm])
    rw [List.length_cons, ← openBefore_succ_of_not_isBracket hat hk, ← hrest]
    congr 1
    omega
  | @group d inside rest hinside hrest ihInside ihRest =>
    have hopen : ks[m]? = some (.opener d) := by simp [hks, ← hm]
    have hclose : ks[m + 1 + inside.length]? = some (.closer d) := by
      rw [hks, List.getElem?_append_right (by omega)]
      have : m + 1 + inside.length - before.length = inside.length + 1 := by omega
      simp [this]
    have hin := ihInside (before ++ [.opener d]) (.closer d :: (rest ++ after)) (m := m + 1)
      (by simp [hks]) (by simp [hm])
    obtain ⟨-, -, -, -, hpair, -⟩ := (closes_of_openBefore_eq hopen hclose hin).spec
    have hbehind := ihRest (before ++ .opener d :: (inside ++ [.closer d])) after
      (m := m + 1 + inside.length + 1) (by simp [hks]) (by simp [hm]; omega)
    rw [← hpair, ← hbehind]
    congr 1
    simp
    omega

/-- A match is a pair, whatever stands around it. -/
theorem Matches.closes (h : Matches ks i j) : Closes ks i j := by
  obtain ⟨before, d, inside, after, rfl, hinside, rfl, rfl⟩ := h
  have hin := hinside.openBefore_eq (before ++ [.opener d]) (.closer d :: after)
    (m := before.length + 1) rfl (by simp)
  refine closes_of_openBefore_eq (d := d) (by simp) ?_ ?_
  · rw [List.getElem?_append_right (by omega)]
    have : before.length + inside.length + 1 - before.length = inside.length + 1 := by omega
    simp [this]
  · rw [List.append_assoc, List.singleton_append] at hin
    rw [← hin]
    congr 1
    omega

/-- It is one also in a longer word. -/
theorem Matches.append (h : Matches ks i j) (before after : List TokenKind) :
    Matches (before ++ (ks ++ after)) (before.length + i) (before.length + j) := by
  obtain ⟨first, d, inside, last, rfl, hinside, rfl, rfl⟩ := h
  exact ⟨before ++ first, d, inside, last ++ after, by simp, hinside, by simp, by omega⟩

/-- A bracket with a match in a part of a word has one in the word. -/
theorem exists_matches_append {part : List TokenKind} (before after : List TokenKind)
    (hks : ks = before ++ (part ++ after)) (hn : before.length + i = n)
    (h : ∃ j, Matches part i j ∨ Matches part j i) : ∃ j, Matches ks n j ∨ Matches ks j n := by
  obtain ⟨j, hj⟩ := h
  subst hks hn
  refine ⟨before.length + j, ?_⟩
  rcases hj with hj | hj
  · exact .inl (hj.append before after)
  · exact .inr (hj.append before after)

/-- In a balanced word every bracket has a match. -/
theorem Balanced.exists_matches (h : Balanced ks) (hi : ks[i]? = some k) (hk : k.isBracket = true) :
    ∃ j, Matches ks i j ∨ Matches ks j i := by
  induction h generalizing i with
  | nil => cases hi
  | @other k' ks hk' rest ih =>
    cases i with
    | zero =>
      obtain rfl : k' = k := Option.some.inj hi
      rw [hk'] at hk
      cases hk
    | succ i => exact exists_matches_append [k'] [] (by simp) (by simp; omega) (ih hi)
  | @group d inside after hinside hafter ihInside ihAfter =>
    have hpair : Matches (.opener d :: (inside ++ .closer d :: after)) 0 (inside.length + 1) :=
      ⟨[], d, inside, after, rfl, hinside, rfl, by omega⟩
    cases i with
    | zero => exact ⟨_, .inl hpair⟩
    | succ i =>
      rw [List.getElem?_cons_succ] at hi
      rcases Nat.lt_trichotomy i inside.length with hlt | rfl | hgt
      · rw [List.getElem?_append_left hlt] at hi
        exact exists_matches_append [.opener d] (.closer d :: after) (by simp) (by simp; omega)
          (ihInside hi)
      · exact ⟨0, .inr hpair⟩
      · obtain ⟨o, ho⟩ : ∃ o, i - inside.length = o + 1 := ⟨i - inside.length - 1, by omega⟩
        rw [List.getElem?_append_right (Nat.le_of_lt hgt), ho, List.getElem?_cons_succ] at hi
        exact exists_matches_append (.opener d :: (inside ++ [.closer d])) [] (by simp)
          (by simp; omega) (ihAfter hi)

/-- Groups were opened one after the other. -/
theorem pairwise_openBefore (ks : List TokenKind) (n : Nat) :
    (openBefore ks n).Pairwise fun p q => q.1 < p.1 := by
  induction n with
  | zero => exact .nil
  | succ n ih =>
    cases hk : ks[n]? with
    | none => simpa [openBefore, hk] using ih
    | some k =>
      rw [openBefore_succ hk]
      rcases openedAfter_cases n k (openBefore ks n) with ⟨d, -, heq⟩ | hsuffix
      · rw [heq]
        refine .cons ?_ ih
        rintro ⟨i, e⟩ hmem
        obtain ⟨above, below, hsplit⟩ := List.append_of_mem hmem
        have hsuffix : (i, e) :: below <:+ openBefore ks n := ⟨above, hsplit.symm⟩
        obtain ⟨hlt, -⟩ := openBefore_entry hsuffix
        exact hlt
      · exact ih.sublist hsuffix.sublist

/-- In a balanced word the groups that are open before a token are those that are closed later. -/
theorem Balanced.mem_openBefore_iff (h : Balanced ks) :
    a ∈ (openBefore ks m).map Prod.fst ↔ ∃ b, Closes ks a b ∧ a < m ∧ m ≤ b := by
  constructor
  · intro hmem
    obtain ⟨⟨i, d⟩, hentry, rfl⟩ := List.mem_map.1 hmem
    obtain ⟨above, below, hsplit⟩ := List.append_of_mem hentry
    have hsuffix : (i, d) :: below <:+ openBefore ks m := ⟨above, hsplit.symm⟩
    obtain ⟨ham, hopen, hbelow, hever⟩ := openBefore_entry hsuffix
    obtain ⟨b, hmatch | hmatch⟩ := h.exists_matches hopen rfl
    · have hc := hmatch.closes
      refine ⟨b, hc, ham, Nat.le_of_not_lt ?_⟩
      intro hbm
      have hsuffix := hever (b + 1) (Nat.lt_succ_of_lt hc.lt) hbm
      obtain ⟨-, -, -, -, hclosed, -⟩ := hc.spec
      rw [hclosed, hbelow] at hsuffix
      have hle := hsuffix.length_le
      rw [List.length_cons] at hle
      omega
    · obtain ⟨e, -, -, hcloser, -⟩ := hmatch.closes.spec
      rw [hopen] at hcloser
      cases hcloser
  · rintro ⟨b, hc, ham, hmb⟩
    obtain ⟨d, -, -, -, -, hever⟩ := hc.spec
    exact List.mem_map_of_mem ((hever m ham hmb).subset List.mem_cons_self)

theorem countP_range_eq {p : Nat → Bool} {xs : List Nat} (hxs : xs.Nodup)
    (h : ∀ a, a ∈ xs ↔ a < n ∧ p a = true) : (List.range n).countP p = xs.length := by
  rw [List.countP_eq_length_filter]
  apply List.Perm.length_eq
  rw [List.perm_ext_iff_of_nodup (List.nodup_range.filter p) hxs]
  intro a
  rw [List.mem_filter, List.mem_range, h]

/-- The groups around a token are those that are open before it, or behind it if it closes one
itself. -/
theorem exists_openBefore_around (ks : List TokenKind) (n : Nat) :
    ∃ m, depthAt ks n = (openBefore ks m).length ∧
      ∀ a b, Closes ks a b → (a < m ∧ m ≤ b ↔ a < n ∧ n < b) := by
  by_cases hc : ∃ d, ks[n]? = some (.closer d)
  · obtain ⟨d, hd⟩ := hc
    refine ⟨n + 1, depthAt_closer hd, ?_⟩
    intro a b hab
    have hne : a ≠ n := by
      rintro rfl
      obtain ⟨e, -, ha, -⟩ := hab.spec
      rw [hd] at ha
      cases ha
    omega
  · refine ⟨n, depthAt_of_ne fun d hd => hc ⟨d, hd⟩, ?_⟩
    intro a b hab
    have hne : b ≠ n := by
      rintro rfl
      obtain ⟨e, -, -, hb, -⟩ := hab.spec
      exact hc ⟨e, hb⟩
    omega

namespace Pairing

/-- How many pairs enclose the token at `n`: those with one bracket before it and the other behind
it. -/
def enclosing (p : Pairing) (n : Nat) : Nat :=
  (List.range n).countP fun a => (p.partner? a).any (n < ·)

/-- In a balanced word a token is as deep as there are pairs around it. -/
theorem depthAt_eq_enclosing (h : Balanced ks) (n : Nat) :
    depthAt ks n = (ofKinds [] 0 ks).enclosing n := by
  obtain ⟨m, hdepth, hm⟩ := exists_openBefore_around ks n
  have hnodup : ((openBefore ks m).map Prod.fst).Nodup :=
    List.pairwise_map.2 ((pairwise_openBefore ks m).imp fun hlt => Nat.ne_of_gt hlt)
  rw [hdepth, enclosing, countP_range_eq hnodup, List.length_map]
  intro a
  simp only [h.mem_openBefore_iff, Option.any_eq_true, partner?_ofKinds, decide_eq_true_eq]
  constructor
  · rintro ⟨b, hab, hamb⟩
    obtain ⟨han, hnb⟩ := (hm a b hab).1 hamb
    exact ⟨han, b, .inl hab, hnb⟩
  · rintro ⟨han, b, hab | hba, hnb⟩
    · exact ⟨b, hab, (hm a b hab).2 ⟨han, hnb⟩⟩
    · have := hba.lt
      omega

/-- How pairs lie over the tokens `ks`. -/
structure WellNested (p : Pairing) (ks : List TokenKind) : Prop where
  symm : ∀ i j, p.partner? i = some j → p.partner? j = some i
  joins : ∀ i j, p.partner? i = some j →
    (i < j ∧ ∃ d, ks[i]? = some (.opener d) ∧ ks[j]? = some (.closer d)) ∨
      (j < i ∧ ∃ d, ks[j]? = some (.opener d) ∧ ks[i]? = some (.closer d))
  nested : ∀ i j m n, p.partner? i = some j → p.partner? m = some n → i < m → m < j → i < n ∧ n < j
  level : ∀ i j, p.partner? i = some j → ∃ x, p.depths[i]? = some x ∧ p.depths[j]? = some x
  deeper : ∀ i j m, p.partner? i = some j → i < m → m < j →
    ∃ x y, p.depths[i]? = some x ∧ p.depths[m]? = some y ∧ x < y

/-- What pairs are in a balanced word: the matches, one for every bracket, and the depth of a token
counts those around it. -/
structure Textbook (p : Pairing) (ks : List TokenKind) : Prop where
  partner : ∀ i j, p.partner? i = some j ↔ Matches ks i j ∨ Matches ks j i
  total : ∀ i k, ks[i]? = some k → k.isBracket = true → ∃ j, p.partner? i = some j
  depth : ∀ n, n < ks.length → p.depths[n]? = some (p.enclosing n)

theorem depth_of_lt (h : n < ks.length) : (ofKinds [] 0 ks).depths[n]? = some (depthAt ks n) := by
  rw [getElem?_depths_ofKinds, if_pos h]

theorem lt_length_of_closes (h : Closes ks a b) : b < ks.length := by
  obtain ⟨d, -, -, hb, -⟩ := h.spec
  obtain ⟨hlt, -⟩ := List.getElem?_eq_some_iff.1 hb
  exact hlt

theorem wellNested_ofKinds (ks : List TokenKind) : (ofKinds [] 0 ks).WellNested ks := by
  have hforward (i j : Nat) (h : (ofKinds [] 0 ks).partner? i = some j) (m : Nat) (him : i < m)
      (hmj : m < j) : Closes ks i j := by
    rcases (partner?_ofKinds ks i j).1 h with hc | hc
    · exact hc
    · have := hc.lt
      omega
  refine ⟨?_, ?_, ?_, ?_, ?_⟩
  · intro i j h
    rw [partner?_ofKinds] at h ⊢
    exact h.symm
  · intro i j h
    rcases (partner?_ofKinds ks i j).1 h with hc | hc
    · obtain ⟨d, hlt, hi, hj, -⟩ := hc.spec
      exact .inl ⟨hlt, d, hi, hj⟩
    · obtain ⟨d, hlt, hj, hi, -⟩ := hc.spec
      exact .inr ⟨hlt, d, hj, hi⟩
  · intro i j m n hij hmn him hmj
    have houter := hforward i j hij m him hmj
    rcases (partner?_ofKinds ks m n).1 hmn with hc | hc
    · have hlt := hc.lt
      exact ⟨by omega, houter.nested hc him hmj⟩
    · have hlt := hc.lt
      exact ⟨houter.nested_left hc him hmj, by omega⟩
  · intro i j h
    rcases (partner?_ofKinds ks i j).1 h with hc | hc
    · have hj := lt_length_of_closes hc
      have hi := hc.lt
      exact ⟨_, depth_of_lt (by omega), by rw [hc.depthAt_eq]; exact depth_of_lt hj⟩
    · have hi := lt_length_of_closes hc
      have hj := hc.lt
      exact ⟨_, depth_of_lt hi, by rw [← hc.depthAt_eq]; exact depth_of_lt (by omega)⟩
  · intro i j m h him hmj
    have hc := hforward i j h m him hmj
    have hj := lt_length_of_closes hc
    exact ⟨_, _, depth_of_lt (by omega), depth_of_lt (by omega), hc.depthAt_lt him hmj⟩

theorem textbook_ofKinds (h : Balanced ks) : (ofKinds [] 0 ks).Textbook ks := by
  have hmatches (i j : Nat) (hm : Matches ks i j ∨ Matches ks j i) :
      (ofKinds [] 0 ks).partner? i = some j := by
    rw [partner?_ofKinds]
    exact hm.imp Matches.closes Matches.closes
  have htotal (i : Nat) (k : TokenKind) (hi : ks[i]? = some k) (hk : k.isBracket = true) :
      ∃ j, (ofKinds [] 0 ks).partner? i = some j ∧ (Matches ks i j ∨ Matches ks j i) := by
    obtain ⟨j, hj⟩ := h.exists_matches hi hk
    exact ⟨j, hmatches i j hj, hj⟩
  refine ⟨?_, ?_, ?_⟩
  · intro i j
    refine ⟨?_, hmatches i j⟩
    intro hp
    obtain ⟨k, hi, hk⟩ : ∃ k, ks[i]? = some k ∧ k.isBracket = true := by
      rcases (wellNested_ofKinds ks).joins i j hp with ⟨-, d, hi, -⟩ | ⟨-, d, -, hi⟩
      · exact ⟨_, hi, rfl⟩
      · exact ⟨_, hi, rfl⟩
    obtain ⟨j', hp', hm⟩ := htotal i k hi hk
    obtain rfl : j' = j := Option.some.inj (hp'.symm.trans hp)
    exact hm
  · intro i k hi hk
    obtain ⟨j, hp, -⟩ := htotal i k hi hk
    exact ⟨j, hp⟩
  · intro n hn
    rw [depth_of_lt hn, depthAt_eq_enclosing h]

/-- Pairs of brackets are well nested, whatever the tokens, and in a balanced word they are the
matches. -/
theorem ofKinds_nests (ks : List TokenKind) :
    (ofKinds [] 0 ks).WellNested ks ∧ (Balanced ks → (ofKinds [] 0 ks).Textbook ks) :=
  ⟨wellNested_ofKinds ks, textbook_ofKinds⟩

def groupsOfEachKind : List TokenKind :=
  [.opener .paren, .ident, .opener .bracket, .closer .bracket, .opener .brace, .closer .brace,
    .closer .paren]

theorem balanced_groupsOfEachKind : Balanced groupsOfEachKind := by
  have hbraces := Balanced.group (d := .brace) Balanced.nil Balanced.nil
  have hbrackets := Balanced.group (d := .bracket) Balanced.nil hbraces
  have hword := Balanced.other (k := .ident) rfl hbrackets
  exact Balanced.group (d := .paren) hword Balanced.nil

theorem groupsOfEachKind_nests :
    Balanced groupsOfEachKind ∧ (ofKinds [] 0 groupsOfEachKind).Textbook groupsOfEachKind ∧
      (ofKinds [] 0 groupsOfEachKind).partner? 4 = some 5 ∧
      (ofKinds [] 0 groupsOfEachKind).enclosing 4 = 1 :=
  ⟨balanced_groupsOfEachKind, (ofKinds_nests groupsOfEachKind).2 balanced_groupsOfEachKind,
    by decide, by decide⟩

/-- A bracket that closes a group closes those inside it that are still open: they get no
partner. -/
example :
    let p := ofKinds [] 0 [.opener .paren, .opener .bracket, .closer .paren, .closer .bracket]
    p.partner? 0 = some 2 ∧ p.partner? 1 = none ∧ p.partner? 3 = none := by decide

end Pairing
end Unbundle
