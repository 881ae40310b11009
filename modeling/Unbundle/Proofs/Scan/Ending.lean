import Unbundle.Proofs.Scan.Places

/-! Where items end: the walk to a terminator stops at the first top-level token that ends an item,
and at no other. -/
namespace Unbundle

/-- The kinds of token that end an item: a semicolon, and an opening brace when `blockEnds`. -/
def TokenKind.ends (blockEnds : Bool) (k : TokenKind) : Bool :=
  k == .punct ';' || (blockEnds && k == .opener .brace)

namespace Scan

variable {s : Scan} {p : TokenKind → Bool} {blockEnds : Bool} {i j m n b c : Nat} {t : Token}
  {d : Delimiter}

/-- The token at the index stands at the top level and ends an item. -/
def isEnder (s : Scan) (blockEnds : Bool) (i : Nat) : Bool :=
  s.isTopLevel i && (s.kind? i).any (TokenKind.ends blockEnds)

theorem isEnder_iff :
    s.isEnder blockEnds i = true ↔
      s.isTopLevel i = true ∧ ∃ k, s.kind? i = some k ∧ k.ends blockEnds = true := by
  simp [isEnder, Option.any_eq_true]

theorem isEnder_eq_false (h : ∀ k, s.kind? i = some k → k.ends blockEnds = false) :
    s.isEnder blockEnds i = false := by
  rw [← Bool.not_eq_true, isEnder_iff]
  rintro ⟨-, k, hk, he⟩
  rw [h k hk] at he
  cases he

theorem isEnder_of_not_isTopLevel (h : s.isTopLevel i = false) : s.isEnder blockEnds i = false := by
  simp [isEnder, h]

theorem Faithful.isTopLevel_of_openBefore (hs : s.Faithful) (hi : i < s.size)
    (ho : openBefore s.kinds i = []) : s.isTopLevel i = true := by
  rw [hs.isTopLevel_iff]
  have := depthAt_le s.kinds i
  rw [ho] at this
  exact ⟨hi, Nat.le_zero.1 this⟩

/-- No group is open before a top-level token that closes none. -/
theorem Faithful.openBefore_eq_nil (hs : s.Faithful) (hi : s.isTopLevel i = true)
    (hc : ∀ d, s.kind? i ≠ some (.closer d)) : openBefore s.kinds i = [] := by
  rw [hs.isTopLevel_iff] at hi
  rw [depthAt_of_ne (by simpa [getElem?_kinds] using hc)] at hi
  exact List.length_eq_zero_iff.1 hi.2

/-- Inside a group nothing stands at the top level. -/
theorem Faithful.isTopLevel_of_between (hs : s.Faithful) (h : Closes s.kinds i j) (him : i < m)
    (hmj : m < j) : s.isTopLevel m = false := by
  rw [← Bool.not_eq_true, hs.isTopLevel_iff]
  rintro ⟨-, hd⟩
  have := h.depthAt_lt him hmj
  omega

/-- Nothing stands at the top level after a group that is opened there and never closed. -/
theorem Faithful.isTopLevel_of_unclosed (hs : s.Faithful) (hk : s.kind? i = some (.opener d))
    (ho : openBefore s.kinds i = []) (hn : ∀ j, ¬ Closes s.kinds i j) (him : i < m) :
    s.isTopLevel m = false := by
  rw [← Bool.not_eq_true, hs.isTopLevel_iff]
  rintro ⟨-, hd⟩
  have hopen (m : Nat) (him : i < m) : 0 < (openBefore s.kinds m).length := by
    exact (openBefore_of_unclosed (by rwa [getElem?_kinds]) ho hn him).length_le
  by_cases hc : ∃ e, s.kinds[m]? = some (.closer e)
  · obtain ⟨e, he⟩ := hc
    rw [depthAt_closer he] at hd
    have := hopen (m + 1) (by omega)
    omega
  · rw [depthAt_of_ne (fun e he => hc ⟨e, he⟩)] at hd
    have := hopen m him
    omega

theorem Faithful.closes_of_opener (hs : s.Faithful) (hk : s.kind? i = some (.opener d))
    (hp : s.partner? i = some j) : Closes s.kinds i j := by
  rcases hs.partner?_eq_some_iff.1 hp with h | h
  · exact h
  · obtain ⟨e, -, -, hj, -⟩ := h.spec
    rw [getElem?_kinds, hk] at hj
    cases hj

theorem Faithful.closes_of_closer (hs : s.Faithful) (hk : s.kind? i = some (.closer d))
    (hp : s.partner? i = some j) : Closes s.kinds j i := by
  rcases hs.partner?_eq_some_iff.1 hp with h | h
  · obtain ⟨e, -, hi, -⟩ := h.spec
    rw [getElem?_kinds, hk] at hi
    cases hi
  · exact h

theorem Faithful.not_closes_of_partner? (hs : s.Faithful) (hp : s.partner? i = none) (j : Nat) :
    ¬ Closes s.kinds i j := by
  intro h
  rw [hs.partner?_eq_some_iff.2 (.inl h)] at hp
  cases hp

/-- A token that opens no group leaves none open where none was. -/
theorem openBefore_succ_eq_nil (ho : openBefore s.kinds i = [])
    (hk : ∀ d, s.kind? i ≠ some (.opener d)) : openBefore s.kinds (i + 1) = [] := by
  cases hc : s.kinds[i]? with
  | none => simp [openBefore, hc, ho]
  | some k =>
    rw [openBefore_succ hc, ho]
    rcases openedAfter_cases i k [] with ⟨d, rfl, -⟩ | hsuf
    · exact absurd (by rw [← getElem?_kinds, hc]) (hk d)
    · exact List.suffix_nil.1 hsuf

/-- The first token from `i` on that stands at the top level and is of a kind in `p`. -/
structure FirstTop (s : Scan) (p : TokenKind → Bool) (i j : Nat) : Prop where
  le : i ≤ j
  isTopLevel : s.isTopLevel j = true
  kind : ∃ k, s.kind? j = some k ∧ p k = true
  first : ∀ m k, i ≤ m → m < j → s.isTopLevel m = true → s.kind? m = some k → p k = false

theorem FirstTop.unique (h : s.FirstTop p i j) (h' : s.FirstTop p i n) : j = n := by
  obtain ⟨k, hk, hp⟩ := h.kind
  obtain ⟨k', hk', hp'⟩ := h'.kind
  rcases Nat.lt_trichotomy j n with hlt | heq | hgt
  · rw [h'.first j k h.le hlt h.isTopLevel hk] at hp
    cases hp
  · exact heq
  · rw [h.first n k' h'.le hgt h'.isTopLevel hk'] at hp'
    cases hp'

structure FirstEnder (s : Scan) (blockEnds : Bool) (i j : Nat) : Prop where
  le : i ≤ j
  ends : s.isEnder blockEnds j = true
  first : ∀ m, i ≤ m → m < j → s.isEnder blockEnds m = false

theorem firstTop_iff_firstEnder :
    s.FirstTop (TokenKind.ends blockEnds) i j ↔ s.FirstEnder blockEnds i j := by
  constructor
  · intro h
    refine ⟨h.le, isEnder_iff.2 ⟨h.isTopLevel, h.kind⟩, ?_⟩
    intro m him hmj
    rw [← Bool.not_eq_true, isEnder_iff]
    rintro ⟨htop, k, hk, he⟩
    rw [h.first m k him hmj htop hk] at he
    cases he
  · intro h
    obtain ⟨htop, hkind⟩ := isEnder_iff.1 h.ends
    refine ⟨h.le, htop, hkind, ?_⟩
    intro m k him hmj htop hk
    have hnot := h.first m him hmj
    rw [← Bool.not_eq_true, isEnder_iff] at hnot
    rw [← Bool.not_eq_true]
    intro he
    exact hnot ⟨htop, k, hk, he⟩

/-- What a walk to a terminator tells of the tokens it met. -/
def Walked (s : Scan) (blockEnds : Bool) (i : Nat) : Option Terminator → Prop
  | some (.semicolon j) => s.FirstEnder blockEnds i j ∧ s.kind? j = some (.punct ';')
  | some (.block j) => s.FirstEnder blockEnds i j ∧ s.kind? j = some (.opener .brace)
  | none => ∀ j, i ≤ j → s.isEnder blockEnds j = false

theorem FirstEnder.extend (h : s.FirstEnder blockEnds n j) (hin : i ≤ n)
    (hclear : ∀ m, i ≤ m → m < n → s.isEnder blockEnds m = false) : s.FirstEnder blockEnds i j := by
  refine ⟨Nat.le_trans hin h.le, h.ends, ?_⟩
  intro m him hmj
  rcases Nat.lt_or_ge m n with hmn | hnm
  · exact hclear m him hmn
  · exact h.first m hnm hmj

theorem FirstEnder.unique (h : s.FirstEnder blockEnds i j) (h' : s.FirstEnder blockEnds i n) :
    j = n :=
  (firstTop_iff_firstEnder.2 h).unique (firstTop_iff_firstEnder.2 h')

/-- A walk may begin earlier when it meets no further end. -/
theorem Walked.extend {r : Option Terminator} (h : s.Walked blockEnds n r) (hin : i ≤ n)
    (hclear : ∀ m, i ≤ m → m < n → s.isEnder blockEnds m = false) : s.Walked blockEnds i r := by
  match r with
  | some (.semicolon j) => exact ⟨h.1.extend hin hclear, h.2⟩
  | some (.block j) => exact ⟨h.1.extend hin hclear, h.2⟩
  | none =>
    intro m him
    rcases Nat.lt_or_ge m n with hmn | hnm
    · exact hclear m him hmn
    · exact h m hnm

theorem firstEnder_self (hs : s.Faithful) (ho : openBefore s.kinds i = []) {k : TokenKind}
    (hk : s.kind? i = some k) (he : k.ends blockEnds = true) : s.FirstEnder blockEnds i i := by
  have hi : i < s.size := by
    obtain ⟨t, ht, -⟩ := Option.map_eq_some_iff.1 hk
    exact lt_size ht
  refine ⟨Nat.le_refl i, isEnder_iff.2 ⟨hs.isTopLevel_of_openBefore hi ho, k, hk, he⟩, ?_⟩
  intro m him hmi
  omega

theorem isEnder_of_opener (hk : s.kind? i = some (.opener d))
    (hd : ¬ (d = .brace ∧ blockEnds = true)) : s.isEnder blockEnds i = false := by
  apply isEnder_eq_false
  intro k hk'
  rw [hk] at hk'
  cases hk'
  rw [← Bool.not_eq_true]
  intro he
  simp only [TokenKind.ends, Bool.or_eq_true, Bool.and_eq_true, beq_iff_eq, reduceCtorEq,
    false_or, TokenKind.opener.injEq] at he
  exact hd ⟨he.2, he.1⟩

theorem isEnder_of_closer (hk : s.kind? i = some (.closer d)) : s.isEnder blockEnds i = false := by
  apply isEnder_eq_false
  intro k hk'
  rw [hk] at hk'
  cases hk'
  simp [TokenKind.ends]

/-- The walk from a token outside all groups finds the first end of an item, if there is one. -/
theorem walked_terminator? (hs : s.Faithful) (ho : openBefore s.kinds i = []) :
    s.Walked blockEnds i (s.terminator? blockEnds i) := by
  fun_induction terminator? s blockEnds i with
  | case1 i hi hk =>
    have hkind : s.kind? i = some (.punct ';') := by simp [kind?, token?, hi, hk]
    exact ⟨firstEnder_self hs ho hkind rfl, hkind⟩
  | case2 i hi d hk hd =>
    have hkind : s.kind? i = some (.opener .brace) := by simp [kind?, token?, hi, hk, hd.1]
    exact ⟨firstEnder_self hs ho hkind (by simp [TokenKind.ends, hd.2]), hkind⟩
  | case3 i hi d hk hd j hp hij ih =>
    have hkind : s.kind? i = some (.opener d) := by simp [kind?, token?, hi, hk]
    have hc := hs.closes_of_opener hkind hp
    obtain ⟨e, -, -, hj, heq, -⟩ := hc.spec
    refine (ih (heq.trans ho)).extend (by omega) ?_
    intro m him hmj
    rcases Nat.eq_or_lt_of_le him with rfl | him
    · exact isEnder_of_opener hkind hd
    · rcases Nat.eq_or_lt_of_le (Nat.le_of_lt_succ hmj) with rfl | hmj
      · rw [getElem?_kinds] at hj
        exact isEnder_of_closer hj
      · exact isEnder_of_not_isTopLevel (hs.isTopLevel_of_between hc him hmj)
  | case4 i hi d hk hd j hp hij =>
    have hkind : s.kind? i = some (.opener d) := by simp [kind?, token?, hi, hk]
    have := (hs.closes_of_opener hkind hp).lt
    omega
  | case5 i hi d hk hd hp =>
    have hkind : s.kind? i = some (.opener d) := by simp [kind?, token?, hi, hk]
    have hn := hs.not_closes_of_partner? hp
    intro m him
    rcases Nat.eq_or_lt_of_le him with rfl | him
    · exact isEnder_of_opener hkind hd
    · exact isEnder_of_not_isTopLevel (hs.isTopLevel_of_unclosed hkind ho hn him)
  | case6 i hi hsemi hopen ih =>
    have hkind : s.kind? i = some s.tokens[i].kind := by simp [kind?, token?, hi]
    have hnot : ∀ d, s.kind? i ≠ some (.opener d) := by
      intro d hd
      rw [hkind, Option.some.injEq] at hd
      exact hopen d hd
    refine (ih (openBefore_succ_eq_nil ho hnot)).extend (by omega) ?_
    intro m him hmi
    obtain rfl : m = i := by omega
    apply isEnder_eq_false
    intro k hk
    rw [hkind, Option.some.injEq] at hk
    subst hk
    rw [← Bool.not_eq_true]
    intro he
    simp only [TokenKind.ends, Bool.or_eq_true, Bool.and_eq_true, beq_iff_eq] at he
    rcases he with he | ⟨-, he⟩
    · exact hsemi he
    · exact hopen _ he
  | case7 i hi =>
    intro m him
    apply isEnder_of_not_isTopLevel
    rw [← Bool.not_eq_true, hs.isTopLevel_iff]
    rintro ⟨hm, -⟩
    exact hi (Nat.lt_of_le_of_lt him hm)

/-- So where the first end is a brace, that is what the walk finds. -/
theorem FirstEnder.terminator?_eq (h : s.FirstEnder blockEnds i j) (hs : s.Faithful)
    (ho : openBefore s.kinds i = []) (hk : s.kind? j = some (.opener .brace)) :
    s.terminator? blockEnds i = some (.block j) := by
  have hw : s.Walked blockEnds i (s.terminator? blockEnds i) := walked_terminator? hs ho
  match hr : s.terminator? blockEnds i with
  | some (.semicolon n) =>
    rw [hr] at hw
    obtain rfl := h.unique hw.1
    have := hk.symm.trans hw.2
    cases this
  | some (.block n) =>
    rw [hr] at hw
    rw [h.unique hw.1]
  | none =>
    rw [hr] at hw
    have := hw j h.le
    rw [h.ends] at this
    cases this

/-- Where an item ends whose end is looked for from the token `i` on: before the token `b`, at the
byte `offset`. -/
inductive EndsItem (s : Scan) (blockEnds : Bool) (i : Nat) : Nat → Nat → Prop
  | semicolon {j : Nat} {t : Token} (h : s.FirstEnder blockEnds i j) (ht : s.token? j = some t)
      (hk : t.kind = .punct ';') : EndsItem s blockEnds i (j + 1) t.stop
  | block {j c : Nat} {t : Token} (h : s.FirstEnder blockEnds i j)
      (hk : s.kind? j = some (.opener .brace)) (hc : Closes s.kinds j c)
      (ht : s.token? c = some t) : EndsItem s blockEnds i (c + 1) t.stop
  | unclosed {j : Nat} (h : s.FirstEnder blockEnds i j) (hk : s.kind? j = some (.opener .brace))
      (hn : ∀ c, ¬ Closes s.kinds j c) : EndsItem s blockEnds i s.size (byteLength s.text)
  | unended (h : ∀ j, i ≤ j → s.isEnder blockEnds j = false) :
      EndsItem s blockEnds i s.size (byteLength s.text)

/-- The tokens that no head of an item reaches over: they stand at the top level and are semicolons,
braces or the word `fn`. -/
def isBarrier (s : Scan) (i : Nat) : Bool :=
  s.isTopLevel i &&
    (s.token? i).any fun t =>
      t.kind == .punct ';' || t.kind == .opener .brace || t.kind == .closer .brace || t.isWord "fn"

theorem FirstEnder.isTopLevel (h : s.FirstEnder blockEnds i j) : s.isTopLevel j = true :=
  (isEnder_iff.1 h.ends).1

theorem FirstEnder.lt_size (h : s.FirstEnder blockEnds i j) : j < s.size := by
  obtain ⟨-, k, hk, -⟩ := isEnder_iff.1 h.ends
  obtain ⟨t, ht, -⟩ := Option.map_eq_some_iff.1 hk
  exact Scan.lt_size ht

theorem Token.isOpener_iff : t.isOpener = true ↔ ∃ d, t.kind = .opener d := by
  unfold Token.isOpener
  split
  · simp [*]
  · simp_all

theorem exists_closer (hc : Closes s.kinds i j) :
    ∃ t d, s.token? j = some t ∧ t.kind = .closer d := by
  obtain ⟨d, -, -, hj, -⟩ := hc.spec
  rw [getElem?_kinds] at hj
  obtain ⟨t, ht, hk⟩ := Option.map_eq_some_iff.1 hj
  exact ⟨t, d, ht, hk⟩

theorem Faithful.partner?_bounds (hs : s.Faithful) (h : s.partner? i = some j) :
    i < s.size ∧ j < s.size := by
  rcases hs.partner?_eq_some_iff.1 h with hc | hc
  · obtain ⟨t, -, ht, -⟩ := exists_closer hc
    have hlt := hc.lt
    have hj := lt_size ht
    omega
  · obtain ⟨t, -, ht, -⟩ := exists_closer hc
    have hlt := hc.lt
    have hi := lt_size ht
    omega

theorem Faithful.isTopLevel_of_closes (hs : s.Faithful) (hc : Closes s.kinds i j)
    (hi : s.isTopLevel i = true) : s.isTopLevel j = true := by
  obtain ⟨t, d, ht, -⟩ := exists_closer hc
  rw [hs.isTopLevel_iff] at hi ⊢
  exact ⟨Scan.lt_size ht, hc.depthAt_eq ▸ hi.2⟩

namespace EndsItem

variable {offset : Nat}

theorem stopsBefore (h : s.EndsItem blockEnds i b offset) : s.StopsBefore b offset := by
  cases h with
  | semicolon h ht hk => exact .token ht
  | block h hk hc ht => exact .token ht
  | unclosed => exact .text
  | unended => exact .text

theorem le (h : s.EndsItem blockEnds i b offset) (hi : i ≤ s.size) : i ≤ b := by
  cases h with
  | semicolon h ht hk => exact Nat.le_succ_of_le h.le
  | block h hk hc ht => exact Nat.le_succ_of_le (Nat.le_trans h.le (Nat.le_of_lt hc.lt))
  | unclosed => exact hi
  | unended => exact hi

/-- An item ends with a token that no head reaches over, or with the text. -/
theorem barrier (h : s.EndsItem blockEnds i b offset) (hs : s.Faithful) :
    b = s.size ∨ ∃ j, b = j + 1 ∧ i ≤ j ∧ s.isBarrier j = true := by
  cases h with
  | semicolon h ht hk =>
    exact .inr ⟨_, rfl, h.le, by simp [isBarrier, h.isTopLevel, ht, hk]⟩
  | @block j c t h hk hc ht =>
    obtain ⟨d, hlt, hj, hcl, -⟩ := hc.spec
    rw [getElem?_kinds, hk] at hj
    cases hj
    have hkind : t.kind = .closer .brace := by
      rw [kinds_of_token? ht, Option.some.injEq] at hcl
      exact hcl
    have htop := hs.isTopLevel_of_closes hc h.isTopLevel
    have := h.le
    exact .inr ⟨_, rfl, by omega, by simp [isBarrier, htop, ht, hkind]⟩
  | unclosed => exact .inl rfl
  | unended => exact .inl rfl

/-- A token outside all groups comes before the end exactly when nothing ends the item before it. -/
theorem lt_iff (h : s.EndsItem blockEnds i b offset) (hs : s.Faithful) (hm : m < s.size)
    (ho : openBefore s.kinds m = []) :
    m < b ↔ ∀ j, i ≤ j → j < m → s.isEnder blockEnds j = false := by
  have hle {j : Nat} (h : s.FirstEnder blockEnds i j) :
      m ≤ j ↔ ∀ n, i ≤ n → n < m → s.isEnder blockEnds n = false := by
    constructor
    · intro hmj n hin hnm
      exact h.first n hin (by omega)
    · intro hall
      apply Nat.le_of_not_lt
      intro hjm
      have := hall j h.le hjm
      rw [h.ends] at this
      cases this
  cases h with
  | @semicolon j t h ht hk =>
    rw [← hle h]
    omega
  | @block j c t h hk hc ht =>
    rw [← hle h]
    have hlt := hc.lt
    constructor
    · intro hmc
      apply Nat.le_of_not_lt
      intro hjm
      have := hc.length_lt hjm (by omega)
      rw [ho] at this
      simp at this
    · omega
  | @unclosed j h hk hn =>
    rw [← hle h]
    have := h.lt_size
    constructor
    · intro _
      apply Nat.le_of_not_lt
      intro hjm
      have hjo := hs.openBefore_eq_nil h.isTopLevel (by simp [hk])
      have := hs.isTopLevel_of_unclosed hk hjo hn hjm
      rw [hs.isTopLevel_of_openBefore hm ho] at this
      cases this
    · omega
  | unended h =>
    constructor
    · intro _ j hij _
      exact h j hij
    · intro _
      exact hm

end EndsItem

theorem Faithful.group_of_closes (hs : s.Faithful) (hc : Closes s.kinds i j)
    (ht : s.token? j = some t) : s.group i = ⟨t.start, t.stop, true⟩ := by
  rw [group, hs.partner?_eq_some_iff.2 (.inl hc)]
  simp only [ht, hc.lt, if_true]

/-- A group that never closes runs to the end of the text. -/
theorem Faithful.group_of_not_closes (hs : s.Faithful) (hn : ∀ j, ¬ Closes s.kinds i j) :
    s.group i = s.openEnded := by
  unfold group
  split
  · rename_i j hp
    rcases hs.partner?_eq_some_iff.1 hp with hc | hc
    · exact absurd hc (hn j)
    · have hlt := hc.lt
      split
      · rw [if_neg (by omega)]
      · rfl
  · rfl

theorem Faithful.exists_closes_of_closed (hs : s.Faithful) (hk : s.kind? i = some (.opener d))
    (h : (s.group i).closed = true) : ∃ j, Closes s.kinds i j := by
  unfold group at h
  split at h
  · rename_i j hp
    exact ⟨j, hs.closes_of_opener hk hp⟩
  · cases h

/-- The end of the group that a brace opens where an item ends. -/
theorem FirstEnder.endsItem_group (h : s.FirstEnder blockEnds i j) (hs : s.Faithful)
    (hk : s.kind? j = some (.opener .brace)) :
    ∃ b, s.EndsItem blockEnds i b (s.group j).stop ∧ j < b := by
  cases hp : s.partner? j with
  | none =>
    rw [group, hp]
    exact ⟨s.size, .unclosed h hk (hs.not_closes_of_partner? hp), h.lt_size⟩
  | some c =>
    have hc := hs.closes_of_opener hk hp
    obtain ⟨t, d, ht, -⟩ := exists_closer hc
    rw [hs.group_of_closes hc ht]
    exact ⟨c + 1, .block h hk hc ht, Nat.lt_succ_of_lt hc.lt⟩

end Scan
end Unbundle
