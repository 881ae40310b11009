import Unbundle.Item.Head
import Unbundle.Proofs.Checked
import Unbundle.Proofs.Scan.Ending

/-! The head of an item: the walk back from a keyword comes to no token that ends an item or starts
a function, and never fails. -/
namespace Unbundle

theorem Token.kind_of_isWord {t : Token} {w : String} (h : t.isWord w = true) :
    t.kind = .ident := by
  simp only [isWord, Bool.and_eq_true, beq_iff_eq] at h
  exact h.1

theorem Token.isWord_eq_false {t : Token} {v w : String} (h : t.isWord w = true) (hne : w ≠ v) :
    t.isWord v = false := by
  simp only [isWord, Bool.and_eq_true, beq_iff_eq] at h
  rw [← Bool.not_eq_true]
  intro hv
  simp only [isWord, Bool.and_eq_true, beq_iff_eq] at hv
  exact hne (String.toList_injective (h.2.symm.trans hv.2))

theorem Token.exists_isWord_of_isQualifier {t : Token} (h : t.isQualifier = true) :
    ∃ w ∈ qualifierWords, t.isWord w = true := by
  simpa [isQualifier, List.any_eq_true] using h

namespace Scan

variable {s : Scan} {a b i j k n o : Nat} {t u : Token} {d : Delimiter}

/-- Tokens from `a` up to `i` that a walk back may pass over: outside all groups at the first, and
no barrier among them. -/
structure Clear (s : Scan) (a i : Nat) : Prop where
  le : a ≤ i
  opened : openBefore s.kinds a = []
  clear : ∀ m, a ≤ m → m < i → s.isBarrier m = false

namespace Clear

theorem refl (ho : openBefore s.kinds i = []) : s.Clear i i := by
  refine ⟨Nat.le_refl i, ho, ?_⟩
  intro m him hmi
  omega

theorem trans (h : s.Clear a i) (h' : s.Clear i k) : s.Clear a k := by
  refine ⟨Nat.le_trans h.le h'.le, h.opened, ?_⟩
  intro m ham hmk
  rcases Nat.lt_or_ge m i with hmi | him
  · exact h.clear m ham hmi
  · exact h'.clear m him hmk

/-- A walk back comes to a stop after every barrier. -/
theorem lt_of_isBarrier (h : s.Clear a k) (hb : s.isBarrier i = true) (hik : i < k) : i < a := by
  apply Nat.lt_of_not_le
  intro hai
  rw [h.clear i hai hik] at hb
  cases hb

/-- A token that is no bracket and no barrier can be passed over. -/
theorem token (ho : openBefore s.kinds (i + 1) = []) (ht : s.token? i = some t)
    (hopen : ∀ d, t.kind ≠ .opener d) (hclose : ∀ d, t.kind ≠ .closer d)
    (hb : s.isBarrier i = false) : s.Clear i (i + 1) := by
  refine ⟨by omega, ?_, ?_⟩
  · rw [openBefore_succ (kinds_of_token? ht)] at ho
    unfold openedAfter at ho
    split at ho
    · exact absurd ‹_› (hopen _)
    · exact absurd ‹_› (hclose _)
    · exact ho
  · intro m him hmi
    obtain rfl : m = i := by omega
    exact hb

/-- A group in brackets or parentheses can be passed over. -/
theorem group (hs : s.Faithful) (hc : Closes s.kinds a i)
    (ho : openBefore s.kinds (i + 1) = []) (hk : s.kind? i = some (.closer d)) (hd : d ≠ .brace) :
    s.Clear a (i + 1) := by
  obtain ⟨e, hlt, ha, hi, heq, -⟩ := hc.spec
  rw [getElem?_kinds] at ha hi
  rw [hk] at hi
  cases hi
  refine ⟨by omega, heq.symm.trans ho, ?_⟩
  intro m ham hmi
  unfold isBarrier
  rcases Nat.eq_or_lt_of_le ham with rfl | ham
  · obtain ⟨t, ht, hkind⟩ := Option.map_eq_some_iff.1 ha
    simp [ht, hkind, hd, Token.isWord]
  · rcases Nat.eq_or_lt_of_le (Nat.le_of_lt_succ hmi) with rfl | hmi
    · obtain ⟨t, ht, hkind⟩ := Option.map_eq_some_iff.1 hk
      simp [ht, hkind, hd, Token.isWord]
    · simp [hs.isTopLevel_of_between hc ham hmi]

/-- A word other than `fn` can be passed over. -/
theorem word {w : String} (ho : openBefore s.kinds (i + 1) = []) (ht : s.token? i = some t)
    (hw : t.isWord w = true) (hne : w ≠ "fn") : s.Clear i (i + 1) := by
  have hkind := Token.kind_of_isWord hw
  refine token ho ht (by simp [hkind]) (by simp [hkind]) ?_
  simp [isBarrier, ht, hkind, Token.isWord_eq_false hw hne]

/-- So can a literal, a comment and a punctuation mark other than a semicolon. -/
theorem other (ho : openBefore s.kinds (i + 1) = []) (ht : s.token? i = some t)
    (hopen : ∀ d, t.kind ≠ .opener d) (hclose : ∀ d, t.kind ≠ .closer d)
    (hsemi : t.kind ≠ .punct ';') (hident : t.kind ≠ .ident) : s.Clear i (i + 1) := by
  refine token ho ht hopen hclose ?_
  simp [isBarrier, ht, hopen, hclose, hsemi, hident, Token.isWord]

end Clear

/-- A head behind the end of an item begins behind it. -/
theorem EndsItem.le_of_clear {blockEnds : Bool} {offset : Nat} (h : s.EndsItem blockEnds i b offset)
    (hs : s.Faithful) (hc : s.Clear a k) (hk : k < s.size) (hbk : b ≤ k) : b ≤ a := by
  rcases h.barrier hs with rfl | ⟨j, rfl, -, hj⟩
  · omega
  · exact hc.lt_of_isBarrier hj hbk

theorem Faithful.exists_slice (hs : s.Faithful) (ht : s.token? i = some t)
    (hu : s.token? j = some u) (hij : i < j) : ∃ inside, s.slice t.stop u.start = .ok inside := by
  obtain ⟨before, inside, after, -, -, -, h⟩ :=
    Unbundle.exists_slice (hs.boundary_stop ht) (hs.boundary_start hu) (hs.stop_le_start ht hu hij)
  exact ⟨inside, h⟩

/-- A closing parenthesis ends a restricted visibility or is none of the item's. -/
theorem Faithful.restrictedReach?_cases (hs : s.Faithful) (ht : s.token? i = some t)
    (hk : t.kind = .closer .paren) :
    (s.restrictedReach? i t = .ok none ∧
        ∀ o, Closes s.kinds (o + 1) i → s.isWord o "pub" = false) ∨
      ∃ o v span, s.restrictedReach? i t = .ok (some ⟨o, v, some span⟩) ∧
        Closes s.kinds (o + 1) i ∧ s.isWord o "pub" = true := by
  unfold restrictedReach?
  split
  · rename_i o hp
    by_cases hw : s.isWord o "pub" = true
    · right
      have hkind : s.kind? i = some (.closer .paren) := by simp [kind?, ht, hk]
      have hc := hs.closes_of_closer hkind hp
      obtain ⟨opened, hopened⟩ := exists_token? (Nat.lt_trans hc.lt (lt_size ht))
      obtain ⟨pub, hpub⟩ := exists_token? (Nat.lt_of_succ_lt (lt_size hopened))
      obtain ⟨inside, hin⟩ := hs.exists_slice hopened ht hc.lt
      have hlt := (hs.start_lt_start_iff hpub ht).2 (Nat.lt_of_succ_lt hc.lt)
      have hspan : Span.make pub.start t.stop = .ok ⟨pub.start, t.stop⟩ :=
        Span.make_eq_ok_iff.2 ⟨by rw [Token.stop]; omega, rfl⟩
      refine ⟨o, .restricted inside, ⟨pub.start, t.stop⟩, ?_, hc, hw⟩
      rw [if_pos hw, token_eq_ok hopened, token_eq_ok hpub]
      simp only [Checked.ok_bind, hin, hspan]
      rfl
    · left
      rw [if_neg hw]
      refine ⟨rfl, ?_⟩
      intro o' hc
      rw [hs.partner?_eq_some_iff.2 (.inr hc)] at hp
      cases hp
      simpa using hw
  · rename_i hp
    refine .inl ⟨rfl, ?_⟩
    intro o hc
    exact absurd (hs.partner?_eq_some_iff.2 (.inr hc)) (hp o)

theorem exists_token?_of_isWord {w : String} (h : s.isWord i w = true) :
    ∃ t, s.token? i = some t ∧ t.isWord w = true := by
  simpa [isWord, Option.any_eq_true] using h

/-- The walk to the visibility goes on past the token: a qualifier, or the calling convention of
`extern`. -/
def isPassed (s : Scan) (i : Nat) : Bool :=
  (s.token? i).any fun t =>
    t.isQualifier || (t.isPlainString && i != 0 && s.isWord (i - 1) "extern")

theorem isPassed_iff :
    s.isPassed i = true ↔ ∃ t, s.token? i = some t ∧
      (t.isQualifier = true ∨ t.isPlainString = true ∧ i ≠ 0 ∧
        s.isWord (i - 1) "extern" = true) := by
  simp [isPassed, Option.any_eq_true, and_assoc]

/-- Where the walk comes to that does not go on past the token `i`. -/
inductive Arrives (s : Scan) (i : Nat) : Nat → Prop
  | pub (hw : s.isWord i "pub" = true) : Arrives s i i
  | restricted {o : Nat} (hk : s.kind? i = some (.closer .paren)) (hc : Closes s.kinds (o + 1) i)
      (hw : s.isWord o "pub" = true) : Arrives s i o
  | bare (hpub : s.isWord i "pub" = false)
      (hout : ∀ o, s.kind? i = some (.closer .paren) → Closes s.kinds (o + 1) i →
        s.isWord o "pub" = false) : Arrives s i (i + 1)

theorem Token.kind_of_isPlainString (h : t.isPlainString = true) :
    t.kind = .literal .str ∨ t.kind = .literal .rawStr := by
  simpa [Token.isPlainString] using h

theorem reach_of_isPassed (h : s.isPassed i = true) : s.reach (i + 1) = s.reach i := by
  obtain ⟨t, ht, h⟩ := isPassed_iff.1 h
  rw [reach, token_eq_ok ht, Checked.ok_bind]
  rcases h with hq | ⟨hstr, hi, hw⟩
  · obtain ⟨w, hw, hword⟩ := Token.exists_isWord_of_isQualifier hq
    have hne : ∀ w ∈ qualifierWords, w ≠ "pub" := by decide
    rw [if_neg (by simp [Token.isWord_eq_false hword (hne w hw)]), if_pos hq]
  · have hpub : ¬ t.isWord "pub" = true := by
      intro hpub
      have hkind := Token.kind_of_isWord hpub
      simp [Token.isPlainString, hkind] at hstr
    rw [if_neg hpub]
    split
    · rfl
    · rw [if_pos (by simp [hstr, hi, hw])]

theorem Faithful.exists_arrives (hs : s.Faithful) (hi : i < s.size) (h : s.isPassed i = false) :
    ∃ r, s.reach (i + 1) = .ok r ∧ s.Arrives i r.first := by
  obtain ⟨t, ht⟩ := exists_token? hi
  have hnot : ¬ (t.isQualifier = true ∨
      t.isPlainString = true ∧ i ≠ 0 ∧ s.isWord (i - 1) "extern" = true) := by
    intro hp
    rw [isPassed_iff.2 ⟨t, ht, hp⟩] at h
    cases h
  rw [reach, token_eq_ok ht, Checked.ok_bind]
  by_cases hpub : t.isWord "pub" = true
  · rw [if_pos hpub]
    exact ⟨_, rfl, .pub (by simp [isWord, ht, hpub])⟩
  have hword : s.isWord i "pub" = false := by simp [isWord, ht, hpub]
  have hstr : ¬ (t.isPlainString && i != 0 && s.isWord (i - 1) "extern") = true := by
    intro h
    simp only [Bool.and_eq_true, bne_iff_ne] at h
    exact hnot (.inr ⟨h.1.1, h.1.2, h.2⟩)
  rw [if_neg hpub, if_neg (fun hq => hnot (.inl hq)), if_neg hstr]
  by_cases hclose : t.kind = .closer .paren
  · rw [if_pos hclose]
    rcases hs.restrictedReach?_cases ht hclose with ⟨hr, hout⟩ | ⟨o, v, span, hr, hc, hw⟩
    · rw [hr]
      exact ⟨_, rfl, .bare hword fun o _ => hout o⟩
    · rw [hr]
      exact ⟨_, rfl, .restricted (by simp [kind?, ht, hclose]) hc hw⟩
  · rw [if_neg hclose]
    refine ⟨_, rfl, .bare hword ?_⟩
    intro o hk
    rw [kind?, ht] at hk
    exact absurd (Option.some.inj hk) hclose

namespace Arrives

theorem le (h : s.Arrives i o) : o ≤ i + 1 := by
  cases h with
  | pub => exact Nat.le_succ i
  | restricted hk hc hw => exact Nat.le_of_lt (Nat.lt_succ_of_lt (Nat.lt_of_succ_lt hc.lt))
  | bare => exact Nat.le_refl _

theorem unique (h : s.Arrives i o) (h' : s.Arrives i n) : o = n := by
  have hword (hw : s.isWord i "pub" = true) : s.kind? i ≠ some (.closer .paren) := by
    obtain ⟨t, ht, hword⟩ := exists_token?_of_isWord hw
    simp [kind?, ht, Token.kind_of_isWord hword]
  cases h with
  | pub hw =>
    cases h' with
    | pub => rfl
    | restricted hk => exact absurd hk (hword hw)
    | bare hpub => simp [hw] at hpub
  | restricted hk hc hw =>
    cases h' with
    | pub hw => exact absurd hk (hword hw)
    | restricted hk' hc' => exact Nat.succ.inj (hc.left_unique hc')
    | bare hpub hout => simp [hout o hk hc] at hw
  | bare hpub hout =>
    cases h' with
    | pub hw => simp [hw] at hpub
    | restricted hk hc hw => simp [hout n hk hc] at hw
    | bare => rfl

theorem clear (h : s.Arrives i o) (hs : s.Faithful) (ho : openBefore s.kinds (i + 1) = []) :
    s.Clear o (i + 1) := by
  cases h with
  | pub hw =>
    obtain ⟨t, ht, hword⟩ := exists_token?_of_isWord hw
    exact .word ho ht hword (by decide)
  | restricted hk hc hw =>
    have hg : s.Clear (o + 1) (i + 1) := .group hs hc ho hk (by decide)
    obtain ⟨p, hp, hword⟩ := exists_token?_of_isWord hw
    exact (Clear.word hg.opened hp hword (by decide)).trans hg
  | bare => exact .refl ho

end Arrives

theorem clear_of_isPassed (h : s.isPassed i = true) (ho : openBefore s.kinds (i + 1) = []) :
    s.Clear i (i + 1) := by
  obtain ⟨t, ht, h⟩ := isPassed_iff.1 h
  rcases h with hq | ⟨hstr, -⟩
  · obtain ⟨w, hw, hword⟩ := Token.exists_isWord_of_isQualifier hq
    have hne : ∀ w ∈ qualifierWords, w ≠ "fn" := by decide
    exact .word ho ht hword (hne w hw)
  · rcases Token.kind_of_isPlainString hstr with hkind | hkind <;>
      exact .other ho ht (by simp [hkind]) (by simp [hkind]) (by simp [hkind]) (by simp [hkind])

/-- The walk to the visibility passes over clear tokens only. -/
theorem Faithful.exists_reach (hs : s.Faithful) (hi : i ≤ s.size)
    (ho : openBefore s.kinds i = []) : ∃ r, s.reach i = .ok r ∧ s.Clear r.first i := by
  induction i with
  | zero => exact ⟨_, rfl, .refl ho⟩
  | succ i ih =>
    by_cases hp : s.isPassed i = true
    · have hc := clear_of_isPassed hp ho
      obtain ⟨r, hr, hclear⟩ := ih (by omega) hc.opened
      exact ⟨r, (reach_of_isPassed hp).trans hr, hclear.trans hc⟩
    · obtain ⟨r, hr, harr⟩ := hs.exists_arrives hi (by simpa using hp)
      exact ⟨r, hr, harr.clear hs ho⟩

/-- Whatever groups are open, the walk never fails and goes back only. -/
theorem Faithful.exists_reach_le (hs : s.Faithful) (hi : i ≤ s.size) :
    ∃ r, s.reach i = .ok r ∧ r.first ≤ i := by
  induction i with
  | zero => exact ⟨_, rfl, Nat.le_refl 0⟩
  | succ i ih =>
    by_cases hp : s.isPassed i = true
    · obtain ⟨r, hr, hle⟩ := ih (by omega)
      exact ⟨r, (reach_of_isPassed hp).trans hr, Nat.le_succ_of_le hle⟩
    · obtain ⟨r, hr, harr⟩ := hs.exists_arrives hi (by simpa using hp)
      exact ⟨r, hr, harr.le⟩

theorem Faithful.reach_le (hs : s.Faithful) {r : Reach} (hi : i ≤ s.size) (h : s.reach i = .ok r) :
    r.first ≤ i := by
  obtain ⟨r', hr', hle⟩ := hs.exists_reach_le hi
  rw [hr'] at h
  cases h
  exact hle

theorem Faithful.exists_isAttached (hs : s.Faithful) (ht : s.token? i = some t)
    (hu : s.token? j = some u) (hij : i < j) : ∃ b, s.isAttached t u = .ok b := by
  obtain ⟨before, after, htext, hb⟩ := hs.boundary_start ht
  have hbefore : textBefore s.text t.start = .ok before := by
    rw [htext, ← hb, textBefore_append]
  obtain ⟨inside, hin⟩ := hs.exists_slice ht hu hij
  simp only [isAttached, startsLine, hbefore, Checked.ok_bind, Checked.pure_eq, directlyAbove, hin]
  split
  · exact ⟨_, rfl⟩
  · exact ⟨_, rfl⟩

theorem attributeStart?_eq_some {h : Nat} (ha : s.attributeStart? i = some h) :
    s.partner? i = some (h + 1) ∧ s.kind? h = some (.punct '#') := by
  unfold attributeStart? at ha
  split at ha
  · rename_i o hp
    split at ha
    · rename_i hk
      cases ha
      exact ⟨hp, hk⟩
    · cases ha
  · cases ha

theorem Faithful.attributeStart?_of_closes (hs : s.Faithful) {h : Nat}
    (hc : Closes s.kinds (h + 1) i) (hk : s.kind? h = some (.punct '#')) :
    s.attributeStart? i = some h := by
  simp [attributeStart?, hs.partner?_eq_some_iff.2 (.inr hc), hk]

/-- The walk over comments and attributes goes back to `o` from the token behind `i`. -/
inductive LeadStep (s : Scan) (i : Nat) : Nat → Prop
  | doc {t : Token} (ht : s.token? i = some t) (hk : t.kind = .comment .outerDoc) : LeadStep s i i
  | comment {t u : Token} (ht : s.token? i = some t)
      (hk : t.kind = .comment .line ∨ t.kind = .comment .block) (hu : s.token? (i + 1) = some u)
      (h : s.isAttached t u = .ok true) : LeadStep s i i
  | attr {o : Nat} (hk : s.kind? i = some (.closer .bracket)) (hc : Closes s.kinds (o + 1) i)
      (hhash : s.kind? o = some (.punct '#')) : LeadStep s i o

/-- Where there is no such step, the walk ends. -/
theorem Faithful.leadFrom_of_not_step (hs : s.Faithful) (hi : i + 1 < s.size)
    (h : ∀ o, ¬ s.LeadStep i o) : s.leadFrom (i + 1) = .ok (i + 1) := by
  obtain ⟨t, ht⟩ := exists_token? (Nat.lt_of_succ_lt hi)
  obtain ⟨u, hu⟩ := exists_token? hi
  have detached (hk : t.kind = .comment .line ∨ t.kind = .comment .block) :
      (do if ← s.isAttached t (← s.token (i + 1)) then s.leadFrom i else return i + 1) =
        Except.ok (i + 1) := by
    obtain ⟨b, hb⟩ := hs.exists_isAttached ht hu (Nat.lt_succ_self i)
    rw [token_eq_ok hu, Checked.ok_bind, hb, Checked.ok_bind]
    cases b with
    | true => exact absurd (.comment ht hk hu hb) (h i)
    | false => rfl
  rw [leadFrom, token_eq_ok ht, Checked.ok_bind]
  split
  · exact absurd (.doc ht ‹_›) (h i)
  · exact detached (.inl ‹_›)
  · exact detached (.inr ‹_›)
  · rename_i hk
    split
    · rename_i o hattr
      obtain ⟨hp, hhash⟩ := attributeStart?_eq_some hattr
      have hkind : s.kind? i = some (.closer .bracket) := by simp [kind?, ht, hk]
      exact absurd (.attr hkind (hs.closes_of_closer hkind hp) hhash) (h o)
    · rfl
  · rfl

namespace LeadStep

theorem lt (h : s.LeadStep i o) : o < i + 1 := by
  cases h with
  | doc => exact Nat.lt_succ_self i
  | comment => exact Nat.lt_succ_self i
  | attr hk hc hhash => exact Nat.lt_succ_of_lt (Nat.lt_of_succ_lt hc.lt)

/-- Such a step passes a comment, or an attribute's closing bracket. -/
theorem exists_token (h : s.LeadStep i o) :
    ∃ t, s.token? i = some t ∧ ((∃ kind, t.kind = .comment kind) ∨ t.kind = .closer .bracket) := by
  cases h with
  | doc ht hk => exact ⟨_, ht, .inl ⟨_, hk⟩⟩
  | comment ht hk hu h =>
    rcases hk with hk | hk
    · exact ⟨_, ht, .inl ⟨_, hk⟩⟩
    · exact ⟨_, ht, .inl ⟨_, hk⟩⟩
  | attr hk hc hhash =>
    obtain ⟨t, ht, hkind⟩ := Option.map_eq_some_iff.1 hk
    exact ⟨t, ht, .inr hkind⟩

theorem leadFrom_eq (h : s.LeadStep i o) (hs : s.Faithful) : s.leadFrom (i + 1) = s.leadFrom o := by
  cases h with
  | doc ht hk => rw [leadFrom, token_eq_ok ht, Checked.ok_bind, hk]
  | comment ht hk hu h =>
    rw [leadFrom, token_eq_ok ht, Checked.ok_bind]
    rcases hk with hk | hk <;>
      simp only [hk, token_eq_ok hu, Checked.ok_bind, h, if_true]
  | attr hk hc hhash =>
    obtain ⟨t, ht, hkind⟩ := Option.map_eq_some_iff.1 hk
    have hlt := hc.lt
    rw [leadFrom, token_eq_ok ht, Checked.ok_bind]
    simp only [hkind, hs.attributeStart?_of_closes hc hhash, if_pos (show o < i by omega)]

theorem clear (h : s.LeadStep i o) (hs : s.Faithful) (ho : openBefore s.kinds (i + 1) = []) :
    s.Clear o (i + 1) := by
  cases h with
  | doc ht hk => exact .other ho ht (by simp [hk]) (by simp [hk]) (by simp [hk]) (by simp [hk])
  | comment ht hk hu h =>
    rcases hk with hk | hk <;>
      exact .other ho ht (by simp [hk]) (by simp [hk]) (by simp [hk]) (by simp [hk])
  | attr hk hc hhash =>
    have hg : s.Clear (o + 1) (i + 1) := .group hs hc ho hk (by decide)
    obtain ⟨x, hx, hxk⟩ := Option.map_eq_some_iff.1 hhash
    have hclear : s.Clear o (o + 1) :=
      .other hg.opened hx (by simp [hxk]) (by simp [hxk]) (by simp [hxk]) (by simp [hxk])
    exact hclear.trans hg

end LeadStep

/-- The walk over comments and attributes never fails either, and goes back only. -/
theorem Faithful.exists_leadFrom_le (hs : s.Faithful) (hi : i < s.size) :
    ∃ lead, s.leadFrom i = .ok lead ∧ lead ≤ i := by
  induction i using Nat.strongRecOn with
  | ind i ih =>
    cases i with
    | zero => exact ⟨0, by rw [leadFrom], Nat.le_refl 0⟩
    | succ i =>
      by_cases hstep : ∃ o, s.LeadStep i o
      · obtain ⟨o, hstep⟩ := hstep
        have hlt := hstep.lt
        obtain ⟨lead, hl, hle⟩ := ih o hlt (by omega)
        exact ⟨lead, (hstep.leadFrom_eq hs).trans hl, Nat.le_trans hle (Nat.le_of_lt hlt)⟩
      · exact ⟨i + 1, hs.leadFrom_of_not_step hi (not_exists.1 hstep), Nat.le_refl _⟩

theorem Faithful.leadFrom_le (hs : s.Faithful) {lead : Nat} (hi : i < s.size)
    (h : s.leadFrom i = .ok lead) : lead ≤ i := by
  obtain ⟨lead', hl, hle⟩ := hs.exists_leadFrom_le hi
  rw [hl] at h
  cases h
  exact hle

/-- Outside all groups it passes over clear tokens only. -/
theorem Faithful.exists_leadFrom (hs : s.Faithful) (hi : i < s.size)
    (ho : openBefore s.kinds i = []) : ∃ lead, s.leadFrom i = .ok lead ∧ s.Clear lead i := by
  induction i using Nat.strongRecOn with
  | ind i ih =>
    cases i with
    | zero => exact ⟨0, by rw [leadFrom], .refl ho⟩
    | succ i =>
      by_cases hstep : ∃ o, s.LeadStep i o
      · obtain ⟨o, hstep⟩ := hstep
        have hlt := hstep.lt
        have hc := hstep.clear hs ho
        obtain ⟨lead, hl, hclear⟩ := ih o hlt (by omega) hc.opened
        exact ⟨lead, (hstep.leadFrom_eq hs).trans hl, hclear.trans hc⟩
      · exact ⟨i + 1, hs.leadFrom_of_not_step hi (not_exists.1 hstep), .refl ho⟩

/-- Where a head lies among the tokens: from `lead` on with its comments and attributes, from
`first` on without. -/
structure HeadAt (s : Scan) (keyword : Nat) (h : Head) (lead first : Nat) : Prop where
  lead_le : lead ≤ first
  starts : s.StartsAt lead h.start
  itemStarts : s.StartsAt first h.itemStart
  clear : s.Clear lead keyword
  first_le : first ≤ keyword
  reach : ∃ r, s.reach keyword = .ok r ∧ r.first = first
  leadFrom : s.leadFrom first = .ok lead

/-- What the two walks make a head of. -/
theorem Faithful.head_eq (hs : s.Faithful) {r : Reach} {lead : Nat} (hr : s.reach k = .ok r)
    (hl : s.leadFrom r.first = .ok lead) (hu : s.token? lead = some u)
    (ht : s.token? r.first = some t) (hle : lead ≤ r.first) :
    s.head k = .ok ⟨u.start, t.start, if u.start < t.start then some ⟨u.start, t.start⟩ else none,
      r.visibility, r.visibilitySpan⟩ := by
  have hspan : Span.make u.start t.start = .ok ⟨u.start, t.start⟩ :=
    Span.make_eq_ok_iff.2 ⟨hs.start_le_start hu ht hle, rfl⟩
  simp only [head, hr, hl, token_eq_ok ht, token_eq_ok hu, Checked.ok_bind, hspan]
  split <;> rfl

/-- Every keyword outside all groups has a head, which reaches over no barrier. -/
theorem Faithful.exists_head (hs : s.Faithful) (hk : k < s.size) (ho : openBefore s.kinds k = []) :
    ∃ h lead first, s.head k = .ok h ∧ s.HeadAt k h lead first := by
  obtain ⟨r, hr, hclear⟩ := hs.exists_reach (Nat.le_of_lt hk) ho
  have hfirst : r.first < s.size := Nat.lt_of_le_of_lt hclear.le hk
  obtain ⟨lead, hl, hlead⟩ := hs.exists_leadFrom hfirst hclear.opened
  obtain ⟨t, ht⟩ := exists_token? hfirst
  obtain ⟨u, hu⟩ := exists_token? (Nat.lt_of_le_of_lt hlead.le hfirst)
  exact ⟨_, lead, r.first, hs.head_eq hr hl hu ht hlead.le, hlead.le, ⟨u, hu, rfl⟩, ⟨t, ht, rfl⟩,
    hlead.trans hclear, hclear.le, ⟨r, hr, rfl⟩, hl⟩

/-- What a head tells of the walks that found it. -/
theorem head_eq_ok {h : Head} (hh : s.head k = .ok h) :
    ∃ r lead, s.reach k = .ok r ∧ s.leadFrom r.first = .ok lead ∧ s.StartsAt lead h.start ∧
      s.StartsAt r.first h.itemStart ∧ h.visibility = r.visibility ∧
      h.visibilitySpan = r.visibilitySpan ∧ (h.leading = none → h.itemStart ≤ h.start) := by
  have hstarts {i : Nat} {t : Token} (ht : s.token i = .ok t) : s.StartsAt i t.start :=
    ⟨t, token?_of_token ht, rfl⟩
  obtain ⟨r, hr, hh⟩ := Checked.bind_eq_ok.1 hh
  obtain ⟨t, ht, hh⟩ := Checked.bind_eq_ok.1 hh
  obtain ⟨lead, hl, hh⟩ := Checked.bind_eq_ok.1 hh
  obtain ⟨u, hu, hh⟩ := Checked.bind_eq_ok.1 hh
  simp only at hh
  split at hh
  · obtain ⟨leading, hleading, hh⟩ := Checked.bind_eq_ok.1 hh
    obtain ⟨span, -, rfl⟩ := Checked.map_eq_ok.1 hleading
    cases hh
    exact ⟨r, lead, hr, hl, hstarts hu, hstarts ht, rfl, rfl, by simp⟩
  · rename_i hlt
    cases hh
    exact ⟨r, lead, hr, hl, hstarts hu, hstarts ht, rfl, rfl, fun _ => Nat.le_of_not_lt hlt⟩

/-- Where an item lies among the tokens: its keyword at `k`, its head from `lead` on, its end before
`stop`. -/
structure ItemAt (s : Scan) (blockEnds : Bool) (k : Nat) (span : Span) (h : Head)
    (lead first stop : Nat) : Prop where
  keyword : s.isTopLevel k = true
  kind : s.kind? k = some .ident
  head : s.HeadAt k h lead first
  start : span.start = h.start
  ends : s.EndsItem blockEnds (k + 1) stop span.stop

namespace ItemAt

variable {blockEnds : Bool} {span : Span} {h : Head} {lead first stop : Nat}

theorem lt_size (hi : s.ItemAt blockEnds k span h lead first stop) : k < s.size := by
  obtain ⟨t, ht, -⟩ := Option.map_eq_some_iff.1 hi.kind
  exact Scan.lt_size ht

theorem openBefore_eq_nil (hi : s.ItemAt blockEnds k span h lead first stop) (hs : s.Faithful) :
    openBefore s.kinds k = [] :=
  hs.openBefore_eq_nil hi.keyword (by simp [hi.kind])

theorem lt_stop (hi : s.ItemAt blockEnds k span h lead first stop) : k < stop :=
  hi.ends.le hi.lt_size

theorem holds (hi : s.ItemAt blockEnds k span h lead first stop) : s.Holds span lead stop :=
  ⟨Nat.lt_of_le_of_lt hi.head.clear.le hi.lt_stop, hi.start ▸ hi.head.starts, hi.ends.stopsBefore⟩

end ItemAt

end Scan
end Unbundle
