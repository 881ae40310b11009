import Unbundle.Proofs.Scan.Pairing
import Unbundle.Proofs.Token.Run
import Unbundle.Scan.Group

/-! Where the tokens of a scan lie in its text, and which of them a span holds. -/
namespace Unbundle
namespace Scan

variable {s : Scan} {i j n a b : Nat} {t u : Token} {span other : Span}

/-- The scan is what reading its text gives. -/
def Faithful (s : Scan) : Prop := s = ofText s.text

theorem faithful_ofText (text : Text) : (ofText text).Faithful := rfl

def kinds (s : Scan) : List TokenKind := s.tokens.toList.map Token.kind

theorem getElem?_kinds (s : Scan) (i : Nat) : s.kinds[i]? = s.kind? i := by
  simp [kinds, kind?, token?]

theorem kinds_of_token? (ht : s.token? i = some t) : s.kinds[i]? = some t.kind := by
  rw [getElem?_kinds, kind?, ht]
  rfl

theorem exists_token? (hi : i < s.size) : ∃ t, s.token? i = some t :=
  ⟨_, Array.getElem?_eq_getElem hi⟩

theorem lt_size (ht : s.token? i = some t) : i < s.size := by
  rw [token?, Array.getElem?_eq_some_iff] at ht
  exact ht.1

theorem drop_tokens (ht : s.token? i = some t) :
    s.tokens.toList.drop i = t :: s.tokens.toList.drop (i + 1) := by
  rw [token?, ← Array.getElem?_toList] at ht
  obtain ⟨hi, rfl⟩ := List.getElem?_eq_some_iff.1 ht
  exact List.drop_eq_getElem_cons hi

theorem token_eq_ok (ht : s.token? i = some t) : s.token i = .ok t := by
  unfold token
  rw [token?] at ht
  rw [ht]

theorem token?_of_token (ht : s.token i = .ok t) : s.token? i = some t := by
  unfold token at ht
  split at ht
  · rename_i u hu
    cases ht
    exact hu
  · cases ht

namespace Faithful

theorem tokens_eq (hs : s.Faithful) : s.tokens.toList = tokenize s.text := by
  rw [hs]
  rfl

theorem isTopLevel_iff (hs : s.Faithful) :
    s.isTopLevel i = true ↔ i < s.size ∧ depthAt s.kinds i = 0 := by
  have hd : s.depths = (Pairing.ofKinds [] 0 s.kinds).depths.toArray := by
    rw [hs]
    rfl
  have hlen : s.kinds.length = s.size := by simp [kinds, size]
  rw [isTopLevel, hd, List.getElem?_toArray, Pairing.getElem?_depths_ofKinds, hlen]
  by_cases hi : i < s.size <;> simp [hi]

theorem partner?_eq_some_iff (hs : s.Faithful) :
    s.partner? i = some j ↔ Closes s.kinds i j ∨ Closes s.kinds j i := by
  have hp : s.pairing = Pairing.ofKinds [] 0 s.kinds := by
    rw [hs]
    rfl
  rw [partner?, hp, Pairing.partner?_ofKinds]

theorem mem_tokenize (hs : s.Faithful) (ht : s.token? i = some t) : t ∈ tokenize s.text := by
  rw [← hs.tokens_eq]
  exact List.mem_of_getElem? (i := i) (by simpa [token?] using ht)

theorem stop_le_start (hs : s.Faithful) (ht : s.token? i = some t) (hu : s.token? j = some u)
    (hij : i < j) : t.stop ≤ u.start := by
  have hp := pairwise_tokenize s.text
  rw [← hs.tokens_eq, List.pairwise_iff_getElem] at hp
  rw [token?, Array.getElem?_eq_some_iff] at ht hu
  obtain ⟨hi, rfl⟩ := ht
  obtain ⟨hj, rfl⟩ := hu
  exact hp i j hi hj hij

theorem start_lt_stop (hs : s.Faithful) (ht : s.token? i = some t) : t.start < t.stop := by
  obtain ⟨before, after, -, -, hne⟩ := exists_place_of_mem_tokenize (hs.mem_tokenize ht)
  have := byteLength_pos hne
  rw [Token.stop]
  omega

theorem start_le_start (hs : s.Faithful) (ht : s.token? i = some t) (hu : s.token? j = some u)
    (hij : i ≤ j) : t.start ≤ u.start := by
  rcases Nat.eq_or_lt_of_le hij with rfl | hlt
  · rw [ht] at hu
    cases hu
    exact Nat.le_refl _
  · have := hs.start_lt_stop ht
    have := hs.stop_le_start ht hu hlt
    omega

theorem stop_le_stop (hs : s.Faithful) (ht : s.token? i = some t) (hu : s.token? j = some u)
    (hij : i ≤ j) : t.stop ≤ u.stop := by
  rcases Nat.eq_or_lt_of_le hij with rfl | hlt
  · rw [ht] at hu
    cases hu
    exact Nat.le_refl _
  · have := hs.stop_le_start ht hu hlt
    have := hs.start_lt_stop hu
    omega

theorem start_lt_start_iff (hs : s.Faithful) (ht : s.token? i = some t)
    (hu : s.token? j = some u) : t.start < u.start ↔ i < j := by
  constructor
  · intro hlt
    apply Nat.lt_of_not_le
    intro hji
    have := hs.start_le_start hu ht hji
    omega
  · intro hij
    have := hs.start_lt_stop ht
    have := hs.stop_le_start ht hu hij
    omega

theorem boundary_start (hs : s.Faithful) (ht : s.token? i = some t) : Boundary s.text t.start := by
  obtain ⟨before, after, htext, hb, -⟩ := exists_place_of_mem_tokenize (hs.mem_tokenize ht)
  exact ⟨before, t.chars ++ after, htext, hb⟩

theorem boundary_stop (hs : s.Faithful) (ht : s.token? i = some t) : Boundary s.text t.stop := by
  obtain ⟨before, after, htext, hb, -⟩ := exists_place_of_mem_tokenize (hs.mem_tokenize ht)
  refine ⟨before ++ t.chars, after, by rw [htext, List.append_assoc], ?_⟩
  rw [byteLength_append, hb, Token.stop]

/-- The tokens before the first one from an offset on are those that start before the offset. -/
theorem lt_firstFrom_iff (hs : s.Faithful) (ht : s.token? i = some t) (offset : Nat) :
    i < s.firstFrom offset ↔ t.start < offset := by
  have hi := lt_size ht
  constructor
  · intro hlt
    have := Array.not_of_lt_findIdx hlt
    rw [token?, Array.getElem?_eq_some_iff] at ht
    obtain ⟨-, rfl⟩ := ht
    simpa using this
  · intro hlt
    refine Array.lt_findIdx_of_not hi ?_
    intro j hji
    have := hs.start_le_start (Array.getElem?_eq_getElem (Nat.lt_of_le_of_lt hji hi)) ht hji
    simp only [decide_eq_true_eq]
    omega

end Faithful

theorem firstFrom_le_size (s : Scan) (offset : Nat) : s.firstFrom offset ≤ s.size :=
  Array.findIdx_le_size

def StartsAt (s : Scan) (a offset : Nat) : Prop := ∃ t, s.token? a = some t ∧ t.start = offset

/-- The offset is the end of the last token before `b`, or `b` and the offset are both the end of
all. -/
inductive StopsBefore (s : Scan) : Nat → Nat → Prop
  | token {i : Nat} {t : Token} (ht : s.token? i = some t) : StopsBefore s (i + 1) t.stop
  | text : StopsBefore s s.size (byteLength s.text)

namespace StopsBefore

variable {offset : Nat}

theorem le_size (h : s.StopsBefore b offset) : b ≤ s.size := by
  cases h with
  | token ht => exact lt_size ht
  | text => exact Nat.le_refl _

theorem boundary (h : s.StopsBefore b offset) (hs : s.Faithful) : Boundary s.text offset := by
  cases h with
  | token ht => exact hs.boundary_stop ht
  | text => exact ⟨s.text, [], (List.append_nil s.text).symm, rfl⟩

theorem start_lt_iff (h : s.StopsBefore b offset) (hs : s.Faithful) (ht : s.token? i = some t) :
    t.start < offset ↔ i < b := by
  cases h with
  | @token j u hu =>
    have hpos := hs.start_lt_stop hu
    rcases Nat.lt_trichotomy i j with hij | rfl | hji
    · have := (hs.start_lt_start_iff ht hu).2 hij
      omega
    · rw [ht] at hu
      cases hu
      omega
    · have := hs.stop_le_start hu ht hji
      omega
  | text =>
    have := hs.start_lt_stop ht
    have := (hs.boundary_stop ht).le
    have := lt_size ht
    omega

theorem stop_le (h : s.StopsBefore b offset) (hs : s.Faithful) (ht : s.token? i = some t)
    (hib : i < b) : t.stop ≤ offset := by
  cases h with
  | token hu => exact hs.stop_le_stop ht hu (Nat.le_of_lt_succ hib)
  | text => exact (hs.boundary_stop ht).le

/-- Going on from the offset is going on from the token. -/
theorem firstFrom_eq (h : s.StopsBefore b offset) (hs : s.Faithful) : s.firstFrom offset = b := by
  have hb := h.le_size
  have hf := s.firstFrom_le_size offset
  rcases Nat.lt_trichotomy (s.firstFrom offset) b with hlt | heq | hgt
  · obtain ⟨t, ht⟩ := exists_token? (Nat.lt_of_lt_of_le hlt hb)
    have := (hs.lt_firstFrom_iff ht offset).2 ((h.start_lt_iff hs ht).2 hlt)
    omega
  · exact heq
  · obtain ⟨t, ht⟩ := exists_token? (Nat.lt_of_lt_of_le hgt hf)
    have := (h.start_lt_iff hs ht).1 ((hs.lt_firstFrom_iff ht offset).1 hgt)
    omega

end StopsBefore

/-- The span holds the tokens from `a` up to, and without, `b`. -/
structure Holds (s : Scan) (span : Span) (a b : Nat) : Prop where
  lt : a < b
  starts : s.StartsAt a span.start
  stops : s.StopsBefore b span.stop

namespace Holds

variable {c d : Nat}

theorem contains_iff (h : s.Holds span a b) (hs : s.Faithful) (ht : s.token? i = some t) :
    span.contains t.start = true ↔ a ≤ i ∧ i < b := by
  obtain ⟨u, hu, hstart⟩ := h.starts
  have hlt := hs.start_lt_start_iff ht hu
  rw [Span.contains_iff, h.stops.start_lt_iff hs ht]
  omega

theorem stop_le_start (h : s.Holds span a b) (hs : s.Faithful) (h' : s.StartsAt c other.start)
    (hbc : b ≤ c) : span.stop ≤ other.start := by
  obtain ⟨u, hu, hstart⟩ := h'
  have := h.stops.start_lt_iff hs hu
  omega

theorem start_lt_stop (h : s.Holds span a b) (hs : s.Faithful) : span.start < span.stop := by
  obtain ⟨u, hu, hstart⟩ := h.starts
  have := (h.stops.start_lt_iff hs hu).2 h.lt
  omega

/-- The text of a span that holds tokens can be cut out. -/
theorem exists_slice (h : s.Holds span a b) (hs : s.Faithful) :
    ∃ inside, s.slice span.start span.stop = .ok inside := by
  obtain ⟨u, hu, hstart⟩ := h.starts
  obtain ⟨before, inside, after, -, -, -, hin⟩ :=
    Unbundle.exists_slice (hstart ▸ hs.boundary_start hu) (h.stops.boundary hs)
      (Nat.le_of_lt (h.start_lt_stop hs))
  exact ⟨inside, hin⟩

end Holds

theorem StartsAt.lt_iff {m n : Nat} (ha : s.StartsAt a m) (hb : s.StartsAt b n) (hs : s.Faithful) :
    m < n ↔ a < b := by
  obtain ⟨t, ht, rfl⟩ := ha
  obtain ⟨u, hu, rfl⟩ := hb
  exact hs.start_lt_start_iff ht hu

/-- The first token from an offset on is the one that starts there. -/
theorem StartsAt.firstFrom_eq {offset : Nat} (h : s.StartsAt a offset) (hs : s.Faithful) :
    s.firstFrom offset = a := by
  obtain ⟨t, ht, rfl⟩ := h
  have hnot := hs.lt_firstFrom_iff ht t.start
  have hle := s.firstFrom_le_size t.start
  rcases Nat.eq_or_lt_of_le (Nat.le_of_not_lt (fun hlt => Nat.lt_irrefl _ (hnot.1 hlt))) with
    heq | hlt
  · exact heq
  · obtain ⟨u, hu⟩ := exists_token? (Nat.lt_trans hlt (lt_size ht))
    have hu' := hs.lt_firstFrom_iff hu t.start
    have := (hs.start_lt_start_iff hu ht).2 hlt
    omega

end Scan
end Unbundle
