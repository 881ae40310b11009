import Unbundle.Proofs.Token.Locality.Quoted

/-! Raw strings, and the words and literals that begin with one of the letters they may begin with,
are read the same before texts that look the same. -/
namespace Unbundle

variable {c q : Char} {cs x y : Text} {hashes : Nat}

theorem rest_rawBody (h : (rawBody hashes cs).closed = false) : (rawBody hashes cs).rest = [] := by
  fun_induction rawBody hashes cs <;> simp_all [Cut.after]

theorem length_taken_rawBody (h : (rawBody hashes cs).closed = true) :
    hashes < (rawBody hashes cs).taken.length := by
  fun_induction rawBody hashes cs with
  | case1 => simp at h
  | case2 c cs hc =>
    have := (List.isPrefixOf_iff_prefix.1 hc.2).length_le
    simp at this
    simp [this]
  | case3 c cs hc ih =>
    have := ih h
    simp only [Cut.after, List.cons_append, List.length_cons]
    simp
    omega

theorem rawBody_append (h : (rawBody hashes cs).closed = true) (y : Text) :
    rawBody hashes ((rawBody hashes cs).taken ++ y) = (rawBody hashes cs).withRest y := by
  fun_induction rawBody hashes cs with
  | case1 => simp at h
  | case2 c cs hc =>
    obtain ⟨rest, rfl⟩ := List.isPrefixOf_iff_prefix.1 hc.2
    have : (List.replicate hashes '#').isPrefixOf (List.replicate hashes '#' ++ y) := by simp
    simp [rawBody, hc.1, Cut.withRest]
  | case3 c cs hc ih =>
    have hlen := length_taken_rawBody h
    have hw := whole_rawBody hashes cs
    have ih := ih h
    have hsame : (List.replicate hashes '#').isPrefixOf ((rawBody hashes cs).taken ++ y) =
        (List.replicate hashes '#').isPrefixOf cs := by
      have htake (z : Text) :
          ((rawBody hashes cs).taken ++ z).take hashes = (rawBody hashes cs).taken.take hashes :=
        List.take_append_of_le_length (Nat.le_of_lt hlen)
      have hcs : cs.take hashes = (rawBody hashes cs).taken.take hashes := by
        rw [← htake (rawBody hashes cs).rest]
        exact congrArg (List.take hashes) hw.symm
      rw [Bool.eq_iff_iff, List.isPrefixOf_iff_prefix, List.isPrefixOf_iff_prefix,
        List.prefix_iff_eq_take, List.prefix_iff_eq_take, List.length_replicate, htake, hcs]
    simp only [Cut.after, List.cons_append, List.nil_append, rawBody, hsame, if_neg hc, ih]
    rfl

theorem rawString?_eq_none_iff :
    rawString? cs = none ↔ (cs.dropWhile (· == '#')).head? ≠ some '"' := by
  unfold rawString?
  split
  · simp_all
  · rename_i hne
    cases hd : cs.dropWhile (· == '#') with
    | nil => simp
    | cons b bs => simp_all

theorem rawString?_none_of_ahead (h : Ahead x y) (hn : rawString? x = none) :
    rawString? y = none := by
  rw [rawString?_eq_none_iff] at hn ⊢
  rwa [← h.dropWhile_hash.2.head?_eq]

theorem rawString?_append {cut : Cut} (h : rawString? cs = some cut) (hr : cut.rest ≠ [])
    (y : Text) : rawString? (cut.taken ++ y) = some (cut.withRest y) := by
  unfold rawString? at h
  split at h
  · rename_i body hb
    cases h
    have hclosed : (rawBody (cs.takeWhile (· == '#')).length body).closed = true := by
      rw [← Bool.not_eq_false]
      exact fun hf => hr (rest_rawBody hf)
    have hall : ∀ b ∈ cs.takeWhile (· == '#'), (b == '#') = true := by
      intro b hb
      exact List.all_eq_true.1 List.all_takeWhile b hb
    simp only [rawString?, Cut.after, List.append_assoc, List.singleton_append]
    rw [List.dropWhile_append_of_pos hall, List.takeWhile_append_of_pos hall]
    simp [rawBody_append hclosed, Cut.withRest]
  · cases h

theorem rawOrWord_some {kind : LiteralKind} {before : Text} {cut : Cut}
    (hs : rawString? cs = some cut) (e : Lexeme) :
    rawOrWord kind before cs e = ⟨cut.after before, .literal kind⟩ := by
  simp [rawOrWord, hs]

theorem rawOrWord_none {kind : LiteralKind} {before : Text} (hs : rawString? cs = none)
    (e : Lexeme) : rawOrWord kind before cs e = e := by
  simp [rawOrWord, hs]

theorem head?_taken_rawString? {cut : Cut} (h : rawString? cs = some cut) :
    cut.taken.head? = cs.head? := by
  have hw := whole_rawString? h
  have hne : cut.taken ≠ [] := by
    unfold rawString? at h
    split at h
    · cases h
      simp [Cut.after]
    · cases h
  have := Cut.head?_taken_append hne []
  rwa [List.append_nil, hw] at this

/-- A raw string, or what stands in its place, before a text that looks the same. -/
theorem rawOrWord_withRest {kind : LiteralKind} {before : Text} {e : Lexeme} {f : Text → Lexeme}
    (h : Ahead (rawOrWord kind before cs e).rest y)
    (hsome : ∀ cut, rawString? cs = some cut →
      ∃ e', f ((before ++ cut.taken).tail ++ y) = rawOrWord kind before (cut.taken ++ y) e')
    (hnone : rawString? cs = none → Ahead e.rest y → f (e.taken.tail ++ y) = e.withRest y) :
    f ((rawOrWord kind before cs e).taken.tail ++ y) = (rawOrWord kind before cs e).withRest y := by
  cases hs : rawString? cs with
  | none =>
    rw [rawOrWord_none hs] at h ⊢
    exact hnone hs h
  | some cut =>
    rw [rawOrWord_some hs] at h ⊢
    have happ := rawString?_append hs h.ne_nil y
    obtain ⟨e', he⟩ := hsome cut hs
    rw [rawOrWord_some happ] at he
    exact he

/-- The letter may start a literal or a raw word, given the character after it. -/
def startsPrefixed (c : Char) (next : Option Char) : Prop :=
  (c = 'r' ∧ (next = some '"' ∨ next = some '#')) ∨
    (c = 'b' ∧ (next = some '"' ∨ next = some '\x27' ∨ next = some 'r')) ∨
    (c = 'c' ∧ (next = some '"' ∨ next = some 'r'))

theorem lettered_word (h : ¬ startsPrefixed c cs.head?) : lettered c cs = word c cs := by
  unfold startsPrefixed at h
  unfold lettered
  split <;> simp_all

/-- The letters before `r` that may start a raw string. -/
theorem lettered_withRest_raw {kind : LiteralKind}
    (hf : ∀ z, lettered c ('r' :: z) = rawOrWord kind [c, 'r'] z (word c ('r' :: z)))
    (h : Ahead (lettered c ('r' :: cs)).rest y) :
    lettered c ((lettered c ('r' :: cs)).taken.tail ++ y) =
      (lettered c ('r' :: cs)).withRest y := by
  rw [hf] at h ⊢
  refine rawOrWord_withRest h ?_ ?_
  · intro cut _
    exact ⟨_, hf _⟩
  · intro hn hr
    have hcont : isIdentContinue 'r' = true := by decide
    have hrest : Ahead (identTail cs).rest y := by
      simpa [word, identTail_cons hcont] using hr
    have htail : (word c ('r' :: cs)).taken.tail = 'r' :: (identTail cs).taken := by
      simp [word, identTail_cons hcont, Cut.after]
    have hword := word_withRest hr
    rw [htail, List.cons_append] at hword ⊢
    rw [hf, rawOrWord_none (rawString?_none_of_ahead hrest.identTail hn), hword]

theorem lettered_withRest_quoted {kind : LiteralKind}
    (hf : ∀ z, lettered c (q :: z) = ⟨(quotedBody q z).after [c, q], .literal kind⟩)
    (h : Ahead (lettered c (q :: cs)).rest y) :
    lettered c ((lettered c (q :: cs)).taken.tail ++ y) = (lettered c (q :: cs)).withRest y := by
  rw [hf] at h ⊢
  have happ := quotedBody_append (closed_quotedBody h) y
  simp only [Cut.after, List.cons_append, List.nil_append, List.tail_cons, hf, happ]
  rfl

theorem lettered_r_hash (cs : Text) :
    lettered 'r' ('#' :: cs) =
      rawOrWord .rawStr ['r'] ('#' :: cs)
        (if cs.head?.any isIdentStart then ⟨(identTail cs).after ['r', '#'], .rawIdent⟩
         else word 'r' ('#' :: cs)) := by
  simp [lettered]

theorem lettered_withRest_hash (h : Ahead (lettered 'r' ('#' :: cs)).rest y) :
    lettered 'r' ((lettered 'r' ('#' :: cs)).taken.tail ++ y) =
      (lettered 'r' ('#' :: cs)).withRest y := by
  rw [lettered_r_hash] at h ⊢
  refine rawOrWord_withRest h ?_ ?_
  · intro cut hcut
    obtain ⟨z, hz⟩ : ∃ z, cut.taken = '#' :: z := by
      have := head?_taken_rawString? hcut
      cases ht : cut.taken <;> simp_all
    rw [hz]
    exact ⟨_, lettered_r_hash _⟩
  · intro hn hr
    by_cases hs : cs.head?.any isIdentStart = true
    · rw [if_pos hs] at hr ⊢
      have hr : Ahead (identTail cs).rest y := hr
      have hhead := head?_identTail_append hr
      have hnone := rawString?_none_of_ahead (hr.identTail.cons '#') hn
      simp only [Cut.after, List.cons_append, List.nil_append, List.tail_cons]
      rw [lettered_r_hash, rawOrWord_none hnone, hhead, if_pos hs, identTail_withRest hr]
      rfl
    · rw [if_neg hs] at hr ⊢
      have hcont : isIdentContinue '#' = false := by decide
      simp only [word, identTail_cons_of_not hcont, Cut.after, List.append_nil] at hr ⊢
      cases hr with
      | firm hf _ => simp [isFirm] at hf
      | @cons _ _ y hr =>
        simp only [List.tail_cons, List.nil_append]
        rw [lettered_r_hash, rawOrWord_none (rawString?_none_of_ahead (hr.cons '#') hn),
          ← hr.head?_eq, if_neg hs]
        simp only [word, identTail_cons_of_not hcont]
        rfl

theorem lettered_withRest_string (h : Ahead (lettered 'r' ('"' :: cs)).rest y) :
    lettered 'r' ((lettered 'r' ('"' :: cs)).taken.tail ++ y) =
      (lettered 'r' ('"' :: cs)).withRest y := by
  have hf (z : Text) :
      lettered 'r' ('"' :: z) = rawOrWord .rawStr ['r'] ('"' :: z) (word 'r' ('"' :: z)) := by
    simp [lettered]
  rw [hf] at h ⊢
  refine rawOrWord_withRest h ?_ ?_
  · intro cut hcut
    obtain ⟨z, hz⟩ : ∃ z, cut.taken = '"' :: z := by
      have := head?_taken_rawString? hcut
      cases ht : cut.taken <;> simp_all
    rw [hz]
    exact ⟨_, hf _⟩
  · intro hn
    simp [rawString?] at hn

theorem lettered_withRest (h : Ahead (lettered c cs).rest y) :
    lettered c ((lettered c cs).taken.tail ++ y) = (lettered c cs).withRest y := by
  by_cases hw : startsPrefixed c cs.head?
  · cases cs with
    | nil => simp [startsPrefixed] at hw
    | cons d cs =>
      simp only [startsPrefixed, List.head?_cons, Option.some.injEq] at hw
      rcases hw with ⟨rfl, rfl | rfl⟩ | ⟨rfl, rfl | rfl | rfl⟩ | ⟨rfl, rfl | rfl⟩
      · exact lettered_withRest_string h
      · exact lettered_withRest_hash h
      · exact lettered_withRest_quoted (fun _ => rfl) h
      · exact lettered_withRest_quoted (fun _ => rfl) h
      · exact lettered_withRest_raw (fun _ => rfl) h
      · exact lettered_withRest_quoted (fun _ => rfl) h
      · exact lettered_withRest_raw (fun _ => rfl) h
  · rw [lettered_word hw] at h ⊢
    have hr : Ahead (identTail cs).rest y := h
    have htail : (word c cs).taken.tail = (identTail cs).taken := by simp [word, Cut.after]
    have hword := word_withRest h
    rw [htail] at hword ⊢
    rw [lettered_word ((head?_identTail_append hr).symm ▸ hw), hword]

end Unbundle
