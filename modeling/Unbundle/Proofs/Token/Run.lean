import Mathlib.Data.List.TakeWhile
import Unbundle.Proofs.Text.Slice
import Unbundle.Token.Lexer

/-! Runs of the reader: which tokens it meets on the way from one place of a text to another. Tokens
lie in the text in order, with nothing but blanks between them. -/
namespace Unbundle

/-- The token in a text with `k` more bytes before it. -/
def Token.shift (k : Nat) (t : Token) : Token := { t with start := k + t.start }

@[simp] theorem Token.shift_kind (k : Nat) (t : Token) : (t.shift k).kind = t.kind := rfl

@[simp] theorem Token.shift_chars (k : Nat) (t : Token) : (t.shift k).chars = t.chars := rfl

@[simp] theorem Token.shift_start (k : Nat) (t : Token) : (t.shift k).start = k + t.start := rfl

@[simp] theorem Token.shift_stop (k : Nat) (t : Token) : (t.shift k).stop = k + t.stop := by
  simp [stop, Nat.add_assoc]

namespace Cursor

variable {cur mid last : Cursor} {t : Token} {ts us : List Token} {text : Text} {k : Nat}

/-- What a step of the reader does: it passes blanks and reads one token. -/
theorem next?_eq_some (h : cur.next? = some (t, last)) :
    ∃ gap c cs, cur.rest = gap ++ c :: cs ∧ gap.all isBlank ∧ isBlank c = false ∧
      t = ⟨(lexeme c cs).kind, cur.offset + byteLength gap, (lexeme c cs).taken,
        (lexeme c cs).closed⟩ ∧
      last = ⟨t.stop, (lexeme c cs).rest⟩ := by
  unfold next? at h
  split at h
  · cases h
  · rename_i c cs hd
    cases h
    refine ⟨cur.rest.takeWhile isBlank, c, cs, ?_, ?_, ?_, rfl, rfl⟩
    · rw [← hd, List.takeWhile_append_dropWhile]
    · exact List.all_takeWhile
    · have := List.head?_dropWhile_not isBlank cur.rest
      simpa [hd] using this

theorem next?_eq_none : cur.next? = none ↔ cur.rest.all isBlank := by
  rw [List.all_eq_true, ← List.dropWhile_eq_nil_iff]
  unfold next?
  split
  · simp [*]
  · simp [*]

theorem dropWhile_isBlank_append {gap : Text} (h : gap.all isBlank) (cs : Text) :
    (gap ++ cs).dropWhile isBlank = cs.dropWhile isBlank := by
  rw [List.dropWhile_append_of_pos (by simpa using h)]

theorem next?_gap {gap : Text} {c : Char} (hg : gap.all isBlank) (hc : isBlank c = false)
    (offset : Nat) (cs : Text) :
    (⟨offset, gap ++ c :: cs⟩ : Cursor).next? =
      some (⟨(lexeme c cs).kind, offset + byteLength gap, (lexeme c cs).taken,
          (lexeme c cs).closed⟩,
        ⟨offset + byteLength gap + byteLength (lexeme c cs).taken, (lexeme c cs).rest⟩) := by
  have hd : (gap ++ c :: cs).dropWhile isBlank = c :: cs := by
    rw [dropWhile_isBlank_append hg]
    simp [hc]
  have ht : (gap ++ c :: cs).takeWhile isBlank = gap := by
    rw [List.takeWhile_append_of_pos (by simpa using hg)]
    simp [hc]
  simp only [next?, hd, ht]

/-- From one place to another, the tokens between them. -/
inductive Run : Cursor → List Token → Cursor → Prop
  | refl (cur : Cursor) : Run cur [] cur
  | step {cur mid last : Cursor} {t : Token} {ts : List Token} (h : cur.next? = some (t, mid))
      (rest : Run mid ts last) : Run cur (t :: ts) last

theorem tokens_of_next?_some (h : cur.next? = some (t, mid)) : cur.tokens = t :: mid.tokens := by
  rw [tokens]
  split
  · simp_all
  · simp_all

theorem tokens_of_next?_none (h : cur.next? = none) : cur.tokens = [] := by
  rw [tokens]
  split
  · rfl
  · simp_all

theorem Run.tokens_eq (h : Run cur ts last) : cur.tokens = ts ++ last.tokens := by
  induction h with
  | refl => rfl
  | step h _ ih => rw [tokens_of_next?_some h, ih, List.cons_append]

/-- Reading to the end of the text is a run. -/
theorem exists_run (cur : Cursor) : ∃ last, Run cur cur.tokens last ∧ last.rest.all isBlank := by
  fun_induction tokens cur with
  | case1 cur h => exact ⟨cur, .refl cur, next?_eq_none.1 h⟩
  | case2 cur t mid h ih =>
    obtain ⟨last, hr, hl⟩ := ih
    exact ⟨last, .step h hr, hl⟩

/-- A run splits where its tokens do. -/
theorem Run.split (h : Run cur (ts ++ us) last) : ∃ mid, Run cur ts mid ∧ Run mid us last := by
  induction ts generalizing cur with
  | nil => exact ⟨cur, .refl cur, h⟩
  | cons t ts ih =>
    cases h with
    | step h rest =>
      obtain ⟨mid, h₁, h₂⟩ := ih rest
      exact ⟨mid, .step h h₁, h₂⟩

/-- The characters a step goes over. -/
theorem exists_consumed_next? (h : cur.next? = some (t, last)) :
    ∃ gap, gap.all isBlank ∧ cur.rest = gap ++ (t.chars ++ last.rest) ∧
      t.start = cur.offset + byteLength gap ∧ last.offset = t.stop ∧ t.chars ≠ [] := by
  obtain ⟨gap, c, cs, hr, hg, -, rfl, rfl⟩ := next?_eq_some h
  refine ⟨gap, hg, ?_, rfl, rfl, ?_⟩
  · rw [hr]
    exact congrArg (gap ++ ·) (whole_lexeme c cs).symm
  · intro hn
    have := head?_lexeme c cs
    simp_all

/-- The characters a run goes over, and the places of its tokens among them. -/
theorem Run.exists_consumed (h : Run cur ts last) :
    ∃ taken, cur.rest = taken ++ last.rest ∧ last.offset = cur.offset + byteLength taken := by
  induction h with
  | refl cur => exact ⟨[], rfl, rfl⟩
  | @step cur mid last t ts h rest ih =>
    obtain ⟨gap, -, hc, hs, ho, -⟩ := exists_consumed_next? h
    obtain ⟨taken, hr, hl⟩ := ih
    refine ⟨gap ++ (t.chars ++ taken), by simp [hc, hr], ?_⟩
    simp only [byteLength_append, Token.stop] at *
    omega

theorem Run.offset_le (h : Run cur ts last) : cur.offset ≤ last.offset := by
  obtain ⟨taken, -, hl⟩ := h.exists_consumed
  omega

/-- The tokens of a run lie between its ends. -/
theorem Run.bounds (h : Run cur ts last) :
    ∀ t ∈ ts, cur.offset ≤ t.start ∧ t.start < t.stop ∧ t.stop ≤ last.offset := by
  induction h with
  | refl => simp
  | step h rest ih =>
    obtain ⟨gap, -, -, hs, ho, hne⟩ := exists_consumed_next? h
    have hpos := byteLength_pos hne
    have hle := rest.offset_le
    intro u hu
    rcases List.mem_cons.1 hu with rfl | hu
    · simp only [Token.stop] at *
      omega
    · obtain ⟨h₁, h₂, h₃⟩ := ih u hu
      simp only [Token.stop] at *
      omega

/-- Each token ends before the next begins. -/
theorem Run.pairwise (h : Run cur ts last) : ts.Pairwise fun a b => a.stop ≤ b.start := by
  induction h with
  | refl => exact .nil
  | step h rest ih =>
    obtain ⟨gap, -, -, hs, ho, -⟩ := exists_consumed_next? h
    refine .cons ?_ ih
    intro u hu
    have := (rest.bounds u hu).1
    omega

theorem next?_shift (k : Nat) (cur : Cursor) :
    (⟨k + cur.offset, cur.rest⟩ : Cursor).next? =
      cur.next?.map fun (t, last) => (t.shift k, ⟨k + last.offset, last.rest⟩) := by
  unfold next?
  simp only
  split <;> simp [Token.shift, Nat.add_assoc]

/-- Tokens do not depend on where the text before them ends. -/
theorem tokens_shift (k : Nat) (cur : Cursor) :
    (⟨k + cur.offset, cur.rest⟩ : Cursor).tokens = cur.tokens.map (Token.shift k) := by
  fun_induction tokens cur with
  | case1 cur h =>
    apply tokens_of_next?_none
    rw [next?_shift, h]
    rfl
  | case2 cur t mid h ih =>
    rw [List.map_cons, ← ih]
    apply tokens_of_next?_some
    rw [next?_shift, h]
    rfl

end Cursor

/-- The tokens before a place are read on the way to it. -/
theorem exists_run_tokenize {text : Text} {ts us : List Token} (h : tokenize text = ts ++ us) :
    ∃ cur last, Cursor.Run ⟨0, text⟩ ts cur ∧ Cursor.Run cur us last ∧ last.rest.all isBlank := by
  obtain ⟨last, hr, hl⟩ := Cursor.exists_run ⟨0, text⟩
  rw [show Cursor.tokens ⟨0, text⟩ = ts ++ us from h] at hr
  obtain ⟨cur, h₁, h₂⟩ := hr.split
  exact ⟨cur, last, h₁, h₂, hl⟩

theorem pairwise_tokenize (text : Text) : (tokenize text).Pairwise fun a b => a.stop ≤ b.start := by
  obtain ⟨last, hr, -⟩ := Cursor.exists_run ⟨0, text⟩
  exact hr.pairwise

/-- A token is what is read where it starts, and the last one when nothing is left behind it. -/
theorem exists_lexeme {text : Text} {t : Token} {ts us : List Token}
    (h : tokenize text = ts ++ t :: us) :
    ∃ before c cs, text = before ++ c :: cs ∧ byteLength before = t.start ∧ isBlank c = false ∧
      t.kind = (lexeme c cs).kind ∧ t.chars = (lexeme c cs).taken ∧
      t.closed = (lexeme c cs).closed ∧ ((lexeme c cs).rest = [] → us = []) := by
  obtain ⟨cur, last, h₁, h₂, -⟩ := exists_run_tokenize h
  obtain ⟨taken, htaken, hlen⟩ := h₁.exists_consumed
  cases h₂ with
  | step hnext hrest =>
    obtain ⟨gap, c, cs, hcur, -, hc, rfl, rfl⟩ := Cursor.next?_eq_some hnext
    refine ⟨taken ++ gap, c, cs, ?_, ?_, hc, rfl, rfl, rfl, ?_⟩
    · rw [List.append_assoc, ← hcur]
      exact htaken
    · simp only [byteLength_append] at *
      omega
    · intro hnil
      cases hrest with
      | refl => rfl
      | step hnext _ =>
        obtain ⟨gap, c, cs, hcur, -⟩ := Cursor.next?_eq_some hnext
        simp [hnil] at hcur

theorem exists_lexeme_of_mem {text : Text} {t : Token} (h : t ∈ tokenize text) :
    ∃ before c cs, text = before ++ c :: cs ∧ byteLength before = t.start ∧ isBlank c = false ∧
      t.kind = (lexeme c cs).kind ∧ t.chars = (lexeme c cs).taken ∧
      t.closed = (lexeme c cs).closed := by
  obtain ⟨ts, us, htokens⟩ := List.append_of_mem h
  obtain ⟨before, c, cs, htext, hstart, hc, hkind, hchars, hclosed, -⟩ := exists_lexeme htokens
  exact ⟨before, c, cs, htext, hstart, hc, hkind, hchars, hclosed⟩

/-- A token's characters stand in the text at its offset. -/
theorem exists_place_of_mem_tokenize {text : Text} {t : Token} (h : t ∈ tokenize text) :
    ∃ before after, text = before ++ (t.chars ++ after) ∧ byteLength before = t.start ∧
      t.chars ≠ [] := by
  obtain ⟨before, c, cs, rfl, hstart, -, -, hchars, -⟩ := exists_lexeme_of_mem h
  refine ⟨before, (lexeme c cs).rest, ?_, hstart, ?_⟩
  · rw [hchars]
    exact congrArg (before ++ ·) (whole_lexeme c cs).symm
  · intro hnil
    have hhead := head?_lexeme c cs
    rw [← hchars, hnil] at hhead
    cases hhead

/-- A token does not begin with a blank. -/
theorem isBlank_head_of_mem_tokenize {text : Text} {t : Token} (h : t ∈ tokenize text) :
    ∃ c, t.chars.head? = some c ∧ isBlank c = false := by
  obtain ⟨before, c, cs, -, -, hc, -, hchars, -⟩ := exists_lexeme_of_mem h
  exact ⟨c, hchars ▸ head?_lexeme c cs, hc⟩

end Unbundle
