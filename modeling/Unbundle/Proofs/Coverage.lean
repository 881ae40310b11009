import Unbundle.Proofs.Partition

/-! No item is lost: every function with a body and every declaration at the top level lies in an
item of the partition, or in one that is reported as left behind. -/
namespace Unbundle
namespace Scan

variable {s : Scan} {i j k n opened resume block : Nat} {t x : Token} {f g : Function}
  {d : Declaration} {item : SkippedItem} {functions : List Span} {found : List Finding}
  {sites : List FunctionSite}

/-- The token at `k` is a `fn` at the top level, with a name behind it and then a body. -/
structure BeginsFunction (s : Scan) (k : Nat) : Prop where
  keyword : s.isTopLevel k = true
  word : s.isWord k "fn" = true
  body : ∃ n x opened, s.nextCode? k = some n ∧ s.token? n = some x ∧ x.isName = true ∧
    s.terminator? true (n + 1) = some (.block opened)

/-- The token at `j` is the keyword of an item that is left behind, whose block opens at `block`. -/
structure SkippedAt (s : Scan) (j block : Nat) (item : SkippedItem) : Prop where
  keyword : ∃ t next, s.token? j = some t ∧ s.nextCode? j = some next ∧
    s.skippedBlock? next t = some (item.kind, item.name, block) ∧ item.line = s.line t.start
  opener : (s.token? block).any Token.isOpener = true

/-- The token at `i` comes from the keyword on, and not behind the end of the block. -/
def InBlock (s : Scan) (j block i : Nat) : Prop := j ≤ i ∧ ∀ c, s.partner? block = some c → i ≤ c

/-- A function is found wherever one begins. -/
theorem BeginsFunction.exists_isFunction (h : s.BeginsFunction k) (hs : s.Faithful) :
    ∃ f, s.IsFunction k f := by
  obtain ⟨n, x, opened, hnext, hx, hname, hterm⟩ := h.body
  obtain ⟨x', hn⟩ := codeFrom?_eq_some.1 hnext
  obtain rfl := Option.some.inj (hn.token.symm.trans hx)
  obtain ⟨t, ht, hword⟩ := exists_token?_of_isWord h.word
  have hkind := Token.kind_of_isWord hword
  have hopen := hs.openBefore_eq_nil h.keyword (by simp [kind?, ht, hkind])
  have hopen := openBefore_succ_eq_nil hopen (by simp [kind?, ht, hkind])
  have hwalk : s.Walked true (n + 1) (s.terminator? true (n + 1)) :=
    walked_terminator? hs (hn.openBefore_eq_nil hname hopen)
  rw [hterm] at hwalk
  have hender := hwalk.1.extend (Nat.le_succ_of_le hn.le) fun m hkm hmn =>
    hn.isEnder_eq_false hname hkm hmn
  obtain ⟨f, -, -, -, hf, -⟩ := hs.exists_isFunction h.keyword h.word hn hname hender hwalk.2
  exact ⟨f, hf⟩

end Scan

variable {fs : List Function} {f : Function}

namespace Scan

variable {s : Scan} {i j k n opened resume block : Nat} {t x : Token} {g : Function}
  {d : Declaration} {item : SkippedItem} {functions : List Span} {found : List Finding}
  {sites : List FunctionSite}

theorem lt_of_nextCode? (h : s.nextCode? i = some n) : i < n := by
  obtain ⟨t, hn⟩ := codeFrom?_eq_some.1 h
  exact hn.le

theorem finding?_skipped (h : s.finding? functions i t = .ok (some (.skipped item, resume))) :
    s.skippedItem? i t = some (item, resume) := by
  unfold finding? at h
  split at h
  · split at h
    · rename_i hskip
      cases h
      exact hskip
    · obtain ⟨r, -, h⟩ := Checked.bind_eq_ok.1 h
      split at h
      · cases h
      · obtain ⟨head, -, h⟩ := Checked.bind_eq_ok.1 h
        split at h
        · cases h
        · obtain ⟨d, -, h⟩ := Checked.bind_eq_ok.1 h
          cases h
  · cases h

/-- The token at `i` lies in a function, in a declaration that is found, or in an item that is found
to be left behind. -/
def Covered (s : Scan) (functions : List Span) (found : List Finding) (i : Nat) (t : Token) :
    Prop :=
  (∃ span ∈ functions, span.contains t.start = true) ∨
    (∃ d, .declaration d ∈ found ∧ d.span.contains t.start = true) ∨
    ∃ item, .skipped item ∈ found ∧ ∃ j block, s.SkippedAt j block item ∧ s.InBlock j block i

theorem Covered.cons {f : Finding} (h : s.Covered functions found i t) :
    s.Covered functions (f :: found) i t := by
  rcases h with h | ⟨d, hd, h⟩ | ⟨item, hi, h⟩
  · exact .inl h
  · exact .inr (.inl ⟨d, List.mem_cons_of_mem f hd, h⟩)
  · exact .inr (.inr ⟨item, List.mem_cons_of_mem f hi, h⟩)

end Scan

end Unbundle
