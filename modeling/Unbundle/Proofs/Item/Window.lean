import Unbundle.Proofs.Item.Function
import Unbundle.Proofs.Scan.Window

/-! Items in a window: a function whose tokens make up the window is found there again, with the
same name and signature. -/
namespace Unbundle

namespace Scan

variable {s s' : Scan} {a i j k n o : Nat} {t u : Token} {pre piece post rest : Text}

/-- The walk goes on past `extern`. -/
theorem Faithful.reach_lt_of_extern (hs : s.Faithful) {r : Reach} (hi : i < s.size)
    (h : s.reach (i + 1) = .ok r) (hw : s.isWord i "extern" = true) : r.first < i + 1 := by
  obtain ⟨t, ht, hword⟩ := exists_token?_of_isWord hw
  have hq : t.isQualifier = true := List.any_eq_true.2 ⟨"extern", by decide, hword⟩
  rw [reach_of_isPassed (isPassed_iff.2 ⟨t, ht, .inl hq⟩)] at h
  exact Nat.lt_succ_of_le (hs.reach_le (Nat.le_of_lt hi) h)

/-- The function takes up all tokens of the scan. -/
def Fills (s : Scan) (k : Nat) (f : Function) : Prop :=
  s.IsFunction k f ∧ ∃ first opened, s.FunctionAt k f 0 first opened s.size

namespace Window

/-- What is passed in the window is passed in the whole text. -/
theorem isPassed (w : s.Window s' a pre piece post rest) (h : s'.isPassed i = true) :
    s.isPassed (a + i) = true := by
  obtain ⟨t, ht, h⟩ := isPassed_iff.1 h
  have hi := Scan.lt_size ht
  refine isPassed_iff.2 ⟨_, w.token i t ht, ?_⟩
  rcases h with hq | ⟨hstr, hne, hw⟩
  · exact .inl hq
  · refine .inr ⟨hstr, by omega, ?_⟩
    rw [show a + i - 1 = a + (i - 1) by omega, w.isWord_eq (by omega)]
    exact hw

/-- Conversely, unless an `extern` before the window is needed for it. -/
theorem isPassed_or (w : s.Window s' a pre piece post rest) (hi : i < s'.size)
    (h : s.isPassed (a + i) = true) :
    s'.isPassed i = true ∨ i = 0 ∧ a ≠ 0 ∧ s.isWord (a - 1) "extern" = true := by
  obtain ⟨t, ht⟩ := exists_token? hi
  obtain ⟨u, hu, h⟩ := isPassed_iff.1 h
  obtain rfl := Option.some.inj (hu.symm.trans (w.token i t ht))
  rcases h with hq | ⟨hstr, hne, hw⟩
  · exact .inl (isPassed_iff.2 ⟨t, ht, .inl hq⟩)
  · rcases Nat.eq_zero_or_pos i with rfl | hpos
    · exact .inr ⟨rfl, hne, hw⟩
    · rw [show a + i - 1 = a + (i - 1) by omega, w.isWord_eq (by omega)] at hw
      exact .inl (isPassed_iff.2 ⟨t, ht, .inr ⟨hstr, by omega, hw⟩⟩)

theorem arrives (w : s.Window s' a pre piece post rest) (hi : i < s'.size)
    (h : s.Arrives (a + i) n) (hn : n = a + o) : s'.Arrives i o := by
  cases h with
  | pub hw =>
    obtain rfl : i = o := by omega
    exact .pub ((w.isWord_eq hi "pub").symm.trans hw)
  | restricted hk hc hw =>
    subst hn
    obtain ⟨b, hb, hc⟩ := w.exists_closes hi hc
    obtain rfl : b = o + 1 := by omega
    have hlt := hc.lt
    have hpub := w.isWord_eq (show o < s'.size by omega) "pub"
    exact .restricted ((w.kind?_eq hi).symm.trans hk) hc (hpub.symm.trans hw)
  | bare hpub hout =>
    obtain rfl : o = i + 1 := by omega
    refine .bare ((w.isWord_eq hi "pub").symm.trans hpub) ?_
    intro o hk hc
    have hlt := hc.lt
    rw [← w.isWord_eq (by omega)]
    exact hout (a + o) ((w.kind?_eq hi).trans hk) (w.closes hc)

/-- The walk to the visibility comes as far in the window, unless it leaves it. -/
theorem reach (w : s.Window s' a pre piece post rest) {r : Reach} (hi : i < s'.size)
    (h : s.reach (a + i) = .ok r) (hr : a ≤ r.first) :
    ∃ r', s'.reach i = .ok r' ∧ a + r'.first = r.first := by
  induction i with
  | zero =>
    have hle := w.faithful.reach_le (Nat.le_of_lt (w.lt_size hi)) h
    exact ⟨⟨0, .priv, none⟩, rfl, Nat.le_antisymm hr hle⟩
  | succ i ih =>
    have hi := Nat.lt_of_succ_lt hi
    have hsize := w.lt_size hi
    by_cases hp : s.isPassed (a + i) = true
    · rcases w.isPassed_or hi hp with hp' | ⟨rfl, ha, hw⟩
      · rw [reach_of_isPassed hp']
        exact ih hi ((reach_of_isPassed hp).symm.trans h)
      · obtain ⟨b, rfl⟩ := Nat.exists_eq_succ_of_ne_zero ha
        have := w.faithful.reach_lt_of_extern (by omega) ((reach_of_isPassed hp).symm.trans h) hw
        omega
    · obtain ⟨r₁, hr₁, harr⟩ := w.faithful.exists_arrives hsize (by simpa using hp)
      obtain rfl : r₁ = r := Except.ok.inj (hr₁.symm.trans h)
      have hp' : ¬ s'.isPassed i = true := fun hp' => hp (w.isPassed hp')
      obtain ⟨r', hr', harr'⟩ := w.faithful'.exists_arrives hi (by simpa using hp')
      obtain ⟨o, ho⟩ := Nat.exists_eq_add_of_le hr
      have := harr'.unique (w.arrives hi harr ho)
      exact ⟨r', hr', by omega⟩

/-- A comment that is attached in the whole text is attached in the window. -/
theorem isAttached (w : s.Window s' a pre piece post rest) (ht : s'.token? i = some t)
    (hu : s'.token? j = some u)
    (h : s.isAttached (t.shift (byteLength pre)) (u.shift (byteLength pre)) = .ok true) :
    s'.isAttached t u = .ok true := by
  have hstart := w.faithful'.start_lt_stop ht
  have hinside := w.inside i t ht
  have hustart := w.faithful'.start_lt_stop hu
  have huinside := w.inside j u hu
  obtain ⟨line, hline, h⟩ := Checked.bind_eq_ok.1 h
  obtain ⟨x, hx, hline⟩ := Checked.bind_eq_ok.1 hline
  obtain ⟨y, rfl, hy⟩ := w.textBefore hx (by omega)
  cases hline
  split at h
  · rename_i hblank
    obtain ⟨between, hbetween, h⟩ := Checked.bind_eq_ok.1 h
    rw [Token.shift_stop, Token.shift_start] at hbetween
    have hblank' : (y.reverse.takeWhile (· != '\n')).all isBlank = true := by
      rw [List.all_eq_true] at hblank ⊢
      intro c hc
      apply hblank c
      rw [List.reverse_append, List.takeWhile_append]
      split
      · exact List.mem_append_left _ (List.takeWhile_subset _ hc)
      · exact hc
    simp only [Scan.isAttached, startsLine, hy, Checked.ok_bind, Checked.pure_eq, hblank', if_true,
      directlyAbove, w.slice hbetween (by omega)]
    exact h
  · cases h

theorem leadStep (w : s.Window s' a pre piece post rest) (hi : i + 1 < s'.size)
    (h : s.LeadStep (a + i) n) (hn : n = a + o) : s'.LeadStep i o := by
  obtain ⟨t, ht'⟩ := exists_token? (Nat.lt_of_succ_lt hi)
  cases h with
  | doc ht hk =>
    obtain rfl : i = o := by omega
    obtain rfl := Option.some.inj (ht.symm.trans (w.token i t ht'))
    exact .doc ht' hk
  | comment ht hk hu h =>
    obtain rfl : i = o := by omega
    obtain ⟨u, hu'⟩ := exists_token? hi
    obtain rfl := Option.some.inj (ht.symm.trans (w.token i t ht'))
    obtain rfl := Option.some.inj (hu.symm.trans (w.token (i + 1) u hu'))
    exact .comment ht' hk hu' (w.isAttached ht' hu' h)
  | attr hk hc hhash =>
    subst hn
    obtain ⟨b, hb, hc'⟩ := w.exists_closes (Nat.lt_of_succ_lt hi) hc
    obtain rfl : b = o + 1 := by omega
    have hlt := hc'.lt
    have hkind := w.kind?_eq (Nat.lt_of_succ_lt hi)
    have hmark := w.kind?_eq (show o < s'.size by omega)
    exact .attr (hkind.symm.trans hk) hc' (hmark.symm.trans hhash)

/-- The walk over comments and attributes that ends where the window begins goes over the whole of
it there. -/
theorem leadFrom (w : s.Window s' a pre piece post rest) (hi : i < s'.size)
    (h : s.leadFrom (a + i) = .ok a) : s'.leadFrom i = .ok 0 := by
  induction i using Nat.strongRecOn with
  | ind i ih =>
    cases i with
    | zero => rw [Scan.leadFrom]
    | succ i =>
      have hsize : a + i + 1 < s.size := w.lt_size hi
      by_cases hstep : ∃ n, s.LeadStep (a + i) n
      · obtain ⟨n, hstep⟩ := hstep
        have hlt := hstep.lt
        have hn : s.leadFrom n = .ok a := (hstep.leadFrom_eq w.faithful).symm.trans h
        obtain ⟨o, rfl⟩ := Nat.exists_eq_add_of_le (w.faithful.leadFrom_le (by omega) hn)
        rw [(w.leadStep hi hstep rfl).leadFrom_eq w.faithful']
        exact ih o (by omega) (by omega) hn
      · have hend := w.faithful.leadFrom_of_not_step hsize (not_exists.1 hstep)
        have := Except.ok.inj (hend.symm.trans h)
        omega

theorem firstCode (w : s.Window s' a pre piece post rest) (h : s.FirstCode (a + i) (a + n) t)
    (hn : n < s'.size) : ∃ t', s'.FirstCode i n t' ∧ t = t'.shift (byteLength pre) := by
  obtain ⟨t', ht'⟩ := exists_token? hn
  have ht := Option.some.inj (h.token.symm.trans (w.token n t' ht'))
  have hle := h.le
  refine ⟨t', ⟨by omega, ht', ?_, ?_⟩, ht⟩
  · have hcode := h.code
    rwa [ht] at hcode
  · intro m him hmn
    obtain ⟨u', hu'⟩ := exists_token? (Nat.lt_trans hmn hn)
    obtain ⟨u, hu, hcomment⟩ := h.comments (a + m) (by omega) (by omega)
    refine ⟨u', hu', ?_⟩
    rwa [Option.some.inj (hu.symm.trans (w.token m u' hu'))] at hcomment

/-- The head that begins with the window is as long there. -/
theorem headAt (w : s.Window s' a pre piece post rest) {h h' : Head} {first lead' first' : Nat}
    (hk : k < s'.size) (hat : s.HeadAt (a + k) h a first) (hat' : s'.HeadAt k h' lead' first') :
    lead' = 0 ∧ first = a + first' := by
  obtain ⟨r, hr, rfl⟩ := hat.reach
  obtain ⟨r₁, hr₁, rfl⟩ := hat'.reach
  obtain ⟨r', hr', heq⟩ := w.reach hk hr hat.lead_le
  obtain rfl : r₁ = r' := Except.ok.inj (hr₁.symm.trans hr')
  have hlead := hat.leadFrom
  rw [← heq] at hlead
  have hlead := w.leadFrom (Nat.lt_of_le_of_lt hat'.first_le hk) hlead
  exact ⟨Except.ok.inj (hat'.leadFrom.symm.trans hlead), heq.symm⟩

/-- Functions with the same signature are applets both or neither. -/
theorem isApplet_eq (w : s.Window s' a pre piece post rest) {f f' : Function}
    {lead stop lead' first' opened' stop' : Nat}
    (hat : s.FunctionAt (a + k) f lead (a + first') (a + opened') stop)
    (hat' : s'.FunctionAt k f' lead' first' opened' stop') : f'.isApplet = f.isApplet := by
  obtain ⟨y, sig, hy, hsig, happ⟩ := hat.signature
  obtain ⟨y', sig', hy', hsig', happ'⟩ := hat'.signature
  rw [Option.some.inj (hy.symm.trans (w.token opened' y' hy')), Token.shift_start,
    w.start_eq hat.head.itemStarts hat'.head.itemStarts] at hsig
  have hinside := w.inside opened' y' hy'
  have hbefore := w.faithful'.start_lt_stop hy'
  have heq := hsig'.symm.trans (w.slice hsig (by omega))
  cases heq
  rw [Bool.eq_iff_iff, happ, happ']

/-- A function whose tokens make up the window is the function found there. -/
theorem exists_fills (w : s.Window s' a pre piece post rest) {f : Function}
    {first opened stop c : Nat} (hat : s.FunctionAt k f a first opened stop)
    (hc : Closes s.kinds opened c) (hsize : a + s'.size = stop)
    (hstart : f.span.start = byteLength pre)
    (hstop : f.span.stop = byteLength pre + byteLength piece) :
    ∃ k' f', s'.Fills k' f' ∧ f'.name = f.name ∧ f'.isApplet = f.isApplet ∧
      f'.span = ⟨0, byteLength piece⟩ := by
  obtain ⟨y, d, hy, -⟩ := exists_closer hc
  obtain ⟨hends, rfl⟩ := hat.stop_of_closes w.faithful hc hy
  have hko := hat.ender.le
  have hoc := hc.lt
  obtain ⟨n, t, hn, hname, hfname⟩ := hat.named
  have hkn := hn.le
  have hlt := hn.lt_ender hname hat.ender
  obtain ⟨k, rfl⟩ := Nat.exists_eq_add_of_le hat.head.clear.le
  obtain ⟨n, rfl⟩ := Nat.exists_eq_add_of_le (show a ≤ n by omega)
  obtain ⟨opened, rfl⟩ := Nat.exists_eq_add_of_le (show a ≤ opened by omega)
  obtain ⟨c, rfl⟩ := Nat.exists_eq_add_of_le (show a ≤ c by omega)
  obtain ⟨t, hn', rfl⟩ := w.firstCode (i := k + 1) hn (by omega)
  have htop : s'.isTopLevel k = true := by
    rw [← w.isTopLevel_eq (by omega)]
    exact hat.keyword
  have hword : s'.isWord k "fn" = true := by
    rw [← w.isWord_eq (by omega)]
    exact hat.word
  have hbrace : s'.kind? opened = some (.opener .brace) := by
    rw [← w.kind?_eq (by omega)]
    exact hat.brace
  obtain ⟨f', lead', first', stop', hf', hat'⟩ := w.faithful'.exists_isFunction htop hword hn' hname
    (w.firstEnder (i := k + 1) hat.ender (by omega)) hbrace
  obtain ⟨rfl, rfl⟩ := w.headAt (by omega) hat.head hat'.head
  obtain ⟨b, hb, hc'⟩ := w.exists_closes (by omega) hc
  obtain rfl : b = opened := by omega
  obtain ⟨x, hx⟩ := exists_token? (show c < s'.size by omega)
  rw [Option.some.inj (hy.symm.trans (w.token c x hx)), Token.shift_stop] at hends
  obtain ⟨hends', hsize'⟩ := hat'.stop_of_closes w.faithful' hc' hx
  obtain rfl : stop' = s'.size := by omega
  have hstart' : f'.span.start = 0 := by
    have := w.start_eq (i := 0) hat.holds.starts hat'.holds.starts
    omega
  have hstop' : f'.span.stop = byteLength piece := by omega
  obtain ⟨n', t', hn'', -, hfname'⟩ := hat'.named
  refine ⟨k, f', ⟨hf', first', b, hat'⟩, ?_, w.isApplet_eq hat hat', ?_⟩
  · rw [hfname', hfname, hn''.unique hn']
    rfl
  · rw [← hstart', ← hstop']

end Window

/-- The text of a closed function, with a line break behind it, is a window. -/
theorem FunctionAt.exists_window {f : Function} {lead first opened stop : Nat}
    (hat : s.FunctionAt k f lead first opened stop) (hs : s.Faithful) (hclosed : f.closed = true)
    (htext : f.text s.text = .ok piece) :
    ∃ pre post c, s.Window (ofText (piece ++ ['\n'])) lead pre piece post ['\n'] ∧
      Closes s.kinds opened c ∧ lead + (ofText (piece ++ ['\n'])).size = stop ∧
      f.span.start = byteLength pre ∧ f.span.stop = byteLength pre + byteLength piece := by
  obtain ⟨pre, post, hcut, hpre, hpiece⟩ := slice_eq_ok htext
  rw [hat.closed_eq] at hclosed
  obtain ⟨c, hc⟩ := hs.exists_closes_of_closed hat.brace hclosed
  obtain ⟨t, d, ht, hk⟩ := exists_closer hc
  obtain ⟨hstop, rfl⟩ := hat.stop_of_closes hs hc ht
  obtain ⟨u, hu, hstart⟩ := hat.holds.starts
  have hlt := hat.holds.lt
  obtain ⟨w, hsize⟩ := hs.window hcut hat.head.clear.opened hu (hstart.trans hpre.symm) ht
    (by omega) (by rw [hk]; rfl) (by omega) (show ['\n'].all isBlank = true by decide)
  exact ⟨pre, post, c, w, hc, hsize, hpre.symm, by omega⟩

end Scan
end Unbundle
