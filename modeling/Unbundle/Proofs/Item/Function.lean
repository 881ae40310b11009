import Unbundle.Item.Function
import Unbundle.Proofs.Item.Head
import Unbundle.Proofs.Item.Signature

/-! The functions of a text: where each lies among the tokens, and which of them overlap. -/
namespace Unbundle
namespace Scan

variable {s : Scan} {blockEnds : Bool} {i j k m n o lead : Nat} {t : Token} {f g : Function}

/-- The token at `n` is the first one from `i` on that is no comment. -/
structure FirstCode (s : Scan) (i n : Nat) (t : Token) : Prop where
  le : i ≤ n
  token : s.token? n = some t
  code : t.isComment = false
  comments : ∀ m, i ≤ m → m < n → ∃ u, s.token? m = some u ∧ u.isComment = true

theorem codeFrom?_eq_some : s.codeFrom? i = some n ↔ ∃ t, s.FirstCode i n t := by
  fun_induction codeFrom? s i with
  | case1 i hi hc ih =>
    have ht : s.token? i = some s.tokens[i] := Array.getElem?_eq_getElem hi
    rw [ih]
    constructor
    · rintro ⟨t, h⟩
      have hle := h.le
      refine ⟨t, by omega, h.token, h.code, ?_⟩
      intro m him hmn
      rcases Nat.eq_or_lt_of_le him with rfl | him
      · exact ⟨_, ht, hc⟩
      · exact h.comments m him hmn
    · rintro ⟨t, h⟩
      refine ⟨t, ?_, h.token, h.code, fun m him hmn => h.comments m (by omega) hmn⟩
      rcases Nat.eq_or_lt_of_le h.le with rfl | hlt
      · have hcode := h.code
        rw [Option.some.inj (h.token.symm.trans ht), hc] at hcode
        cases hcode
      · exact hlt
  | case2 i hi hc =>
    have ht : s.token? i = some s.tokens[i] := Array.getElem?_eq_getElem hi
    constructor
    · rintro ⟨⟩
      exact ⟨_, Nat.le_refl _, ht, by simpa using hc, fun m him hmi => by omega⟩
    · rintro ⟨t, h⟩
      rcases Nat.eq_or_lt_of_le h.le with rfl | hlt
      · rfl
      · obtain ⟨u, hu, hcomment⟩ := h.comments i (Nat.le_refl i) hlt
        rw [Option.some.inj (hu.symm.trans ht)] at hcomment
        exact absurd hcomment hc
  | case3 i hi =>
    constructor
    · rintro ⟨⟩
    · rintro ⟨t, h⟩
      exact absurd (Nat.lt_of_le_of_lt h.le (lt_size h.token)) hi

/-- Comments and names neither open a group nor end an item. -/
theorem kind_of_comment_or_name (h : t.isComment = true ∨ t.isName = true) :
    (∀ d, t.kind ≠ .opener d) ∧ ∀ blockEnds, t.kind.ends blockEnds = false := by
  unfold Token.isComment Token.isName at h
  cases hk : t.kind <;> simp_all [TokenKind.ends]

theorem isEnder_of_comment_or_name (ht : s.token? i = some t)
    (h : t.isComment = true ∨ t.isName = true) : s.isEnder blockEnds i = false := by
  apply isEnder_eq_false
  intro k hk
  rw [kind?, ht] at hk
  cases hk
  exact (kind_of_comment_or_name h).2 blockEnds

namespace FirstCode

theorem unique {u : Token} (h : s.FirstCode i n t) (h' : s.FirstCode i m u) : t = u := by
  have hm := codeFrom?_eq_some.2 ⟨t, h⟩
  rw [codeFrom?_eq_some.2 ⟨u, h'⟩, Option.some.injEq] at hm
  subst hm
  exact Option.some.inj (h.token.symm.trans h'.token)

theorem comment_or_name (h : s.FirstCode i n t) (hname : t.isName = true) (him : i ≤ m)
    (hmn : m < n + 1) : ∃ u, s.token? m = some u ∧ (u.isComment = true ∨ u.isName = true) := by
  rcases Nat.eq_or_lt_of_le (Nat.le_of_lt_succ hmn) with rfl | hmn
  · exact ⟨t, h.token, .inr hname⟩
  · obtain ⟨u, hu, hc⟩ := h.comments m him hmn
    exact ⟨u, hu, .inl hc⟩

theorem isEnder_eq_false (h : s.FirstCode i n t) (hname : t.isName = true) (him : i ≤ m)
    (hmn : m < n + 1) : s.isEnder blockEnds m = false := by
  obtain ⟨u, hu, hc⟩ := h.comment_or_name hname him hmn
  exact isEnder_of_comment_or_name hu hc

/-- Behind comments and a name no group is open if none was before them. -/
theorem openBefore_eq_nil (h : s.FirstCode i n t) (hname : t.isName = true)
    (ho : openBefore s.kinds i = []) : openBefore s.kinds (n + 1) = [] := by
  have hall (m : Nat) (him : i ≤ m) (hmn : m ≤ n + 1) : openBefore s.kinds m = [] := by
    induction m, him using Nat.le_induction with
    | base => exact ho
    | succ m him ih =>
      obtain ⟨u, hu, hc⟩ := h.comment_or_name hname him hmn
      refine openBefore_succ_eq_nil (ih (by omega)) ?_
      intro d hd
      rw [kind?, hu] at hd
      exact (kind_of_comment_or_name hc).1 d (Option.some.inj hd)
  exact hall (n + 1) (Nat.le_succ_of_le h.le) (Nat.le_refl _)

/-- A name comes before what ends the item. -/
theorem lt_ender (h : s.FirstCode i n t) (hname : t.isName = true)
    (he : s.FirstEnder blockEnds i j) : n < j := by
  apply Nat.lt_of_not_le
  intro hle
  have hnot : s.isEnder blockEnds j = false :=
    h.isEnder_eq_false hname he.le (Nat.lt_succ_of_le hle)
  rw [he.ends] at hnot
  cases hnot

end FirstCode

/-- Where a function lies: its `fn` at `k`, its body from `opened` on, its end before `stop`. -/
structure FunctionAt (s : Scan) (k : Nat) (f : Function) (lead first opened stop : Nat) : Prop
    extends s.ItemAt true k f.span f.head lead first stop where
  word : s.isWord k "fn" = true
  named : ∃ n t, s.FirstCode (k + 1) n t ∧ t.isName = true ∧ f.name = t.text
  ender : s.FirstEnder true (k + 1) opened
  brace : s.kind? opened = some (.opener .brace)
  stop_eq : f.span.stop = (s.group opened).stop
  closed_eq : f.closed = (s.group opened).closed
  signature : ∃ t sig, s.token? opened = some t ∧ s.slice f.head.itemStart t.start = .ok sig ∧
    (f.isApplet = true ↔ (appletName? sig).isSome = true)

/-- The token at the index starts the function. -/
def IsFunction (s : Scan) (k : Nat) (f : Function) : Prop :=
  s.functionSite? k = .ok (some (.function f))

theorem IsFunction.unique (h : s.IsFunction k f) (h' : s.IsFunction k g) : f = g := by
  have := h.symm.trans h'
  simpa using this

/-- A function bears the name of a token. -/
theorem IsFunction.exists_name (h : s.IsFunction k f) :
    ∃ n opened t, s.token n = .ok t ∧ t.isName = true ∧ s.functionAt k opened t.text = .ok f := by
  unfold IsFunction functionSite? at h
  split at h
  · split at h
    · cases h
    · obtain ⟨t, ht, h⟩ := Checked.bind_eq_ok.1 h
      split at h
      · rename_i hname
        split at h
        · obtain ⟨g, hg, h⟩ := Checked.bind_eq_ok.1 h
          cases h
          exact ⟨_, _, t, ht, hname, hg⟩
        · obtain ⟨u, -, h⟩ := Checked.bind_eq_ok.1 h
          cases h
      · cases h
  · cases h

/-- A function has the name that it is given, and the head found at its keyword, with which it
starts. -/
theorem functionAt_eq_ok {opened : Nat} {name : String} (h : s.functionAt k opened name = .ok f) :
    f.name = name ∧ s.head k = .ok f.head ∧ f.span.start = f.head.start := by
  obtain ⟨head, hhead, h⟩ := Checked.bind_eq_ok.1 h
  obtain ⟨brace, -, h⟩ := Checked.bind_eq_ok.1 h
  obtain ⟨signature, -, h⟩ := Checked.bind_eq_ok.1 h
  obtain ⟨span, hspan, h⟩ := Checked.bind_eq_ok.1 h
  obtain ⟨body, -, h⟩ := Checked.bind_eq_ok.1 h
  cases h
  obtain ⟨-, rfl⟩ := Span.make_eq_ok_iff.1 hspan
  exact ⟨rfl, hhead, rfl⟩

theorem IsFunction.head_eq (hf : s.IsFunction k f) :
    s.head k = .ok f.head ∧ f.span.start = f.head.start := by
  obtain ⟨n, opened, t, -, -, hat⟩ := hf.exists_name
  exact (functionAt_eq_ok hat).2

/-- A `fn`, a name and the brace that ends the signature make a function. -/
theorem Faithful.exists_functionAt (hs : s.Faithful) {opened : Nat} (htop : s.isTopLevel k = true)
    (hw : s.isWord k "fn" = true) (hn : s.FirstCode (k + 1) n t) (hname : t.isName = true)
    (he : s.FirstEnder true (k + 1) opened) (hb : s.kind? opened = some (.opener .brace)) :
    ∃ f lead first stop, s.functionAt k opened t.text = .ok f ∧
      s.FunctionAt k f lead first opened stop := by
  obtain ⟨x, hx, hword⟩ := exists_token?_of_isWord hw
  have hxk := Token.kind_of_isWord hword
  have hopen : openBefore s.kinds k = [] := hs.openBefore_eq_nil htop (by simp [kind?, hx, hxk])
  obtain ⟨h, lead, first, hhead, hat⟩ := hs.exists_head (lt_size hx) hopen
  obtain ⟨stop, hends, hlt⟩ := he.endsItem_group hs hb
  obtain ⟨brace, hbrace, -⟩ := Option.map_eq_some_iff.1 hb
  have hle := he.le
  obtain ⟨y, hy, hitem⟩ := hat.itemStarts
  have hfirst := hat.first_le
  obtain ⟨before, sig, after, -, -, -, hsig⟩ :=
    Unbundle.exists_slice (hs.boundary_start hy) (hs.boundary_start hbrace)
      (hs.start_le_start hy hbrace (by omega))
  rw [hitem] at hsig
  have hsig : s.slice h.itemStart brace.start = .ok sig := hsig
  obtain ⟨z, hz, hstart⟩ := hat.starts
  have hlead := hat.clear.le
  have hzstop := (hends.stopsBefore.start_lt_iff hs hz).2 (by omega)
  have hspan : Span.make h.start (s.group opened).stop = .ok ⟨h.start, (s.group opened).stop⟩ :=
    Span.make_eq_ok_iff.2 ⟨by omega, rfl⟩
  have hbstop := (hends.stopsBefore.start_lt_iff hs hbrace).2 hlt
  have hbody : Span.make brace.start (s.group opened).stop =
      .ok ⟨brace.start, (s.group opened).stop⟩ := Span.make_eq_ok_iff.2 ⟨by omega, rfl⟩
  refine ⟨⟨t.text, if (appletName? sig).isSome then .applet else .helper,
    ⟨h.start, (s.group opened).stop⟩, h, ⟨brace.start, (s.group opened).stop⟩,
    (s.group opened).closed⟩, lead, first, stop, ?_,
    ⟨⟨htop, by simp [kind?, hx, hxk], hat, rfl, hends⟩, hw, ⟨n, t, hn, hname, rfl⟩, he, hb, rfl,
      rfl, brace, sig, hbrace, hsig, ?_⟩⟩
  · simp only [functionAt, hhead, token_eq_ok hbrace, Checked.ok_bind, hsig, hspan, hbody]
    rfl
  · cases appletName? sig <;> simp [Function.isApplet]

/-- Looking for a function never fails, and tells where the function lies. -/
theorem Faithful.exists_functionSite? (hs : s.Faithful) (k : Nat) :
    ∃ r, s.functionSite? k = .ok r ∧
      ∀ f, r = some (.function f) →
        ∃ lead first opened stop, s.FunctionAt k f lead first opened stop := by
  unfold functionSite?
  by_cases hk : (s.isTopLevel k && s.isWord k "fn") = true
  · rw [if_pos hk]
    rw [Bool.and_eq_true] at hk
    obtain ⟨x, hx, hword⟩ := exists_token?_of_isWord hk.2
    have hxk := Token.kind_of_isWord hword
    split
    · exact ⟨none, rfl, by simp⟩
    · rename_i n hnext
      obtain ⟨t, hn⟩ := codeFrom?_eq_some.1 hnext
      rw [token_eq_ok hn.token, Checked.ok_bind]
      by_cases hname : t.isName = true
      · rw [if_pos hname]
        have hopen : openBefore s.kinds k = [] :=
          hs.openBefore_eq_nil hk.1 (by simp [kind?, hx, hxk])
        have hopen : openBefore s.kinds (k + 1) = [] :=
          openBefore_succ_eq_nil hopen (by simp [kind?, hx, hxk])
        have hwalk : s.Walked true (n + 1) (s.terminator? true (n + 1)) :=
          walked_terminator? hs (hn.openBefore_eq_nil hname hopen)
        have hwalk := hwalk.extend (Nat.le_succ_of_le hn.le) fun m hkm hmn =>
          hn.isEnder_eq_false hname hkm hmn
        split
        · rename_i opened hterm
          rw [hterm] at hwalk
          obtain ⟨f, lead, first, stop, hf, hat⟩ :=
            hs.exists_functionAt hk.1 hk.2 hn hname hwalk.1 hwalk.2
          rw [hf]
          refine ⟨_, rfl, ?_⟩
          intro g hg
          cases hg
          exact ⟨lead, first, opened, stop, hat⟩
        · rw [token_eq_ok hx]
          exact ⟨_, rfl, by simp⟩
      · rw [if_neg hname]
        exact ⟨none, rfl, by simp⟩
  · rw [if_neg hk]
    exact ⟨none, rfl, by simp⟩

/-- Conversely, a `fn`, a name and the brace that ends the signature are found to be a function. -/
theorem Faithful.exists_isFunction (hs : s.Faithful) {opened : Nat} (htop : s.isTopLevel k = true)
    (hw : s.isWord k "fn" = true) (hn : s.FirstCode (k + 1) n t) (hname : t.isName = true)
    (he : s.FirstEnder true (k + 1) opened) (hb : s.kind? opened = some (.opener .brace)) :
    ∃ f lead first stop, s.IsFunction k f ∧ s.FunctionAt k f lead first opened stop := by
  obtain ⟨f, lead, first, stop, hf, hat⟩ := hs.exists_functionAt htop hw hn hname he hb
  refine ⟨f, lead, first, stop, ?_, hat⟩
  have hopen := openBefore_succ_eq_nil (hat.openBefore_eq_nil hs) (by simp [hat.kind])
  have hender : s.FirstEnder true (n + 1) opened :=
    ⟨hn.lt_ender hname he, he.ends, fun m hnm hmo => he.first m (by have := hn.le; omega) hmo⟩
  have hterm := hender.terminator?_eq hs (hn.openBefore_eq_nil hname hopen) hb
  have hnext : s.nextCode? k = some n := codeFrom?_eq_some.2 ⟨t, hn⟩
  rw [IsFunction, functionSite?, if_pos (by rw [htop, hw]; rfl), hnext]
  simp only [token_eq_ok hn.token, Checked.ok_bind, if_pos hname, hterm, hf]
  rfl

theorem IsFunction.exists_functionAt (h : s.IsFunction k f) (hs : s.Faithful) :
    ∃ lead first opened stop, s.FunctionAt k f lead first opened stop := by
  obtain ⟨r, hr, hf⟩ := hs.exists_functionSite? k
  rw [IsFunction, hr] at h
  exact hf f (Except.ok.inj h)

namespace FunctionAt

variable {first opened stop lead' first' opened' stop' : Nat}

theorem isBarrier (h : s.FunctionAt k f lead first opened stop) : s.isBarrier k = true := by
  obtain ⟨t, ht, hword⟩ := exists_token?_of_isWord h.word
  simp [Scan.isBarrier, h.keyword, ht, hword]

/-- A function begins after the `fn` of every function before it. -/
theorem lt_lead (h : s.FunctionAt k f lead first opened stop)
    (h' : s.FunctionAt o g lead' first' opened' stop') (hko : k < o) : k < lead' :=
  h'.head.clear.lt_of_isBarrier h.isBarrier hko

/-- A function ends with the brace that closes its body. -/
theorem stop_of_closes {c : Nat} (h : s.FunctionAt k f lead first opened stop) (hs : s.Faithful)
    (hc : Closes s.kinds opened c) (ht : s.token? c = some t) :
    f.span.stop = t.stop ∧ stop = c + 1 := by
  have hstop : f.span.stop = t.stop := by rw [h.stop_eq, hs.group_of_closes hc ht]
  refine ⟨hstop, ?_⟩
  rw [← h.ends.stopsBefore.firstFrom_eq hs, hstop]
  exact (StopsBefore.token ht).firstFrom_eq hs

/-- Of two functions the later one begins after the earlier one, or they share their body. -/
theorem stop_le_or_eq (h : s.FunctionAt k f lead first opened stop)
    (h' : s.FunctionAt o g lead' first' opened' stop') (hs : s.Faithful) (hko : k < o) :
    stop ≤ lead' ∨ opened' = opened := by
  rcases Nat.lt_trichotomy o opened with hlt | rfl | hgt
  · right
    have hext := h'.ender.extend (Nat.succ_le_succ (Nat.le_of_lt hko)) fun m hkm hmo =>
      h.ender.first m hkm (by omega)
    exact hext.unique h.ender
  · obtain ⟨t, ht, hword⟩ := exists_token?_of_isWord h'.word
    have hb := h.brace
    simp [kind?, ht, Token.kind_of_isWord hword] at hb
  · left
    have hle : stop ≤ o := by
      apply Nat.le_of_not_lt
      intro hos
      have := (h.ends.lt_iff hs h'.lt_size (h'.openBefore_eq_nil hs)).1 hos opened h.ender.le hgt
      rw [h.ender.ends] at this
      cases this
    exact h.ends.le_of_clear hs h'.head.clear h'.lt_size hle

/-- Two applets never share their body: one signature would begin inside the other. -/
theorem opened_ne (h : s.FunctionAt k f lead first opened stop)
    (h' : s.FunctionAt o g lead' first' opened' stop') (hs : s.Faithful) (hko : k < o)
    (hf : f.isApplet = true) (hg : g.isApplet = true) : opened' ≠ opened := by
  rintro rfl
  obtain ⟨t, sig, ht, hsig, happ⟩ := h.signature
  obtain ⟨t', sig', ht', hsig', happ'⟩ := h'.signature
  rw [ht] at ht'
  cases ht'
  obtain ⟨x, hx, hxs⟩ := h.head.itemStarts
  obtain ⟨y, hy, hys⟩ := h'.head.itemStarts
  have hlead := h.lt_lead h' hko
  have hfirst := h.head.first_le
  have hfirst' := h'.head.lead_le
  have hlt := (hs.start_lt_start_iff hx hy).2 (by omega)
  obtain ⟨a, z, htext, ha, hz⟩ := slice_eq_ok hsig
  obtain ⟨b, z', htext', hb, hz'⟩ := slice_eq_ok hsig'
  obtain ⟨pre, rfl, hrest⟩ := exists_between (htext.symm.trans htext') (by omega)
  rw [← List.append_assoc] at hrest
  rw [byteLength_append] at hb
  obtain ⟨rfl, -⟩ := append_inj_of_byteLength hrest (by rw [byteLength_append]; omega)
  have hblank := isBlank_of_appletName?_append (happ.1 hf) (happ'.1 hg)
  obtain ⟨c, hc, hcb⟩ := isBlank_head_of_mem_tokenize (hs.mem_tokenize hx)
  obtain ⟨b, after, hplace, hbx, -⟩ := exists_place_of_mem_tokenize (hs.mem_tokenize hx)
  obtain ⟨rfl, hchars⟩ := append_inj_of_byteLength (hplace.symm.trans htext) (by omega)
  cases pre with
  | nil =>
    rw [byteLength_nil] at hb
    omega
  | cons d pre =>
    have hd : isBlank d = true := by simp_all
    obtain ⟨tail, htail⟩ := List.head?_eq_some_iff.1 hc
    rw [htail, List.cons_append, List.cons_append, List.cons_append, List.cons.injEq] at hchars
    rw [hchars.1, hd] at hcb
    cases hcb

/-- Applets do not overlap. -/
theorem stop_le_of_isApplet (h : s.FunctionAt k f lead first opened stop)
    (h' : s.FunctionAt o g lead' first' opened' stop') (hs : s.Faithful) (hko : k < o)
    (hf : f.isApplet = true) (hg : g.isApplet = true) : stop ≤ lead' := by
  rcases h.stop_le_or_eq h' hs hko with hle | heq
  · exact hle
  · exact absurd heq (h.opened_ne h' hs hko hf hg)

end FunctionAt

/-- What is found at the token `k`; nothing when looking fails. -/
def siteAt? (s : Scan) (k : Nat) : Option FunctionSite :=
  match s.functionSite? k with
  | .ok site => site
  | .error _ => none

theorem Faithful.functionSite?_eq (hs : s.Faithful) (k : Nat) :
    s.functionSite? k = .ok (s.siteAt? k) := by
  obtain ⟨r, hr, -⟩ := hs.exists_functionSite? k
  rw [siteAt?, hr]

/-- The search for functions succeeds. -/
theorem Faithful.functionSites_eq (hs : s.Faithful) :
    s.functionSites = .ok ((List.range s.size).filterMap s.siteAt?) := by
  have hall : (List.range s.size).mapM s.functionSite? =
      .ok ((List.range s.size).map s.siteAt?) := by
    rw [Checked.mapM_eq_ok, List.forall₂_map_right_iff, List.forall₂_same]
    intro k _
    exact hs.functionSite?_eq k
  rw [functionSites, hall, Checked.ok_bind, List.filterMap_map]
  rfl

theorem Faithful.isFunction_iff (hs : s.Faithful) :
    s.IsFunction k f ↔ (s.siteAt? k).bind FunctionSite.function? = some f := by
  rw [IsFunction, hs.functionSite?_eq k]
  cases hsite : s.siteAt? k with
  | none => simp
  | some site => cases site <;> simp [FunctionSite.function?]

theorem IsFunction.lt_size (h : s.IsFunction k f) (hs : s.Faithful) : k < s.size := by
  obtain ⟨lead, first, opened, stop, hat⟩ := h.exists_functionAt hs
  exact hat.lt_size

/-- The functions come in source order. -/
theorem Faithful.pairwise_functions {sites : List FunctionSite} (hs : s.Faithful)
    (h : s.functionSites = .ok sites) :
    (sites.filterMap FunctionSite.function?).Pairwise fun f g =>
      ∃ k o, k < o ∧ s.IsFunction k f ∧ s.IsFunction o g := by
  rw [hs.functionSites_eq] at h
  cases h
  rw [List.filterMap_filterMap, List.pairwise_filterMap]
  refine List.pairwise_lt_range.imp ?_
  intro k o hko f hf g hg
  exact ⟨k, o, hko, hs.isFunction_iff.2 hf, hs.isFunction_iff.2 hg⟩

theorem Faithful.mem_functions_iff {sites : List FunctionSite} (hs : s.Faithful)
    (h : s.functionSites = .ok sites) :
    f ∈ sites.filterMap FunctionSite.function? ↔ ∃ k, s.IsFunction k f := by
  rw [hs.functionSites_eq] at h
  cases h
  rw [List.filterMap_filterMap, List.mem_filterMap]
  constructor
  · rintro ⟨k, -, hf⟩
    exact ⟨k, hs.isFunction_iff.2 hf⟩
  · rintro ⟨k, hf⟩
    exact ⟨k, List.mem_range.2 (hf.lt_size hs), hs.isFunction_iff.1 hf⟩

end Scan

variable {applets kept : List Span} {fs : List Function} {f g : Function}

def keptOf (applets kept : List Span) (fs : List Function) : List Function :=
  ((keptMarks applets kept fs).filter Prod.snd).map Prod.fst

theorem keptOf_cons (applets kept : List Span) (f : Function) (fs : List Function) :
    keptOf applets kept (f :: fs) =
      if f.isApplet then f :: keptOf applets kept fs
      else if (applets ++ kept).any (·.contains f.span.start) then keptOf applets kept fs
      else f :: keptOf applets (f.span :: kept) fs := by
  unfold keptOf
  rw [keptMarks]
  split
  · rfl
  · split <;> rfl

theorem sublist_keptOf (applets kept : List Span) (fs : List Function) :
    (keptOf applets kept fs).Sublist fs := by
  induction fs generalizing kept with
  | nil => exact .slnil
  | cons f fs ih =>
    rw [keptOf_cons]
    split
    · exact (ih kept).cons_cons f
    · split
      · exact (ih kept).cons f
      · exact (ih _).cons_cons f

theorem filter_isApplet_keptOf (applets kept : List Span) (fs : List Function) :
    (keptOf applets kept fs).filter Function.isApplet = fs.filter Function.isApplet := by
  induction fs generalizing kept with
  | nil => rfl
  | cons f fs ih =>
    rw [keptOf_cons]
    by_cases hf : f.isApplet = true
    · rw [if_pos hf, List.filter_cons_of_pos hf, List.filter_cons_of_pos hf, ih]
    · rw [if_neg hf, List.filter_cons_of_neg hf]
      split
      · exact ih kept
      · rw [List.filter_cons_of_neg hf, ih]

/-- A kept helper starts outside the applets and the helpers kept before. -/
theorem not_contains_of_mem_keptOf {span : Span} (hm : f ∈ keptOf applets kept fs)
    (hf : f.isApplet = false) (hspan : span ∈ applets ++ kept) :
    span.contains f.span.start = false := by
  induction fs generalizing kept with
  | nil => cases hm
  | cons g fs ih =>
    rw [keptOf_cons] at hm
    split at hm
    · rename_i hg
      rcases List.mem_cons.1 hm with rfl | hm
      · rw [hf] at hg
        cases hg
      · exact ih hm hspan
    · split at hm
      · exact ih hm hspan
      · rename_i hany
        rcases List.mem_cons.1 hm with rfl | hm
        · have hall : ¬ span.contains f.span.start = true := fun hc =>
            hany (List.any_eq_true.2 ⟨span, hspan, hc⟩)
          simpa using hall
        · refine ih hm ?_
          rw [List.mem_append, List.mem_cons]
          rcases List.mem_append.1 hspan with h | h
          · exact .inl h
          · exact .inr (.inr h)

/-- No kept helper starts inside a helper kept before it. -/
theorem pairwise_helpers_keptOf (applets kept : List Span) (fs : List Function) :
    ((keptOf applets kept fs).filter (!·.isApplet)).Pairwise fun f g =>
      f.span.contains g.span.start = false := by
  induction fs generalizing kept with
  | nil => exact .nil
  | cons f fs ih =>
    rw [keptOf_cons]
    by_cases hf : f.isApplet = true
    · rw [if_pos hf, List.filter_cons_of_neg (by simp [hf])]
      exact ih kept
    · rw [if_neg hf]
      split
      · exact ih kept
      · rw [List.filter_cons_of_pos (by simpa using hf)]
        refine .cons ?_ (ih _)
        intro g hg
        rw [List.mem_filter] at hg
        exact not_contains_of_mem_keptOf hg.1 (by simpa using hg.2) (by simp)

end Unbundle
