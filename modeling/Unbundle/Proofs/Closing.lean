import Unbundle.Proofs.Partition
import Unbundle.Report

/-! Closed items: an item is closed exactly if a token at the top level ends it. One that none ends
takes up the rest of the text, so it is the last of its kind. -/
namespace Unbundle
namespace Scan

variable {s : Scan} {p : TokenKind → Bool} {closed : Bool} {i j k c n stop : Nat}
  {t : Token} {f : Function} {d : Declaration} {functions : List Span} {found : List Finding}

/-- The token at `c` ends an item whose end is looked for from the token `i` on. A brace that ends
an item stands for the one that closes its block. -/
inductive EndsWith (s : Scan) (p : TokenKind → Bool) (i : Nat) : Nat → Prop
  | semicolon {j : Nat} (h : s.FirstTop p i j) (hk : s.kind? j = some (.punct ';')) :
      EndsWith s p i j
  | block {j c : Nat} (h : s.FirstTop p i j) (hk : s.kind? j = some (.opener .brace))
      (hc : s.partner? j = some c) : EndsWith s p i c

/-- What `closed` tells of an item that reaches to the byte `stop`, whose end is looked for from the
token `i` on. -/
structure ClosedExactly (s : Scan) (p : TokenKind → Bool) (i stop : Nat) (closed : Bool) :
    Prop where
  closed_iff : closed = true ↔ ∃ c t, s.EndsWith p i c ∧ s.token? c = some t ∧ stop = t.stop
  open_iff : closed = false ↔ ∀ c, ¬ s.EndsWith p i c
  isTopLevel : ∀ c, s.EndsWith p i c → s.isTopLevel c = true
  stop : closed = false → stop = byteLength s.text

/-- What ends an item stands at the top level. -/
theorem EndsWith.isTopLevel (h : s.EndsWith p i c) (hs : s.Faithful) : s.isTopLevel c = true := by
  cases h with
  | semicolon h hk => exact h.isTopLevel
  | block h hk hp => exact hs.isTopLevel_of_closes (hs.closes_of_opener hk hp) h.isTopLevel

theorem EndsWith.closedExactly (h : s.EndsWith p i c) (hs : s.Faithful) (ht : s.token? c = some t) :
    s.ClosedExactly p i t.stop true := by
  refine ⟨⟨fun _ => ⟨c, t, h, ht, rfl⟩, fun _ => rfl⟩, ?_, fun c he => he.isTopLevel hs, ?_⟩
  · constructor
    · intro hopen
      cases hopen
    · intro hnone
      exact absurd h (hnone c)
  · intro hopen
    cases hopen

theorem Faithful.closedExactly_of_not_endsWith (hs : s.Faithful) (h : ∀ c, ¬ s.EndsWith p i c) :
    s.ClosedExactly p i (byteLength s.text) false := by
  refine ⟨?_, ⟨fun _ => h, fun _ => rfl⟩, fun c he => he.isTopLevel hs, fun _ => rfl⟩
  constructor
  · intro hclosed
    cases hclosed
  · rintro ⟨c, t, he, -⟩
    exact absurd he (h c)

/-- An item that ends with a block is closed if the block is. -/
theorem Faithful.closedExactly_group (hs : s.Faithful) (h : s.FirstTop p i j)
    (hk : s.kind? j = some (.opener .brace)) :
    s.ClosedExactly p i (s.group j).stop (s.group j).closed := by
  by_cases hc : ∃ c, Closes s.kinds j c
  · obtain ⟨c, hc⟩ := hc
    obtain ⟨t, -, ht, -⟩ := exists_closer hc
    have hend : s.EndsWith p i c := .block h hk (hs.partner?_eq_some_iff.2 (.inl hc))
    rw [hs.group_of_closes hc ht]
    exact hend.closedExactly hs ht
  · rw [hs.group_of_not_closes fun c h => hc ⟨c, h⟩]
    refine hs.closedExactly_of_not_endsWith ?_
    intro c he
    cases he with
    | semicolon h' hk' =>
      rw [← h.unique h', hk] at hk'
      cases hk'
    | block h' hk' hp =>
      obtain rfl := h.unique h'
      exact hc ⟨c, hs.closes_of_opener hk hp⟩

/-- A function is closed exactly if the first brace behind its name is. -/
theorem IsFunction.closedExactly (hf : s.IsFunction k f) (hs : s.Faithful) :
    ∃ n t, s.FirstCode (k + 1) n t ∧ f.name = t.text ∧
      s.ClosedExactly (· == .opener .brace) (n + 1) f.span.stop f.closed := by
  obtain ⟨lead, first, opened, stop, hat⟩ := hf.exists_functionAt hs
  obtain ⟨n, t, hn, hname, hfname⟩ := hat.named
  have hle := hn.le
  have hfirst := firstTop_iff_firstEnder.2 hat.ender
  have hbrace : s.FirstTop (· == .opener .brace) (n + 1) opened := by
    refine ⟨hn.lt_ender hname hat.ender, hfirst.isTopLevel, ⟨_, hat.brace, beq_self_eq_true _⟩, ?_⟩
    intro m k hnm hmo htop hk
    have hnot := hfirst.first m k (by omega) hmo htop hk
    simp only [TokenKind.ends, Bool.or_eq_false_iff, Bool.true_and] at hnot
    exact hnot.2
  refine ⟨n, t, hn, hfname, ?_⟩
  rw [hat.stop_eq, hat.closed_eq]
  exact hs.closedExactly_group hbrace hat.brace

theorem Faithful.closedExactly_declarationEnd {kind : DeclarationKind} (hs : s.Faithful)
    (ho : openBefore s.kinds (k + 1) = []) (h : s.declarationEnd k kind = .ok (stop, closed)) :
    s.ClosedExactly (TokenKind.ends kind.endsWithBlock) (k + 1) stop closed := by
  have hwalk : s.Walked kind.endsWithBlock (k + 1) (s.terminator? kind.endsWithBlock (k + 1)) :=
    walked_terminator? hs ho
  unfold declarationEnd at h
  split at h
  · rename_i j hterm
    rw [hterm] at hwalk
    obtain ⟨t, ht, -⟩ := Option.map_eq_some_iff.1 hwalk.2
    rw [token_eq_ok ht] at h
    cases h
    exact (EndsWith.semicolon (firstTop_iff_firstEnder.2 hwalk.1) hwalk.2).closedExactly hs ht
  · rename_i opened hterm
    rw [hterm] at hwalk
    cases h
    exact hs.closedExactly_group (firstTop_iff_firstEnder.2 hwalk.1) hwalk.2
  · rename_i hterm
    rw [hterm] at hwalk
    cases h
    have hnone (j : Nat) (hj : s.FirstTop (TokenKind.ends kind.endsWithBlock) (k + 1) j) :
        False := by
      have hender := firstTop_iff_firstEnder.1 hj
      have hnot := hwalk j hender.le
      rw [hender.ends] at hnot
      cases hnot
    refine hs.closedExactly_of_not_endsWith ?_
    intro c he
    cases he with
    | semicolon hj => exact hnone _ hj
    | block hj => exact hnone _ hj

/-- A declaration is closed exactly if a semicolon ends it, or a block where its kind may have
one. -/
theorem IsDeclaration.closedExactly (hd : s.IsDeclaration functions k d) (hs : s.Faithful) :
    s.ClosedExactly (TokenKind.ends d.kind.endsWithBlock) (k + 1) d.span.stop d.closed := by
  obtain ⟨head, -, hat, -⟩ := hd.found
  obtain ⟨-, -, -, -, -, hend⟩ := declarationAt_eq_ok hat
  have hopen := hs.openBefore_eq_nil hd.keyword (by simp [hd.kind])
  exact hs.closedExactly_declarationEnd (openBefore_succ_eq_nil hopen (by simp [hd.kind])) hend

theorem eq_of_map_eq_some {kind other : DeclarationKind} {found : Option String} {name : String}
    (h : (.ok (found.map (other, ·)) : Checked _) = .ok (some (kind, name))) : other = kind := by
  obtain ⟨name', -, heq⟩ := Option.map_eq_some_iff.1 (Except.ok.inj h)
  exact congrArg Prod.fst heq

/-- A declaration is recognised by its keyword. -/
theorem isWord_of_declarationName? {kind : DeclarationKind} {name : String}
    (h : s.declarationName? i t = .ok (some (kind, name))) : t.isWord kind.keyword = true := by
  unfold declarationName? at h
  split at h
  · cases h
  · split_ifs at h with hconst hqualifier hstatic hmut htype hstruct henum htrait hunion himpl
    · cases h
    · obtain rfl := eq_of_map_eq_some h
      exact hconst
    · obtain rfl := eq_of_map_eq_some h
      exact hstatic
    · obtain rfl := eq_of_map_eq_some h
      exact hstatic
    · obtain rfl := eq_of_map_eq_some h
      exact htype
    · obtain rfl := eq_of_map_eq_some h
      exact hstruct
    · obtain rfl := eq_of_map_eq_some h
      exact henum
    · obtain rfl := eq_of_map_eq_some h
      exact htrait
    · obtain rfl := eq_of_map_eq_some h
      exact hunion
    · obtain ⟨named, -, h⟩ := Checked.bind_eq_ok.1 h
      obtain rfl := eq_of_map_eq_some h
      exact himpl
    · cases h

/-- Each declaration that is found stands at its keyword. -/
theorem exists_keyword_of_mem (h : s.findings functions = .ok found)
    (hd : d ∈ found.filterMap Finding.declaration?) :
    ∃ k, s.IsDeclaration functions k d ∧ s.isWord k d.kind.keyword = true := by
  obtain ⟨g, hg, hgd⟩ := List.mem_filterMap.1 hd
  cases g with
  | skipped item => cases hgd
  | declaration e =>
    obtain rfl := Option.some.inj hgd
    obtain ⟨k, t, resume, ht, hout, hk⟩ := exists_finding?_of_mem h hg
    obtain ⟨hdecl, hname, -⟩ := finding?_declaration ht hout hk
    refine ⟨k, hdecl, ?_⟩
    rw [isWord, ht]
    exact isWord_of_declarationName? hname

end Scan

section LastOpen

variable {α : Type} {f : α → Span} {closed : α → Bool} {xs : List α}

def lastOpen (closed : α → Bool) (xs : List α) : List α := (xs.getLast?.filter (!closed ·)).toList

/-- Among items in order only the last one can take up the rest of the text. -/
theorem InOrder.pairwise_closed {s : Scan} (h : InOrder (xs.map f)) (hs : s.Faithful)
    (hholds : ∀ x ∈ xs, ∃ a b, s.Holds (f x) a b)
    (hrest : ∀ x ∈ xs, closed x = false → (f x).stop = byteLength s.text) :
    xs.Pairwise fun x _ => closed x = true := by
  refine ((List.pairwise_map.1 h.increasing).and (List.pairwise_map.1 h.disjoint)).imp_of_mem ?_
  rintro x y hx hy ⟨hlt, hapart⟩
  rw [← Bool.not_eq_false]
  intro hopen
  have hstop := hrest x hx hopen
  obtain ⟨a, b, hy⟩ := hholds y hy
  have hpos := hy.start_lt_stop hs
  have hle := (hy.stops.boundary hs).le
  simp only [Span.overlaps, Bool.and_eq_false_iff, decide_eq_false_iff_not] at hapart
  omega

theorem filter_eq_lastOpen (h : xs.Pairwise fun x _ => closed x = true) :
    xs.filter (!closed ·) = lastOpen closed xs := by
  induction xs with
  | nil => rfl
  | cons x xs ih =>
    obtain ⟨hx, hxs⟩ := List.pairwise_cons.1 h
    cases xs with
    | nil => cases hc : closed x <;> simp [lastOpen, hc, Option.filter]
    | cons y ys =>
      have hclosed := hx y List.mem_cons_self
      rw [List.filter_cons_of_neg (by simp [hclosed]), ih hxs, lastOpen, lastOpen,
        List.getLast?_cons_cons]

theorem getLast?_of_not_closed {x : α} (h : xs.Pairwise fun x _ => closed x = true) (hx : x ∈ xs)
    (hopen : closed x = false) : xs.getLast? = some x := by
  have hmem : x ∈ xs.filter (!closed ·) := List.mem_filter.2 ⟨hx, by simp [hopen]⟩
  rw [filter_eq_lastOpen h, lastOpen, Option.mem_toList] at hmem
  exact (Option.filter_eq_some_iff.1 hmem).1

end LastOpen

/-- Every item is closed exactly if a token at the top level ends it; the others take up the rest of
the text, one of each kind at most, and are those that are listed. -/
structure Inventory.ClosedExactly (u : Inventory) (s : Scan) : Prop where
  functions : ∀ f ∈ u.applets ++ u.helpers, ∃ k n t, s.IsFunction k f ∧ s.FirstCode (k + 1) n t ∧
    f.name = t.text ∧ s.ClosedExactly (· == .opener .brace) (n + 1) f.span.stop f.closed
  declarations : ∀ d ∈ u.declarations,
    ∃ k, s.IsDeclaration (functionSpans (u.applets ++ u.helpers)) k d ∧
      s.isWord k d.kind.keyword = true ∧
      s.ClosedExactly (TokenKind.ends d.kind.endsWithBlock) (k + 1) d.span.stop d.closed
  last_applet : ∀ f ∈ u.applets, f.closed = false → u.applets.getLast? = some f
  last_helper : ∀ f ∈ u.helpers, f.closed = false → u.helpers.getLast? = some f
  last_declaration : ∀ d ∈ u.declarations, d.closed = false → u.declarations.getLast? = some d
  unclosed : u.unclosed =
    (lastOpen Function.closed u.applets ++ lastOpen Function.closed u.helpers).map
        (fun f => (f.name, f.head.itemStart)) ++
      (lastOpen Declaration.closed u.declarations).map (fun d => (d.name, d.head.itemStart))

theorem Scan.Functions.pairwise_closed {s : Scan} {fs : List Function} (h : s.Functions fs)
    (hs : s.Faithful) (ho : InOrder (fs.map Function.span)) :
    fs.Pairwise fun f _ => f.closed = true := by
  refine ho.pairwise_closed hs ?_ ?_
  · intro f hf
    obtain ⟨k, hk⟩ := h.each f hf
    obtain ⟨lead, first, opened, stop, hat⟩ := hk.exists_functionAt hs
    exact ⟨lead, stop, hat.holds⟩
  · intro f hf hopen
    obtain ⟨k, hk⟩ := h.each f hf
    obtain ⟨n, t, -, -, hexact⟩ := hk.closedExactly hs
    exact hexact.stop hopen

theorem Scan.Met.pairwise_closed {s : Scan} {functions : List Span} {ds : List Declaration}
    {i : Nat} (h : s.Met functions i ds) (hs : s.Faithful) :
    ds.Pairwise fun d _ => d.closed = true := by
  refine (h.inOrder hs).pairwise_closed hs ?_ ?_
  · intro d hd
    obtain ⟨k, -, hk⟩ := h.each d hd
    obtain ⟨lead, first, stop, hat⟩ := hk.exists_itemAt hs
    exact ⟨lead, stop, hat.holds⟩
  · intro d hd hopen
    obtain ⟨k, -, hk⟩ := h.each d hd
    exact (hk.closedExactly hs).stop hopen

/-- Whether an item is closed is told exactly, whatever the text. -/
theorem analyze_closedExactly {source : Source} {u : Inventory}
    (hu : analyze source = .ok (.ok u)) : u.ClosedExactly (Scan.ofText source.text) := by
  have hs := Scan.faithful_ofText source.text
  have hy := yields_of_analyze hu
  have happlets := hy.applets.pairwise_closed hs (hy.applets.inOrder_applets hs hy.isApplet)
  have hhelpers := hy.helpers.pairwise_closed hs (hy.helpers.inOrder_helpers hs hy.helpers_apart)
  have hdeclarations := hy.declarations.pairwise_closed hs
  refine ⟨?_, ?_, fun f => getLast?_of_not_closed happlets,
    fun f => getLast?_of_not_closed hhelpers, fun d => getLast?_of_not_closed hdeclarations, ?_⟩
  · intro f hf
    obtain ⟨k, hk⟩ := hy.exists_isFunction hf
    obtain ⟨n, t, hn, hname, hexact⟩ := hk.closedExactly hs
    exact ⟨k, n, t, hk, hn, hname, hexact⟩
  · obtain ⟨v, hv, hu⟩ := Checked.bind_eq_ok.1 hu
    obtain ⟨-, hfound⟩ := Scan.survey_eq_ok.1 hv
    obtain ⟨-, rfl⟩ := Survey.inventory_eq_ok.1 (Except.ok.inj hu)
    intro d hd
    obtain ⟨k, hk, hword⟩ := Scan.exists_keyword_of_mem hfound hd
    exact ⟨k, hk, hword, hk.closedExactly hs⟩
  · rw [Inventory.unclosed, List.filter_append, filter_eq_lastOpen happlets,
      filter_eq_lastOpen hhelpers, filter_eq_lastOpen hdeclarations]

def cutStruct : Source := .ofString "text" "fn f() \x7b\x7d\nstruct S \x7b\n"

theorem analyze_cutStruct :
    analyze cutStruct = .ok (.ok
      { applets := []
        helpers := [⟨"f", .helper, ⟨0, 9⟩, ⟨0, 0, none, .priv, none⟩, ⟨7, 9⟩, true⟩]
        declarations := [⟨.aggregate .struct, "S", ⟨10, 21⟩, ⟨10, 10, none, .priv, none⟩, false⟩]
        skipped := [] }) := by
  have hv : (Scan.ofText cutStruct.text).survey = .ok
      ⟨[.function ⟨"f", .helper, ⟨0, 9⟩, ⟨0, 0, none, .priv, none⟩, ⟨7, 9⟩, true⟩],
        [.declaration
          ⟨.aggregate .struct, "S", ⟨10, 21⟩, ⟨10, 10, none, .priv, none⟩, false⟩]⟩ := by
    refine Scan.survey_eq_ok.2 ⟨by decide +kernel, ?_⟩
    rw [functionSpans_of_pairwise]
    · decide +kernel
    · decide
  exact analyze_of_survey hv rfl

/-- The structure is the one item that is listed, and nothing ends it. -/
theorem cutStruct_closedExactly :
    ∃ u, analyze cutStruct = .ok (.ok u) ∧ u.unclosed = [("S", 10)] ∧
      u.ClosedExactly (Scan.ofText cutStruct.text) :=
  ⟨_, analyze_cutStruct, rfl, analyze_closedExactly analyze_cutStruct⟩

end Unbundle
