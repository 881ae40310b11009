import Unbundle.Proofs.Item.Declaration
import Unbundle.Proofs.Item.Function
import Unbundle.Survey

/-! The partition of a category file: items of one kind do not overlap, and none starts inside an
item that takes precedence over it. Where an item starts inside one that does not, that one has lost
its end. -/
namespace Unbundle

/-- Spans in the order of their starts, no two of which overlap. -/
structure InOrder (spans : List Span) : Prop where
  increasing : spans.Pairwise fun a b => a.start < b.start
  disjoint : spans.Pairwise fun a b => a.overlaps b = false

theorem InOrder.of_stop_le {α : Type} {f : α → Span} {xs : List α}
    (hpos : ∀ x ∈ xs, (f x).start < (f x).stop)
    (h : xs.Pairwise fun x y => (f x).stop ≤ (f y).start) : InOrder (xs.map f) := by
  constructor
  · rw [List.pairwise_map]
    refine h.imp_of_mem ?_
    intro x y hx _ hxy
    have := hpos x hx
    omega
  · rw [List.pairwise_map]
    refine h.imp ?_
    intro x y hxy
    simp only [Span.overlaps, Bool.and_eq_false_iff, decide_eq_false_iff_not]
    omega

/-- The items of each kind are in order; helpers start outside applets, and declarations outside
both. -/
structure Inventory.Partitioned (u : Inventory) : Prop where
  applets : InOrder (u.applets.map Function.span)
  helpers : InOrder (u.helpers.map Function.span)
  declarations : InOrder (u.declarations.map Declaration.span)
  helper_outside : ∀ h ∈ u.helpers, ∀ a ∈ u.applets, a.span.contains h.span.start = false
  declaration_outside : ∀ d ∈ u.declarations, ∀ f ∈ u.applets ++ u.helpers,
    f.span.contains d.span.start = false

namespace Scan

variable {s : Scan} {f g : Function} {d : Declaration} {spans : List Span}
  {sites : List FunctionSite} {i k : Nat}

structure Functions (s : Scan) (fs : List Function) : Prop where
  each : ∀ f ∈ fs, ∃ k, s.IsFunction k f
  order : fs.Pairwise fun f g => ∃ k o, k < o ∧ s.IsFunction k f ∧ s.IsFunction o g

theorem Faithful.functions (hs : s.Faithful) (h : s.functionSites = .ok sites) :
    s.Functions (sites.filterMap FunctionSite.function?) :=
  ⟨fun _ hf => (hs.mem_functions_iff h).1 hf, hs.pairwise_functions h⟩

theorem Functions.sublist {fs gs : List Function} (h : s.Functions fs) (hsub : gs.Sublist fs) :
    s.Functions gs :=
  ⟨fun f hf => h.each f (hsub.subset hf), h.order.sublist hsub⟩

theorem Functions.start_lt_stop {fs : List Function} (h : s.Functions fs) (hs : s.Faithful)
    (hf : f ∈ fs) : f.span.start < f.span.stop := by
  obtain ⟨k, hk⟩ := h.each f hf
  obtain ⟨lead, first, opened, stop, hat⟩ := hk.exists_functionAt hs
  exact hat.holds.start_lt_stop hs

/-- Later functions start later. -/
theorem Functions.start_lt_start {fs : List Function} (h : s.Functions fs) (hs : s.Faithful) :
    fs.Pairwise fun f g => f.span.start < g.span.start := by
  refine h.order.imp ?_
  rintro f g ⟨k, o, hko, hf, hg⟩
  obtain ⟨lead, first, opened, stop, hat⟩ := hf.exists_functionAt hs
  obtain ⟨lead', first', opened', stop', hat'⟩ := hg.exists_functionAt hs
  have hlead := hat.lt_lead hat' hko
  have hle := hat.head.clear.le
  exact (hat.holds.starts.lt_iff hat'.holds.starts hs).2 (by omega)

theorem Functions.inOrder_applets {fs : List Function} (h : s.Functions fs) (hs : s.Faithful)
    (happ : ∀ f ∈ fs, f.isApplet = true) : InOrder (fs.map Function.span) := by
  refine .of_stop_le (fun f hf => h.start_lt_stop hs hf) ?_
  refine h.order.imp_of_mem ?_
  rintro f g hf hg ⟨k, o, hko, hkf, hog⟩
  obtain ⟨lead, first, opened, stop, hat⟩ := hkf.exists_functionAt hs
  obtain ⟨lead', first', opened', stop', hat'⟩ := hog.exists_functionAt hs
  have hle := hat.stop_le_of_isApplet hat' hs hko (happ f hf) (happ g hg)
  exact hat.holds.stop_le_start hs hat'.holds.starts hle

theorem Functions.inOrder_helpers {fs : List Function} (h : s.Functions fs) (hs : s.Faithful)
    (hout : fs.Pairwise fun f g => f.span.contains g.span.start = false) :
    InOrder (fs.map Function.span) := by
  refine .of_stop_le (fun f hf => h.start_lt_stop hs hf) ?_
  refine ((h.start_lt_start hs).and hout).imp ?_
  rintro f g ⟨hlt, hnot⟩
  rw [← Bool.not_eq_true, Span.contains_iff] at hnot
  omega

theorem Met.inOrder {ds : List Declaration} (h : s.Met spans i ds) (hs : s.Faithful) :
    InOrder (ds.map Declaration.span) := by
  refine .of_stop_le ?_ (h.pairwise hs)
  intro d hd
  obtain ⟨k, -, hk⟩ := h.each d hd
  obtain ⟨lead, first, stop, hat⟩ := hk.exists_itemAt hs
  exact hat.holds.start_lt_stop hs

/-- A declaration does not start inside a function it was looked for around. -/
theorem IsDeclaration.not_contains (hd : s.IsDeclaration spans i d) (hs : s.Faithful)
    (hf : s.IsFunction k f) (hspan : f.span ∈ spans) : f.span.contains d.span.start = false := by
  obtain ⟨lead, first, stop, hat⟩ := hd.exists_itemAt hs
  obtain ⟨flead, ffirst, opened, fstop, hfat⟩ := hf.exists_functionAt hs
  obtain ⟨u, hu, hstart⟩ := hat.holds.starts
  obtain ⟨t, ht, -⟩ := Option.map_eq_some_iff.1 hd.kind
  rw [← Bool.not_eq_true, ← hstart, hfat.holds.contains_iff hs hu]
  rintro ⟨hle, hlt⟩
  have hclear := hat.head.clear.le
  have hlead : lead = flead := by
    have hstrict := hd.not_strictlyContains hspan
    rw [← Bool.not_eq_true, Span.strictlyContains_iff,
      hfat.holds.starts.lt_iff hat.holds.starts hs, ← hstart,
      hfat.holds.stops.start_lt_iff hs hu] at hstrict
    omega
  have hout := hd.outside t ht f.span hspan
  rw [← Bool.not_eq_true, hfat.holds.contains_iff hs ht] at hout
  have hback := hfat.ends.le_of_clear hs hat.head.clear hat.lt_size (by omega)
  omega

/-- From `start` to `stop` nothing at the top level ends an item. -/
def RunsOn (s : Scan) (blockEnds : Bool) (start stop : Nat) : Prop :=
  start ≤ stop ∧ ∀ i t, s.token? i = some t → start ≤ t.start → t.start < stop →
    s.isEnder blockEnds i = false

theorem isBarrier_of_isEnder {blockEnds : Bool} (h : s.isEnder blockEnds i = true) :
    s.isBarrier i = true := by
  obtain ⟨htop, k, hk, he⟩ := isEnder_iff.1 h
  obtain ⟨t, ht, rfl⟩ := Option.map_eq_some_iff.1 hk
  simp only [TokenKind.ends, Bool.or_eq_true, Bool.and_eq_true, beq_iff_eq] at he
  rcases he with he | ⟨-, he⟩
  · simp [isBarrier, htop, ht, he]
  · simp [isBarrier, htop, ht, he]

/-- An item takes in what starts behind its keyword exactly when nothing ended it before. -/
theorem ItemAt.contains_iff {blockEnds : Bool} {span : Span} {h : Head}
    {lead first stop m offset : Nat} (hi : s.ItemAt blockEnds k span h lead first stop)
    (hs : s.Faithful) (hm : s.StartsAt m offset) (ho : openBefore s.kinds m = [])
    (hbehind : lead ≤ m → k < m) :
    span.contains offset = true ↔ s.RunsOn blockEnds h.itemStart offset := by
  obtain ⟨t, ht, rfl⟩ := hm
  obtain ⟨u, hu, hitem⟩ := hi.head.itemStarts
  have hle := hi.head.lead_le
  have hfirst := hi.head.first_le
  rw [hi.holds.contains_iff hs ht, hi.ends.lt_iff hs (Scan.lt_size ht) ho, ← hitem]
  have hstart := hs.start_lt_start_iff ht hu
  constructor
  · rintro ⟨hlead, hclear⟩
    have hk := hbehind hlead
    refine ⟨by omega, ?_⟩
    intro j x hx hux hxt
    have hju := hs.start_lt_start_iff hx hu
    have hjt := (hs.start_lt_start_iff hx ht).1 hxt
    rcases Nat.lt_trichotomy j k with hjk | rfl | hkj
    · rw [← Bool.not_eq_true]
      intro he
      have := hi.head.clear.lt_of_isBarrier (isBarrier_of_isEnder he) hjk
      omega
    · apply isEnder_eq_false
      intro k hk
      rw [hi.kind] at hk
      cases hk
      simp [TokenKind.ends]
    · exact hclear j hkj hjt
  · rintro ⟨hut, hclear⟩
    refine ⟨by omega, ?_⟩
    intro j hkj hjm
    obtain ⟨x, hx⟩ := exists_token? (Nat.lt_trans hjm (Scan.lt_size ht))
    have hju := hs.start_lt_start_iff hx hu
    have hjt := hs.start_lt_start_iff hx ht
    exact hclear j x hx (by omega) (by omega)

end Scan

/-- What a survey consists of. -/
theorem Scan.survey_eq_ok {s : Scan} {v : Survey} :
    s.survey = .ok v ↔
      s.functionSites = .ok v.sites ∧
        s.findings (functionSpans (v.applets ++ v.helpers)) = .ok v.findings := by
  unfold Scan.survey
  constructor
  · intro h
    obtain ⟨sites, hsites, h⟩ := Checked.bind_eq_ok.1 h
    obtain ⟨found, hfound, h⟩ := Checked.bind_eq_ok.1 h
    cases h
    exact ⟨hsites, hfound⟩
  · rintro ⟨hsites, hfound⟩
    rw [hsites, Checked.ok_bind]
    exact Checked.bind_eq_ok.2 ⟨v.findings, hfound, rfl⟩

theorem Survey.inventory_eq_ok {v : Survey} {text : Text} {u : Inventory} :
    v.inventory text = .ok u ↔
      checkNames text v.applets = .ok () ∧
        u = ⟨v.applets, v.helpers, v.findings.filterMap Finding.declaration?,
          v.findings.filterMap Finding.skipped?⟩ := by
  unfold Survey.inventory
  rw [Checked.bind_eq_ok]
  constructor
  · rintro ⟨x, hnames, h⟩
    cases h
    exact ⟨hnames, rfl⟩
  · rintro ⟨hnames, rfl⟩
    exact ⟨(), hnames, rfl⟩

theorem functionSpans_of_pairwise {fs : List Function}
    (h : (fs.map Function.span).Pairwise fun a b => a.notAfter b = true) :
    functionSpans fs = fs.map Function.span :=
  List.mergeSort_of_pairwise h

/-- Where the items of a partition were found. -/
structure Scan.Yields (s : Scan) (u : Inventory) : Prop where
  applets : s.Functions u.applets
  helpers : s.Functions u.helpers
  isApplet : ∀ f ∈ u.applets, f.isApplet = true
  isHelper : ∀ f ∈ u.helpers, f.isApplet = false
  helper_outside : ∀ h ∈ u.helpers, ∀ a ∈ u.applets, a.span.contains h.span.start = false
  helpers_apart : u.helpers.Pairwise fun f g => f.span.contains g.span.start = false
  declarations : s.Met (functionSpans (u.applets ++ u.helpers)) 0 u.declarations

theorem Scan.Yields.exists_isFunction {s : Scan} {u : Inventory} {f : Function} (h : s.Yields u)
    (hf : f ∈ u.applets ++ u.helpers) : ∃ k, s.IsFunction k f := by
  rcases List.mem_append.1 hf with hf | hf
  · exact h.applets.each f hf
  · exact h.helpers.each f hf

theorem mem_functionSpans {fs : List Function} {f : Function} (hf : f ∈ fs) :
    f.span ∈ functionSpans fs :=
  List.mem_mergeSort.2 (List.mem_map_of_mem hf)

/-- The inventory of a surveyed scan tells where its items were found. -/
theorem Scan.Faithful.yields {s : Scan} {v : Survey} {u : Inventory} (hs : s.Faithful)
    (hv : s.survey = .ok v) (hu : v.inventory s.text = .ok u) : s.Yields u := by
  obtain ⟨hsites, hfound⟩ := Scan.survey_eq_ok.1 hv
  obtain ⟨-, rfl⟩ := Survey.inventory_eq_ok.1 hu
  have hfs : s.Functions v.functions := (hs.functions hsites).sublist (sublist_keptOf _ [] _)
  refine ⟨hfs.sublist List.filter_sublist, hfs.sublist List.filter_sublist, ?_, ?_, ?_, ?_, ?_⟩
  · intro f hf
    exact (List.mem_filter.1 hf).2
  · intro f hf
    simpa using (List.mem_filter.1 hf).2
  · intro h hh a ha
    obtain ⟨hh, hhelper⟩ := List.mem_filter.1 hh
    refine not_contains_of_mem_keptOf hh (by simpa using hhelper) ?_
    rw [List.append_nil, ← filter_isApplet_keptOf]
    exact List.mem_map_of_mem ha
  · exact pairwise_helpers_keptOf _ [] _
  · exact Scan.met_findingsFrom hfound

theorem yields_of_analyze {source : Source} {u : Inventory} (h : analyze source = .ok (.ok u)) :
    (Scan.ofText source.text).Yields u := by
  obtain ⟨v, hv, h⟩ := Checked.bind_eq_ok.1 h
  exact (Scan.faithful_ofText source.text).yields hv (Except.ok.inj h)

theorem analyze_of_survey {source : Source} {v : Survey}
    (hv : (Scan.ofText source.text).survey = .ok v)
    (hnames : checkNames source.text v.applets = .ok ()) :
    analyze source = .ok (.ok ⟨v.applets, v.helpers, v.findings.filterMap Finding.declaration?,
      v.findings.filterMap Finding.skipped?⟩) := by
  rw [analyze, hv, Checked.ok_bind, Survey.inventory_eq_ok.2 ⟨hnames, rfl⟩]
  rfl

/-- Whatever the text, the items found in it are partitioned; and whatever functions declarations
are looked for around, they do not overlap and come in order. -/
theorem analyze_partitioned (source : Source) :
    (∀ u, analyze source = .ok (.ok u) → u.Partitioned) ∧
      ∀ spans found, (Scan.ofText source.text).findings spans = .ok found →
        InOrder ((found.filterMap Finding.declaration?).map Declaration.span) := by
  have hs := Scan.faithful_ofText source.text
  refine ⟨?_, fun spans found hfound => (Scan.met_findingsFrom hfound).inOrder hs⟩
  intro u hu
  have hy := yields_of_analyze hu
  refine ⟨hy.applets.inOrder_applets hs hy.isApplet, hy.helpers.inOrder_helpers hs hy.helpers_apart,
    hy.declarations.inOrder hs, hy.helper_outside, ?_⟩
  intro d hd f hf
  obtain ⟨i, -, hi⟩ := hy.declarations.each d hd
  obtain ⟨k, hk⟩ := hy.exists_isFunction hf
  exact hi.not_contains hs hk (mem_functionSpans hf)

def oneOfEach : Source :=
  .ofString "text" ("pub fn a(argc: i32, argv: *const *const u8) -> i32 {}\nfn f() {}\n" ++
    "static A: u8 = 1;\n")

theorem survey_oneOfEach : (Scan.ofText oneOfEach.text).survey = .ok
    ⟨[.function ⟨"a", .applet, ⟨0, 53⟩, ⟨0, 0, none, .pub, some ⟨0, 3⟩⟩, ⟨51, 53⟩, true⟩,
      .function ⟨"f", .helper, ⟨54, 63⟩, ⟨54, 54, none, .priv, none⟩, ⟨61, 63⟩, true⟩],
      [.declaration ⟨.static, "A", ⟨64, 81⟩, ⟨64, 64, none, .priv, none⟩, true⟩]⟩ := by
  refine Scan.survey_eq_ok.2 ⟨by decide +kernel, ?_⟩
  rw [functionSpans_of_pairwise]
  · decide +kernel
  · decide

theorem analyze_oneOfEach :
    ∃ u, analyze oneOfEach = .ok (.ok u) ∧ u.applets.length = 1 ∧ u.helpers.length = 1 ∧
      u.declarations.length = 1 :=
  ⟨_, analyze_of_survey survey_oneOfEach rfl, rfl, rfl, rfl⟩

theorem oneOfEach_partitioned :
    ∃ u, analyze oneOfEach = .ok (.ok u) ∧ u.applets.length = 1 ∧ u.helpers.length = 1 ∧
      u.declarations.length = 1 ∧ u.Partitioned := by
  obtain ⟨u, hu, ha, hh, hd⟩ := analyze_oneOfEach
  exact ⟨u, hu, ha, hh, hd, (analyze_partitioned oneOfEach).1 u hu⟩

/-- An item starts inside a helper or declaration that does not give way to it exactly when that one
has nothing to end it before. -/
theorem contains_start_iff {source : Source} {u : Inventory} (hu : analyze source = .ok (.ok u)) :
    (∀ h ∈ u.helpers, ∀ a ∈ u.applets,
      h.span.contains a.span.start = true ↔
        (Scan.ofText source.text).RunsOn true h.head.itemStart a.span.start) ∧
      ∀ d ∈ u.declarations, ∀ f ∈ u.applets ++ u.helpers,
        d.span.contains f.span.start = true ↔
          (Scan.ofText source.text).RunsOn d.kind.endsWithBlock d.head.itemStart f.span.start := by
  have hs := Scan.faithful_ofText source.text
  have hy := yields_of_analyze hu
  constructor
  · intro h hh a ha
    obtain ⟨k, hk⟩ := hy.helpers.each h hh
    obtain ⟨o, ho⟩ := hy.applets.each a ha
    obtain ⟨lead, first, opened, stop, hat⟩ := hk.exists_functionAt hs
    obtain ⟨lead', first', opened', stop', hat'⟩ := ho.exists_functionAt hs
    refine hat.contains_iff hs hat'.holds.starts hat'.head.clear.opened ?_
    intro hle
    rcases Nat.lt_trichotomy k o with hlt | rfl | hgt
    · exact hat.lt_lead hat' hlt
    · have heq : h = a := hk.unique ho
      have := hy.isHelper h hh
      rw [heq, hy.isApplet a ha] at this
      cases this
    · have := hat'.lt_lead hat hgt
      have := hat'.head.clear.le
      omega
  · intro d hd f hf
    obtain ⟨i, -, hi⟩ := hy.declarations.each d hd
    obtain ⟨k, hk⟩ := hy.exists_isFunction hf
    obtain ⟨lead, first, stop, hat⟩ := hi.exists_itemAt hs
    obtain ⟨flead, ffirst, opened, fstop, hfat⟩ := hk.exists_functionAt hs
    refine hat.contains_iff hs hfat.holds.starts hfat.head.clear.opened ?_
    intro hle
    obtain ⟨t, ht, -⟩ := Option.map_eq_some_iff.1 hi.kind
    have hout := hi.outside t ht f.span (mem_functionSpans hf)
    rw [← Bool.not_eq_true, hfat.holds.contains_iff hs ht] at hout
    have hlt := hfat.holds.lt
    have hback := hfat.ends.le_of_clear hs hat.head.clear hat.lt_size
    omega

/-- A constant without its semicolon, and a function behind it. -/
def unendedConstant : Source :=
  .ofString "text" "const A: u8 = 1\nfn f() {}\nconst B: u8 = 2;\n"

theorem analyze_unendedConstant :
    analyze unendedConstant = .ok (.ok
      { applets := []
        helpers := [⟨"f", .helper, ⟨16, 25⟩, ⟨16, 16, none, .priv, none⟩, ⟨23, 25⟩, true⟩]
        declarations := [⟨.const, "A", ⟨0, 42⟩, ⟨0, 0, none, .priv, none⟩, true⟩]
        skipped := [] }) := by
  have hv : (Scan.ofText unendedConstant.text).survey = .ok
      ⟨[.function ⟨"f", .helper, ⟨16, 25⟩, ⟨16, 16, none, .priv, none⟩, ⟨23, 25⟩, true⟩],
        [.declaration ⟨.const, "A", ⟨0, 42⟩, ⟨0, 0, none, .priv, none⟩, true⟩]⟩ := by
    refine Scan.survey_eq_ok.2 ⟨by decide +kernel, ?_⟩
    rw [functionSpans_of_pairwise]
    · decide +kernel
    · decide
  exact analyze_of_survey hv rfl

/-- Nothing ends the constant before the function. -/
theorem unendedConstant_runsOn : (Scan.ofText unendedConstant.text).RunsOn false 0 16 :=
  ((contains_start_iff analyze_unendedConstant).2 _ (List.mem_singleton_self _) _
    (List.mem_singleton_self _)).1 (by decide)

/-- So items that have lost their end may take in others. -/
theorem not_forall_starts_outside :
    ¬ ∀ source u, analyze source = .ok (.ok u) →
      (∀ h ∈ u.helpers, ∀ a ∈ u.applets, h.span.contains a.span.start = false) ∧
        ∀ d ∈ u.declarations, ∀ f ∈ u.applets ++ u.helpers,
          d.span.contains f.span.start = false := by
  intro h
  have hout := (h _ _ analyze_unendedConstant).2 _ (List.mem_singleton_self _) _
    (List.mem_singleton_self _)
  revert hout
  decide

end Unbundle
