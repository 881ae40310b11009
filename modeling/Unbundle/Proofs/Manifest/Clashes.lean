import Unbundle.Proofs.Faultless
import Unbundle.Proofs.Manifest.Clashes.Modules

/-! When a category cannot be split: two applets have one name, an applet goes where the shared
module is, or two applets go to one module. Of several clashes the first in source order is
reported. -/
namespace Unbundle

/-- How a partition whose applets have different names is planned: the first clash of modules is
reported, and where there is none there is a manifest. -/
structure DecidedByModules (source : Source) (config : Config) (u : Inventory) : Prop where
  reported : ∀ e, plan source config = .ok (.error e) ↔ FirstClash config u.hasShared u.applets e
  clash : (∃ e, plan source config = .ok (.error e)) ↔
    (u.hasShared = true ∧
      ∃ f ∈ u.applets, moduleName f.name config.rawSubstitute = config.sharedModule) ∨
    ∃ x, "r#" ++ x ∈ u.applets.map Function.name ∧
      config.rawSubstitute ++ x ∈ u.applets.map Function.name
  manifest : (¬ ∃ e, plan source config = .ok (.error e)) →
    ∃ m, plan source config = .ok (.ok ⟨u, some m⟩)

/-- How the names of the applets decide on the plan for a category. -/
structure DecidedByNames (source : Source) (config : Config) (applets : List Function) : Prop where
  reported : ∀ name first second,
    plan source config = .ok (.error (.duplicateApplet name first second)) ↔
      ∃ f g, FirstRepeat applets f g ∧ name = g.name ∧ first = source.lineOf f.head.itemStart ∧
        second = source.lineOf g.head.itemStart
  duplicate : (∃ name first second,
      plan source config = .ok (.error (.duplicateApplet name first second))) ↔
    ¬ (applets.map Function.name).Nodup
  distinct : (applets.map Function.name).Nodup →
    ∃ u, analyze source = .ok (.ok u) ∧ u.applets = applets ∧
      (∀ u', plan source config = .ok (.ok ⟨u', none⟩) ↔ applets = [] ∧ u' = u) ∧
      (applets ≠ [] → DecidedByModules source config u)

section Decision

variable {config : Config} {source : Source} {v : Survey} {u : Inventory} {f g : Function}

theorem Scan.Functions.properNames {s : Scan} {fs : List Function} (h : s.Functions fs)
    (hs : s.Faithful) (hnodup : (fs.map Function.name).Nodup) : ProperNames fs := by
  refine ⟨hnodup, ?_⟩
  intro f hf
  obtain ⟨k, hk⟩ := h.each f hf
  exact hk.exists_spelling hs

/-- A repeated name is reported before anything else. -/
theorem FirstRepeat.plan_eq (h : FirstRepeat v.applets f g)
    (hv : (Scan.ofText source.text).survey = .ok v) (config : Config) :
    plan source config = .ok (.error (.duplicateApplet g.name
      (source.lineOf f.head.itemStart) (source.lineOf g.head.itemStart))) := by
  have hinv : v.inventory source.text = .error (.duplicateApplet g.name
      (lineOf source.text f.head.itemStart) (lineOf source.text g.head.itemStart)) := by
    rw [Survey.inventory, h.checkNames_eq]
    rfl
  rw [plan, hv, Checked.ok_bind, hinv]
  rfl

/-- Of applets with different names none is reported as a duplicate. -/
theorem plan_ne_duplicate (hc : config.check = .ok ())
    (hv : (Scan.ofText source.text).survey = .ok v) (hu : v.inventory source.text = .ok u)
    (hnames : ProperNames u.applets) (name : String) (first second : Nat) :
    plan source config ≠ .ok (.error (.duplicateApplet name first second)) := by
  obtain ⟨-, hsub⟩ := Config.notMem_of_check (c := '#') hc (by decide)
  obtain ⟨m, hplan⟩ := plan_of_survey hv hu config
  rw [hplan]
  intro h
  split at h
  · cases h
  · rcases apart_or_firstClash hsub hnames with hapart | ⟨e, hclash⟩
    · rw [hapart.assignModules_eq hnames] at h
      cases h
    · rw [hclash.assignModules_eq hsub hnames] at h
      cases hclash <;> cases h

theorem decidedByModules (hc : config.check = .ok ())
    (hv : (Scan.ofText source.text).survey = .ok v) (hu : v.inventory source.text = .ok u)
    (hnames : ProperNames u.applets) (hne : u.applets ≠ []) : DecidedByModules source config u := by
  obtain ⟨-, hsub⟩ := Config.notMem_of_check (c := '#') hc (by decide)
  obtain ⟨m, hplan⟩ := plan_of_survey hv hu config
  rw [if_neg (by simpa using hne)] at hplan
  have hreported (e : SplitError) :
      plan source config = .ok (.error e) ↔ FirstClash config u.hasShared u.applets e := by
    rw [← assignModules_eq_error_iff hsub hnames, hplan]
    cases assignModules config u.hasShared [] u.applets with
    | error e' => simp [Except.map]
    | ok assigned => simp [Except.map]
  refine ⟨hreported, ?_, ?_⟩
  · rw [← exists_firstClash_iff hsub hnames]
    exact exists_congr hreported
  · intro hnone
    rcases apart_or_firstClash hsub hnames with hapart | ⟨e, hclash⟩
    · refine ⟨m, ?_⟩
      rw [hplan, hapart.assignModules_eq hnames]
      rfl
    · exact absurd ⟨e, (hreported e).2 hclash⟩ hnone

/-- Under a valid configuration a plan fails exactly where two applets have one name, or one module,
or an applet goes to the shared module; and it reports the first such applet. -/
theorem plan_decidedByNames (source : Source) (config : Config) (hc : config.check = .ok ()) :
    ∃ fs, (Scan.ofText source.text).functions = .ok fs ∧
      DecidedByNames source config (fs.filter Function.isApplet) := by
  obtain ⟨v, hv, hanalyze⟩ := exists_analyze source
  have hs := Scan.faithful_ofText source.text
  refine ⟨v.functions, Scan.functions_of_survey hv, ?_⟩
  show DecidedByNames source config v.applets
  rcases nodup_or_firstRepeat v.applets with hnodup | ⟨f, g, hrepeat⟩
  · have hu := Survey.inventory_eq_ok.2 ⟨checkNames_of_nodup hnodup source.text, rfl⟩
    have hnames : ProperNames v.applets := (hs.yields hv hu).applets.properNames hs hnodup
    have hnot := plan_ne_duplicate hc hv hu hnames
    refine ⟨?_, ?_, ?_⟩
    · intro name first second
      constructor
      · intro h
        exact absurd h (hnot name first second)
      · rintro ⟨f, g, hrepeat, -⟩
        exact absurd hnodup hrepeat.not_nodup
    · constructor
      · rintro ⟨name, first, second, h⟩
        exact absurd h (hnot name first second)
      · intro h
        exact absurd hnodup h
    · intro _
      refine ⟨_, hanalyze.trans (congrArg Except.ok hu), rfl, ?_, decidedByModules hc hv hu hnames⟩
      intro u'
      obtain ⟨m, hplan⟩ := plan_of_survey hv hu config
      rw [hplan]
      by_cases hempty : v.applets = []
      · simp [hempty, eq_comm]
      · simp only [List.isEmpty_iff, hempty, if_false, false_and, iff_false]
        cases assignModules config _ [] v.applets with
        | error e => simp [Except.map]
        | ok assigned => simp [Except.map]
  · have hplan := hrepeat.plan_eq hv config
    refine ⟨?_, ?_, ?_⟩
    · intro name first second
      constructor
      · intro h
        rw [hplan] at h
        cases h
        exact ⟨f, g, hrepeat, rfl, rfl, rfl⟩
      · rintro ⟨f', g', hrepeat', rfl, rfl, rfl⟩
        exact hrepeat'.plan_eq hv config
    · exact ⟨fun _ => hrepeat.not_nodup, fun _ => ⟨_, _, _, hplan⟩⟩
    · intro hnodup
      exact absurd hnodup hrepeat.not_nodup

def twinApplets : Source :=
  .ofString "text" ("pub fn r#od(argc: i32, argv: *const *const u8) -> i32 {}\n" ++
    "pub fn r_od(argc: i32, argv: *const *const u8) -> i32 {}\n")

def rawTwin : Function :=
  ⟨"r#od", .applet, ⟨0, 56⟩, ⟨0, 0, none, .pub, some ⟨0, 3⟩⟩, ⟨54, 56⟩, true⟩

def plainTwin : Function :=
  ⟨"r_od", .applet, ⟨57, 113⟩, ⟨57, 57, none, .pub, some ⟨57, 60⟩⟩, ⟨111, 113⟩, true⟩

theorem functions_twinApplets :
    (Scan.ofText twinApplets.text).functions = .ok [rawTwin, plainTwin] := by
  decide +kernel

theorem apart_rawTwin (hasShared : Bool) : Apart .default hasShared [rawTwin] := by
  constructor
  · intro f hf hgoes
    rw [List.mem_singleton.1 hf] at hgoes
    exact absurd hgoes.2 (by decide)
  · intro f hf g hg htwins
    rw [List.mem_singleton.1 hf, List.mem_singleton.1 hg] at htwins
    exact htwins.ne (by decide) (Spells.raw (by decide +kernel)) rfl

/-- They would go to one file. -/
theorem twinApplets_clash : Config.default.check = .ok () ∧
    plan twinApplets .default = .ok (.error (.fileNameCollision "r#od" "r_od" "r_od.rs")) := by
  have hc : Config.default.check = .ok () := rfl
  obtain ⟨fs, hfs, hdecided⟩ := plan_decidedByNames twinApplets .default hc
  rw [functions_twinApplets] at hfs
  cases hfs
  obtain ⟨u, -, happ, -, hmodules⟩ := hdecided.distinct (by decide)
  have happ : u.applets = [rawTwin] ++ plainTwin :: [] := happ
  have hnot : ¬ GoesToShared .default u.hasShared plainTwin := by
    intro hgoes
    exact absurd hgoes.2 (by decide)
  have hclash := FirstClash.file happ (apart_rawTwin u.hasShared) hnot List.mem_cons_self
    (.inl ⟨"od", rfl, rfl⟩)
  exact ⟨hc, ((hmodules (by decide)).reported _).2 hclash⟩

end Decision

end Unbundle
