import Unbundle.Command.Split
import Unbundle.Proofs.Manifest.Names
import Unbundle.Proofs.Manifest.Write

/-! The run that splits categories, taken apart: what is chosen, what is done to one category, and
what of it touches files. -/
namespace Unbundle

variable {colours : Bool} {args : Arguments} {config : Config} {input output : Path}
  {category : String} {s s' : Session}

theorem Config.check_default : Config.default.check = .ok () := by decide +kernel

theorem Config.check_of_read {path : Path} {text : String}
    (h : Config.read path text = .ok config) : config.check = .ok () := by
  unfold read at h
  split at h
  · cases h
  · split at h
    · cases h
    · rename_i hcheck
      cases h
      exact hcheck

namespace Config

theorem quiet_load (path : Path) : Run.Quiet (load path : Run Rehearsal Config) := by
  refine .bind (.attempt fun _ => ⟨rfl, rfl⟩) fun text => ?_
  exact fun _ => ⟨rfl, rfl⟩

theorem check_of_load {path : Path} (h : (load path).rehearse s = (.ok config, s')) :
    config.check = .ok () := by
  rcases Run.rehearse_bind_cases h with ⟨e, -, he⟩ | ⟨text, s₁, -, h⟩
  · cases he
  · have hread : read path text = .ok config := (Prod.mk.inj h).1
    exact check_of_read hread

theorem quiet_loadOrDefault (named : Option Path) (input : Path) :
    Run.Quiet (loadOrDefault named input : Run Rehearsal Config) := by
  cases named with
  | some path => exact quiet_load path
  | none =>
    refine .bind (.ask fun _ => ⟨rfl, rfl⟩) fun found => ?_
    split
    · exact .bind (.tell _) fun _ => quiet_load _
    · exact .pure _

/-- Whatever configuration is used is valid. -/
theorem check_of_loadOrDefault {named : Option Path}
    (h : (loadOrDefault named input).rehearse s = (.ok config, s')) : config.check = .ok () := by
  cases named with
  | some path => exact check_of_load h
  | none =>
    unfold loadOrDefault at h
    simp only [Run.rehearse_ask_bind] at h
    split at h
    · rw [Run.rehearse_ask_bind] at h
      exact check_of_load h
    · cases h
      exact check_default

end Config

/-- What a run is to split: the directory, the configuration and the categories. -/
def chosen (args : Arguments) : Run Rehearsal (Path × Config × List String) := do
  match args.input with
  | none => Run.fail "An input directory is required"
  | some input =>
    if ← Run.ask (Host.isDir input) then
      let config ← Config.loadOrDefault args.config input
      let categories ← Run.ask (selectedCategories args config input)
      return (input, config, categories)
    else Run.fail ("Input directory does not exist: " ++ input.text)

theorem quiet_chosen (args : Arguments) : Run.Quiet (chosen args) := by
  unfold chosen
  split
  · exact .throw _
  · refine .bind (.ask fun _ => ⟨rfl, rfl⟩) fun found => ?_
    split
    · refine .bind (Config.quiet_loadOrDefault _ _) fun config => .bind (.ask ?_) fun _ => .pure _
      intro s
      unfold selectedCategories
      split
      · split <;> exact ⟨rfl, rfl⟩
      · split <;> exact ⟨rfl, rfl⟩
    · exact .throw _

/-- Splitting categories is choosing them and then splitting each. -/
theorem splitCategories_rehearse (colours : Bool) (args : Arguments) (s : Session) :
    (splitCategories colours args).rehearse s =
      (do
        let (input, config, categories) ← chosen args
        splitAll colours args config input (args.output.getD input) (.empty args.dryRun)
          categories).rehearse s := by
  unfold splitCategories chosen
  cases args.input with
  | none => rfl
  | some input =>
    rw [Run.rehearse_ask_bind, Run.rehearse_bind, Run.rehearse_ask_bind]
    change (if s.tree.isDir s.cwd input = true then _ else _ : Run Rehearsal _).rehearse s = _
    split
    · rename_i hdir
      have hdir : ((Host.isDir input : Rehearsal Bool) s).1 = true := hdir
      rw [if_pos hdir, Run.rehearse_bind, Run.rehearse_bind]
      rcases (Config.loadOrDefault args.config input).rehearse s with ⟨_ | config, s₁⟩ <;> rfl
    · rename_i hdir
      have hdir : ¬ ((Host.isDir input : Rehearsal Bool) s).1 = true := hdir
      rw [if_neg hdir]
      rfl

/-- A run fails before it comes to any category, or it goes through those chosen. -/
theorem splitCategories_cases {r : Except Failure Summary}
    (h : (splitCategories colours args).rehearse s = (r, s')) :
    (∃ f, ((chosen args).rehearse s).1 = .error f ∧ r = .error f ∧ s'.tree = s.tree) ∨
      ∃ input config categories s₁,
        ((chosen args).rehearse s).1 = .ok (input, config, categories) ∧
        s₁.tree = s.tree ∧ s₁.cwd = s.cwd ∧
        (splitAll colours args config input (args.output.getD input) (.empty args.dryRun)
          categories).rehearse s₁ = (r, s') := by
  rw [splitCategories_rehearse] at h
  have hquiet := quiet_chosen args s
  rcases Run.rehearse_bind_cases h with ⟨f, hf, rfl⟩ | ⟨⟨input, config, categories⟩, s₁, hok, h⟩
  · rw [hf] at hquiet ⊢
    exact .inl ⟨f, rfl, rfl, hquiet.1⟩
  · rw [hok] at hquiet ⊢
    exact .inr ⟨input, config, categories, s₁, rfl, hquiet.1, hquiet.2, h⟩

/-- The configuration chosen is valid, and the directory is there. -/
theorem of_chosen {categories : List String}
    (h : ((chosen args).rehearse s).1 = .ok (input, config, categories)) :
    config.check = .ok () ∧ s.tree.isDir s.cwd input = true := by
  unfold chosen at h
  split at h
  · cases h
  · rename_i path hpath
    rw [Run.rehearse_ask_bind] at h
    split at h
    · rename_i hdir
      rcases hrun : (do
          let config ← Config.loadOrDefault args.config path
          let categories ← Run.ask (selectedCategories args config path)
          return (path, config, categories) : Run Rehearsal _).rehearse
            ((Host.isDir path : Rehearsal Bool) s).2 with ⟨r, s'⟩
      rw [hrun] at h
      cases h
      rcases Run.rehearse_bind_cases hrun with ⟨_, -, he⟩ | ⟨loaded, s₁, hload, hrest⟩
      · cases he
      · rw [Run.rehearse_ask_bind] at hrest
        cases hrest
        exact ⟨Config.check_of_loadOrDefault hload, hdir⟩
    · cases h

theorem quiet_planAloud (source : Source) (config : Config) :
    Run.Quiet (planAloud source config : Run Rehearsal _) :=
  .bind (.ofChecked _) fun _ => .bind (.forM fun n => .tell n) fun _ => .ofChecked _

theorem plan_of_planAloud {source : Source} {p : Except SplitError Plan}
    (h : (planAloud source config).rehearse s = (.ok p, s')) : plan source config = .ok p := by
  rcases Run.rehearse_bind_cases h with ⟨_, -, he⟩ | ⟨ns, s₁, -, h⟩
  · cases he
  · rcases Run.rehearse_bind_cases h with ⟨_, -, he⟩ | ⟨_, s₂, -, h⟩
    · cases he
    · cases hp : plan source config with
      | error f =>
        rw [hp] at h
        cases h
      | ok q =>
        rw [hp] at h
        cases h
        rfl

theorem quiet_sayLine (args : Arguments) (line : String) :
    Run.Quiet (Run.ask (sayLine args line) : Run Rehearsal Unit) := by
  refine .ask fun s => ?_
  unfold sayLine
  split <;> exact ⟨rfl, rfl⟩

/-- The steps of writing a category: its files, and then the removal of its source. -/
theorem writeCategory_cases {m : Manifest} {source output : Path} {r : Except Failure Unit}
    (h : (writeCategory colours args m source output).rehearse s = (r, s')) :
    ∃ w s₁, (m.write output args.force).rehearse s = (w, s₁) ∧ s'.cwd = s₁.cwd ∧
      ((w ≠ .ok () ∧ r ≠ .ok () ∧ s'.tree = s₁.tree) ∨
        (w = .ok () ∧ args.removeSource = false ∧ r = .ok () ∧ s'.tree = s₁.tree) ∨
        (w = .ok () ∧ args.removeSource = true ∧
          ((∃ e, s₁.tree.removeFile s₁.cwd source = .error e ∧ r ≠ .ok () ∧ s'.tree = s₁.tree) ∨
            s₁.tree.removeFile s₁.cwd source = .ok s'.tree ∧ r = .ok ()))) := by
  unfold writeCategory at h
  rcases Run.rehearse_bind_cases h with ⟨f, hw, rfl⟩ | ⟨_, s₁, hw, h⟩
  · exact ⟨_, s', hw, rfl, .inl ⟨nofun, nofun, rfl⟩⟩
  · refine ⟨_, s₁, hw, ?_⟩
    obtain ⟨s₂, htree, hcwd, h⟩ := (quiet_sayLine args _).ask_cases h
    split at h
    · rename_i hremove
      rcases Run.rehearse_attempt_bind_cases h with ⟨e, hfile, rfl⟩ | ⟨_, s₃, hfile, h⟩
      · obtain ⟨hdrop, rfl⟩ := Session.change_eq_error hfile
        rw [htree, hcwd] at hdrop
        exact ⟨hcwd, .inr (.inr ⟨rfl, hremove, .inl ⟨e, hdrop, nofun, htree⟩⟩)⟩
      · obtain ⟨t, hdrop, rfl⟩ := Session.change_eq_ok hfile
        rw [htree, hcwd] at hdrop
        cases h
        exact ⟨hcwd, .inr (.inr ⟨rfl, hremove, .inr ⟨hdrop, rfl⟩⟩)⟩
    · rename_i hremove
      cases h
      exact ⟨hcwd, .inr (.inl ⟨rfl, Bool.eq_false_iff.2 hremove, rfl, htree⟩)⟩

/-- What is done to a category with the given text: nothing to files, or its files are written. The
first happens, without a failure, only where there are no applets, or in a dry run. -/
theorem splitText_cases {source : Path} {text : String} {r : Except Failure CategoryOutcome}
    (h : (splitText colours args config category source output text).rehearse s = (r, s')) :
    (s'.tree = s.tree ∧ s'.cwd = s.cwd ∧ (args.dryRun = false → r.isOk = true →
      ∀ u m, plan (.ofString category text) config ≠ .ok (.ok ⟨u, some m⟩))) ∨
      ∃ u m w s₁, args.dryRun = false ∧
        plan (.ofString category text) config = .ok (.ok ⟨u, some m⟩) ∧
        s₁.tree = s.tree ∧ s₁.cwd = s.cwd ∧
        (writeCategory colours args m source output).rehearse s₁ = (w, s') ∧
        (r.isOk = true ↔ w = .ok ()) := by
  unfold splitText at h
  rcases (quiet_planAloud _ _).cases h with ⟨f, rfl, hsame⟩ | ⟨p, s₁, hplan, htree, hcwd, h⟩
  · exact .inl ⟨hsame.1, hsame.2, nofun⟩
  · have hplan := plan_of_planAloud hplan
    cases p with
    | error e =>
      cases h
      exact .inl ⟨htree, hcwd, nofun⟩
    | ok p =>
      obtain ⟨u, manifest⟩ := p
      cases manifest with
      | none =>
        cases h
        refine .inl ⟨htree, hcwd, fun _ _ u m => ?_⟩
        rw [hplan]
        simp
      | some m =>
        simp only at h
        split at h
        · rename_i hdry
          have hlines : Run.Quiet ((rehearsalLines args m source output).forM fun line =>
              Run.ask (sayLine args line) : Run Rehearsal Unit) :=
            .forM fun line => quiet_sayLine args line
          rcases hlines.cases h with ⟨f, rfl, hsame⟩ | ⟨_, s₂, -, htree', hcwd', h⟩
          · exact .inl ⟨hsame.1.trans htree, hsame.2.trans hcwd, nofun⟩
          · cases h
            exact .inl ⟨htree'.trans htree, hcwd'.trans hcwd, fun hnot => by simp [hdry] at hnot⟩
        · rename_i hdry
          refine .inr ⟨u, m, ?_⟩
          rcases Run.rehearse_bind_cases h with ⟨f, hw, rfl⟩ | ⟨_, s₂, hw, h⟩
          · exact ⟨_, s₁, Bool.eq_false_iff.2 hdry, hplan, htree, hcwd, hw, by simp [Except.isOk,
              Except.toBool]⟩
          · cases h
            exact ⟨_, s₁, Bool.eq_false_iff.2 hdry, hplan, htree, hcwd, hw, by simp [Except.isOk,
              Except.toBool]⟩

/-- What is done to one category: nothing to files, or its files are written. The first happens,
without a failure, only to a category that has no source or no applets, or in a dry run. -/
theorem splitCategory_cases {r : Except Failure CategoryOutcome}
    (h : (splitCategory colours args config input output category).rehearse s = (r, s')) :
    (s'.tree = s.tree ∧ s'.cwd = s.cwd ∧ (args.dryRun = false → r.isOk = true →
      ∀ text u m, s.tree.find? s.cwd (categoryFile input category) = some (.file (.text text)) →
        plan (.ofString category text) config ≠ .ok (.ok ⟨u, some m⟩))) ∨
      ∃ text u m w s₁, args.dryRun = false ∧
        s.tree.find? s.cwd (categoryFile input category) = some (.file (.text text)) ∧
        plan (.ofString category text) config = .ok (.ok ⟨u, some m⟩) ∧
        s₁.tree = s.tree ∧ s₁.cwd = s.cwd ∧
        (writeCategory colours args m (categoryFile input category)
          (output.join ⟨category⟩)).rehearse s₁ = (w, s') ∧ (r.isOk = true ↔ w = .ok ()) := by
  unfold splitCategory at h
  rw [Run.rehearse_ask_bind] at h
  split at h
  · rcases Run.rehearse_attempt_bind_cases h with ⟨e, hread, rfl⟩ | ⟨text, s₁, hread, h⟩
    · obtain ⟨-, rfl⟩ := Prod.mk.inj hread
      exact .inl ⟨rfl, rfl, nofun⟩
    · obtain ⟨htext, rfl⟩ := Prod.mk.inj hread
      have hfound := Tree.readText_eq_ok htext
      rcases splitText_cases h with ⟨htree, hcwd, hnone⟩ | ⟨u, m, w, s₂, hdry, hplan, hrest⟩
      · refine .inl ⟨htree, hcwd, fun hdry hok text' u m hfound' => ?_⟩
        cases hfound.symm.trans hfound'
        exact hnone hdry hok u m
      · exact .inr ⟨text, u, m, w, s₂, hdry, hfound, hplan, hrest⟩
  · rename_i hfile
    have hfile : ¬ s.tree.isFile s.cwd (categoryFile input category) = true := hfile
    cases h
    refine .inl ⟨rfl, rfl, fun _ _ text u m hfound => ?_⟩
    exact absurd (Tree.isFile_eq_true.2 ⟨_, hfound⟩) hfile

/-- A category on which a run fails ends it, and the failure says so. -/
theorem splitAll_cons_cases {summary : Summary} {rest : List String} {r : Except Failure Summary}
    (h : (splitAll colours args config input output summary (category :: rest)).rehearse s =
      (r, s')) :
    (∃ f, (splitCategory colours args config input output category).rehearse s = (.error f, s') ∧
        r = .error (f.within ("Failed to split category " ++ category))) ∨
      ∃ outcome s₁,
        (splitCategory colours args config input output category).rehearse s = (.ok outcome, s₁) ∧
        (splitAll colours args config input output (summary.record outcome) rest).rehearse s₁ =
          (r, s') := by
  rw [splitAll] at h
  rcases Run.rehearse_bind_cases h with ⟨f, hf, rfl⟩ | ⟨outcome, s₁, hok, h⟩
  · rw [Run.rehearse_inContext] at hf
    rcases hrun : (splitCategory colours args config input output category).rehearse s with
      ⟨e | _, s₂⟩
    · rw [hrun] at hf
      cases hf
      exact .inl ⟨e, rfl, rfl⟩
    · rw [hrun] at hf
      cases hf
  · rw [Run.rehearse_inContext] at hok
    rcases hrun : (splitCategory colours args config input output category).rehearse s with
      ⟨_ | _, s₂⟩
    · rw [hrun] at hok
      cases hok
    · rw [hrun] at hok
      cases hok
      exact .inr ⟨_, s₂, rfl, h⟩

def appletText : String := "pub fn f(argc: i32, argv: *const *const u8) -> i32 { 0 }\n"

def splitting (input category : String) : Arguments where
  input := some ⟨input⟩
  categories := [category]
  all := false
  output := none
  config := none
  dryRun := false
  force := false
  removeSource := false
  verbose := false
  quiet := true
  command := none

def oneSource : Session :=
  .start ⟨[(["in"], .dir), (["in", "a.rs"], .file (.text appletText))]⟩ []

end Unbundle
