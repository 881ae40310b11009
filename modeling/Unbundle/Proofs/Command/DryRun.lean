import Mathlib.Data.List.Forall2
import Unbundle.Proofs.Command.Effect
import Unbundle.Proofs.Faultless

/-! Dry runs. A dry run changes nothing, and it says what a run would do: what becomes of a category
can be told from its source alone, and no category that is split disturbs the source of another. -/
namespace Unbundle

variable {colours : Bool} {args : Arguments} {config : Config} {input output : Path}
  {category c d : String} {s s' : Session}

section Pure

/-- A dry run over one category changes nothing. -/
theorem tree_splitCategory_of_dryRun {r : Except Failure CategoryOutcome}
    (hdry : args.dryRun = true)
    (h : (splitCategory colours args config input output category).rehearse s = (r, s')) :
    s'.tree = s.tree ∧ s'.cwd = s.cwd := by
  rcases splitCategory_cases h with ⟨htree, hcwd, -⟩ | ⟨-, -, -, -, -, hreal, -⟩
  · exact ⟨htree, hcwd⟩
  · rw [hdry] at hreal
    cases hreal

theorem tree_splitAll_of_dryRun {summary : Summary} {categories : List String}
    {r : Except Failure Summary} (hdry : args.dryRun = true)
    (h : (splitAll colours args config input output summary categories).rehearse s = (r, s')) :
    s'.tree = s.tree := by
  induction categories generalizing s summary with
  | nil =>
    cases h
    rfl
  | cons c rest ih =>
    rcases splitAll_cons_cases h with ⟨f, hstep, -⟩ | ⟨outcome, s₁, hstep, h⟩
    · exact (tree_splitCategory_of_dryRun hdry hstep).1
    · exact (ih h).trans (tree_splitCategory_of_dryRun hdry hstep).1

/-- A dry run changes nothing, wherever it stops. -/
theorem tree_of_dryRun {r : Except Failure Summary} (hdry : args.dryRun = true)
    (h : (splitCategories colours args).rehearse s = (r, s')) : s'.tree = s.tree := by
  rcases splitCategories_cases h with ⟨-, -, -, htree⟩ | ⟨_, _, _, s₁, -, htree, -, hrun⟩
  · exact htree
  · exact (tree_splitAll_of_dryRun hdry hrun).trans htree

end Pure

section Foretelling

def Node.contents? : Node → Option Contents
  | .dir => none
  | .file contents => some contents

/-- What the source of a category holds, if it is there. -/
def source? (input : Path) (s : Session) (category : String) : Option Contents :=
  (s.tree.find? s.cwd (categoryFile input category)).bind Node.contents?

/-- What becomes of a category whose source holds this, unless splitting it fails. -/
def foretold? (config : Config) (category : String) : Option Contents → Option CategoryOutcome
  | none => some (.skipped category .missingFile)
  | some (.binary _) => none
  | some (.text text) =>
    match plan (.ofString category text) config with
    | .ok (.ok p) =>
      match p.manifest with
      | none => some (.skipped category .noApplets)
      | some m => some (p.outcome m)
    | _ => none

/-- What becomes of each category in turn, as the sources are now. -/
def Foretold (config : Config) (input : Path) (s : Session) :
    List String → List CategoryOutcome → Prop :=
  List.Forall₂ fun c outcome => foretold? config c (source? input s c) = some outcome

theorem source?_congr (htree : s'.tree = s.tree) (hcwd : s'.cwd = s.cwd) (category : String) :
    source? input s' category = source? input s category := by
  rw [source?, source?, htree, hcwd]

theorem source?_eq_some {contents : Contents} :
    source? input s category = some contents ↔
      s.tree.find? s.cwd (categoryFile input category) = some (.file contents) := by
  rw [source?, Option.bind_eq_some_iff]
  constructor
  · rintro ⟨n, hfound, hn⟩
    cases n with
    | dir => cases hn
    | file found =>
      cases hn
      exact hfound
  · intro hfound
    exact ⟨_, hfound, rfl⟩

theorem source?_eq_none :
    source? input s category = none ↔
      s.tree.isFile s.cwd (categoryFile input category) = false := by
  rw [Option.eq_none_iff_forall_ne_some, ← Bool.not_eq_true, Tree.isFile_eq_true, not_exists]
  exact forall_congr' fun _ => not_congr source?_eq_some

theorem Foretold.of_sources {categories : List String} {outcomes : List CategoryOutcome}
    (h : Foretold config input s categories outcomes)
    (hsame : ∀ c ∈ categories, source? input s' c = source? input s c) :
    Foretold config input s' categories outcomes := by
  induction h with
  | nil => exact .nil
  | cons hfirst _ ih =>
    refine .cons ?_ (ih fun d hd => hsame d (List.mem_cons_of_mem _ hd))
    rw [hsame _ List.mem_cons_self, hfirst]

/-- The outcome for a category with the given text is the one foretold. -/
theorem foretold?_of_splitText {source : Path} {text : String} {outcome : CategoryOutcome}
    (h : (splitText colours args config category source output text).rehearse s =
      (.ok outcome, s')) :
    foretold? config category (some (.text text)) = some outcome := by
  unfold splitText at h
  rcases Run.rehearse_bind_cases h with ⟨_, -, he⟩ | ⟨p, s₁, hplan, h⟩
  · cases he
  · rw [foretold?, plan_of_planAloud hplan]
    cases p with
    | error e => cases h
    | ok p =>
      obtain ⟨u, manifest⟩ := p
      cases manifest with
      | none =>
        cases h
        rfl
      | some m =>
        simp only at h
        split at h <;>
        · rcases Run.rehearse_bind_cases h with ⟨_, -, he⟩ | ⟨_, s₂, -, h⟩
          · cases he
          · cases h
            rfl

/-- Whatever becomes of a category was foretold by its source, in a dry run as in any other. -/
theorem foretold?_of_splitCategory {outcome : CategoryOutcome}
    (h : (splitCategory colours args config input output category).rehearse s = (.ok outcome, s')) :
    foretold? config category (source? input s category) = some outcome := by
  unfold splitCategory at h
  rw [Run.rehearse_ask_bind] at h
  split at h
  · rcases Run.rehearse_attempt_bind_cases h with ⟨e, -, he⟩ | ⟨text, s₁, hread, h⟩
    · cases he
    · have hfound : s.tree.find? s.cwd (categoryFile input category) = some (.file (.text text)) :=
        Tree.readText_eq_ok (Prod.mk.inj hread).1
      rw [source?_eq_some.2 hfound]
      exact foretold?_of_splitText h
  · rename_i hfile
    rw [source?_eq_none.2 (Bool.eq_false_iff.2 hfile)]
    cases h
    rfl

theorem exists_rehearse_planAloud {source : Source} {p : Except SplitError Plan}
    (h : plan source config = .ok p) (s : Session) :
    ∃ s', (planAloud source config).rehearse s = (.ok p, s') := by
  obtain ⟨notices, hnotices⟩ := exists_planNotices source config
  obtain ⟨s', hsaid⟩ := Run.exists_rehearse_forM notices (fun n => Host.tell n) s
  refine ⟨s', ?_⟩
  unfold planAloud
  rw [hnotices, h]
  change (notices.forM (fun n => Run.ask (Host.tell n)) >>= fun _ =>
    (pure p : Run Rehearsal _)).rehearse s = _
  rw [Run.rehearse_bind, hsaid]
  rfl

/-- A dry run over a category with the given text ends as foretold. -/
theorem exists_splitText_of_foretold? {source : Path} {text : String} {outcome : CategoryOutcome}
    (hdry : args.dryRun = true)
    (h : foretold? config category (some (.text text)) = some outcome) (s : Session) :
    ∃ s', (splitText colours args config category source output text).rehearse s =
      (.ok outcome, s') := by
  obtain ⟨r, hplan⟩ := exists_plan (.ofString category text) config
  obtain ⟨s₁, hloud⟩ := exists_rehearse_planAloud hplan s
  rw [foretold?, hplan] at h
  unfold splitText
  rw [Run.rehearse_bind, hloud]
  cases r with
  | error e => cases h
  | ok p =>
    obtain ⟨u, manifest⟩ := p
    cases manifest with
    | none =>
      cases h
      exact ⟨_, rfl⟩
    | some m =>
      cases h
      simp only [hdry, if_true]
      obtain ⟨s₂, hsaid⟩ := Run.exists_rehearse_forM (rehearsalLines args m source output)
        (fun line => sayLine args line) s₁
      refine ⟨s₂, ?_⟩
      rw [Run.rehearse_bind, hsaid]
      rfl

/-- A dry run over one category ends as foretold. -/
theorem exists_splitCategory_of_foretold? {outcome : CategoryOutcome} (hdry : args.dryRun = true)
    (h : foretold? config category (source? input s category) = some outcome) :
    ∃ s', (splitCategory colours args config input output category).rehearse s =
      (.ok outcome, s') := by
  cases hsource : source? input s category with
  | none =>
    rw [hsource] at h
    cases h
    obtain ⟨s', hrun, -⟩ := splitCategory_of_missing (source?_eq_none.1 hsource)
    exact ⟨s', hrun⟩
  | some contents =>
    rw [hsource] at h
    cases contents with
    | binary bytes => cases h
    | text text =>
      have hfound := source?_eq_some.1 hsource
      have hfile :
          ((Host.isFile (categoryFile input category) : Rehearsal Bool) s) = (true, s) := by
        change (s.tree.isFile s.cwd _, s) = _
        rw [Tree.isFile_eq_true.2 ⟨_, hfound⟩]
      have hread :
          ((Host.readText (categoryFile input category) : Rehearsal _) s) = (.ok text, s) := by
        change (s.tree.readText s.cwd _, s) = _
        rw [Tree.readText_of_text hfound]
      unfold splitCategory
      simp only [Run.rehearse_ask_bind, hfile, if_true]
      rw [Run.rehearse_bind, Run.rehearse_attempt, hread]
      exact exists_splitText_of_foretold? hdry h s

/-- A dry run over categories ends as foretold. -/
theorem exists_splitAll_of_foretold {summary : Summary} {categories : List String}
    {outcomes : List CategoryOutcome} (hdry : args.dryRun = true)
    (h : Foretold config input s categories outcomes) :
    ∃ summary' s', (splitAll colours args config input output summary categories).rehearse s =
      (.ok summary', s') ∧ summary'.outcomes = summary.outcomes ++ outcomes := by
  induction categories generalizing s summary outcomes with
  | nil =>
    cases h
    exact ⟨summary, s, rfl, (List.append_nil _).symm⟩
  | cons c rest ih =>
    obtain ⟨outcome, later, hfirst, hrest, rfl⟩ := List.forall₂_cons_left_iff.1 h
    obtain ⟨s₁, hstep⟩ : ∃ s₁, (splitCategory colours args config input output c).rehearse s =
        (.ok outcome, s₁) := exists_splitCategory_of_foretold? hdry hfirst
    obtain ⟨htree, hcwd⟩ := tree_splitCategory_of_dryRun hdry hstep
    have hlater : Foretold config input s₁ rest later :=
      Foretold.of_sources hrest fun d _ => source?_congr htree hcwd d
    obtain ⟨summary', s', hrun, houtcomes⟩ : ∃ summary' s',
        (splitAll colours args config input output (summary.record outcome) rest).rehearse s₁ =
          (.ok summary', s') ∧ summary'.outcomes = (summary.record outcome).outcomes ++ later :=
      ih hlater
    refine ⟨summary', s', ?_, ?_⟩
    · rw [splitAll, Run.rehearse_bind, Run.rehearse_inContext, hstep]
      exact hrun
    · rw [houtcomes, Summary.record, List.append_assoc, List.singleton_append]

/-- A dry run ends as foretold. -/
theorem exists_splitCategories_of_foretold {categories : List String}
    {outcomes : List CategoryOutcome} (hdry : args.dryRun = true)
    (hchosen : ((chosen args).rehearse s).1 = .ok (input, config, categories))
    (h : Foretold config input s categories outcomes) :
    ∃ summary s', (splitCategories colours args).rehearse s = (.ok summary, s') ∧
      summary.outcomes = outcomes := by
  rcases hrun : (splitCategories colours args).rehearse s with ⟨r, s'⟩
  rcases splitCategories_cases hrun with ⟨f, hfailed, -⟩ | ⟨_, _, _, s₁, hok, htree, hcwd, hall⟩
  · cases hchosen.symm.trans hfailed
  · cases hchosen.symm.trans hok
    obtain ⟨summary, s₂, hdone, houtcomes⟩ : ∃ summary s₂,
        (splitAll colours args config input (args.output.getD input) (.empty args.dryRun)
          categories).rehearse s₁ = (.ok summary, s₂) ∧ summary.outcomes = [] ++ outcomes :=
      exists_splitAll_of_foretold hdry (h.of_sources fun c _ => source?_congr htree hcwd c)
    obtain ⟨rfl, rfl⟩ := Prod.mk.inj (hall.symm.trans hdone)
    exact ⟨summary, s', rfl, houtcomes⟩

end Foretelling

section Undisturbed

/-- What splitting a category leaves to the others: their sources, and the way to them. -/
structure Undisturbed (input : Path) (c : String) (s s' : Session) : Prop where
  rooted : s'.tree.Rooted
  isDir : s'.tree.isDir s'.cwd input = true
  sources : ∀ d, IsName d → d ≠ c → source? input s' d = source? input s d

/-- A category that was written lies apart from what the path leads through, and there was no file
in its place. -/
theorem of_writeCategory_ok {m : Manifest} {source : Path} (ht : s.tree.Rooted)
    (hdir : s.tree.isDir s.cwd input = true) (hname : IsName c) (hfits : (input.join ⟨c⟩).Fits)
    (hnames : ∀ u ∈ m.units, IsName u.name)
    (h : (writeCategory colours args m source (input.join ⟨c⟩)).rehearse s = (.ok (), s')) :
    (∀ w ∈ input.way s.cwd, ¬ input.place s.cwd ++ [c] <+: w) ∧
      ∀ contents, s.tree.node? (input.place s.cwd ++ [c]) ≠ some (.file contents) := by
  obtain ⟨w, s₁, hwrite, -, hend⟩ := writeCategory_cases h
  obtain rfl : w = .ok () := by
    rcases hend with ⟨-, hr, -⟩ | ⟨hok, -⟩ | ⟨hok, -⟩
    · exact absurd rfl hr
    · exact hok
    · exact hok
  refine ⟨Manifest.apart_of_write ht hnames hdir hname hfits hwrite, fun contents hfile => ?_⟩
  have hwrote := Manifest.wrote_write ht hnames hwrite
  rw [← Path.place_join_name hname (Tree.isDir_iff.1 hdir).1.ne_nil] at hfile
  have hkept := hwrote.kept _ _ hfile fun _ => ⟨contents, hfile⟩
  have hholds := hwrote.holds rfl []
  rw [List.append_nil, Tree.node?_nil, hkept] at hholds
  cases hholds

/-- Where there is no file in the place of a category, its directory takes no file's place. -/
theorem file_replace {v : View} {place : Place} {contents : Contents} (dir : Tree)
    (hfree : ∀ contents, v (place ++ [c]) ≠ some (.file contents)) (name : String) :
    v.replace (place ++ [c]) dir (place ++ [name]) = some (.file contents) ↔
      v (place ++ [name]) = some (.file contents) := by
  by_cases heq : c = name
  · subst heq
    simp [View.replace, Tree.node?_nil, hfree]
  · rw [View.replace_of_apart]
    rw [List.prefix_append_right_inj]
    simpa using heq

/-- Splitting a category there does not touch the source of another, even if the directory of the
one is named as the source of the other. -/
theorem file_splitEffect {v : View} {place : Place} {contents : Contents} (removeSource : Bool)
    (hne : d ≠ c) (hfree : ∀ contents, v (place ++ [c]) ≠ some (.file contents)) :
    splitEffect config removeSource place v c (place ++ [d ++ ".rs"]) = some (.file contents) ↔
      v (place ++ [d ++ ".rs"]) = some (.file contents) := by
  unfold splitEffect
  cases planned? config place v c with
  | none => rfl
  | some m =>
    have hother : place ++ [d ++ ".rs"] ≠ place ++ [c ++ ".rs"] := by simpa using hne
    cases removeSource with
    | false => exact file_replace _ hfree _
    | true =>
      simp only [if_true]
      rw [View.remove, if_neg hother]
      exact file_replace _ hfree _

/-- A category that is split leaves the sources of the others. -/
theorem undisturbed_splitCategory {outcome : CategoryOutcome} (ht : s.tree.Rooted)
    (hdir : s.tree.isDir s.cwd input = true) (hname : IsName c) (hcheck : config.check = .ok ())
    (hreal : args.dryRun = false)
    (h : (splitCategory colours args config input input c).rehearse s = (.ok outcome, s')) :
    Undisturbed input c s s' := by
  rcases splitCategory_cases h with
    ⟨htree, hcwd, -⟩ | ⟨text, u, m, result, s₁, -, hfound, hplan, htree, hcwd, hwrite, hok⟩
  · refine ⟨htree ▸ ht, by rw [htree, hcwd, hdir], fun d _ _ => source?_congr htree hcwd d⟩
  · obtain rfl := hok.1 rfl
    obtain ⟨hinput, hdirs⟩ := Tree.isDir_iff.1 hdir
    have hfits : (input.join ⟨c⟩).Fits :=
      hinput.of_join_append hname (isName_moduleFile hname.slash)
        (Tree.locate_eq_ok.1 (Tree.find?_eq_some.1 hfound).1).2.1
    obtain ⟨hapart, hfree⟩ :=
      of_writeCategory_ok (htree ▸ ht) (by rw [htree, hcwd, hdir]) hname hfits
      (isName_of_plan hcheck hplan) hwrite
    rw [htree, hcwd] at hfree
    rw [hcwd] at hapart
    obtain ⟨hcwd', -, hdone⟩ :=
      settled_splitCategory ht hdir hname hcheck hreal (fun _ => hapart) h
    obtain ⟨hrooted, hdir', hview⟩ := hdone rfl
    refine ⟨hrooted, hdir', fun d hd hne => ?_⟩
    apply Option.ext
    intro contents
    rw [source?_eq_some, source?_eq_some]
    by_cases hfits' : (categoryFile input d).Fits
    · rw [find?_categoryFile hd hdir' hfits', find?_categoryFile hd hdir hfits', hview, hcwd']
      unfold runEffect
      split
      · exact file_splitEffect args.removeSource hne hfree
      · rfl
    · have hnone (t : Tree) (cwd : Place) :
          t.find? cwd (categoryFile input d) ≠ some (.file contents) := fun hsome =>
        hfits' (Tree.locate_eq_ok.1 (Tree.find?_eq_some.1 hsome).1).2.1
      exact iff_of_false (hnone _ _) (hnone _ _)

/-- What becomes of the categories of a run was foretold by their sources as they were before it. -/
theorem foretold_of_splitAll {summary summary' : Summary} {categories : List String}
    (ht : s.tree.Rooted) (hdir : s.tree.isDir s.cwd input = true) (hcheck : config.check = .ok ())
    (hreal : args.dryRun = false) (hnames : ∀ c ∈ categories, IsName c) (hnodup : categories.Nodup)
    (h : (splitAll colours args config input input summary categories).rehearse s =
      (.ok summary', s')) :
    ∃ outcomes, summary'.outcomes = summary.outcomes ++ outcomes ∧
      Foretold config input s categories outcomes := by
  induction categories generalizing s summary with
  | nil =>
    cases h
    exact ⟨[], (List.append_nil _).symm, .nil⟩
  | cons c rest ih =>
    rcases splitAll_cons_cases h with ⟨f, -, he⟩ | ⟨outcome, s₁, hstep, h⟩
    · cases he
    · obtain ⟨hnotMem, hnodup⟩ := List.nodup_cons.1 hnodup
      have hlater (d : String) (hd : d ∈ rest) := hnames d (List.mem_cons_of_mem _ hd)
      obtain ⟨hrooted, hdir₁, hsources⟩ :=
        undisturbed_splitCategory ht hdir (hnames c List.mem_cons_self) hcheck hreal hstep
      obtain ⟨outcomes, houtcomes, hforetold⟩ := ih hrooted hdir₁ hlater hnodup h
      refine ⟨outcome :: outcomes, ?_, .cons (foretold?_of_splitCategory hstep) ?_⟩
      · rw [houtcomes, Summary.record, List.append_assoc, List.singleton_append]
      · refine hforetold.of_sources fun d hd => (hsources d (hlater d hd) ?_).symm
        rintro rfl
        exact hnotMem hd

/-- What a run did was foretold before it. -/
theorem foretold_of_splitCategories {summary : Summary} {categories : List String}
    (ht : s.tree.Rooted) (houtput : args.output = none) (hreal : args.dryRun = false)
    (hchosen : ((chosen args).rehearse s).1 = .ok (input, config, categories))
    (hnames : ∀ c ∈ categories, IsName c) (hnodup : categories.Nodup)
    (h : (splitCategories colours args).rehearse s = (.ok summary, s')) :
    Foretold config input s categories summary.outcomes := by
  rcases splitCategories_cases h with ⟨f, hfailed, -⟩ | ⟨_, _, _, s₁, hok, htree, hcwd, hall⟩
  · cases hchosen.symm.trans hfailed
  · cases hchosen.symm.trans hok
    obtain ⟨hcheck, hdir⟩ := of_chosen hchosen
    rw [houtput, Option.getD_none] at hall
    obtain ⟨outcomes, houtcomes, hforetold⟩ := foretold_of_splitAll (htree ▸ ht)
      (by rw [htree, hcwd, hdir]) hcheck hreal hnames hnodup hall
    obtain rfl : summary.outcomes = outcomes := houtcomes
    exact hforetold.of_sources fun c _ => source?_congr htree.symm hcwd.symm c

end Undisturbed

/-- A dry run changes nothing, whether it fails or not. If the categories have plain names, are all
different and are written next to their sources, then a run that gets through is foretold by the dry
run: that gets through as well, with the same outcomes, whatever may be replaced or is to be
removed. -/
theorem dryRun_pure_and_faithful (colours : Bool) (args : Arguments) (s : Session) :
    (args.dryRun = true → ((splitCategories colours args).rehearse s).2.tree = s.tree) ∧
      (s.tree.Rooted → args.output = none → args.dryRun = false →
        ∀ input config categories, ((chosen args).rehearse s).1 = .ok (input, config, categories) →
        (∀ c ∈ categories, IsName c) → categories.Nodup →
        ∀ summary s', (splitCategories colours args).rehearse s = (.ok summary, s') →
        ∀ force removeSource colours', ∃ rehearsed s'',
          (splitCategories colours'
            { args with dryRun := true, force := force, removeSource := removeSource }).rehearse s =
            (.ok rehearsed, s'') ∧ rehearsed.outcomes = summary.outcomes) := by
  refine ⟨fun hdry => tree_of_dryRun hdry rfl, ?_⟩
  intro ht houtput hreal input config categories hchosen hnames hnodup summary s' hrun force
    removeSource colours'
  have hforetold := foretold_of_splitCategories ht houtput hreal hchosen hnames hnodup hrun
  exact exists_splitCategories_of_foretold rfl hchosen hforetold

def threeCategories : Session :=
  .start ⟨[(["in"], .dir), (["in", "a.rs"], .file (.text appletText)), (["in", "a"], .dir),
    (["in", "b.rs"], .file (.text "fn g() {}\n"))]⟩ []

def splittingThree : Arguments :=
  { splitting "in" "a" with categories := ["a", "b", "c"], force := true, removeSource := true }

/-- A dry run that would neither replace nor remove anything foretells the outcomes of one that
does. -/
theorem threeCategories_foretold :
    ∃ rehearsed s', (splitCategories false
        { splittingThree with dryRun := true, force := false, removeSource := false }).rehearse
        threeCategories = (.ok rehearsed, s') ∧
      s'.tree = threeCategories.tree ∧ rehearsed.outcomes =
        [.split "a" 1 0 0 2, .skipped "b" .noApplets, .skipped "c" .missingFile] := by
  have hchosen : ((chosen splittingThree).rehearse threeCategories).1 =
      .ok (⟨"in"⟩, .default, ["a", "b", "c"]) := by decide +kernel
  have hends :
      ((splitCategories false splittingThree).rehearse threeCategories).1.map Summary.outcomes =
      .ok [.split "a" 1 0 0 2, .skipped "b" .noApplets, .skipped "c" .missingFile] := by
    decide +kernel
  rcases hrun : (splitCategories false splittingThree).rehearse threeCategories with
      ⟨_ | summary, s'⟩
  · rw [hrun] at hends
    cases hends
  · rw [hrun] at hends
    obtain ⟨-, hfaithful⟩ := dryRun_pure_and_faithful false splittingThree threeCategories
    obtain ⟨rehearsed, s'', hdry, hsame⟩ :=
      hfaithful (.of_entries (by decide +kernel)) rfl rfl _ _ _
      hchosen (by decide) (by decide) summary s' hrun false false false
    have htree := (dryRun_pure_and_faithful false
      { splittingThree with dryRun := true, force := false, removeSource := false }
      threeCategories).1 rfl
    rw [hdry] at htree
    exact ⟨rehearsed, s'', hdry, htree, hsame.trans (Except.ok.inj hends)⟩

end Unbundle
