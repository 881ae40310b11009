import Unbundle.Proofs.Command.Split
import Unbundle.Proofs.Manifest.Replace

/-! What a run leaves, exactly: each category up to the failing one is replaced as a whole or left
alone, and nothing else is touched. -/
namespace Unbundle

/-- The files planned for the category whose source is in the directory at `input`, if it has
applets. -/
def planned? (config : Config) (input : Place) (v : View) (category : String) : Option Manifest :=
  match v (input ++ [category ++ ".rs"]) with
  | some (.file (.text text)) =>
    match plan (.ofString category text) config with
    | .ok (.ok p) => p.manifest
    | _ => none
  | _ => none

/-- Splits a category: its directory is replaced by what was planned, and then its source is taken
away when that was asked for. Without applets it is left alone. -/
def splitEffect (config : Config) (removeSource : Bool) (input : Place) (v : View)
    (category : String) : View :=
  match planned? config input v category with
  | none => v
  | some m =>
    let written := v.replace (input ++ [category]) (holding m.units)
    if removeSource then written.remove (input ++ [category ++ ".rs"]) else written

/-- Splits a category of a directory that is given by its path. A source whose own path is no path
is not found. -/
def runEffect (config : Config) (removeSource : Bool) (cwd : Place) (input : Path) (v : View)
    (category : String) : View :=
  if (categoryFile input category).Fits then
    splitEffect config removeSource (input.place cwd) v category
  else v

/-- How a run over categories ends: `step` was taken for each up to the one that failed, which is
named. -/
def Ended (step : View → String → View) (categories : List String) (r : Except Failure Summary)
    (v v' : View) : Prop :=
  ∃ done rest, categories = done ++ rest ∧ v' = done.foldl step v ∧
    match r with
    | .ok _ => rest = []
    | .error f => ∃ c more, rest = c :: more ∧
        f.contexts.head? = some ("Failed to split category " ++ c)

variable {colours : Bool} {args : Arguments} {config : Config} {input : Path} {category : String}
  {s s' : Session} {v : View} {place : Place}

theorem planned?_eq_some {m : Manifest} :
    planned? config place v category = some m ↔ ∃ text u,
      v (place ++ [category ++ ".rs"]) = some (.file (.text text)) ∧
        plan (.ofString category text) config = .ok (.ok ⟨u, some m⟩) := by
  unfold planned?
  constructor
  · intro h
    split at h
    · rename_i text htext
      split at h
      · rename_i p hplan
        obtain ⟨u, manifest⟩ := p
        cases h
        exact ⟨text, u, htext, hplan⟩
      · cases h
    · cases h
  · rintro ⟨text, u, htext, hplan⟩
    rw [htext]
    simp only [hplan]

section Category

variable {m : Manifest}

theorem place_categoryFile (hname : IsName category) (hinput : input.text.isEmpty = false)
    (cwd : Place) :
    (categoryFile input category).place cwd = input.place cwd ++ [category ++ ".rs"] :=
  Path.place_join_name (isName_moduleFile hname.slash) hinput

/-- A source is found where it is, if its path is one. -/
theorem find?_categoryFile (hname : IsName category) (hdir : s.tree.isDir s.cwd input = true)
    (hfits : (categoryFile input category).Fits) :
    s.tree.find? s.cwd (categoryFile input category) =
      s.tree.node? (input.place s.cwd ++ [category ++ ".rs"]) := by
  obtain ⟨hinput, hdirs⟩ := Tree.isDir_iff.1 hdir
  have hplace := place_categoryFile hname hinput.ne_nil s.cwd
  have hlocate : s.tree.locate s.cwd (categoryFile input category) =
      .ok (input.place s.cwd ++ [category ++ ".rs"]) := by
    refine Tree.locate_eq_ok.2 ⟨hplace.symm, hfits, fun w hw => hdirs w ?_⟩
    exact Path.mem_trail_of_join (isName_moduleFile hname.slash) hinput.ne_nil hw
  rw [Tree.find?, hlocate]

/-- A source is not in the directory of its category. -/
theorem not_prefix_source (category : String) (place : Place) :
    ¬ place ++ [category] <+: place ++ [category ++ ".rs"] := by
  rw [List.prefix_append_right_inj]
  intro h
  have heq : category = category ++ ".rs" := by simpa using h
  have := congrArg String.length heq
  rw [String.length_append, show ".rs".length = 3 from rfl] at this
  omega

/-- What writing a category, and removing its source, leaves. -/
structure Settled (args : Arguments) (config : Config) (input : Path) (category : String)
    (ok : Bool) (s s' : Session) : Prop where
  cwd : s'.cwd = s.cwd
  failed : ok = false → s'.tree.node? = s.tree.node?
  done : ok = true → s'.tree.Rooted ∧ s'.tree.isDir s'.cwd input = true ∧
    s'.tree.node? = runEffect config args.removeSource s.cwd input s.tree.node? category

/-- The directory that is read is still there after a category in it was written. -/
theorem isDir_of_replaced {t : Tree} (site : Manifest.Site s.tree s.cwd input category)
    (h : t.node? = View.replace s.tree.node? (input.place s.cwd ++ [category]) (holding m.units)) :
    t.isDir s.cwd input = true := by
  refine (site.of_eq fun w hw => ?_).isDir
  rw [h, View.replace_of_apart (site.outside hw)]

/-- The removal of the source takes away nothing else. -/
theorem drop_source {t : Tree} {c : Contents} (site : Manifest.Site s.tree s.cwd input category)
    (ht : t.Rooted)
    (hview : t.node? =
      View.replace s.tree.node? (input.place s.cwd ++ [category]) (holding m.units))
    (hfile : t.node? (input.place s.cwd ++ [category ++ ".rs"]) = some (.file c)) :
    (t.drop (input.place s.cwd ++ [category ++ ".rs"])).Rooted ∧
      (t.drop (input.place s.cwd ++ [category ++ ".rs"])).isDir s.cwd input = true ∧
      (t.drop (input.place s.cwd ++ [category ++ ".rs"])).node? =
        View.remove t.node? (input.place s.cwd ++ [category ++ ".rs"]) := by
  have hdrop : (t.drop (input.place s.cwd ++ [category ++ ".rs"])).node? =
      View.remove t.node? (input.place s.cwd ++ [category ++ ".rs"]) := by
    funext q
    rw [Tree.node?_drop_of_ne (Tree.ne_nil_of_file hfile)]
    rfl
  refine ⟨ht.drop_file hfile, ?_, hdrop⟩
  obtain ⟨hfits, hdirs⟩ := Tree.isDir_iff.1 (isDir_of_replaced site hview)
  refine Tree.isDir_iff.2 ⟨hfits, fun w hw => ?_⟩
  rw [hdrop, View.remove, if_neg, hdirs w hw]
  rintro rfl
  cases (hdirs _ hw).symm.trans hfile

theorem isOk_iff {r : Except Failure Unit} : r.isOk = true ↔ r = .ok () := by
  cases r <;> simp [Except.isOk, Except.toBool]

theorem settled_writeCategory {text : String} {u : Inventory} {r : Except Failure Unit}
    (ht : s.tree.Rooted) (hcheck : config.check = .ok ())
    (site : Manifest.Site s.tree s.cwd input category)
    (hfits : (categoryFile input category).Fits)
    (hfile : s.tree.node? (input.place s.cwd ++ [category ++ ".rs"]) = some (.file (.text text)))
    (hplan : plan (.ofString category text) config = .ok (.ok ⟨u, some m⟩))
    (h : (writeCategory colours args m (categoryFile input category)
      (input.join ⟨category⟩)).rehearse s = (r, s')) :
    Settled args config input category r.isOk s s' := by
  have hcategory : m.category = category := by
    obtain ⟨-, _, _, _, hl⟩ := exists_laidOut hplan
    exact hl.category
  have hplanned : planned? config (input.place s.cwd) s.tree.node? category = some m :=
    planned?_eq_some.2 ⟨text, u, hfile, hplan⟩
  obtain ⟨result, s₁, hwrite, hcwd, hend⟩ := writeCategory_cases h
  have hreplaced : m.Replaced (input.place s.cwd ++ [category]) result s s₁ := by
    subst hcategory
    exact Manifest.replaced_write ht (isName_of_plan hcheck hplan) site hwrite
  have hcwd' : s'.cwd = s.cwd := hcwd.trans hreplaced.cwd
  have hsource (hok : result = .ok ()) :
      s₁.tree.find? s₁.cwd (categoryFile input category) = some (.file (.text text)) := by
    obtain ⟨-, hview⟩ := hreplaced.done hok
    rw [find?_categoryFile site.name (hreplaced.cwd ▸ isDir_of_replaced site hview) hfits, hview,
      hreplaced.cwd, View.replace_of_apart (not_prefix_source category _), hfile]
  rcases hend with ⟨hnot, hr, htree⟩ | ⟨hok, hkeep, rfl, htree⟩ |
    ⟨hok, hremove, ⟨e, herror, -, -⟩ | ⟨hremoved, rfl⟩⟩
  · refine ⟨hcwd', fun _ => ?_, fun hdone => absurd (isOk_iff.1 hdone) hr⟩
    rw [htree, hreplaced.failed hnot]
  · obtain ⟨hrooted, hview⟩ := hreplaced.done hok
    refine ⟨hcwd', nofun, fun _ => ?_⟩
    rw [hcwd', htree]
    refine ⟨hrooted, isDir_of_replaced site hview, ?_⟩
    simp only [runEffect, hfits, if_true, splitEffect, hplanned, hkeep, Bool.false_eq_true,
      if_false]
    exact hview
  · obtain ⟨hlocate, hnode⟩ := Tree.find?_eq_some.1 (hsource hok)
    rw [Tree.removeFile_eq_ok.2 ⟨hlocate, ⟨_, hnode⟩, rfl⟩] at herror
    cases herror
  · obtain ⟨hrooted, hview⟩ := hreplaced.done hok
    obtain ⟨-, ⟨c, hnode⟩, hdrop⟩ := Tree.removeFile_eq_ok.1 hremoved
    have hinput := (Tree.isDir_iff.1 site.isDir).1
    rw [hreplaced.cwd, place_categoryFile site.name hinput.ne_nil] at hnode hdrop
    obtain ⟨hrooted', hdir, hremoved⟩ := drop_source site hrooted hview hnode
    refine ⟨hcwd', nofun, fun _ => ?_⟩
    rw [hcwd', hdrop]
    refine ⟨hrooted', hdir, ?_⟩
    simp only [runEffect, hfits, if_true, splitEffect, hplanned, hremove]
    rw [hremoved, hview]

/-- A directory that the path leads through is there; it stays unless it may be replaced. -/
theorem settled_of_not_apart {r : Except Failure Unit} {source : Path} (ht : s.tree.Rooted)
    (hdir : s.tree.isDir s.cwd input = true) (hname : IsName category)
    (hfits : (input.join ⟨category⟩).Fits) (hkeep : args.force = false) {w : Place}
    (hw : w ∈ input.way s.cwd) (hpre : input.place s.cwd ++ [category] <+: w)
    (h : (writeCategory colours args m source (input.join ⟨category⟩)).rehearse s = (r, s')) :
    Settled args config input category r.isOk s s' := by
  have hthere := Manifest.find?_of_way ht hdir hname hfits hw hpre
  obtain ⟨result, s₁, hwrite, hcwd, hend⟩ := writeCategory_cases h
  obtain ⟨hnot, rfl⟩ := Manifest.write_refused (by rw [hthere]; rfl) hkeep hwrite
  rcases hend with ⟨-, hr, htree⟩ | ⟨hok, -⟩ | ⟨hok, -⟩
  · exact ⟨hcwd, fun _ => by rw [htree], fun hdone => absurd (isOk_iff.1 hdone) hr⟩
  · exact absurd hok hnot
  · exact absurd hok hnot

/-- One category is split as a whole, or nothing is changed. -/
theorem settled_splitCategory {r : Except Failure CategoryOutcome} (ht : s.tree.Rooted)
    (hdir : s.tree.isDir s.cwd input = true) (hname : IsName category)
    (hcheck : config.check = .ok ()) (hreal : args.dryRun = false)
    (hway : args.force = true → ∀ w ∈ input.way s.cwd, ¬ input.place s.cwd ++ [category] <+: w)
    (h : (splitCategory colours args config input input category).rehearse s = (r, s')) :
    Settled args config input category r.isOk s s' := by
  rcases splitCategory_cases h with
    ⟨htree, hcwd, hnone⟩ | ⟨text, u, m, result, s₁, -, hfound, hplan, htree, hcwd, hwrite, hok⟩
  · refine ⟨hcwd, fun _ => by rw [htree], fun hdone => ⟨htree ▸ ht, by rw [htree, hcwd, hdir], ?_⟩⟩
    rw [htree]
    unfold runEffect
    split
    · rename_i hfits
      have hplanned : planned? config (input.place s.cwd) s.tree.node? category = none := by
        rw [Option.eq_none_iff_forall_ne_some]
        intro m hm
        obtain ⟨text, u, hfile, hplan⟩ := planned?_eq_some.1 hm
        rw [← find?_categoryFile hname hdir hfits] at hfile
        exact hnone hreal hdone text u m hfile hplan
      rw [splitEffect, hplanned]
    · rfl
  · obtain ⟨hlocate, hfile⟩ := Tree.find?_eq_some.1 hfound
    obtain ⟨-, hfits, -⟩ := Tree.locate_eq_ok.1 hlocate
    obtain ⟨hinput, hdirs⟩ := Tree.isDir_iff.1 hdir
    have hdirFits : (input.join ⟨category⟩).Fits :=
      hinput.of_join_append hname (isName_moduleFile hname.slash) hfits
    rw [place_categoryFile hname hinput.ne_nil, ← htree, ← hcwd] at hfile
    rw [← htree, ← hcwd] at hdir
    rw [← hcwd] at hway
    have hsettled : Settled args config input category result.isOk s₁ s' := by
      by_cases hapart : ∀ w ∈ input.way s₁.cwd, ¬ input.place s₁.cwd ++ [category] <+: w
      · exact settled_writeCategory (htree ▸ ht) hcheck ⟨hdir, hname, hdirFits, hapart⟩ hfits hfile
          hplan hwrite
      · obtain ⟨w, hw, hpre⟩ : ∃ w ∈ input.way s₁.cwd, input.place s₁.cwd ++ [category] <+: w := by
          simpa using hapart
        have hkeep : args.force = false := by
          rw [Bool.eq_false_iff]
          exact fun hforce => hway hforce w hw hpre
        exact settled_of_not_apart (htree ▸ ht) hdir hname hdirFits hkeep hw hpre hwrite
    have hresult : result.isOk = r.isOk := by rw [Bool.eq_iff_iff, hok, isOk_iff]
    obtain ⟨hcwd', hfailed, hdone⟩ := hsettled
    rw [hcwd, htree, hresult] at *
    exact ⟨hcwd', hfailed, hdone⟩

end Category

/-- A run takes the categories one after the other, up to the first that fails. -/
theorem ended_splitAll {summary : Summary} {categories : List String} {r : Except Failure Summary}
    (ht : s.tree.Rooted) (hdir : s.tree.isDir s.cwd input = true) (hcheck : config.check = .ok ())
    (hreal : args.dryRun = false) (hnames : ∀ c ∈ categories, IsName c)
    (hway : args.force = true →
      ∀ c ∈ categories, ∀ w ∈ input.way s.cwd, ¬ input.place s.cwd ++ [c] <+: w)
    (h : (splitAll colours args config input input summary categories).rehearse s = (r, s')) :
    Ended (runEffect config args.removeSource s.cwd input) categories r
      s.tree.node? s'.tree.node? := by
  induction categories generalizing s summary with
  | nil =>
    cases h
    exact ⟨[], [], rfl, rfl, rfl⟩
  | cons c rest ih =>
    have hname := hnames c (List.mem_cons_self ..)
    have hapart := fun hforce => hway hforce c (List.mem_cons_self ..)
    rcases splitAll_cons_cases h with ⟨f, hstep, rfl⟩ | ⟨outcome, s₁, hstep, h⟩
    · have hsettled := settled_splitCategory ht hdir hname hcheck hreal hapart hstep
      exact ⟨[], c :: rest, rfl, hsettled.failed rfl, c, rest, rfl, rfl⟩
    · obtain ⟨hcwd, -, hdone⟩ := settled_splitCategory ht hdir hname hcheck hreal hapart hstep
      obtain ⟨hrooted, hdir₁, hview⟩ := hdone rfl
      rw [← hcwd] at hway
      obtain ⟨done, left, hsplit, hend, hresult⟩ := ih hrooted hdir₁
        (fun d hd => hnames d (List.mem_cons_of_mem _ hd))
        (fun hforce d hd => hway hforce d (List.mem_cons_of_mem _ hd)) h
      refine ⟨c :: done, left, by rw [hsplit]; rfl, ?_, hresult⟩
      rw [List.foldl_cons, ← hview, hend, hcwd]

/-- A run without an output directory leaves what its categories make of the tree, one after the
other up to the failing one. A run that fails before it comes to any category changes nothing. -/
theorem run_ended {r : Except Failure Summary} (ht : s.tree.Rooted) (houtput : args.output = none)
    (hreal : args.dryRun = false) (h : (splitCategories colours args).rehearse s = (r, s')) :
    (∀ f, ((chosen args).rehearse s).1 = .error f → r = .error f ∧ s'.tree = s.tree) ∧
      ∀ input config categories, ((chosen args).rehearse s).1 = .ok (input, config, categories) →
        (∀ c ∈ categories, IsName c) →
        (args.force = true →
          ∀ c ∈ categories, ∀ w ∈ input.way s.cwd, ¬ input.place s.cwd ++ [c] <+: w) →
        Ended (runEffect config args.removeSource s.cwd input) categories r s.tree.node?
          s'.tree.node? := by
  rcases splitCategories_cases h with
    ⟨f, hchosen, rfl, htree⟩ | ⟨input, config, categories, s₁, hchosen, htree, hcwd, hrun⟩
  · refine ⟨fun g hg => ?_, fun _ _ _ hok => absurd (hchosen.symm.trans hok) nofun⟩
    cases hchosen.symm.trans hg
    exact ⟨rfl, htree⟩
  · refine ⟨fun _ herr => absurd (hchosen.symm.trans herr) nofun, ?_⟩
    intro input' config' categories' hok hnames hway
    cases hchosen.symm.trans hok
    obtain ⟨hcheck, hdir⟩ := of_chosen hchosen
    rw [houtput, Option.getD_none] at hrun
    rw [← hcwd] at hway
    have hend :=
      ended_splitAll (htree ▸ ht) (by rw [htree, hcwd, hdir]) hcheck hreal hnames hway hrun
    rwa [htree, hcwd] at hend

def splitBefore : Session :=
  .start ⟨[(["in"], .dir), (["in", "a.rs"], .file (.text appletText)), (["in", "a"], .dir),
    (["in", "a", "old.rs"], .file (.text "")), (["in", "b.rs"], .file (.text appletText)),
    (["in", "b"], .file (.text ""))]⟩ []

/-- The first category is replaced, and the second stops the run. -/
theorem splitBefore_ended :
    ∃ r s', (splitCategories false
        { splitting "in" "a" with categories := ["a", "b"], force := true }).rehearse splitBefore =
        (r, s') ∧
      s'.tree.node? ["in", "a", "old.rs"] = none ∧ r.isOk = false ∧
      Ended (runEffect .default false [] ⟨"in"⟩) ["a", "b"] r
        splitBefore.tree.node? s'.tree.node? := by
  have ht : splitBefore.tree.Rooted := .of_entries (by decide +kernel)
  have hchosen : ((chosen { splitting "in" "a" with
      categories := ["a", "b"], force := true }).rehearse splitBefore).1 =
      .ok (⟨"in"⟩, .default, ["a", "b"]) := by decide +kernel
  have hend : ((splitCategories false { splitting "in" "a" with
      categories := ["a", "b"], force := true }).rehearse splitBefore).2.tree.node?
        ["in", "a", "old.rs"] = none ∧
      ((splitCategories false { splitting "in" "a" with
        categories := ["a", "b"], force := true }).rehearse splitBefore).1.isOk = false := by
    decide +kernel
  have hnames : ∀ c ∈ ["a", "b"], IsName c := by decide
  rcases hrun : (splitCategories false { splitting "in" "a" with
      categories := ["a", "b"], force := true }).rehearse splitBefore with ⟨r, s'⟩
  rw [hrun] at hend
  obtain ⟨-, hall⟩ := run_ended ht rfl rfl hrun
  exact ⟨r, s', rfl, hend.1, hend.2, hall _ _ _ hchosen hnames fun _ => by decide +kernel⟩

def slashed (n : Nat) : Path := ⟨"in".pushn '/' n⟩

theorem size_slashed (n : Nat) : (slashed n).text.utf8ByteSize = n + 2 := by
  rw [slashed, String.pushn_eq_repeat_push]
  induction n with
  | zero => rfl
  | succ n ih =>
    rw [Nat.repeat, String.utf8ByteSize_push, ih]
    rfl

theorem pieces_slashed (n : Nat) :
    (slashed (n + 1)).pieces = ['i', 'n'] :: List.replicate (n + 1) [] := by
  rw [Path.pieces, slashed, toList_pushn, List.replicate_succ, slashPieces_append_slash,
    slashPieces_replicate]
  rfl

theorem base_slashed (n : Nat) : (slashed n).base [] = [] := by
  unfold Path.base
  split <;> rfl

theorem isIdle_replicate {n : Nat} {i : Text} (h : i ∈ List.replicate n []) : isIdle i = true := by
  rw [List.eq_of_mem_replicate h]
  rfl

theorem place_slashed (n : Nat) : (slashed (n + 1)).place [] = ["in"] := by
  rw [Path.place, pieces_slashed, List.foldl_cons,
    Tree.foldl_step_of_idle fun _ => isIdle_replicate, base_slashed]
  decide

theorem isDir_slashed {n : Nat} (h : n + 3 < Tree.pathLimit) :
    oneSource.tree.isDir [] (slashed (n + 1)) = true := by
  have hdir : oneSource.tree.node? ["in"] = some .dir := by decide +kernel
  refine Tree.isDir_iff.2 ⟨⟨?_, ?_, ?_, ?_⟩, ?_⟩
  · rw [← Bool.not_eq_true, String.isEmpty_iff, ← String.toList_inj]
    simp [slashed, toList_pushn]
  · simp [slashed, toList_pushn]
  · rw [size_slashed]
    exact h
  · intro piece hpiece
    rw [pieces_slashed, List.mem_cons] at hpiece
    rcases hpiece with rfl | hpiece
    · decide
    · rw [List.eq_of_mem_replicate hpiece]
      decide
  · intro w hw
    have hw : w = [] ∨ w = ["in"] := by
      rcases List.mem_append.1 hw with hw | hw
      · rw [Path.way, pieces_slashed, base_slashed, Tree.stations, List.mem_cons] at hw
        exact hw.imp_right (Tree.eq_of_mem_stations fun _ => isIdle_replicate)
      · exact .inr ((List.mem_singleton.1 hw).trans (place_slashed n))
    rcases hw with rfl | rfl
    · exact Tree.node?_nil _
    · exact hdir

/-- Categories that are named are chosen; a directory without a configuration file has the usual
one. -/
theorem chosen_of_named (hinput : args.input = some input) (hall : args.all = false)
    (hnamed : args.categories.isEmpty = false) (hconfig : args.config = none)
    (hdir : s.tree.isDir s.cwd input = true)
    (hnone : s.tree.isFile s.cwd (input.join configFileName) = false) :
    ((chosen args).rehearse s).1 = .ok (input, .default, args.categories) := by
  have hdir : ((Host.isDir input : Rehearsal Bool) s) = (true, s) := by rw [← hdir]; rfl
  have hnone : ((Host.isFile (input.join configFileName) : Rehearsal Bool) s) = (false, s) := by
    rw [← hnone]
    rfl
  have hload : (Config.loadOrDefault none input).rehearse s = (.ok .default, s) := by
    rw [Config.loadOrDefault]
    simp only [Run.rehearse_ask_bind, hnone, Bool.false_eq_true, if_false]
    rfl
  unfold chosen
  rw [hinput]
  simp only [Run.rehearse_ask_bind, hdir, if_true, hconfig]
  rw [Run.rehearse_bind, hload]
  simp only [Run.rehearse_ask_bind, selectedCategories, hall, hnamed, Bool.false_eq_true, if_false]
  rfl

def splittingSlashed (n : Nat) : Arguments := { splitting "" "a" with input := some (slashed n) }

/-- A category without a source is passed over. -/
theorem splitCategory_of_missing {output : Path}
    (h : s.tree.isFile s.cwd (categoryFile input category) = false) :
    ∃ s', (splitCategory colours args config input output category).rehearse s =
      (.ok (.skipped category .missingFile), s') ∧ s'.tree = s.tree := by
  have hnone : ((Host.isFile (categoryFile input category) : Rehearsal Bool) s) = (false, s) := by
    rw [← h]
    rfl
  unfold splitCategory
  simp only [Run.rehearse_ask_bind, hnone, Bool.false_eq_true, if_false]
  exact ⟨_, rfl, rfl⟩

/-- The directory is found by so long a path, but its source is not. -/
theorem splittingSlashed_passes_over {n : Nat} (h : n + 3 < Tree.pathLimit)
    (hlong : Tree.pathLimit ≤ n + 7) :
    ((chosen (splittingSlashed (n + 1))).rehearse oneSource).1 =
        .ok (slashed (n + 1), .default, ["a"]) ∧
      ∃ summary s', (splitCategories false (splittingSlashed (n + 1))).rehearse oneSource =
        (.ok summary, s') ∧ s'.tree = oneSource.tree := by
  have hdir := isDir_slashed h
  have hne := (Tree.isDir_iff.1 hdir).1.ne_nil
  have hsize := size_slashed (n + 1)
  have hlost {name : Path} (hname : name.isAbsolute = false) (hfour : 4 ≤ name.text.utf8ByteSize) :
      oneSource.tree.isFile [] ((slashed (n + 1)).join name) = false := by
    have := Path.le_size_join hname hne
    rw [Tree.isFile, Tree.find?_eq_none_of_size (by omega)]
  have hchosen : ((chosen (splittingSlashed (n + 1))).rehearse oneSource).1 =
      .ok (slashed (n + 1), .default, ["a"]) :=
    chosen_of_named rfl rfl rfl rfl hdir (hlost (by decide +kernel) (by decide +kernel))
  refine ⟨hchosen, ?_⟩
  rcases hrun : (splitCategories false (splittingSlashed (n + 1))).rehearse oneSource with ⟨r, s'⟩
  rcases splitCategories_cases hrun with
    ⟨f, hfailed, -⟩ | ⟨input, config, categories, s₁, hok, htree, hcwd, hall⟩
  · cases hchosen.symm.trans hfailed
  · cases hchosen.symm.trans hok
    have hmissing : s₁.tree.isFile s₁.cwd (categoryFile (slashed (n + 1)) "a") = false := by
      rw [htree, hcwd]
      exact hlost (by decide +kernel) (by decide +kernel)
    obtain ⟨s₂, hstep, hsame⟩ := splitCategory_of_missing hmissing
    rcases splitAll_cons_cases hall with ⟨f, hone, -⟩ | ⟨outcome, s₃, hone, hend⟩
    · cases hstep.symm.trans hone
    · cases hstep.symm.trans hone
      cases hend
      exact ⟨_, _, rfl, hsame.trans htree⟩

/-- A directory with a source that was split before, whose path leads through what was written. -/
def roundabout : Arguments := { splitting "in/a/.." "a" with force := true }

/-- Not every run ends so for sources that are there: one whose path is too long is passed over. Nor
does a run end so when the path of the directory leads through what it replaces. -/
theorem not_forall_ended :
    (¬ ∀ (args : Arguments) (s : Session) (input : Path) (config : Config)
      (categories : List String), s.tree.Rooted → args.output = none → args.dryRun = false →
      ((chosen args).rehearse s).1 = .ok (input, config, categories) →
      (∀ c ∈ categories, IsName c) → categories.Nodup →
      Ended (splitEffect config args.removeSource (input.place s.cwd)) categories
        ((splitCategories false args).rehearse s).1 s.tree.node?
        ((splitCategories false args).rehearse s).2.tree.node?) ∧
    ¬ ∀ (args : Arguments) (s : Session) (input : Path) (config : Config)
      (categories : List String), s.tree.Rooted → args.output = none → args.dryRun = false →
      ((chosen args).rehearse s).1 = .ok (input, config, categories) →
      (∀ c ∈ categories, IsName c) → categories.Nodup →
      Ended (runEffect config args.removeSource s.cwd input) categories
        ((splitCategories false args).rehearse s).1 s.tree.node?
        ((splitCategories false args).rehearse s).2.tree.node? := by
  have hname : ∀ c ∈ ["a"], IsName c := by decide
  constructor
  · intro h
    obtain ⟨n, hshort, hlong⟩ : ∃ n, n + 3 < Tree.pathLimit ∧ Tree.pathLimit ≤ n + 7 :=
      ⟨4089, by decide, by decide⟩
    obtain ⟨hchosen, summary, s', hrun, htree⟩ := splittingSlashed_passes_over hshort hlong
    have hend :=
      h _ oneSource _ _ _ (.of_entries (by decide +kernel)) rfl rfl hchosen hname (by simp)
    rw [hrun, show oneSource.cwd = [] from rfl, place_slashed, htree] at hend
    obtain ⟨done, rest, hsplit, hview, rfl⟩ := hend
    rw [List.append_nil] at hsplit
    rw [← hsplit] at hview
    have hbefore : oneSource.tree.node? ["in", "a"] = none := by decide +kernel
    have hafter : splitEffect .default false ["in"] oneSource.tree.node? "a" ["in", "a"] =
        some .dir := by decide +kernel
    rw [hview] at hbefore
    cases hafter.symm.trans hbefore
  · intro h
    have hend := h roundabout splitBefore ⟨"in/a/.."⟩ .default ["a"]
      (.of_entries (by decide +kernel)) rfl rfl (by decide +kernel) hname (by simp)
    obtain ⟨hfails, hgone⟩ :
        ((splitCategories false roundabout).rehearse splitBefore).1.isOk = false ∧
          ((splitCategories false roundabout).rehearse splitBefore).2.tree.node? ["in", "a"] =
            none := by
      decide +kernel
    rcases hrun : (splitCategories false roundabout).rehearse splitBefore with ⟨f | summary, s'⟩
    · rw [hrun] at hend hgone
      obtain ⟨done, rest, hsplit, hview, c, more, hrest, -⟩ := hend
      obtain rfl : done = [] := by
        have hlength := congrArg List.length hsplit
        rw [hrest, List.length_append] at hlength
        simp only [List.length_cons, List.length_nil] at hlength
        exact List.eq_nil_of_length_eq_zero (by omega)
      rw [hview] at hgone
      have hbefore : splitBefore.tree.node? ["in", "a"] = some .dir := by decide +kernel
      cases hbefore.symm.trans hgone
    · rw [hrun] at hfails
      cases hfails

end Unbundle
