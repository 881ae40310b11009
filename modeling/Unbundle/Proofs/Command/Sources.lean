import Unbundle.Proofs.Command.Split

/-! Sources are safe. Where the categories of a run keep out of each other's way, a source is gone
only when that was asked for and its files have been written. -/
namespace Unbundle

/-- Where a run finds categories and puts them. -/
structure Layout where
  cwd : Place
  input : Path
  output : Path

namespace Layout

def source (l : Layout) (category : String) : Place := (categoryFile l.input category).place l.cwd

def target (l : Layout) (category : String) : Place := (l.output.join ⟨category⟩).place l.cwd

/-- The categories keep out of each other's way: no source lies below a directory that is written,
no such directory lies in another, and no two categories share a source. -/
structure Apart (l : Layout) (categories : List String) : Prop where
  sources : ∀ d ∈ categories, ∀ e ∈ categories, l.target d <+: l.source e → l.target d = l.source e
  targets : ∀ d ∈ categories, ∀ e ∈ categories, d ≠ e → ¬ l.target d <+: l.target e
  distinct : ∀ d ∈ categories, ∀ e ∈ categories, l.source d = l.source e → d = e

/-- Categories with plain names keep apart, unless a directory that is written is, or lies above,
the one that is read. -/
theorem apart_of_isName {l : Layout} {categories : List String}
    (hnames : ∀ c ∈ categories, IsName c) (hinput : l.input.text.isEmpty = false)
    (houtput : l.output.text.isEmpty = false)
    (h : ∀ c ∈ categories, ¬ l.target c <+: l.input.place l.cwd) : l.Apart categories := by
  have hsource (c : String) (hc : c ∈ categories) :
      l.source c = l.input.place l.cwd ++ [moduleFile c] :=
    Path.place_join_name (isName_moduleFile (hnames c hc).slash) hinput
  have htarget (c : String) (hc : c ∈ categories) : l.target c = l.output.place l.cwd ++ [c] :=
    Path.place_join_name (hnames c hc) houtput
  refine ⟨?_, ?_, ?_⟩
  · intro d hd e he hpre
    rw [hsource e he] at hpre ⊢
    exact (List.prefix_concat_iff.1 hpre).resolve_right (h d hd)
  · intro d hd e he hne hpre
    rw [htarget d hd, htarget e he, List.prefix_append_right_inj] at hpre
    simp [hne] at hpre
  · intro d hd e he heq
    rw [hsource d hd, hsource e he] at heq
    exact moduleFile_injective (by simpa using heq)

end Layout

def Arguments.layout (args : Arguments) (cwd : Place) (input : Path) : Layout :=
  ⟨cwd, input, args.output.getD input⟩

/-- The arguments of a run on one category `c`, whose source held `contents` before. -/
structure Watch where
  layout : Layout
  args : Arguments
  config : Config
  category : String
  contents : Contents

namespace Watch

variable {w : Watch} {categories : List String} {e : String} {s s' : Session} {t u : Tree}

def Untouched (w : Watch) (t : Tree) : Prop :=
  t.node? (w.layout.source w.category) = some (.file w.contents)

/-- The source was to be removed, and all that was planned for it is in the category's directory. -/
structure Replaced (w : Watch) (t : Tree) : Prop where
  asked : w.args.removeSource = true
  real : w.args.dryRun = false
  holds : ∃ text v m, w.contents = .text text ∧
    plan (.ofString w.category text) w.config = .ok (.ok ⟨v, some m⟩) ∧
    ∀ rest n, (holding m.units).node? rest = some n →
      t.node? (w.layout.target w.category ++ rest) = some n

def Gone (w : Watch) (t : Tree) : Prop :=
  ∀ c, t.node? (w.layout.source w.category) ≠ some (.file c)

/-- The invariant of a run. -/
structure Safe (w : Watch) (s : Session) : Prop where
  cwd : s.cwd = w.layout.cwd
  rooted : s.tree.Rooted
  source : w.Untouched s.tree ∨ w.Gone s.tree ∧ w.Replaced s.tree

/-- What a category's directory holds stays, unless its places are touched. -/
theorem Replaced.mono (h : w.Replaced t)
    (hkept : ∀ rest n, t.node? (w.layout.target w.category ++ rest) = some n →
      u.node? (w.layout.target w.category ++ rest) = some n) : w.Replaced u := by
  obtain ⟨text, v, m, hc, hplan, hholds⟩ := h.holds
  exact ⟨h.asked, h.real, text, v, m, hc, hplan, fun rest n hn => hkept rest n (hholds rest n hn)⟩

section Write

variable {m : Manifest} {r : Except Failure Unit}

/-- Writing a category leaves every source. -/
theorem Untouched.write (h : w.Untouched s.tree) (hcwd : s.cwd = w.layout.cwd)
    (ha : w.layout.Apart categories) (hc : w.category ∈ categories) (he : e ∈ categories)
    (hw : m.Wrote (w.layout.output.join ⟨e⟩) r s s') : w.Untouched s'.tree := by
  refine hw.kept _ _ h fun hpre => ?_
  rw [hcwd] at hpre ⊢
  have heq := ha.sources e he w.category hc hpre
  exact ⟨w.contents, (congrArg s.tree.node? heq).trans h⟩

/-- It leaves what other categories hold. -/
theorem Replaced.write (h : w.Replaced s.tree) (hcwd : s.cwd = w.layout.cwd)
    (ha : w.layout.Apart categories) (hc : w.category ∈ categories) (he : e ∈ categories)
    (hne : e ≠ w.category) (hw : m.Wrote (w.layout.output.join ⟨e⟩) r s s') :
    w.Replaced s'.tree := by
  refine h.mono fun rest n hn => hw.kept _ _ hn fun hpre => ?_
  rw [hcwd] at hpre
  rcases List.prefix_or_prefix_of_prefix hpre (List.prefix_append _ rest) with hor | hor
  · exact absurd hor (ha.targets e he _ hc hne)
  · exact absurd hor (ha.targets _ hc e he hne.symm)

/-- It puts no file where a source was. -/
theorem Gone.write (h : w.Gone s.tree) (hcwd : s.cwd = w.layout.cwd)
    (ha : w.layout.Apart categories) (hc : w.category ∈ categories) (he : e ∈ categories)
    (hw : m.Wrote (w.layout.output.join ⟨e⟩) (.ok ()) s s') : w.Gone s'.tree := by
  intro c hfile
  by_cases hpre : w.layout.target e <+: w.layout.source w.category
  · have heq := ha.sources e he w.category hc hpre
    have hdir := hw.holds rfl []
    rw [List.append_nil, hcwd, Tree.node?_nil] at hdir
    rw [← heq] at hfile
    cases hdir.symm.trans hfile
  · obtain ⟨t, hgrown, hsame⟩ := hw.grown rfl
    rw [hcwd] at hsame
    rw [hsame _ hpre] at hfile
    rcases hgrown (w.layout.source w.category) with heq | ⟨-, hdir⟩
    · exact h c (heq ▸ hfile)
    · cases hdir.symm.trans hfile

end Write

section Removal

variable {c : Contents}

/-- Removing a source leaves what categories hold: no source is in a directory that was written. -/
theorem Replaced.drop (h : w.Replaced t) (ha : w.layout.Apart categories)
    (hc : w.category ∈ categories) (he : e ∈ categories)
    (hfile : t.node? (w.layout.source e) = some (.file c)) :
    w.Replaced (t.drop (w.layout.source e)) := by
  have hdir : t.node? (w.layout.target w.category) = some .dir := by
    obtain ⟨-, -, m, -, -, hholds⟩ := h.holds
    simpa using hholds [] .dir (Tree.node?_nil _)
  refine h.mono fun rest n hn => ?_
  rw [Tree.node?_drop_of_ne (Tree.ne_nil_of_file hfile), if_neg, hn]
  intro heq
  have hsame := ha.sources _ hc e he (heq ▸ List.prefix_append _ rest)
  rw [hsame, hfile] at hdir
  cases hdir

theorem Untouched.drop (h : w.Untouched t) (ha : w.layout.Apart categories)
    (hc : w.category ∈ categories) (he : e ∈ categories) (hne : e ≠ w.category)
    (hfile : t.node? (w.layout.source e) = some (.file c)) :
    w.Untouched (t.drop (w.layout.source e)) := by
  rw [Untouched, Tree.node?_drop_of_ne (Tree.ne_nil_of_file hfile), if_neg, h]
  intro heq
  exact hne (ha.distinct _ hc e he heq).symm

theorem Gone.drop (h : w.Gone t) (hfile : t.node? (w.layout.source e) = some (.file c)) :
    w.Gone (t.drop (w.layout.source e)) := by
  intro x hx
  rw [Tree.node?_drop_of_ne (Tree.ne_nil_of_file hfile)] at hx
  split at hx
  · cases hx
  · exact h x hx

end Removal

/-- After a category was written, before its source is removed. -/
theorem Safe.write {m : Manifest} {r : Except Failure Unit} {c : Contents} (hs : w.Safe s)
    (ha : w.layout.Apart categories) (hc : w.category ∈ categories) (he : e ∈ categories)
    (hfile : s.tree.node? (w.layout.source e) = some (.file c))
    (hw : m.Wrote (w.layout.output.join ⟨e⟩) r s s') :
    (w.Untouched s'.tree ∨ w.Replaced s'.tree) ∧ (r = .ok () → w.Safe s') := by
  rcases hs.source with h | ⟨hgone, h⟩
  · have hkept := h.write hs.cwd ha hc he hw
    exact ⟨.inl hkept, fun hr => ⟨hw.cwd.trans hs.cwd, hw.rooted hr, .inl hkept⟩⟩
  · have hne : e ≠ w.category := by
      rintro rfl
      exact hgone c hfile
    have hkept := h.write hs.cwd ha hc he hne hw
    refine ⟨.inr hkept, ?_⟩
    rintro rfl
    exact ⟨hw.cwd.trans hs.cwd, hw.rooted rfl, .inr ⟨hgone.write hs.cwd ha hc he hw, hkept⟩⟩

/-- After the source of a category was removed: if it is the one that is watched, its files must be
there. -/
theorem Safe.removal {c : Contents} (hs : w.Safe s) (ha : w.layout.Apart categories)
    (hc : w.category ∈ categories) (he : e ∈ categories)
    (hfile : s.tree.node? (w.layout.source e) = some (.file c))
    (hnew : e = w.category → w.Replaced s.tree) (hcwd : s'.cwd = s.cwd)
    (hu : s'.tree = s.tree.drop (w.layout.source e)) : w.Safe s' := by
  have hne := Tree.ne_nil_of_file hfile
  refine ⟨hcwd.trans hs.cwd, hu ▸ hs.rooted.drop_file hfile, hu ▸ ?_⟩
  rcases hs.source with h | ⟨hgone, h⟩
  · by_cases heq : e = w.category
    · refine .inr ⟨?_, (hnew heq).drop ha hc he hfile⟩
      intro x hx
      rw [Tree.node?_drop_of_ne hne, heq, if_pos rfl] at hx
      cases hx
    · exact .inl (h.drop ha hc he heq hfile)
  · exact .inr ⟨hgone.drop hfile, h.drop ha hc he hfile⟩

/-- One category keeps the invariant; when it fails, the watched source is still as it was, or
replaced. -/
theorem Safe.splitCategory {colours : Bool} {r : Except Failure CategoryOutcome} (hs : w.Safe s)
    (ha : w.layout.Apart categories) (hc : w.category ∈ categories) (he : e ∈ categories)
    (hcheck : w.config.check = .ok ())
    (h : (splitCategory colours w.args w.config w.layout.input w.layout.output e).rehearse s =
      (r, s')) :
    (w.Untouched s'.tree ∨ w.Replaced s'.tree) ∧ (r.isOk = true → w.Safe s') := by
  rcases splitCategory_cases h with
    ⟨htree, hcwd, -⟩ | ⟨text, v, m, done, s₁, hdry, hfound, hplan, htree, hcwd, hwrite, hok⟩
  · refine ⟨htree ▸ hs.source.imp id And.right, fun _ => ⟨hcwd.trans hs.cwd, htree ▸ hs.rooted, ?_⟩⟩
    rw [htree]
    exact hs.source
  · have hs₁ : w.Safe s₁ := ⟨hcwd.trans hs.cwd, htree ▸ hs.rooted, htree ▸ hs.source⟩
    have hfile : s₁.tree.node? (w.layout.source e) = some (.file (.text text)) := by
      rw [htree, Layout.source, ← hs.cwd]
      exact (Tree.find?_eq_some.1 hfound).2
    obtain ⟨result, s₂, hmanifest, hcwd₂, hend⟩ := writeCategory_cases hwrite
    have hw := Manifest.wrote_write hs₁.rooted (isName_of_plan hcheck hplan) hmanifest
    obtain ⟨hkept, hsafe⟩ := hs₁.write ha hc he hfile hw
    rcases hend with ⟨-, hfailed, htree₂⟩ | ⟨rfl, -, -, htree₂⟩ |
      ⟨rfl, hremove, ⟨_, -, hfailed, htree₂⟩ | ⟨hremoved, -⟩⟩
    · exact ⟨htree₂ ▸ hkept, fun hr => absurd (hok.1 hr) hfailed⟩
    · refine ⟨htree₂ ▸ hkept, fun _ => ?_⟩
      obtain ⟨hcwd', hrooted, hsource⟩ := hsafe rfl
      exact ⟨hcwd₂.trans hcwd', htree₂ ▸ hrooted, htree₂ ▸ hsource⟩
    · exact ⟨htree₂ ▸ hkept, fun hr => absurd (hok.1 hr) hfailed⟩
    · obtain ⟨-, ⟨c, hthere⟩, hdrop⟩ := Tree.removeFile_eq_ok.1 hremoved
      have hplace : (categoryFile w.layout.input e).place s₂.cwd = w.layout.source e := by
        rw [(hsafe rfl).cwd, Layout.source]
      rw [hplace] at hthere hdrop
      have hdone : w.Safe s' := by
        refine (hsafe rfl).removal ha hc he hthere ?_ hcwd₂ hdrop
        rintro rfl
        rcases hs₁.source with hsource | ⟨hgone, -⟩
        · have hcontents : w.contents = .text text :=
            Node.file.inj (Option.some.inj (hsource.symm.trans hfile))
          refine ⟨hremove, hdry, text, v, m, hcontents, hplan, fun rest n hn => ?_⟩
          rw [Layout.target, ← hs₁.cwd]
          exact (hw.holds rfl rest).trans hn
        · exact absurd hfile (hgone _)
      exact ⟨hdone.source.imp id And.right, fun _ => hdone⟩

/-- A run keeps the watched source or replaces it, wherever it stops. -/
theorem Safe.splitAll {colours : Bool} {summary : Summary} {todo : List String}
    {r : Except Failure Summary} (hs : w.Safe s) (ha : w.layout.Apart categories)
    (hc : w.category ∈ categories) (htodo : ∀ e ∈ todo, e ∈ categories)
    (hcheck : w.config.check = .ok ())
    (h : (splitAll colours w.args w.config w.layout.input w.layout.output summary todo).rehearse s =
      (r, s')) : w.Untouched s'.tree ∨ w.Replaced s'.tree := by
  induction todo generalizing s summary with
  | nil =>
    cases h
    exact hs.source.imp id And.right
  | cons e rest ih =>
    have he := htodo e (List.mem_cons_self ..)
    rcases splitAll_cons_cases h with ⟨f, hstep, -⟩ | ⟨outcome, s₁, hstep, h⟩
    · exact (hs.splitCategory ha hc he hcheck hstep).1
    · exact ih ((hs.splitCategory ha hc he hcheck hstep).2 rfl)
        (fun d hd => htodo d (List.mem_cons_of_mem _ hd)) h

end Watch

/-- The source of a category was to be removed, and the files that were planned for what it held are
in the category's directory. -/
structure SplitOff (args : Arguments) (config : Config) (l : Layout) (category : String)
    (contents : Contents) (t : Tree) : Prop where
  asked : args.removeSource = true
  real : args.dryRun = false
  files : ∃ text u m, contents = .text text ∧
    plan (.ofString category text) config = .ok (.ok ⟨u, some m⟩) ∧
    (∀ rest n, (holding m.units).node? rest = some n →
      t.node? (l.target category ++ rest) = some n) ∧
    (m.fileNames.Nodup → ∀ file ∈ m.units,
      t.node? (l.target category ++ [file.name]) = some (.file (.text file.render)))

/-- A source that a run took away or changed was to be removed, and its files are there. A run that
fails before it comes to any category changes nothing. -/
theorem source_kept_or_split {colours : Bool} {args : Arguments} {s s' : Session}
    {r : Except Failure Summary} (ht : s.tree.Rooted)
    (h : (splitCategories colours args).rehearse s = (r, s')) :
    (∀ f, ((chosen args).rehearse s).1 = .error f → s'.tree = s.tree) ∧
      ∀ input config categories, ((chosen args).rehearse s).1 = .ok (input, config, categories) →
        (args.layout s.cwd input).Apart categories → ∀ c ∈ categories, ∀ contents,
          s.tree.node? ((args.layout s.cwd input).source c) = some (.file contents) →
          s'.tree.node? ((args.layout s.cwd input).source c) ≠ some (.file contents) →
          SplitOff args config (args.layout s.cwd input) c contents s'.tree := by
  rcases splitCategories_cases h with
    ⟨f, hchosen, -, htree⟩ | ⟨input, config, categories, s₁, hchosen, htree, hcwd, hrun⟩
  · exact ⟨fun _ _ => htree, fun _ _ _ hok => absurd (hchosen.symm.trans hok) nofun⟩
  · refine ⟨fun _ herr => absurd (hchosen.symm.trans herr) nofun, ?_⟩
    intro input' config' categories' hok ha c hc contents hbefore hafter
    cases hchosen.symm.trans hok
    let w : Watch := ⟨args.layout s.cwd input, args, config, c, contents⟩
    have hs : w.Safe s₁ := ⟨hcwd, htree ▸ ht, .inl (htree ▸ hbefore)⟩
    have hend := hs.splitAll ha hc (fun _ he => he) (of_chosen hchosen).1 hrun
    obtain ⟨hasked, hreal, text, u, m, hcontents, hplan, hholds⟩ := hend.resolve_left hafter
    refine ⟨hasked, hreal, text, u, m, hcontents, hplan, hholds, ?_⟩
    intro hnodup file hfile
    exact hholds _ _ (node?_holding_of_mem hnodup hfile)

/-- A source that is to be removed is gone, and its files are there. -/
theorem oneSource_split :
    ∃ r s' u m, (splitCategories false { splitting "in" "a" with removeSource := true }).rehearse
        oneSource = (r, s') ∧
      oneSource.tree.node? ["in", "a.rs"] = some (.file (.text appletText)) ∧
      s'.tree.node? ["in", "a.rs"] = none ∧
      plan (.ofString "a" appletText) .default = .ok (.ok ⟨u, some m⟩) ∧
      ∀ rest n, (holding m.units).node? rest = some n →
        s'.tree.node? (["in", "a"] ++ rest) = some n := by
  have ht : oneSource.tree.Rooted := .of_entries (by decide +kernel)
  have hchosen : ((chosen { splitting "in" "a" with removeSource := true }).rehearse oneSource).1 =
      .ok (⟨"in"⟩, .default, ["a"]) := by decide +kernel
  have hgone : ((splitCategories false { splitting "in" "a" with removeSource := true }).rehearse
      oneSource).2.tree.node? ["in", "a.rs"] = none := by decide +kernel
  generalize hargs : { splitting "in" "a" with removeSource := true } = args at hchosen hgone ⊢
  have hlayout : args.layout oneSource.cwd ⟨"in"⟩ = ⟨[], ⟨"in"⟩, ⟨"in"⟩⟩ := by
    rw [← hargs]
    rfl
  have hsource : Layout.source ⟨[], ⟨"in"⟩, ⟨"in"⟩⟩ "a" = ["in", "a.rs"] := by decide +kernel
  have htarget : Layout.target ⟨[], ⟨"in"⟩, ⟨"in"⟩⟩ "a" = ["in", "a"] := by decide +kernel
  have hapart : Layout.Apart ⟨[], ⟨"in"⟩, ⟨"in"⟩⟩ ["a"] :=
    Layout.apart_of_isName (by decide) rfl rfl (by decide +kernel)
  rcases hrun : (splitCategories false args).rehearse oneSource with ⟨r, s'⟩
  rw [hrun] at hgone
  obtain ⟨-, hall⟩ := source_kept_or_split ht hrun
  have hend := hall _ _ _ hchosen
  rw [hlayout] at hend
  have hsplit := hend hapart "a" (by simp) (.text appletText) (by decide +kernel)
    (by rw [hsource, hgone]; nofun)
  obtain ⟨text, u, m, htext, hplan, hholds, -⟩ := hsplit.files
  cases htext
  rw [htarget] at hholds
  exact ⟨r, s', u, m, rfl, by decide +kernel, hgone, hplan, hholds⟩

/-- A directory whose name is that of the category in it. -/
def ownCategory : Session :=
  .start ⟨[(["src"], .dir), (["src", "src.rs"], .file (.text appletText))]⟩ []

/-- Where the directory of a category is the one that is read, its source can be lost without having
been asked for: the directory is replaced, with the source in it. -/
theorem not_forall_source_kept :
    ¬ ∀ (args : Arguments) (s : Session) (input : Path) (config : Config) (categories : List String)
      (c : String) (contents : Contents), s.tree.Rooted →
      ((chosen args).rehearse s).1 = .ok (input, config, categories) → c ∈ categories →
      s.tree.node? ((args.layout s.cwd input).source c) = some (.file contents) →
      ((splitCategories false args).rehearse s).2.tree.node? ((args.layout s.cwd input).source c) ≠
        some (.file contents) → args.removeSource = true := by
  intro h
  have hasked := h { splitting "src" "src" with output := some ⟨"."⟩, force := true } ownCategory
    ⟨"src"⟩ .default ["src"] "src" (.text appletText) (.of_entries (by decide +kernel))
    (by decide +kernel) (by simp) (by decide +kernel) (by decide +kernel)
  cases hasked

end Unbundle
