import Mathlib.Data.List.Nodup
import Unbundle.Plan
import Unbundle.Proofs.Partition

/-! The files of a manifest: which there are, and when two of them have one name. -/
namespace Unbundle

variable {config : Config} {source : Source} {s : Scan} {u : Inventory} {m : Manifest}

def Assignment.ofApplet (config : Config) (f : Function) : Assignment :=
  ⟨moduleName f.name config.rawSubstitute, f⟩

@[simp] theorem Assignment.stem_ofApplet (config : Config) (f : Function) :
    (ofApplet config f).stem = moduleName f.name config.rawSubstitute := rfl

@[simp] theorem Assignment.applet_ofApplet (config : Config) (f : Function) :
    (ofApplet config f).applet = f := rfl

/-- Assigned modules are those of the applets in order, all different, and none is the shared
one. -/
theorem assignModules_eq_ok {hasShared : Bool} {assigned all : List Assignment} {fs : List Function}
    (h : assignModules config hasShared assigned fs = .ok all)
    (hnodup : (assigned.map Assignment.stem).Nodup) :
    all = assigned ++ fs.map (.ofApplet config) ∧ (all.map Assignment.stem).Nodup ∧
      ∀ f ∈ fs, hasShared = true →
        moduleName f.name config.rawSubstitute ≠ config.sharedModule := by
  induction fs generalizing assigned with
  | nil =>
    cases h
    exact ⟨by simp, hnodup, by simp⟩
  | cons f fs ih =>
    rw [assignModules] at h
    split at h
    · cases h
    · rename_i hshared
      split at h
      · cases h
      · rename_i hnone
        have hfresh : moduleName f.name config.rawSubstitute ∉ assigned.map Assignment.stem := by
          intro hmem
          obtain ⟨a, ha, hstem⟩ := List.mem_map.1 hmem
          have := List.find?_eq_none.1 hnone a ha
          simp [hstem] at this
        have hnodup' :
            ((assigned ++ [Assignment.ofApplet config f]).map Assignment.stem).Nodup := by
          rw [List.map_append, List.nodup_append]
          refine ⟨hnodup, by simp, ?_⟩
          intro x hx y hy hxy
          rw [List.map_singleton, List.mem_singleton] at hy
          rw [hxy, hy] at hx
          exact hfresh hx
        obtain ⟨rfl, hall, hrest⟩ := ih h hnodup'
        refine ⟨by simp [Assignment.ofApplet], hall, ?_⟩
        intro g hg hs
        rcases List.mem_cons.1 hg with rfl | hg
        · intro heq
          exact hshared (by simp [hs, heq])
        · exact hrest g hg hs

/-- Functions that go to modules of their own, and none to the shared one, are all assigned. -/
theorem assignModules_of_nodup {hasShared : Bool} {assigned : List Assignment} {fs : List Function}
    (hnodup : ((assigned ++ fs.map (Assignment.ofApplet config)).map Assignment.stem).Nodup)
    (hshared : ∀ f ∈ fs, hasShared = true →
      moduleName f.name config.rawSubstitute ≠ config.sharedModule) :
    assignModules config hasShared assigned fs = .ok (assigned ++ fs.map (.ofApplet config)) := by
  induction fs generalizing assigned with
  | nil => simp [assignModules]
  | cons f fs ih =>
    have hf :
        ¬ (hasShared && moduleName f.name config.rawSubstitute == config.sharedModule) = true := by
      rw [Bool.and_eq_true, beq_iff_eq]
      rintro ⟨hhas, heq⟩
      exact hshared f List.mem_cons_self hhas heq
    have hfresh : assigned.find? (·.stem == moduleName f.name config.rawSubstitute) = none := by
      apply List.find?_eq_none.2
      intro a ha
      rw [List.map_append, List.nodup_append] at hnodup
      have hne := hnodup.2.2 _ (List.mem_map_of_mem ha) (moduleName f.name config.rawSubstitute)
        (by simp)
      simpa using hne
    have happend : assigned ++ (f :: fs).map (.ofApplet config) =
        assigned ++ [.ofApplet config f] ++ fs.map (.ofApplet config) := by simp
    rw [happend] at hnodup ⊢
    rw [← ih hnodup fun g hg => hshared g (List.mem_cons_of_mem f hg), assignModules, if_neg hf,
      hfresh]
    rfl

def sortedAssignments (config : Config) (u : Inventory) : List Assignment :=
  (u.applets.map (.ofApplet config)).mergeSort Assignment.notAfter

def sortedExports (assigned : List Assignment) : List Export :=
  (assigned.map fun a => (⟨a.applet.name, a.stem⟩ : Export)).mergeSort Export.notAfter

/-- How a manifest is laid out: the shared module if there is one, one file per applet, and the file
that joins them. -/
structure LaidOut (config : Config) (source : Source) (u : Inventory) (m : Manifest)
    (shared applets : List UnitFile) (exports : List Export) : Prop where
  stems : ((u.applets.map (.ofApplet config)).map Assignment.stem).Nodup
  notShared : ∀ f ∈ u.applets, u.hasShared = true →
    moduleName f.name config.rawSubstitute ≠ config.sharedModule
  sharedUnit : (if u.hasShared then (Unbundle.sharedUnit config source u).map ([·]) else pure []) =
    .ok shared
  appletUnits : (sortedAssignments config u).mapM
    (appletUnit config source (Scan.ofText source.text) u.hasShared) = .ok applets
  units : m.units =
    shared ++ applets ++ [aggregateUnit config source.category u.hasShared exports]
  hasShared : m.hasShared = u.hasShared
  category : m.category = source.category
  exported : exports = sortedExports (sortedAssignments config u)
  appletNames : m.appletNames = exports.map Export.name

theorem layOut_eq_ok {assigned : List Assignment} (h : layOut config source s u assigned = .ok m) :
    ∃ shared applets exports,
      (if u.hasShared then (sharedUnit config source u).map ([·]) else pure []) = .ok shared ∧
      (assigned.mergeSort Assignment.notAfter).mapM (appletUnit config source s u.hasShared) =
        .ok applets ∧
      m.units = shared ++ applets ++ [aggregateUnit config source.category u.hasShared exports] ∧
      m.hasShared = u.hasShared ∧ m.category = source.category ∧
      exports = sortedExports (assigned.mergeSort Assignment.notAfter) ∧
      m.appletNames = exports.map Export.name := by
  unfold layOut at h
  cases hhas : u.hasShared <;>
  · simp only [hhas] at h ⊢
    obtain ⟨shared, hshared, h⟩ := Checked.bind_eq_ok.1 h
    obtain ⟨applets, happ, h⟩ := Checked.bind_eq_ok.1 h
    cases h
    exact ⟨shared, applets, _, hshared, happ, rfl, rfl, rfl, rfl, rfl⟩

theorem exists_laidOut (h : plan source config = .ok (.ok ⟨u, some m⟩)) :
    analyze source = .ok (.ok u) ∧
      ∃ shared applets exports, LaidOut config source u m shared applets exports := by
  obtain ⟨v, hv, h⟩ := Checked.bind_eq_ok.1 h
  split at h
  · cases h
  · rename_i w hinv
    unfold Inventory.plan at h
    split at h
    · cases h
    · obtain ⟨r, hr, h⟩ := Checked.bind_eq_ok.1 h
      cases r with
      | error e => cases h
      | ok m' =>
        cases h
        refine ⟨by rw [analyze, hv, Checked.ok_bind, hinv]; rfl, ?_⟩
        unfold generate at hr
        split at hr
        · cases hr
        · rename_i assigned hassign
          obtain ⟨rfl, hstems, hns⟩ := assignModules_eq_ok hassign .nil
          obtain ⟨m', hr, heq⟩ := Checked.map_eq_ok.1 hr
          cases heq
          obtain ⟨shared, applets, exports, hshared, happ, hunits, hhas, hcategory, hexports,
              hnames⟩ :=
            layOut_eq_ok hr
          exact ⟨shared, applets, exports, hstems, hns, hshared, happ, hunits, hhas, hcategory,
            hexports, hnames⟩

theorem name_of_appletUnit {a : Assignment} {hasShared : Bool} {file : UnitFile}
    (h : appletUnit config source s hasShared a = .ok file) : file.name = moduleFile a.stem := by
  obtain ⟨text, -, h⟩ := Checked.bind_eq_ok.1 h
  cases h
  rfl

theorem name_of_sharedUnit {file : UnitFile} (h : sharedUnit config source u = .ok file) :
    file.name = moduleFile config.sharedModule := by
  obtain ⟨texts, -, h⟩ := Checked.bind_eq_ok.1 h
  cases h
  rfl

namespace LaidOut

variable {shared applets : List UnitFile} {exports : List Export}

/-- The modules of a category, with the shared one before and the one that joins them behind. -/
theorem fileNames_eq (h : LaidOut config source u m shared applets exports) :
    m.fileNames =
      ((if u.hasShared then [config.sharedModule] else []) ++
        (sortedAssignments config u).map Assignment.stem ++ ["mod"]).map moduleFile := by
  have hshared : shared.map UnitFile.name =
      (if u.hasShared then [config.sharedModule] else []).map moduleFile := by
    have hs := h.sharedUnit
    by_cases hhas : u.hasShared = true
    · rw [if_pos hhas] at hs ⊢
      obtain ⟨file, hfile, rfl⟩ := Checked.map_eq_ok.1 hs
      rw [List.map_singleton, List.map_singleton, name_of_sharedUnit hfile]
    · rw [if_neg hhas] at hs ⊢
      cases hs
      rfl
  have happ : applets.map UnitFile.name =
      ((sortedAssignments config u).map Assignment.stem).map moduleFile := by
    have hall := Checked.mapM_eq_ok.1 h.appletUnits
    rw [List.map_map, ← List.forall₂_eq_eq_eq, List.forall₂_map_left_iff,
      List.forall₂_map_right_iff]
    exact hall.flip.imp fun _ _ ha => name_of_appletUnit ha
  rw [Manifest.fileNames, h.units, List.map_append, List.map_append, hshared, happ,
    List.map_append, List.map_append]
  rfl

theorem nodup_stems (h : LaidOut config source u m shared applets exports) :
    ((sortedAssignments config u).map Assignment.stem).Nodup :=
  ((List.mergeSort_perm _ _).map _).nodup_iff.2 h.stems

theorem mem_stems {config : Config} {u : Inventory} {stem : String} :
    stem ∈ (sortedAssignments config u).map Assignment.stem ↔
      ∃ a ∈ u.applets, moduleName a.name config.rawSubstitute = stem := by
  simp [sortedAssignments]

end LaidOut

theorem moduleFile_injective : Function.Injective moduleFile := by
  intro a b h
  exact (String.append_left_inj ".rs").1 h

theorem sharedModule_ne_mod (h : config.check = .ok ()) : config.sharedModule ≠ "mod" := by
  intro heq
  simp [Config.check, heq] at h

/-- The lines at the head of an applet's file, without those that import the shared module. -/
def ownLines (config : Config) (source : Source) (f : Function) : List String :=
  config.headers.applet.map (expandLine source.category (some f.name))

def appletFile (config : Config) (source : Source) (hasShared : Bool) (f : Function) (text : Text) :
    UnitFile where
  name := moduleFile (moduleName f.name config.rawSubstitute)
  header := ownLines config source f ++
    (if hasShared then ["use super::" ++ config.sharedModule ++ "::*;"] else []) ++
    config.imports.linesFor (Scan.ofText source.text) f.span
  body := String.ofList (text ++ ['\n'])

theorem appletUnit_eq_ok {f : Function} {hasShared : Bool} {file : UnitFile} :
    appletUnit config source (Scan.ofText source.text) hasShared (.ofApplet config f) = .ok file ↔
      ∃ text, f.text source.text = .ok text ∧
        file = appletFile config source hasShared f text := by
  unfold appletUnit
  rw [Checked.bind_eq_ok]
  constructor
  · rintro ⟨text, htext, h⟩
    cases h
    exact ⟨text, htext, rfl⟩
  · rintro ⟨text, htext, rfl⟩
    exact ⟨text, htext, rfl⟩

/-- The manifest of one applet and nothing else. -/
theorem generate_single {f : Function} {text : Text} (htext : f.text source.text = .ok text) :
    generate config source (Scan.ofText source.text) ⟨[f], [], [], []⟩ = .ok (.ok
      { category := source.category
        units := [appletFile config source false f text,
          aggregateUnit config source.category false
            [⟨f.name, moduleName f.name config.rawSubstitute⟩]]
        hasShared := false
        appletNames := [f.name] }) := by
  have hassign : assignModules config false [] [f] = .ok [.ofApplet config f] := by
    simp [assignModules, Assignment.ofApplet]
  have hfile : appletUnit config source (Scan.ofText source.text) false (.ofApplet config f) =
      .ok (appletFile config source false f text) := appletUnit_eq_ok.2 ⟨text, htext, rfl⟩
  rw [generate, show Inventory.hasShared ⟨[f], [], [], []⟩ = false from rfl, hassign]
  simp [layOut, Inventory.hasShared, hfile, Except.map]

/-- The plan for a source that holds one applet and nothing else. -/
theorem plan_single (config : Config) (source : Source) {v : Survey} {f : Function} {text : Text}
    (hv : (Scan.ofText source.text).survey = .ok v) (happ : v.applets = [f])
    (hhelp : v.helpers = [])
    (hfound : v.findings = []) (htext : f.text source.text = .ok text) :
    ∃ m second, plan source config = .ok (.ok ⟨⟨[f], [], [], []⟩, some m⟩) ∧
      m.units = [appletFile config source false f text, second] ∧ second.name = aggregateFile := by
  have hinv : v.inventory source.text = .ok ⟨[f], [], [], []⟩ := by
    simp [Survey.inventory, happ, hhelp, hfound, checkNames, firstDuplicate?]
  refine ⟨⟨source.category, [appletFile config source false f text,
    aggregateUnit config source.category false [⟨f.name, moduleName f.name config.rawSubstitute⟩]],
    false, [f.name]⟩, _, ?_, rfl, rfl⟩
  rw [plan, hv, Checked.ok_bind, hinv]
  simp [Inventory.plan, generate_single htext, Except.map]

/-- Under a valid configuration the file names of a category are distinct exactly when no applet
goes to the module `mod`, whose file joins the others. -/
theorem nodup_fileNames_iff (hc : config.check = .ok ())
    (h : plan source config = .ok (.ok ⟨u, some m⟩)) :
    m.fileNames.Nodup ↔ ∀ a ∈ u.applets, moduleName a.name config.rawSubstitute ≠ "mod" := by
  obtain ⟨-, shared, applets, exports, hl⟩ := exists_laidOut h
  have hmod : "mod" ∉ (sortedAssignments config u).map Assignment.stem ↔
      ∀ a ∈ u.applets, moduleName a.name config.rawSubstitute ≠ "mod" := by
    rw [LaidOut.mem_stems]
    simp
  rw [hl.fileNames_eq, List.nodup_map_iff moduleFile_injective, ← hmod]
  rw [List.nodup_append_comm, List.singleton_append, List.nodup_cons]
  have hstems := hl.nodup_stems
  by_cases hhas : u.hasShared = true
  · have hout : config.sharedModule ∉ (sortedAssignments config u).map Assignment.stem := by
      rw [LaidOut.mem_stems]
      rintro ⟨a, ha, heq⟩
      exact hl.notShared a ha hhas heq
    rw [if_pos hhas, List.singleton_append, List.mem_cons, List.nodup_cons, not_or]
    have hne := (sharedModule_ne_mod hc).symm
    exact ⟨fun h => h.1.2, fun h => ⟨⟨hne, h⟩, hout, hstems⟩⟩
  · rw [if_neg hhas, List.nil_append]
    exact ⟨fun h => h.1, fun h => ⟨h, hstems⟩⟩

def rawApplet : Source :=
  .ofString "text" "pub fn r#od(argc: i32, argv: *const *const u8) -> i32 {}\n"

theorem plan_rawApplet (config : Config) :
    ∃ f m second, plan rawApplet config = .ok (.ok ⟨⟨[f], [], [], []⟩, some m⟩) ∧
      f.name = "r#od" ∧ f.closed = true ∧ m.fileNames =
        [moduleFile (moduleName "r#od" config.rawSubstitute), UnitFile.name second] ∧
      second.name = aggregateFile := by
  have hv : (Scan.ofText rawApplet.text).survey = .ok
      ⟨[.function ⟨"r#od", .applet, ⟨0, 56⟩, ⟨0, 0, none, .pub, some ⟨0, 3⟩⟩, ⟨54, 56⟩, true⟩],
        []⟩ := by
    refine Scan.survey_eq_ok.2 ⟨by decide +kernel, ?_⟩
    rw [functionSpans_of_pairwise]
    · decide +kernel
    · decide
  have htext : slice rawApplet.text 0 56 =
      .ok "pub fn r#od(argc: i32, argv: *const *const u8) -> i32 {}".toList := by
    decide +kernel
  obtain ⟨m, second, hplan, hunits, hsecond⟩ := plan_single config rawApplet hv rfl rfl rfl htext
  refine ⟨_, m, second, hplan, rfl, rfl, ?_, hsecond⟩
  rw [Manifest.fileNames, hunits]
  rfl

theorem rawApplet_nodup :
    ∃ u m, plan rawApplet .default = .ok (.ok ⟨u, some m⟩) ∧ m.fileNames.Nodup := by
  obtain ⟨f, m, second, hplan, hname, -⟩ := plan_rawApplet .default
  refine ⟨_, m, hplan, (nodup_fileNames_iff rfl hplan).2 ?_⟩
  intro a ha
  rw [List.mem_singleton.1 ha, hname]
  decide

/-- A substitute for `r#` can lead a raw name to the file that joins the others. -/
theorem not_forall_nodup_fileNames :
    ¬ ∀ source config u m, config.check = .ok () →
      plan source config = .ok (.ok ⟨u, some m⟩) → m.fileNames.Nodup := by
  intro h
  obtain ⟨f, m, second, hplan, -, -, hnames, hsecond⟩ :=
    plan_rawApplet { Config.default with rawSubstitute := "m" }
  have hnodup := h rawApplet _ _ m (by decide +kernel) hplan
  rw [hnames, hsecond] at hnodup
  revert hnodup
  decide

end Unbundle
