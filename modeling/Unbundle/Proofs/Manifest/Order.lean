import Unbundle.Proofs.SharedModule

/-! The files of a category do not depend on the order of its records: modules are sorted by their
names and shared items by their starts, no two of which are equal, and whether modules clash is a
matter of which there are. -/
namespace Unbundle

variable {config : Config} {source : Source} {s : Scan} {u v : Inventory}

/-- The same records in another order. What is left behind plays no part. -/
structure Inventory.Reorders (u v : Inventory) : Prop where
  applets : u.applets.Perm v.applets
  helpers : u.helpers.Perm v.helpers
  declarations : u.declarations.Perm v.declarations

namespace Inventory.Reorders

theorem symm (h : u.Reorders v) : v.Reorders u :=
  ⟨h.applets.symm, h.helpers.symm, h.declarations.symm⟩

theorem hasShared_eq (h : u.Reorders v) : u.hasShared = v.hasShared := by
  rw [hasShared, hasShared, h.declarations.isEmpty_eq, h.helpers.isEmpty_eq]

/-- No two shared items start at one byte, so their order is settled. -/
theorem sharedItems_eq (h : u.Reorders v) (hy : s.Yields u) (hs : s.Faithful) :
    u.sharedItems = v.sharedItems :=
  mergeSort_eq_of_perm _ (hy.nodup_starts hs) ((h.declarations.map _).append (h.helpers.map _))

/-- Applets that are assigned to modules are so in every order, and their files come in one
order. -/
theorem assignModules_eq {hasShared : Bool} {assigned : List Assignment} (h : u.Reorders v)
    (hassign : assignModules config hasShared [] u.applets = .ok assigned) :
    ∃ assigned', assignModules config hasShared [] v.applets = .ok assigned' ∧
      assigned.mergeSort Assignment.notAfter = assigned'.mergeSort Assignment.notAfter := by
  obtain ⟨rfl, hnodup, hshared⟩ := assignModules_eq_ok hassign .nil
  have hperm := h.applets.map (Assignment.ofApplet config)
  refine ⟨[] ++ v.applets.map (.ofApplet config), assignModules_of_nodup ?_ ?_, ?_⟩
  · exact (hperm.map Assignment.stem).nodup_iff.1 hnodup
  · intro f hf
    exact hshared f (h.applets.mem_iff.2 hf)
  · exact mergeSort_eq_of_perm Assignment.stem hnodup hperm

end Inventory.Reorders

/-- Of the records a layout takes what is shared, and of the assigned modules their sorted files. -/
theorem layOut_congr (config : Config) (source : Source) (s : Scan)
    {assigned assigned' : List Assignment} (hshared : u.hasShared = v.hasShared)
    (hitems : u.sharedItems = v.sharedItems)
    (hsorted : assigned.mergeSort Assignment.notAfter = assigned'.mergeSort Assignment.notAfter) :
    layOut config source s u assigned = layOut config source s v assigned' := by
  simp only [layOut, sharedUnit, hshared, hitems, hsorted]

/-- The records of an analysed text give the same files in every order, or modules that clash in
every order. -/
theorem generate_of_reorders (hu : analyze source = .ok (.ok u)) (h : u.Reorders v)
    (config : Config) :
    (∃ m, generate config source (Scan.ofText source.text) u = .ok (.ok m) ∧
        generate config source (Scan.ofText source.text) v = .ok (.ok m)) ∨
      ∃ e e', generate config source (Scan.ofText source.text) u = .ok (.error e) ∧
        generate config source (Scan.ofText source.text) v = .ok (.error e') := by
  have hs := Scan.faithful_ofText source.text
  have hy := yields_of_analyze hu
  have hshared := h.hasShared_eq
  unfold generate
  rw [← hshared]
  cases hassign : assignModules config u.hasShared [] u.applets with
  | ok assigned =>
    left
    obtain ⟨m, hm⟩ := hy.exists_layOut config
    obtain ⟨assigned', hassign', hsorted⟩ := h.assignModules_eq hassign
    obtain ⟨rfl, -⟩ := assignModules_eq_ok hassign .nil
    have hlaid :=
      layOut_congr config source (Scan.ofText source.text) hshared (h.sharedItems_eq hy hs) hsorted
    rw [hassign']
    simp only [← hlaid, List.nil_append, hm]
    exact ⟨m, rfl, rfl⟩
  | error e =>
    right
    cases hassign' : assignModules config u.hasShared [] v.applets with
    | ok assigned' =>
      obtain ⟨assigned, hok, -⟩ := h.symm.assignModules_eq hassign'
      rw [hassign] at hok
      cases hok
    | error e' => exact ⟨e, e', rfl, rfl⟩

def fiveItems : Source :=
  .ofString "text" ("pub fn b(argc: i32, argv: *const *const u8) -> i32 {}\n" ++
    "pub fn a(argc: i32, argv: *const *const u8) -> i32 {}\nfn g() {}\n" ++
    "static A: u8 = 1;\nfn f() {}\n")

def fiveRecords : Inventory where
  applets := [⟨"b", .applet, ⟨0, 53⟩, ⟨0, 0, none, .pub, some ⟨0, 3⟩⟩, ⟨51, 53⟩, true⟩,
    ⟨"a", .applet, ⟨54, 107⟩, ⟨54, 54, none, .pub, some ⟨54, 57⟩⟩, ⟨105, 107⟩, true⟩]
  helpers := [⟨"g", .helper, ⟨108, 117⟩, ⟨108, 108, none, .priv, none⟩, ⟨115, 117⟩, true⟩,
    ⟨"f", .helper, ⟨136, 145⟩, ⟨136, 136, none, .priv, none⟩, ⟨143, 145⟩, true⟩]
  declarations := [⟨.static, "A", ⟨118, 135⟩, ⟨118, 118, none, .priv, none⟩, true⟩]
  skipped := []

def turnedRecords : Inventory :=
  { fiveRecords with
    applets := fiveRecords.applets.reverse
    helpers := fiveRecords.helpers.reverse }

theorem survey_fiveItems : (Scan.ofText fiveItems.text).survey = .ok
    ⟨(fiveRecords.applets ++ fiveRecords.helpers).map .function,
      fiveRecords.declarations.map .declaration⟩ := by
  refine Scan.survey_eq_ok.2 ⟨by decide +kernel, ?_⟩
  rw [functionSpans_of_pairwise]
  · decide +kernel
  · decide

theorem analyze_fiveItems : analyze fiveItems = .ok (.ok fiveRecords) :=
  analyze_of_survey survey_fiveItems rfl

/-- They give the same files. -/
theorem fiveItems_turned :
    fiveRecords.Reorders turnedRecords ∧
      ∃ m, generate .default fiveItems (Scan.ofText fiveItems.text) fiveRecords = .ok (.ok m) ∧
        generate .default fiveItems (Scan.ofText fiveItems.text) turnedRecords = .ok (.ok m) := by
  have hr : fiveRecords.Reorders turnedRecords :=
    ⟨(List.reverse_perm _).symm, (List.reverse_perm _).symm, .refl _⟩
  refine ⟨hr, ?_⟩
  rcases generate_of_reorders analyze_fiveItems hr .default with h | ⟨e, e', he, -⟩
  · exact h
  · have hassign : assignModules .default fiveRecords.hasShared [] fiveRecords.applets =
        .ok (fiveRecords.applets.map (.ofApplet .default)) := rfl
    rw [generate, hassign] at he
    obtain ⟨m, -, hm⟩ := Checked.map_eq_ok.1 he
    cases hm

end Unbundle
