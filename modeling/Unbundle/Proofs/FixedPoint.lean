import Unbundle.Proofs.Imports
import Unbundle.Proofs.Item.Window
import Unbundle.Proofs.Manifest.Order

/-! Splitting again: the file of an applet holds that applet and nothing else, so that splitting its
body gives back the same file. -/
namespace Unbundle

variable {s s' : Scan} {f g : Function} {a k : Nat}

theorem usedNames_shift (n : Nat) (ts : List Token) :
    usedNames (ts.map (Token.shift n)) = usedNames ts := by
  apply usedNames_eq_of_faces
  rw [List.map_map]
  rfl

namespace Scan

theorem Holds.usage_eq {span : Span} {b : Nat} (h : s.Holds span a b) (hs : s.Faithful) :
    s.usage span = usedNames ((s.tokens.toList.drop a).take (b - a)) := by
  rw [usage, h.starts.firstFrom_eq hs, h.stops.firstFrom_eq hs, Array.toList_extract,
    List.extract_eq_take_drop]

/-- The same identifiers are used in the window as in the span it was cut from. -/
theorem Window.usage_eq {pre piece post rest : Text} {span span' : Span} {b : Nat}
    (w : s.Window s' a pre piece post rest) (h : s.Holds span a b) (h' : s'.Holds span' 0 s'.size)
    (hsize : a + s'.size = b) : s'.usage span' = s.usage span := by
  have hall : s'.tokens.toList.take s'.size = s'.tokens.toList :=
    List.take_of_length_le (Nat.le_of_eq Array.length_toList)
  rw [h.usage_eq w.faithful, h'.usage_eq w.faithful', List.drop_zero, Nat.sub_zero, hall,
    ← usedNames_shift (byteLength pre), w.tokens_eq, show b - a = s'.size by omega]

namespace Fills

theorem contains_start (h : s.Fills k f) (hs : s.Faithful) {o : Nat} (hg : s.IsFunction o g) :
    f.span.contains g.span.start = true := by
  obtain ⟨-, first, opened, hat⟩ := h
  obtain ⟨lead', first', opened', stop', hat'⟩ := hg.exists_functionAt hs
  obtain ⟨t, ht, hstart⟩ := hat'.holds.starts
  rw [← hstart, hat.holds.contains_iff hs ht]
  exact ⟨Nat.zero_le _, lt_size ht⟩

/-- There is room for no other applet. -/
theorem eq_of_isApplet (h : s.Fills k f) (hs : s.Faithful) (hf : f.isApplet = true) {o : Nat}
    (hg : s.IsFunction o g) (happ : g.isApplet = true) : g = f := by
  obtain ⟨hk, first, opened, hat⟩ := h
  obtain ⟨lead', first', opened', stop', hat'⟩ := hg.exists_functionAt hs
  have hlt := hat'.holds.lt
  have hlead := hat'.holds.stops.le_size
  rcases Nat.lt_trichotomy o k with hok | rfl | hko
  · have := hat'.stop_le_of_isApplet hat hs hok happ hf
    omega
  · exact hg.unique hk
  · have := hat.stop_le_of_isApplet hat' hs hko hf happ
    omega

theorem applets_eq (h : s.Fills k f) (hs : s.Faithful) (hf : f.isApplet = true) {v : Survey}
    (hv : s.functionSites = .ok v.sites) : v.applets = [f] := by
  have happ : v.applets = v.allFunctions.filter Function.isApplet := filter_isApplet_keptOf _ [] _
  have hfs : s.Functions v.applets :=
    happ ▸ (hs.functions hv).sublist List.filter_sublist
  have hmem : f ∈ v.applets := by
    rw [happ]
    exact List.mem_filter.2 ⟨(hs.mem_functions_iff hv).2 ⟨k, h.1⟩, hf⟩
  have hall : ∀ g ∈ v.applets, g = f := by
    intro g hg
    obtain ⟨o, ho⟩ := hfs.each g hg
    exact h.eq_of_isApplet hs hf ho (List.mem_filter.1 hg).2
  have horder := hfs.start_lt_start hs
  generalize v.applets = fs at hmem hall horder
  match fs, hmem, horder with
  | [g], _, _ => rw [hall g List.mem_cons_self]
  | g :: g' :: fs, _, horder =>
    have hlt := (List.pairwise_cons.1 horder).1 g' List.mem_cons_self
    rw [hall g List.mem_cons_self, hall g' (List.mem_cons_of_mem g List.mem_cons_self)] at hlt
    omega

theorem helpers_eq (h : s.Fills k f) (hs : s.Faithful) (hf : f.isApplet = true) {v : Survey}
    (hv : s.functionSites = .ok v.sites) : v.helpers = [] := by
  rw [List.eq_nil_iff_forall_not_mem]
  intro g hg
  obtain ⟨hg, hhelper⟩ := List.mem_filter.1 hg
  have hmem : f ∈ v.allFunctions.filter Function.isApplet :=
    List.mem_filter.2 ⟨(hs.mem_functions_iff hv).2 ⟨k, h.1⟩, hf⟩
  have hout : f.span.contains g.span.start = false := by
    refine not_contains_of_mem_keptOf hg (by simpa using hhelper) ?_
    rw [List.append_nil]
    exact List.mem_map_of_mem hmem
  obtain ⟨o, ho⟩ := (hs.mem_functions_iff hv).1 ((sublist_keptOf _ [] _).subset hg)
  rw [h.contains_start hs ho] at hout
  cases hout

/-- The walk around the function is over at once. -/
theorem findings_eq (h : s.Fills k f) (hs : s.Faithful) : s.findings [f.span] = .ok [] := by
  obtain ⟨-, first, opened, hat⟩ := h
  have hpos : 0 < s.tokens.size := hat.holds.lt
  have ht : s.token? 0 = some s.tokens[0] := Array.getElem?_eq_getElem hpos
  have hfind : [f.span].find? (·.contains s.tokens[0].start) = some f.span :=
    List.find?_cons_of_pos ((hat.holds.contains_iff hs ht).2 ⟨Nat.le_refl 0, hpos⟩)
  have hend : s.findingsFrom [f.span] (max (s.firstFrom f.span.stop) 1) = .ok [] := by
    rw [hat.holds.stops.firstFrom_eq hs, findingsFrom, dif_neg]
    exact Nat.not_lt_of_le (Nat.le_max_left _ _)
  rw [findings, findingsFrom, dif_pos hpos, hfind]
  exact hend

/-- All that is found where an applet takes up the whole text. -/
theorem exists_survey (h : s.Fills k f) (hs : s.Faithful) (hf : f.isApplet = true) :
    ∃ v, s.survey = .ok v ∧ v.applets = [f] ∧ v.helpers = [] ∧ v.findings = [] := by
  have hsites := hs.functionSites_eq
  refine ⟨⟨(List.range s.size).filterMap s.siteAt?, []⟩, survey_eq_ok.2 ⟨hsites, ?_⟩,
    h.applets_eq hs hf hsites, h.helpers_eq hs hf hsites, rfl⟩
  rw [h.applets_eq hs hf hsites, h.helpers_eq hs hf hsites, functionSpans_of_pairwise (by simp)]
  exact h.findings_eq hs

end Fills
end Scan

variable {config : Config} {source : Source} {u : Inventory} {m : Manifest} {a : Function}

/-- The file of every applet is among those of its category. -/
theorem appletFile_mem_units (h : plan source config = .ok (.ok ⟨u, some m⟩)) (ha : a ∈ u.applets) :
    ∃ text, a.text source.text = .ok text ∧
      appletFile config source m.hasShared a text ∈ m.units := by
  obtain ⟨-, shared, applets, exports, hl⟩ := exists_laidOut h
  have hsorted : Assignment.ofApplet config a ∈ sortedAssignments config u :=
    List.mem_mergeSort.2 (List.mem_map_of_mem ha)
  obtain ⟨file, hfile, hunit⟩ := Checked.exists_of_mem_mapM hl.appletUnits hsorted
  obtain ⟨text, htext, rfl⟩ := appletUnit_eq_ok.1 hunit
  refine ⟨text, htext, ?_⟩
  rw [hl.hasShared, hl.units]
  exact List.mem_append_left _ (List.mem_append_right _ hfile)

/-- The file that is written for an applet: its text, under the lines that the module of an applet
begins with, the line that imports the shared module where there is one, and the lines for what it
uses. -/
structure IsAppletFile (config : Config) (source : Source) (m : Manifest) (a : Function)
    (text : Text) (file : UnitFile) : Prop where
  text_eq : a.text source.text = .ok text
  mem : file ∈ m.units
  name : file.name = moduleFile (moduleName a.name config.rawSubstitute)
  header : file.header = ownLines config source a ++
    (if m.hasShared then ["use super::" ++ config.sharedModule ++ "::*;"] else []) ++
    config.imports.linesFor (Scan.ofText source.text) a.span
  body : file.body = String.ofList (text ++ ['\n'])

/-- Splitting the body of the file of an applet finds that applet and nothing else. It gives back
the file, but for the line that imports the shared module, and one that joins it to the category. -/
structure SplitsAgain (config : Config) (source : Source) (a : Function) (text : Text)
    (file : UnitFile) (again : Function) (m : Manifest) (joint : UnitFile) : Prop where
  plan_eq : plan (.ofString source.category file.body) config =
    .ok (.ok ⟨⟨[again], [], [], []⟩, some m⟩)
  name : again.name = a.name
  span : again.span = ⟨0, byteLength text⟩
  units : m.units =
    [{ file with header := ownLines config source a ++
        config.imports.linesFor (Scan.ofText source.text) a.span }, joint]
  jointName : joint.name = aggregateFile

/-- The body of the file of a closed applet is split into that applet alone. -/
theorem plan_appletFile (h : plan source config = .ok (.ok ⟨u, some m⟩)) (ha : a ∈ u.applets)
    (hclosed : a.closed = true) :
    ∃ text file, IsAppletFile config source m a text file ∧
      ∃ a' m' joint, SplitsAgain config source a text file a' m' joint := by
  obtain ⟨text, htext, hmem⟩ := appletFile_mem_units h ha
  refine ⟨text, _, ⟨htext, hmem, rfl, rfl, rfl⟩, ?_⟩
  have hs := Scan.faithful_ofText source.text
  have hy := yields_of_analyze (exists_laidOut h).1
  obtain ⟨k, hk⟩ := hy.applets.each a ha
  obtain ⟨lead, first, opened, stop, hat⟩ := hk.exists_functionAt hs
  obtain ⟨pre, post, c, w, hc, hsize, hstart, hstop⟩ := hat.exists_window hs hclosed htext
  obtain ⟨k', a', hfills, hname, happ, hspan⟩ := w.exists_fills hat hc hsize hstart hstop
  rw [hy.isApplet a ha] at happ
  obtain ⟨v, hv, happlets, hhelpers, hfindings⟩ := hfills.exists_survey w.faithful' happ
  have hbody : Source.ofString source.category (String.ofList (text ++ ['\n'])) =
      ⟨source.category, text ++ ['\n']⟩ := by
    rw [Source.ofString, String.toList_ofList]
  have htext' : a'.text (text ++ ['\n']) = .ok text := by
    have hslice := slice_append [] text ['\n']
    rw [byteLength_nil, Nat.zero_add] at hslice
    rw [Function.text, hspan]
    exact hslice
  obtain ⟨m', joint, hplan, hunits, hjoint⟩ :=
    plan_single config ⟨source.category, text ++ ['\n']⟩ hv happlets hhelpers hfindings htext'
  refine ⟨a', m', joint, ⟨hbody ▸ hplan, hname, hspan, ?_, hjoint⟩⟩
  obtain ⟨-, first', opened', hat'⟩ := hfills
  have husage := w.usage_eq hat.holds hat'.holds hsize
  rw [hunits, appletFile, ownLines, hname, ImportSettings.linesFor, husage,
    if_neg Bool.false_ne_true, List.append_nil]
  rfl

theorem plan_fiveItems :
    ∃ m, plan fiveItems .default = .ok (.ok ⟨fiveRecords, some m⟩) ∧ m.hasShared = true :=
  exists_manifest survey_fiveItems (Survey.inventory_eq_ok.2 ⟨rfl, rfl⟩) .default rfl rfl

/-- The second of two applets, with helpers behind it that its file imports. -/
theorem fiveItems_splitAgain :
    ∃ m, plan fiveItems .default = .ok (.ok ⟨fiveRecords, some m⟩) ∧ m.hasShared = true ∧
      ∃ a ∈ fiveRecords.applets, a.span = ⟨54, 107⟩ ∧ a.closed = true ∧
        ∃ text file, IsAppletFile .default fiveItems m a text file ∧
          ∃ a' m' joint, SplitsAgain .default fiveItems a text file a' m' joint := by
  obtain ⟨m, hplan, hshared⟩ := plan_fiveItems
  have hne : fiveRecords.applets ≠ [] := by decide
  have hmem := List.getLast_mem hne
  exact ⟨m, hplan, hshared, _, hmem, rfl, rfl, plan_appletFile hplan hmem rfl⟩

end Unbundle
