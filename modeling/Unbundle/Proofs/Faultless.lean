import Unbundle.Proofs.Coverage
import Unbundle.Proofs.Item.Promotion
import Unbundle.Proofs.Manifest
import Unbundle.Proofs.Survey
import Unbundle.Proofs.Token.Nesting
import Unbundle.Proofs.Token.Tiling
import Unbundle.Report

/-! Planning refuses nothing. Whatever the text and the configuration, every slice lies between two
boundaries of the text, every index is that of a token, and no span is reversed. -/
namespace Unbundle
namespace Scan

variable {s : Scan} {i j : Nat} {t : Token} {d : Delimiter}

theorem Faithful.exists_depth (hs : s.Faithful) (hi : i < s.size) : ∃ d, s.depth i = .ok d := by
  have hd : s.depths = (Pairing.ofKinds [] 0 s.kinds).depths.toArray := by
    rw [hs]
    rfl
  have hlen : s.depths.size = s.size := by
    rw [hd, List.size_toArray, Pairing.length_depths_ofKinds]
    simp [kinds, size]
  refine ⟨s.depths[i], ?_⟩
  simp only [depth, Array.getElem?_eq_getElem (show i < s.depths.size by omega)]

theorem lt_size_of_nextCode? (h : s.nextCode? i = some j) : j < s.size := by
  obtain ⟨t, ht⟩ := codeFrom?_eq_some.1 h
  exact lt_size ht.token

theorem prevCode?_bounds (h : s.prevCode? i = some j) : j < i ∧ j < s.size := by
  induction i with
  | zero => cases h
  | succ i ih =>
    unfold prevCode? at h
    split at h
    · rename_i t ht
      split at h
      · have hbounds := ih h
        omega
      · cases h
        exact ⟨Nat.lt_succ_self j, lt_size ht⟩
    · cases h

theorem Faithful.firstFrom_mono (hs : s.Faithful) {m n : Nat} (hmn : m ≤ n) :
    s.firstFrom m ≤ s.firstFrom n := by
  apply Nat.le_of_not_lt
  intro hlt
  obtain ⟨t, ht⟩ := exists_token? (Nat.lt_of_lt_of_le hlt (s.firstFrom_le_size m))
  have hm := (hs.lt_firstFrom_iff ht m).1 hlt
  have hn := (hs.lt_firstFrom_iff ht n).2 (by omega)
  omega

/-- Every index that is told of a scan, or computed from one that is, is that of a token, and every
token lies in the text. -/
structure InRange (s : Scan) : Prop where
  token : ∀ i t, s.token? i = some t → s.slice t.start t.stop = .ok t.chars
  depth : ∀ i, i < s.size → ∃ d, s.depth i = .ok d
  partner : ∀ i j, s.partner? i = some j → i < s.size ∧ j < s.size
  opener : ∀ i j d, s.kind? i = some (.opener d) → s.partner? i = some j → i < j
  next : ∀ i j, s.nextCode? i = some j → i < j ∧ j < s.size
  prev : ∀ i j, s.prevCode? i = some j → j < i ∧ j < s.size
  terminator : ∀ blockEnds i e, s.terminator? blockEnds i = some e → i ≤ e.index ∧ e.index < s.size
  first : ∀ m n, m ≤ n → s.firstFrom m ≤ s.firstFrom n ∧ s.firstFrom n ≤ s.size

theorem Faithful.inRange (hs : s.Faithful) : s.InRange where
  token _ _ ht := slice_of_mem_tokenize (hs.mem_tokenize ht)
  depth _ hi := hs.exists_depth hi
  partner _ _ h := hs.partner?_bounds h
  opener _ _ _ hk hp := (hs.closes_of_opener hk hp).lt
  next _ _ h := ⟨lt_of_nextCode? h, lt_size_of_nextCode? h⟩
  prev _ _ h := prevCode?_bounds h
  terminator _ _ _ h := terminator?_bounds h
  first _ n hmn := ⟨hs.firstFrom_mono hmn, s.firstFrom_le_size n⟩

end Scan

section Plan

variable {config : Config} {source : Source} {u : Inventory}

theorem Scan.Functions.exists_text {s : Scan} {fs : List Function} {f : Function}
    (h : s.Functions fs) (hs : s.Faithful) (hf : f ∈ fs) : ∃ text, f.text s.text = .ok text := by
  obtain ⟨k, hk⟩ := h.each f hf
  obtain ⟨lead, first, opened, stop, hat⟩ := hk.exists_functionAt hs
  exact hat.holds.exists_slice hs

/-- Every item of the shared module lies in the text. -/
theorem Scan.Yields.exists_placed {s : Scan} {item : SharedItem} (h : s.Yields u) (hs : s.Faithful)
    (hitem : item ∈ u.sharedItems) :
    ∃ blockEnds k lead first stop, s.PlacedAt blockEnds k item.1 item.2 lead first stop := by
  rcases List.mem_append.1 (List.mem_mergeSort.1 hitem) with hd | hf
  · obtain ⟨d, hmem, rfl⟩ := List.mem_map.1 hd
    obtain ⟨k, -, hk⟩ := h.declarations.each d hmem
    obtain ⟨lead, first, stop, hat⟩ := hk.exists_placed hs
    exact ⟨d.kind.endsWithBlock, k, lead, first, stop, hat⟩
  · obtain ⟨f, hmem, rfl⟩ := List.mem_map.1 hf
    obtain ⟨k, hk⟩ := h.helpers.each f hmem
    obtain ⟨lead, first, stop, hat⟩ := hk.exists_placed hs
    exact ⟨true, k, lead, first, stop, hat⟩

theorem Scan.Yields.exists_sharedUnit (h : (Scan.ofText source.text).Yields u) (config : Config) :
    ∃ file, sharedUnit config source u = .ok file := by
  have hs := Scan.faithful_ofText source.text
  have hall : ∀ item ∈ u.sharedItems, ∃ text, promote source.text item.1 item.2 = .ok text := by
    intro item hitem
    obtain ⟨blockEnds, k, lead, first, stop, hat⟩ := h.exists_placed hs hitem
    exact hat.exists_promote hs
  obtain ⟨texts, htexts⟩ := Checked.exists_mapM hall
  exact ⟨_, Checked.bind_eq_ok.2 ⟨texts, htexts, rfl⟩⟩

theorem Scan.Yields.exists_layOut (h : (Scan.ofText source.text).Yields u) (config : Config) :
    ∃ m, layOut config source (Scan.ofText source.text) u (u.applets.map (.ofApplet config)) =
      .ok m := by
  have hs := Scan.faithful_ofText source.text
  obtain ⟨file, hfile⟩ := h.exists_sharedUnit config
  have hall : ∀ a ∈ sortedAssignments config u,
      ∃ file, appletUnit config source (Scan.ofText source.text) u.hasShared a = .ok file := by
    intro a ha
    obtain ⟨f, hf, rfl⟩ := List.mem_map.1 (List.mem_mergeSort.1 ha)
    obtain ⟨text, htext⟩ := h.applets.exists_text hs hf
    exact ⟨_, appletUnit_eq_ok.2 ⟨text, htext, rfl⟩⟩
  obtain ⟨files, hfiles⟩ := Checked.exists_mapM hall
  unfold layOut
  unfold sortedAssignments at hfiles
  cases hhas : u.hasShared with
  | false =>
    rw [hhas] at hfiles
    exact ⟨_, Checked.bind_eq_ok.2 ⟨[], rfl, Checked.bind_eq_ok.2 ⟨files, hfiles, rfl⟩⟩⟩
  | true =>
    rw [hhas] at hfiles
    refine ⟨_, Checked.bind_eq_ok.2 ⟨[file], ?_, Checked.bind_eq_ok.2 ⟨files, hfiles, rfl⟩⟩⟩
    exact Checked.map_eq_ok.2 ⟨file, hfile, rfl⟩

/-- What the plan for a partition comes to: nothing to do, modules that clash, or a manifest. -/
theorem plan_of_survey {v : Survey} (hv : (Scan.ofText source.text).survey = .ok v)
    (hu : v.inventory source.text = .ok u) (config : Config) :
    ∃ m, plan source config = .ok
      (if u.applets.isEmpty then .ok ⟨u, none⟩
      else (assignModules config u.hasShared [] u.applets).map fun _ => ⟨u, some m⟩) := by
  obtain ⟨m, hm⟩ := ((Scan.faithful_ofText source.text).yields hv hu).exists_layOut config
  refine ⟨m, ?_⟩
  rw [plan, hv, Checked.ok_bind, hu]
  simp only [Inventory.plan, generate]
  split
  · rfl
  · cases hassign : assignModules config u.hasShared [] u.applets with
    | error e => rfl
    | ok assigned =>
      obtain ⟨rfl, -⟩ := assignModules_eq_ok hassign .nil
      simp only [List.nil_append, hm]
      rfl

/-- Every text can be planned. -/
theorem exists_plan (source : Source) (config : Config) : ∃ r, plan source config = .ok r := by
  obtain ⟨v, hv, -⟩ := exists_analyze source
  cases hu : v.inventory source.text with
  | error e =>
    refine ⟨.error e, ?_⟩
    rw [plan, hv, Checked.ok_bind, hu]
    rfl
  | ok u =>
    obtain ⟨m, hplan⟩ := plan_of_survey hv hu config
    exact ⟨_, hplan⟩

theorem exists_planNotices (source : Source) (config : Config) :
    ∃ notices, planNotices source config = .ok notices := by
  obtain ⟨v, hv, -⟩ := exists_analyze source
  obtain ⟨r, hr⟩ := exists_plan source config
  simp only [planNotices, analysisNotices, hv, hr, Checked.ok_bind, Checked.pure_eq]
  split <;> exact ⟨_, rfl⟩

end Plan

def FileReport.lines (r : FileReport) : List Nat :=
  r.applets.map AppletEntry.line ++ r.helpers.map ItemEntry.line ++
    r.declarations.map ItemEntry.line ++ r.skipped.map SkippedItem.line ++
    r.unclosed.map ItemEntry.line

/-- No offset has a line behind that of the end of the text. -/
theorem lineOf_bounds (text : Text) (offset : Nat) :
    1 ≤ lineOf text offset ∧ lineOf text offset ≤ lineOf text (byteLength text) := by
  induction text generalizing offset with
  | nil => exact ⟨Nat.le_refl 1, Nat.le_refl 1⟩
  | cons c cs ih =>
    have hpos := c.utf8Size_pos
    obtain ⟨n, hn⟩ : ∃ n, byteLength (c :: cs) = n + 1 :=
      ⟨byteLength (c :: cs) - 1, by rw [byteLength_cons]; omega⟩
    have hsub : n + 1 - c.utf8Size = byteLength cs := by
      rw [← hn, byteLength_cons]
      omega
    rw [hn]
    cases offset with
    | zero =>
      have hle := (ih (byteLength cs)).1
      simp only [lineOf, hsub]
      omega
    | succ m =>
      obtain ⟨hone, hle⟩ := ih (m + 1 - c.utf8Size)
      simp only [lineOf, hsub]
      omega

namespace Scan

theorem skippedItem?_line {s : Scan} {i resume : Nat} {t : Token} {item : SkippedItem}
    (h : s.skippedItem? i t = some (item, resume)) : item.line = s.line t.start := by
  unfold skippedItem? at h
  obtain ⟨next, -, h⟩ := Option.bind_eq_some_iff.1 h
  obtain ⟨⟨kind, name, block⟩, -, h⟩ := Option.bind_eq_some_iff.1 h
  obtain ⟨u, -, h⟩ := Option.bind_eq_some_iff.1 h
  split at h
  · cases h
    rfl
  · cases h

/-- An item that is left behind is named with the line of one of its bytes. -/
theorem exists_line_of_skipped {s : Scan} {functions : List Span} {i : Nat} {found : List Finding}
    (h : s.findingsFrom functions i = .ok found) :
    ∀ item ∈ found.filterMap Finding.skipped?, ∃ offset, item.line = s.line offset := by
  fun_induction findingsFrom s functions i generalizing found with
  | case1 i hi span hspan ih => exact ih h
  | case2 i hi hnone ihNext ihResume =>
    obtain ⟨r, hr, h⟩ := Checked.bind_eq_ok.1 h
    split at h
    · exact ihNext h
    · rename_i f resume
      obtain ⟨rest, hrest, h⟩ := Checked.bind_eq_ok.1 h
      cases h
      have ih := ihResume resume hrest
      cases f with
      | declaration d => exact ih
      | skipped item =>
        intro other hother
        rcases List.mem_cons.1 hother with rfl | hother
        · exact ⟨_, skippedItem?_line (finding?_skipped hr)⟩
        · exact ih other hother
  | case3 i hi =>
    cases h
    simp

end Scan

/-- A report names lines of the text only. -/
theorem lines_ofInventory {source : Source} {u : Inventory} (h : analyze source = .ok (.ok u))
    (path : String) (config : Config) :
    ∀ line ∈ (FileReport.ofInventory path source u config).lines,
      1 ≤ line ∧ line ≤ lineOf source.text (byteLength source.text) := by
  obtain ⟨v, hv, hu⟩ := Checked.bind_eq_ok.1 h
  obtain ⟨-, rfl⟩ := Survey.inventory_eq_ok.1 (Except.ok.inj hu)
  have hskipped := Scan.exists_line_of_skipped (Scan.survey_eq_ok.1 hv).2
  intro line hline
  simp only [FileReport.lines, FileReport.ofInventory, Source.lineOf, List.map_map, List.mem_append,
    List.mem_map, Function.comp] at hline
  have hoffset : ∃ offset, line = lineOf source.text offset := by
    rcases hline with (((⟨f, -, rfl⟩ | ⟨f, -, rfl⟩) | ⟨d, -, rfl⟩) | ⟨item, hitem, rfl⟩) |
        ⟨e, -, rfl⟩
    · exact ⟨_, rfl⟩
    · exact ⟨_, rfl⟩
    · exact ⟨_, rfl⟩
    · exact hskipped item hitem
    · exact ⟨_, rfl⟩
  obtain ⟨offset, rfl⟩ := hoffset
  exact lineOf_bounds source.text offset

/-- A text that is analysed, planned and reported on without a request that lies outside what it is
made of, and whose comments can be counted. -/
structure Faultless (source : Source) (config : Config) : Prop where
  planned : ∃ r, plan source config = .ok r
  noticed : ∃ notices, planNotices source config = .ok notices
  analyzed : ∃ r, analyze source = .ok r
  reportLines : ∀ u path, analyze source = .ok (.ok u) →
    ∀ line ∈ (FileReport.ofInventory path source u config).lines,
      1 ≤ line ∧ line ≤ lineOf source.text (byteLength source.text)
  inRange : (Scan.ofText source.text).InRange
  counted : ∀ before body, source.text = before ++ '/' :: '*' :: body →
    countedBlockBody 1 body = .ok (blockBody 0 body)

/-- Texts of less than four gigabytes are faultless under any configuration. -/
theorem plan_faultless (source : Source) (config : Config)
    (h : byteLength source.text < sizeBound) : Faultless source config := by
  obtain ⟨v, -, hanalyze⟩ := exists_analyze source
  refine ⟨exists_plan source config, exists_planNotices source config, ⟨_, hanalyze⟩, ?_,
    (Scan.faithful_ofText source.text).inRange, ?_⟩
  · intro u path hu
    exact lines_ofInventory hu path config
  · intro before body htext
    rw [htext] at h
    exact countedBlockBody_of_append h

/-- A comment that is never closed behind a bracket that is not closed either. -/
def runningOn : Source := .ofString "text" "fn ä( \x7b /* /*"

theorem plan_faultless_runningOn :
    byteLength runningOn.text < sizeBound ∧ Faultless runningOn .default := by
  have hlt : byteLength runningOn.text < sizeBound := by decide
  exact ⟨hlt, plan_faultless runningOn .default hlt⟩

end Unbundle
