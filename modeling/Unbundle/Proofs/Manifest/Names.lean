import Unbundle.Proofs.Manifest
import Unbundle.Proofs.Path
import Unbundle.Proofs.Token.Name

/-! The names of a category's files. Each is one step down from the category's directory. -/
namespace Unbundle

variable {c : Char} {s : Scan} {f : Function} {k : Nat}

/-- There is no slash in a name. -/
theorem Spells.slash_notMem {kind : TokenKind} {w : Text} (h : Spells kind w) : '/' ∉ w := by
  have hslash : isIdentContinue '/' = false := by decide +kernel
  cases h with
  | word hall => exact notMem_of_isIdentifier hslash hall
  | raw hall =>
    simp only [List.mem_cons, not_or]
    exact ⟨by decide, by decide, notMem_of_isIdentifier hslash hall⟩

/-- The name of a function is spelled as one. -/
theorem Scan.IsFunction.exists_spelling (hf : s.IsFunction k f) (hs : s.Faithful) :
    ∃ kind, Spells kind f.name.toList := by
  obtain ⟨n, opened, t, ht, hname, hat⟩ := hf.exists_name
  have hmem : t ∈ tokenize s.text := hs.mem_tokenize (token?_of_token ht)
  rw [(Scan.functionAt_eq_ok hat).1, Token.text, String.toList_ofList]
  exact ⟨t.kind, spells_of_mem_tokenize hmem hname⟩

theorem notMem_of_isPlainIdentifier {name : String} (hc : (c == '_' || c.isAlphanum) = false)
    (h : isPlainIdentifier name = true) : c ∉ name.toList := by
  unfold isPlainIdentifier at h
  split at h
  · cases h
  · rename_i d ds hds
    rw [Bool.and_eq_true, List.all_eq_true] at h
    rw [hds, List.mem_cons, not_or]
    constructor
    · rintro rfl
      simp only [Bool.or_eq_false_iff, Char.isAlphanum] at hc
      simp [hc.1, hc.2.1] at h
    · intro hmem
      rw [h.2 c hmem] at hc
      cases hc

/-- What a valid configuration says of the names it gives. -/
theorem Config.notMem_of_check {config : Config} (h : config.check = .ok ())
    (hc : (c == '_' || c.isAlphanum) = false) :
    c ∉ config.sharedModule.toList ∧ c ∉ config.rawSubstitute.toList := by
  unfold check at h
  split at h
  · cases h
  · rename_i hshared
    split at h
    · cases h
    · rename_i hraw
      simp only [Bool.or_eq_true, Bool.not_eq_true', not_or, Bool.not_eq_false] at hshared hraw
      refine ⟨notMem_of_isPlainIdentifier hc hshared.1, ?_⟩
      have hnot := notMem_of_isPlainIdentifier hc hraw.2
      simp_all

theorem slash_notMem_moduleName {applet substitute : String} (ha : '/' ∉ applet.toList)
    (hs : '/' ∉ substitute.toList) : '/' ∉ (moduleName applet substitute).toList := by
  unfold moduleName bareName?
  split
  · rename_i bare hbare
    split at hbare
    · rename_i cs hcs
      cases hbare
      rw [hcs] at ha
      simp_all
    · cases hbare
  · exact ha

theorem isName_moduleFile {stem : String} (h : '/' ∉ stem.toList) : IsName (moduleFile stem) := by
  have htext : (moduleFile stem).toList = stem.toList ++ ['.', 'r', 's'] := by
    simp [moduleFile]
  constructor
  · simp [htext, h]
  all_goals
    rw [htext]
    intro heq
    have := congrArg List.length heq
    simp at this

/-- The files that are planned for a category have proper names. -/
theorem isName_of_plan {config : Config} {source : Source} {u : Inventory} {m : Manifest}
    (hc : config.check = .ok ()) (h : plan source config = .ok (.ok ⟨u, some m⟩)) :
    ∀ file ∈ m.units, IsName file.name := by
  obtain ⟨hanalyze, shared, applets, exports, hl⟩ := exists_laidOut h
  obtain ⟨hshared, hraw⟩ := Config.notMem_of_check (c := '/') hc (by decide)
  have hs := Scan.faithful_ofText source.text
  intro file hfile
  have hname : file.name ∈ m.fileNames := List.mem_map_of_mem hfile
  rw [hl.fileNames_eq] at hname
  obtain ⟨stem, hstem, heq⟩ := List.mem_map.1 hname
  rw [← heq]
  refine isName_moduleFile ?_
  simp only [List.mem_append, List.mem_singleton] at hstem
  rcases hstem with (hstem | hstem) | rfl
  · split at hstem
    · rw [List.mem_singleton.1 hstem]
      exact hshared
    · cases hstem
  · obtain ⟨f, hf, rfl⟩ := LaidOut.mem_stems.1 hstem
    obtain ⟨k, hk⟩ := (yields_of_analyze hanalyze).applets.each f hf
    obtain ⟨kind, hspell⟩ := hk.exists_spelling hs
    exact slash_notMem_moduleName hspell.slash_notMem hraw
  · decide

end Unbundle
