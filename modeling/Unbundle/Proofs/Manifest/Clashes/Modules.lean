import Unbundle.Proofs.Manifest.Clashes.Repeats

/-! Modules that clash: an applet goes where the shared module is, or two applets go to one module.
The first clash in source order is found. -/
namespace Unbundle

variable {config : Config} {hasShared : Bool} {fs before mid : List Function} {f g : Function}
  {e : SplitError}

def GoesToShared (config : Config) (hasShared : Bool) (f : Function) : Prop :=
  hasShared = true ∧ moduleName f.name config.rawSubstitute = config.sharedModule

/-- No two functions go to one module, and none to the shared one. -/
structure Apart (config : Config) (hasShared : Bool) (fs : List Function) : Prop where
  shared : ∀ f ∈ fs, ¬ GoesToShared config hasShared f
  twins : ∀ f ∈ fs, ∀ g ∈ fs, ¬ Twins config.rawSubstitute f.name g.name

/-- The first function, in order, that goes where another or the shared module is. That it goes to
the shared module is found first. -/
inductive FirstClash (config : Config) (hasShared : Bool) (fs : List Function) : SplitError → Prop
  | shared {before after : List Function} {g : Function} (hfs : fs = before ++ g :: after)
      (hbefore : Apart config hasShared before) (hg : GoesToShared config hasShared g) :
      FirstClash config hasShared fs (.sharedModuleCollision g.name config.sharedModule)
  | file {before after : List Function} {f g : Function} (hfs : fs = before ++ g :: after)
      (hbefore : Apart config hasShared before) (hg : ¬ GoesToShared config hasShared g)
      (hf : f ∈ before)
      (htwins : Twins config.rawSubstitute f.name g.name ∨
        Twins config.rawSubstitute g.name f.name) :
      FirstClash config hasShared fs
        (.fileNameCollision f.name g.name (moduleFile (moduleName g.name config.rawSubstitute)))

/-- The names of functions as they are found: each once, and spelled as names are. -/
structure ProperNames (fs : List Function) : Prop where
  nodup : (fs.map Function.name).Nodup
  spelled : ∀ f ∈ fs, ∃ kind, Spells kind f.name.toList

theorem ProperNames.of_append {after : List Function} (h : ProperNames (fs ++ after)) :
    ProperNames fs := by
  constructor
  · have hnodup := h.nodup
    rw [List.map_append] at hnodup
    exact hnodup.of_append_left
  · intro f hf
    exact h.spelled f (List.mem_append_left after hf)

theorem ProperNames.name_ne (h : ProperNames (before ++ g :: fs)) (hf : f ∈ before) :
    f.name ≠ g.name := by
  have hnodup := h.nodup
  rw [List.map_append, List.nodup_append] at hnodup
  exact hnodup.2.2 _ (List.mem_map_of_mem hf) _ (List.mem_map_of_mem List.mem_cons_self)

/-- Behind functions that are apart, one that is new to them is too. -/
theorem Apart.snoc (h : Apart config hasShared before) (hnames : ProperNames (before ++ g :: fs))
    (hsub : '#' ∉ config.rawSubstitute.toList) (hg : ¬ GoesToShared config hasShared g)
    (hnew : ∀ f ∈ before, ¬ Twins config.rawSubstitute f.name g.name ∧
      ¬ Twins config.rawSubstitute g.name f.name) : Apart config hasShared (before ++ [g]) := by
  obtain ⟨kind, hspell⟩ := hnames.spelled g (by simp)
  constructor
  · intro f hf
    rcases List.mem_append.1 hf with hf | hf
    · exact h.shared f hf
    · rw [List.mem_singleton.1 hf]
      exact hg
  · intro f hf f' hf'
    rcases List.mem_append.1 hf with hf | hf
    · rcases List.mem_append.1 hf' with hf' | hf'
      · exact h.twins f hf f' hf'
      · rw [List.mem_singleton.1 hf']
        exact (hnew f hf).1
    · rw [List.mem_singleton.1 hf]
      rcases List.mem_append.1 hf' with hf' | hf'
      · exact (hnew f' hf').2
      · rw [List.mem_singleton.1 hf']
        intro htwins
        exact htwins.ne hsub hspell rfl

/-- Either all functions are apart, or there is a first clash. -/
theorem apart_or_firstClash (hsub : '#' ∉ config.rawSubstitute.toList) (hnames : ProperNames fs) :
    Apart config hasShared fs ∨ ∃ e, FirstClash config hasShared fs e := by
  induction fs using List.reverseRecOn with
  | nil => exact .inl ⟨by simp, by simp⟩
  | append_singleton fs g ih =>
    rcases ih hnames.of_append with hapart | ⟨e, hclash⟩
    · by_cases hg : GoesToShared config hasShared g
      · exact .inr ⟨_, .shared rfl hapart hg⟩
      · by_cases hnew : ∀ f ∈ fs, ¬ Twins config.rawSubstitute f.name g.name ∧
            ¬ Twins config.rawSubstitute g.name f.name
        · exact .inl (hapart.snoc hnames hsub hg hnew)
        · push Not at hnew
          obtain ⟨f, hf, htwins⟩ := hnew
          exact .inr ⟨_, .file rfl hapart hg hf (or_iff_not_imp_left.2 htwins)⟩
    · right
      cases hclash with
      | shared hfs hbefore hg =>
        exact ⟨_, .shared (by rw [hfs, List.append_assoc, List.cons_append]) hbefore hg⟩
      | file hfs hbefore hg hf htwins =>
        exact ⟨_, .file (by rw [hfs, List.append_assoc, List.cons_append]) hbefore hg hf htwins⟩

/-- No function before goes to the module of one that is apart from them. -/
theorem find?_eq_none_of_apart (h : Apart config hasShared (before ++ [g]))
    (hnames : ProperNames (before ++ g :: fs)) :
    (before.map (Assignment.ofApplet config)).find?
      (·.stem == moduleName g.name config.rawSubstitute) = none := by
  apply List.find?_eq_none.2
  intro a ha
  obtain ⟨f, hf, rfl⟩ := List.mem_map.1 ha
  simp only [Assignment.stem_ofApplet, beq_iff_eq]
  intro heq
  have hfmem : f ∈ before ++ [g] := List.mem_append_left _ hf
  have hgmem : g ∈ before ++ [g] := by simp
  rcases twins_of_moduleName_eq (hnames.name_ne hf) heq with htwins | htwins
  · exact h.twins f hfmem g hgmem htwins
  · exact h.twins g hgmem f hfmem htwins

theorem Apart.of_append {after : List Function} (h : Apart config hasShared (fs ++ after)) :
    Apart config hasShared fs := by
  constructor
  · intro f hf
    exact h.shared f (List.mem_append_left after hf)
  · intro f hf g hg
    exact h.twins f (List.mem_append_left after hf) g (List.mem_append_left after hg)

/-- One step of the assignment to modules, at a function that does not go to the shared one. -/
theorem assignModules_cons {assigned : List Assignment} (hg : ¬ GoesToShared config hasShared g) :
    assignModules config hasShared assigned (g :: fs) =
      match assigned.find? (·.stem == moduleName g.name config.rawSubstitute) with
      | some first => .error (.fileNameCollision first.applet.name g.name
          (moduleFile (moduleName g.name config.rawSubstitute)))
      | none => assignModules config hasShared (assigned ++ [.ofApplet config g]) fs := by
  rw [assignModules, if_neg]
  · rfl
  · simpa [GoesToShared] using hg

/-- Functions that are apart are assigned one after the other. -/
theorem assignModules_append (before : List Function) (h : Apart config hasShared (before ++ mid))
    (hnames : ProperNames (before ++ mid)) :
    assignModules config hasShared (before.map (.ofApplet config)) (mid ++ fs) =
      assignModules config hasShared ((before ++ mid).map (.ofApplet config)) fs := by
  induction mid generalizing before with
  | nil => rw [List.append_nil, List.nil_append]
  | cons g mid ih =>
    have hg : ¬ GoesToShared config hasShared g := h.shared g (by simp)
    have happend : before ++ g :: mid = before ++ [g] ++ mid := by simp
    have hfind := find?_eq_none_of_apart (Apart.of_append (happend ▸ h)) hnames
    rw [List.cons_append, assignModules_cons hg, hfind]
    rw [happend] at h hnames ⊢
    rw [← ih (before ++ [g]) h hnames, List.map_append]
    rfl

theorem Apart.assignModules_behind (h : Apart config hasShared before)
    (hnames : ProperNames before) :
    assignModules config hasShared [] (before ++ fs) =
      assignModules config hasShared (before.map (.ofApplet config)) fs :=
  assignModules_append [] h hnames

theorem Apart.assignModules_eq (h : Apart config hasShared fs) (hnames : ProperNames fs) :
    assignModules config hasShared [] fs = .ok (fs.map (.ofApplet config)) := by
  rw [← List.append_nil fs, h.assignModules_behind hnames, assignModules, List.append_nil]

/-- The first clash is what the assignment to modules reports. -/
theorem FirstClash.assignModules_eq (h : FirstClash config hasShared fs e)
    (hsub : '#' ∉ config.rawSubstitute.toList) (hnames : ProperNames fs) :
    assignModules config hasShared [] fs = .error e := by
  cases h with
  | @shared before after g hfs hbefore hg =>
    subst hfs
    rw [hbefore.assignModules_behind hnames.of_append]
    obtain ⟨hhas, hmodule⟩ := hg
    simp [assignModules, hhas, hmodule]
  | @file before after f g hfs hbefore hg hf htwins =>
    subst hfs
    rw [hbefore.assignModules_behind hnames.of_append, assignModules_cons hg]
    have hmodule {x y : Function} (hx : x ∈ before ++ g :: after) (hy : y ∈ before ++ g :: after)
        (h : Twins config.rawSubstitute x.name y.name ∨ Twins config.rawSubstitute y.name x.name) :
        moduleName x.name config.rawSubstitute = moduleName y.name config.rawSubstitute := by
      rcases h with h | h
      · obtain ⟨kind, hspell⟩ := hnames.spelled x hx
        exact h.moduleName_eq hsub hspell
      · obtain ⟨kind, hspell⟩ := hnames.spelled y hy
        exact (h.moduleName_eq hsub hspell).symm
    have hfg := hmodule (List.mem_append_left _ hf) (by simp) htwins
    split
    · rename_i first hfirst
      obtain ⟨x, hx, rfl⟩ := List.mem_map.1 (List.mem_of_find?_eq_some hfirst)
      have hxg := List.find?_some hfirst
      simp only [Assignment.stem_ofApplet, beq_iff_eq] at hxg
      rw [Assignment.applet_ofApplet]
      by_cases hname : x.name = f.name
      · rw [hname]
      · rcases twins_of_moduleName_eq hname (hxg.trans hfg.symm) with h | h
        · exact absurd h (hbefore.twins x hx f hf)
        · exact absurd h (hbefore.twins f hf x hx)
    · rename_i hnone
      have hnot := List.find?_eq_none.1 hnone _ (List.mem_map_of_mem hf)
      simp [hfg] at hnot

/-- There is a clash where a function goes to the shared module or two are twins, and only there. -/
theorem exists_firstClash_iff (hsub : '#' ∉ config.rawSubstitute.toList) (hnames : ProperNames fs) :
    (∃ e, FirstClash config hasShared fs e) ↔
      (hasShared = true ∧ ∃ f ∈ fs, moduleName f.name config.rawSubstitute = config.sharedModule) ∨
        ∃ x, "r#" ++ x ∈ fs.map Function.name ∧
          config.rawSubstitute ++ x ∈ fs.map Function.name := by
  constructor
  · rintro ⟨e, hclash⟩
    cases hclash with
    | @shared before after g hfs hbefore hg =>
      exact .inl ⟨hg.1, g, by simp [hfs], hg.2⟩
    | @file before after f g hfs hbefore hg hf htwins =>
      right
      have hfmem : f.name ∈ fs.map Function.name := List.mem_map_of_mem (by simp [hfs, hf])
      have hgmem : g.name ∈ fs.map Function.name := List.mem_map_of_mem (by simp [hfs])
      rcases htwins with ⟨x, hx, hy⟩ | ⟨x, hx, hy⟩
      · exact ⟨x, hx ▸ hfmem, hy ▸ hgmem⟩
      · exact ⟨x, hx ▸ hgmem, hy ▸ hfmem⟩
  · intro h
    rcases apart_or_firstClash hsub hnames with hapart | hclash
    · rcases h with ⟨hhas, f, hf, hmodule⟩ | ⟨x, hraw, hplain⟩
      · exact absurd ⟨hhas, hmodule⟩ (hapart.shared f hf)
      · obtain ⟨f, hf, hfx⟩ := List.mem_map.1 hraw
        obtain ⟨g, hg, hgx⟩ := List.mem_map.1 hplain
        exact absurd ⟨x, hfx, hgx⟩ (hapart.twins f hf g hg)
    · exact hclash

/-- The assignment to modules fails with the first clash, and with nothing else. -/
theorem assignModules_eq_error_iff (hsub : '#' ∉ config.rawSubstitute.toList)
    (hnames : ProperNames fs) :
    assignModules config hasShared [] fs = .error e ↔ FirstClash config hasShared fs e := by
  constructor
  · intro h
    rcases apart_or_firstClash hsub hnames with hapart | ⟨e', hclash⟩
    · rw [hapart.assignModules_eq hnames] at h
      cases h
    · rw [hclash.assignModules_eq hsub hnames] at h
      cases h
      exact hclash
  · intro h
    exact h.assignModules_eq hsub hnames

end Unbundle
