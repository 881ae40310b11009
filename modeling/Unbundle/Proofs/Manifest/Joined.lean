import Unbundle.Proofs.Manifest.Clashes
import Unbundle.Proofs.SharedModule
import Unbundle.Proofs.Token.Word

/-! The file that joins the modules of a category. It comes last, and it is read back as one
declaration for every module and one export for every applet, both in the order of the applets'
names, while the files of the applets stand in the order of their modules. -/
namespace Unbundle

section Order

variable {config : Config} {source : Source} {u : Inventory} {m : Manifest}
  {shared applets : List UnitFile} {exports : List Export} {a b c : Export}

theorem Export.notAfter_trans (hab : a.notAfter b = true) (hbc : b.notAfter c = true) :
    a.notAfter c = true := by
  simp only [notAfter, Bool.or_eq_true, Bool.and_eq_true, decide_eq_true_eq, beq_iff_eq] at *
  rcases hab with hab | ⟨hab, hab'⟩
  · rcases hbc with hbc | ⟨hbc, -⟩
    · exact .inl (String.lt_trans hab hbc)
    · exact .inl (hbc ▸ hab)
  · rcases hbc with hbc | ⟨hbc, hbc'⟩
    · exact .inl (hab ▸ hbc)
    · exact .inr ⟨hab.trans hbc, String.le_trans hab' hbc'⟩

theorem Export.notAfter_total (a b : Export) : (a.notAfter b || b.notAfter a) = true := by
  simp only [notAfter, Bool.or_eq_true, Bool.and_eq_true, decide_eq_true_eq, beq_iff_eq]
  by_cases hname : a.name = b.name
  · rcases String.le_total a.stem b.stem with h | h
    · exact .inl (.inr ⟨hname, h⟩)
    · exact .inr (.inr ⟨hname.symm, h⟩)
  · rcases String.le_total a.name b.name with h | h
    · exact .inl (.inl (Std.lt_of_le_of_ne h hname))
    · exact .inr (.inl (Std.lt_of_le_of_ne h (Ne.symm hname)))

theorem Export.le_of_notAfter (h : a.notAfter b = true) : a.name ≤ b.name := by
  simp only [notAfter, Bool.or_eq_true, Bool.and_eq_true, decide_eq_true_eq, beq_iff_eq] at h
  rcases h with h | ⟨h, -⟩
  · exact Std.le_of_lt h
  · rewrite [h]
    exact Std.le_refl b.name

def sortedApplets (config : Config) (u : Inventory) : List Function :=
  (sortedAssignments config u).map Assignment.applet

theorem sortedApplets_perm (config : Config) (u : Inventory) :
    (sortedApplets config u).Perm u.applets := by
  have hperm := (List.mergeSort_perm (u.applets.map (.ofApplet config)) Assignment.notAfter).map
    Assignment.applet
  have hself : (u.applets.map (.ofApplet config)).map Assignment.applet = u.applets := by
    rw [List.map_map]
    exact List.map_id u.applets
  rw [hself] at hperm
  exact hperm

theorem sortedAssignments_eq (config : Config) (u : Inventory) :
    sortedAssignments config u = (sortedApplets config u).map (.ofApplet config) := by
  have hself : ∀ a ∈ sortedAssignments config u, .ofApplet config a.applet = a := by
    intro a ha
    obtain ⟨f, -, rfl⟩ := List.mem_map.1 ((List.mergeSort_perm _ _).mem_iff.1 ha)
    rfl
  rw [sortedApplets, List.map_map]
  exact (List.map_id _).symm.trans (List.map_congr_left fun a ha => (hself a ha).symm)

namespace LaidOut

variable (hl : LaidOut config source u m shared applets exports)

include hl

/-- No two applets have one module, so the order of their files is strict. -/
theorem sortedApplets_increasing : (sortedApplets config u).Pairwise fun f g =>
    moduleName f.name config.rawSubstitute < moduleName g.name config.rawSubstitute := by
  have hlt : (sortedAssignments config u).Pairwise fun a b => a.stem < b.stem :=
    increasing_mergeSort hl.stems
  rw [sortedAssignments_eq, List.pairwise_map] at hlt
  exact hlt

theorem exports_perm : exports.Perm
    (u.applets.map fun f => ⟨f.name, moduleName f.name config.rawSubstitute⟩) := by
  have hsorted :
      exports.Perm ((sortedAssignments config u).map fun a => ⟨a.applet.name, a.stem⟩) := by
    rw [hl.exported]
    exact List.mergeSort_perm _ _
  refine hsorted.trans ?_
  rw [sortedAssignments_eq, List.map_map]
  exact (sortedApplets_perm config u).map _

theorem appletNames_perm : m.appletNames.Perm (u.applets.map Function.name) := by
  have hperm := hl.exports_perm.map Export.name
  rw [List.map_map, ← hl.appletNames] at hperm
  exact hperm

/-- What is exported follows from the names. -/
theorem exports_eq :
    exports = m.appletNames.map fun name => ⟨name, moduleName name config.rawSubstitute⟩ := by
  have hself : ∀ e ∈ exports, (⟨e.name, moduleName e.name config.rawSubstitute⟩ : Export) = e := by
    intro e he
    obtain ⟨f, -, rfl⟩ := List.mem_map.1 (hl.exports_perm.mem_iff.1 he)
    rfl
  rw [hl.appletNames, List.map_map]
  exact (List.map_id _).symm.trans (List.map_congr_left fun e he => (hself e he).symm)

theorem appletNames_increasing (hnodup : (u.applets.map Function.name).Nodup) :
    m.appletNames.Pairwise (· < ·) := by
  have hsorted : exports.Pairwise fun a b => a.notAfter b = true := by
    rw [hl.exported, sortedExports]
    apply List.pairwise_mergeSort
    · intro a b c
      exact Export.notAfter_trans
    · exact Export.notAfter_total
  have hle : m.appletNames.Pairwise (· ≤ ·) := by
    rw [hl.appletNames, List.pairwise_map]
    exact hsorted.imp Export.le_of_notAfter
  have hne : m.appletNames.Pairwise (· ≠ ·) := hl.appletNames_perm.nodup_iff.2 hnodup
  exact hle.imp₂ (fun _ _ h h' => Std.lt_of_le_of_ne h h') hne

end LaidOut

end Order

section Names

variable {config : Config} {name stem substitute : String} {kind : TokenKind} {v w : Text}

/-- What a name is read as: a raw word if it is written with `r#`. -/
def nameFace (name : String) : TokenKind × Text :=
  (if (bareName? name).isSome then .rawIdent else .ident, name.toList)

theorem isIdentifier_append (hv : isIdentifier v = true) (hw : w.all isIdentContinue = true) :
    isIdentifier (v ++ w) = true := by
  cases v with
  | nil => cases hv
  | cons c v =>
    rw [isIdentifier, Bool.and_eq_true] at hv
    rw [List.cons_append, isIdentifier, hv.1, List.all_append, hv.2, hw]
    rfl

theorem isIdentifier_of_append (hv : v ≠ []) (h : isIdentifier (v ++ w) = true) :
    isIdentifier v = true := by
  cases v with
  | nil => exact absurd rfl hv
  | cons c v =>
    rw [List.cons_append, isIdentifier, List.all_append, Bool.and_eq_true, Bool.and_eq_true] at h
    rw [isIdentifier, h.1, h.2.1, Bool.and_self]

theorem isIdentifier_of_isPlainIdentifier (h : isPlainIdentifier name = true) :
    isIdentifier name.toList = true := by
  unfold isPlainIdentifier at h
  split at h
  · cases h
  · rename_i c cs hname
    rw [Bool.and_eq_true, List.all_eq_true] at h
    rw [hname, isIdentifier, isIdentStart_of_isAlpha h.1, Bool.true_and, List.all_eq_true]
    intro d hd
    exact isIdentContinue_of_isAlphanum (h.2 d hd)

/-- The names that a valid configuration gives are words. -/
theorem Config.isIdentifier_of_check (h : config.check = .ok ()) :
    isIdentifier config.sharedModule.toList = true ∧
      isIdentifier config.rawSubstitute.toList = true := by
  unfold check at h
  split at h
  · cases h
  · rename_i hshared
    split at h
    · cases h
    · rename_i hraw
      simp only [Bool.or_eq_true, Bool.not_eq_true', not_or, Bool.not_eq_false,
        Bool.not_eq_true] at hshared hraw
      refine ⟨isIdentifier_of_isPlainIdentifier hshared.1, ?_⟩
      have hplain := isIdentifier_of_isPlainIdentifier hraw.2
      rw [String.toList_append] at hplain
      refine isIdentifier_of_append ?_ hplain
      intro hnil
      simp_all

/-- Of a name that is spelled as one, the kind shows in the spelling. -/
theorem Spells.nameFace_eq (h : Spells kind name.toList) : nameFace name = (kind, name.toList) := by
  cases hbare : bareName? name with
  | none =>
    rw [nameFace, hbare]
    generalize hw : name.toList = w at h
    cases h with
    | word => rfl
    | @raw w h =>
      have hraw : name = "r#" ++ String.ofList w := by
        apply String.toList_injective
        simp [hw]
      rw [bareName?_eq_some.2 hraw] at hbare
      cases hbare
  | some bare =>
    rw [nameFace, hbare]
    rw [bareName?_eq_some.1 hbare] at h ⊢
    generalize hw : ("r#" ++ bare).toList = w at h
    cases h with
    | word h =>
      have hhash : isIdentContinue '#' = false := by decide +kernel
      have hall := all_of_isIdentifier h
      rw [← hw] at hall
      simp [hhash] at hall
    | raw => rfl

theorem isIdentifier_moduleName (h : Spells kind name.toList)
    (hsub : isIdentifier substitute.toList = true) :
    isIdentifier (moduleName name substitute).toList = true := by
  have hface := h.nameFace_eq
  unfold moduleName
  cases hbare : bareName? name with
  | none =>
    rw [nameFace, hbare] at hface
    show isIdentifier name.toList = true
    generalize name.toList = w at h hface ⊢
    cases h with
    | word h => exact h
    | raw => cases hface
  | some bare =>
    have hname := bareName?_eq_some.1 hbare
    subst hname
    rw [nameFace, hbare] at hface
    generalize hw : ("r#" ++ bare).toList = w at h
    cases h with
    | word => cases hface
    | @raw w h =>
      obtain rfl : bare.toList = w := by simpa using hw
      rw [String.toList_append]
      exact isIdentifier_append hsub (all_of_isIdentifier h)

end Names

section Lines

variable {config : Config} {name stem : String} {kind : TokenKind} {y : Text}

def moduleFaces (stem : String) : List (TokenKind × Text) :=
  [(.ident, "mod".toList), (.ident, stem.toList), (.punct ';', [';'])]

def exportFaces (stem name : String) : List (TokenKind × Text) :=
  [(.ident, "pub".toList), (.ident, "use".toList), (.ident, stem.toList), (.punct ':', [':']),
    (.punct ':', [':']), nameFace name, (.punct ';', [';'])]

theorem faces_blank_cons {c : Char} (hc : isBlank c = true) (y : Text) :
    faces (c :: y) = faces y := by
  rw [← List.singleton_append]
  exact faces_gap (by simp [hc]) y

/-- A word and a blank behind it. -/
theorem faces_keyword {w : Text} (hw : isIdentifier w = true) (y : Text) :
    faces (w ++ ' ' :: y) = (.ident, w) :: faces y := by
  rw [faces_identifier hw (by rintro d ⟨⟩; decide +kernel), faces_blank_cons (by decide +kernel)]

theorem faces_semicolon (y : Text) : faces (';' :: '\n' :: y) = (.punct ';', [';']) :: faces y := by
  rw [faces_mark (by decide +kernel), faces_blank_cons (by decide +kernel)]
  rfl

theorem faces_moduleLine (h : isIdentifier stem.toList = true) (y : Text) :
    faces (("mod " ++ stem ++ ";\n").toList ++ y) = moduleFaces stem ++ faces y := by
  have htext : ("mod " ++ stem ++ ";\n").toList ++ y =
      "mod".toList ++ ' ' :: (stem.toList ++ ';' :: '\n' :: y) := by
    simp
  rw [htext, faces_keyword (by decide +kernel),
    faces_identifier h (by rintro d ⟨⟩; decide +kernel), faces_semicolon]
  rfl

theorem faces_exportLine (hstem : isIdentifier stem.toList = true) (hname : Spells kind name.toList)
    (y : Text) :
    faces (("pub use " ++ stem ++ "::" ++ name ++ ";\n").toList ++ y) =
      exportFaces stem name ++ faces y := by
  have htext : ("pub use " ++ stem ++ "::" ++ name ++ ";\n").toList ++ y =
      "pub".toList ++ ' ' :: ("use".toList ++ ' ' :: (stem.toList ++ ':' :: ':' :: (name.toList ++
        ';' :: '\n' :: y))) := by
    simp
  rw [htext, faces_keyword (by decide +kernel), faces_keyword (by decide +kernel),
    faces_identifier hstem (by rintro d ⟨⟩; decide +kernel), faces_mark (by decide +kernel),
    faces_mark (by decide +kernel), hname.faces_append (by rintro d ⟨⟩; decide +kernel),
    faces_semicolon, exportFaces, hname.nameFace_eq]
  rfl

/-- Lines are read one after the other. -/
theorem faces_join {α : Type} {line : α → String} {shown : α → List (TokenKind × Text)}
    {xs : List α} (h : ∀ x ∈ xs, ∀ y, faces ((line x).toList ++ y) = shown x ++ faces y)
    (y : Text) : faces ((String.join (xs.map line)).toList ++ y) = xs.flatMap shown ++ faces y := by
  rw [String.toList_join]
  induction xs with
  | nil => rfl
  | cons x xs ih =>
    rw [List.map_cons, List.flatMap_cons, List.append_assoc, h x List.mem_cons_self,
      ih fun x hx => h x (List.mem_cons_of_mem _ hx), List.flatMap_cons, List.append_assoc]

/-- What the file that joins the modules is read as. -/
theorem faces_aggregateUnit {names : List String} (hc : config.check = .ok ()) (category : String)
    (hasShared : Bool) (hnames : ∀ name ∈ names, ∃ kind, Spells kind name.toList) :
    faces (aggregateUnit config category hasShared
        (names.map fun name => ⟨name, moduleName name config.rawSubstitute⟩)).body.toList =
      (if hasShared then (.ident, "pub".toList) :: moduleFaces config.sharedModule else []) ++
        names.flatMap (fun name => moduleFaces (moduleName name config.rawSubstitute)) ++
        names.flatMap fun name => exportFaces (moduleName name config.rawSubstitute) name := by
  obtain ⟨hshared, hsub⟩ := Config.isIdentifier_of_check hc
  have hfirst (y : Text) :
      faces ((if hasShared then "pub mod " ++ config.sharedModule ++ ";\n\n" else "").toList ++ y) =
        (if hasShared then (.ident, "pub".toList) :: moduleFaces config.sharedModule else []) ++
          faces y := by
    cases hasShared with
    | false => rfl
    | true =>
      have htext : ("pub mod " ++ config.sharedModule ++ ";\n\n").toList ++ y =
          "pub".toList ++
            ' ' :: (("mod " ++ config.sharedModule ++ ";\n").toList ++ '\n' :: y) := by
        simp
      rw [if_pos rfl, htext, faces_keyword (by decide +kernel), faces_moduleLine hshared,
        faces_blank_cons (by decide +kernel)]
      rfl
  have hmodules (y : Text) :
      faces ((String.join (names.map fun name =>
          "mod " ++ moduleName name config.rawSubstitute ++ ";\n")).toList ++ y) =
        names.flatMap (fun name => moduleFaces (moduleName name config.rawSubstitute)) ++
          faces y := by
    refine faces_join ?_ y
    intro name hname
    obtain ⟨kind, hspell⟩ := hnames name hname
    exact faces_moduleLine (isIdentifier_moduleName hspell hsub)
  have hexports (y : Text) :
      faces ((String.join (names.map fun name =>
          "pub use " ++ moduleName name config.rawSubstitute ++ "::" ++ name ++ ";\n")).toList ++
            y) =
        names.flatMap (fun name => exportFaces (moduleName name config.rawSubstitute) name) ++
          faces y := by
    refine faces_join ?_ y
    intro name hname
    obtain ⟨kind, hspell⟩ := hnames name hname
    exact faces_exportLine (isIdentifier_moduleName hspell hsub) hspell
  have hend := hexports []
  rw [faces_nil, List.append_nil, List.append_nil] at hend
  rw [aggregateUnit, List.map_map, List.map_map, String.toList_append, String.toList_append,
    String.toList_append, List.append_assoc, List.append_assoc, hfirst]
  simp only [Function.comp_def]
  rw [hmodules, show "\n".toList = ['\n'] from rfl, faces_gap (by decide +kernel), hend,
    List.append_assoc]

end Lines

section Joined

variable {config : Config} {source : Source} {u : Inventory} {m : Manifest}

/-- How the files of a category belong together: which there are and in which order, which names are
exported, and what the file that joins them is read as. -/
structure Joined (config : Config) (source : Source) (u : Inventory) (m : Manifest)
    (shared files : List UnitFile) (applets : List Function) (joint : UnitFile) : Prop where
  units : m.units = shared ++ files ++ [joint]
  hasShared : m.hasShared = true ↔ u.helpers ≠ [] ∨ u.declarations ≠ []
  sharedFile : if m.hasShared then ∃ file, sharedUnit config source u = .ok file ∧ shared = [file]
    else shared = []
  all : applets.Perm u.applets
  increasing : applets.Pairwise fun f g =>
    moduleName f.name config.rawSubstitute < moduleName g.name config.rawSubstitute
  appletFiles : List.Forall₂ (fun f file => ∃ text, f.text source.text = .ok text ∧
    file = appletFile config source m.hasShared f text) applets files
  jointName : joint.name = "mod.rs"
  names : m.appletNames.Perm (u.applets.map Function.name)
  namesIncreasing : m.appletNames.Pairwise (· < ·)
  named : ∀ name ∈ m.appletNames, ∃ t ∈ tokenize source.text, t.face = nameFace name
  reads : faces joint.body.toList =
    (if m.hasShared then (.ident, "pub".toList) :: moduleFaces config.sharedModule else []) ++
      m.appletNames.flatMap (fun name => moduleFaces (moduleName name config.rawSubstitute)) ++
      m.appletNames.flatMap fun name => exportFaces (moduleName name config.rawSubstitute) name

theorem nodup_names_of_analyze (h : analyze source = .ok (.ok u)) :
    (u.applets.map Function.name).Nodup := by
  obtain ⟨v, hv, h⟩ := Checked.bind_eq_ok.1 h
  obtain ⟨hnames, rfl⟩ := Survey.inventory_eq_ok.1 (Except.ok.inj h)
  rcases nodup_or_firstRepeat v.applets with hnodup | ⟨f, g, hrepeat⟩
  · exact hnodup
  · rw [hrepeat.checkNames_eq] at hnames
    cases hnames

/-- The name of a function is that of a token of the text. -/
theorem Scan.IsFunction.exists_face {s : Scan} {k : Nat} {f : Function} (hf : s.IsFunction k f)
    (hs : s.Faithful) : ∃ t ∈ tokenize s.text, t.face = nameFace f.name := by
  obtain ⟨n, opened, t, ht, hname, hat⟩ := hf.exists_name
  have hmem : t ∈ tokenize s.text := hs.mem_tokenize (token?_of_token ht)
  have hspell := spells_of_mem_tokenize hmem hname
  have hchars : f.name.toList = t.chars := by
    rw [(Scan.functionAt_eq_ok hat).1, Token.text, String.toList_ofList]
  rw [← hchars] at hspell
  refine ⟨t, hmem, ?_⟩
  rw [hspell.nameFace_eq, hchars]
  rfl

/-- Under a valid configuration the files of a category are the shared module if there is something
for it to hold, one file for every applet in the order of their modules, and one that declares all
modules and exports all applets in the order of their names. -/
theorem plan_joined (hc : config.check = .ok ()) (h : plan source config = .ok (.ok ⟨u, some m⟩)) :
    ∃ shared files applets joint, Joined config source u m shared files applets joint := by
  obtain ⟨hanalyze, shared, files, exports, hl⟩ := exists_laidOut h
  have hs := Scan.faithful_ofText source.text
  have hy := yields_of_analyze hanalyze
  have hmem {name : String} (hname : name ∈ m.appletNames) :
      ∃ f k, (Scan.ofText source.text).IsFunction k f ∧ f.name = name := by
    obtain ⟨f, hf, rfl⟩ := List.mem_map.1 (hl.appletNames_perm.mem_iff.1 hname)
    obtain ⟨k, hk⟩ := hy.applets.each f hf
    exact ⟨f, k, hk, rfl⟩
  refine ⟨shared, files, sortedApplets config u, _, hl.units, ?_, ?_, sortedApplets_perm config u,
    hl.sortedApplets_increasing, ?_, rfl, hl.appletNames_perm,
    hl.appletNames_increasing (nodup_names_of_analyze hanalyze), ?_, ?_⟩
  · rw [hl.hasShared, Inventory.hasShared]
    simp [or_comm]
  · have hshared := hl.sharedUnit
    rw [hl.hasShared]
    split_ifs at hshared ⊢ with hhas
    · obtain ⟨file, hfile, rfl⟩ := Checked.map_eq_ok.1 hshared
      exact ⟨file, hfile, rfl⟩
    · cases hshared
      rfl
  · have hfiles := Checked.mapM_eq_ok.1 hl.appletUnits
    rw [sortedAssignments_eq, List.forall₂_map_left_iff] at hfiles
    rw [hl.hasShared]
    exact hfiles.imp fun _ _ hfile => appletUnit_eq_ok.1 hfile
  · intro name hname
    obtain ⟨f, k, hk, rfl⟩ := hmem hname
    exact hk.exists_face hs
  · rw [hl.exports_eq, hl.hasShared]
    refine faces_aggregateUnit hc source.category u.hasShared ?_
    intro name hname
    obtain ⟨f, k, hk, rfl⟩ := hmem hname
    exact hk.exists_spelling hs

/-- The files of a source with one item of each kind. -/
theorem oneOfEach_joined :
    Config.default.check = .ok () ∧ ∃ u m, plan oneOfEach .default = .ok (.ok ⟨u, some m⟩) ∧
      ∃ shared files applets joint, Joined .default oneOfEach u m shared files applets joint := by
  obtain ⟨u, m, hplan, -, -⟩ := plan_oneOfEach
  exact ⟨rfl, u, m, hplan, plan_joined rfl hplan⟩

end Joined
end Unbundle
