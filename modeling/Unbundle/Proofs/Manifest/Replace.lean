import Unbundle.Proofs.Manifest.Names
import Unbundle.Proofs.Manifest.Write
import Unbundle.Proofs.Trail

/-! Writing a category next to its source, exactly: its directory is replaced as a whole, or nothing
is changed at all. -/
namespace Unbundle

/-- A tree as it is seen: what is at each place. -/
abbrev View := Place → Option Node

namespace View

/-- Puts a directory at a place, instead of everything that was there. -/
def replace (v : View) (place : Place) (dir : Tree) : View :=
  fun q => if place <+: q then dir.node? (q.drop place.length) else v q

def remove (v : View) (place : Place) : View := fun q => if q = place then none else v q

theorem replace_of_apart {v : View} {place q : Place} {dir : Tree} (h : ¬ place <+: q) :
    v.replace place dir q = v q := if_neg h

end View

theorem Tree.Holds.node?_eq_replace {t : Tree} {v : View} {place : Place} {dir : Tree}
    (h : t.Holds place dir) (hsame : ∀ q, ¬ place <+: q → t.node? q = v q) :
    t.node? = v.replace place dir := by
  funext q
  unfold View.replace
  split
  · rename_i hpre
    obtain ⟨rest, rfl⟩ := hpre
    rw [h rest, List.drop_left]
  · rename_i hpre
    exact hsame q hpre

theorem toList_pushn (s : String) (c : Char) (n : Nat) :
    (s.pushn c n).toList = s.toList ++ List.replicate n c := by
  rw [String.pushn_eq_repeat_push]
  induction n with
  | zero => simp [Nat.repeat]
  | succ n ih => rw [Nat.repeat, String.toList_push, ih, List.append_assoc, ← List.replicate_succ']

theorem Tree.slash_notMem_sixDigits (n : Nat) : '/' ∉ (sixDigits n).toList := by
  have hdigits : '/' ∉ Nat.toDigits 10 n := by
    intro h
    exact absurd (Nat.isDigit_of_mem_toDigits (by omega) (by omega) h) (by decide)
  simp [sixDigits, toList_pushn, hdigits]

namespace Manifest

variable {s s' : Session} {t u : Tree} {cwd : Place} {input : Path} {category name : String}
  {m : Manifest} {r : Except Failure Unit}

/-- The directory of a name is there when the one it is seen from is. -/
theorem isDir_container (hdir : t.isDir cwd input = true) (hname : IsName name)
    (hfits : (input.join ⟨name⟩).Fits) : t.isDir cwd (input.join ⟨name⟩).container = true := by
  obtain ⟨hinput, hdirs⟩ := Tree.isDir_iff.1 hdir
  refine Tree.isDir_iff.2 ⟨hfits.container, fun w hw => ?_⟩
  exact hdirs w ((Path.container_join hname hinput.ne_nil).2 w hw)

/-- A category whose directory can be replaced: it has a plain name, and the path does not lead
through that directory. -/
structure Site (t : Tree) (cwd : Place) (input : Path) (category : String) : Prop where
  isDir : t.isDir cwd input = true
  name : IsName category
  fits : (input.join ⟨category⟩).Fits
  apart : ∀ w ∈ input.way cwd, ¬ input.place cwd ++ [category] <+: w

namespace Site

theorem place_eq (h : Site t cwd input category) :
    (input.join ⟨category⟩).place cwd = input.place cwd ++ [category] :=
  Path.place_join_name h.name (Tree.isDir_iff.1 h.isDir).1.ne_nil

theorem outside (h : Site t cwd input category) {w : Place} (hw : w ∈ input.trail cwd) :
    ¬ input.place cwd ++ [category] <+: w := by
  rcases List.mem_append.1 hw with hw | hw
  · exact h.apart w hw
  · rw [List.mem_singleton.1 hw]
    intro hpre
    have := hpre.length_le
    simp only [List.length_append, List.length_singleton] at this
    omega

/-- Names in the directory of the sources are found. -/
theorem locate (h : Site t cwd input category) :
    t.locate cwd (input.join ⟨category⟩) = .ok (input.place cwd ++ [category]) := by
  obtain ⟨hfits, hdirs⟩ := Tree.isDir_iff.1 h.isDir
  refine Tree.locate_eq_ok.2 ⟨h.place_eq.symm, h.fits, fun w hw => ?_⟩
  exact hdirs w (Path.mem_trail_of_join h.name hfits.ne_nil hw)

theorem find?_eq (h : Site t cwd input category) :
    t.find? cwd (input.join ⟨category⟩) = t.node? (input.place cwd ++ [category]) := by
  rw [Tree.find?, h.locate]

/-- The site stays one as long as the way to it stays. -/
theorem of_eq (h : Site t cwd input category)
    (hsame : ∀ w ∈ input.trail cwd, u.node? w = t.node? w) : Site u cwd input category := by
  obtain ⟨hfits, hdirs⟩ := Tree.isDir_iff.1 h.isDir
  refine ⟨Tree.isDir_iff.2 ⟨hfits, fun w hw => ?_⟩, h.name, h.fits, h.apart⟩
  rw [hsame w hw, hdirs w hw]

end Site

def stagingName (m : Manifest) (n : Nat) : String := m.stagingStem ++ Tree.sixDigits n

theorem length_stagingName (m : Manifest) (n : Nat) :
    m.category.length + 9 ≤ (m.stagingName n).length := by
  simp only [stagingName, stagingStem, String.length_append, show ".".length = 1 from rfl,
    show ".staging".length = 8 from rfl]
  omega

theorem isName_stagingName (h : IsName m.category) (n : Nat) : IsName (m.stagingName n) := by
  have hlength := m.length_stagingName n
  refine ⟨?_, ?_, ?_, ?_⟩
  · simp [stagingName, stagingStem, h.slash, Tree.slash_notMem_sixDigits]
  all_goals
    intro heq
    have hshort := congrArg List.length heq
    simp only [String.length_toList, List.length_cons, List.length_nil] at hshort
    omega

theorem stagingName_ne (m : Manifest) (n : Nat) : m.stagingName n ≠ m.category := by
  intro heq
  have := m.length_stagingName n
  rw [heq] at this
  omega

/-- A directory in the way is removed, and then the staging directory can be moved: only a file in
the way stops it. -/
theorem moveIntoPlace_eq_ok {staging : Path} (site : Site s.tree s.cwd input category)
    (hstaging : s.tree.find? s.cwd staging = some .dir)
    (hway : ∀ w ∈ staging.trail s.cwd, ¬ input.place s.cwd ++ [category] <+: w)
    (hfile : ∀ c, s.tree.node? (input.place s.cwd ++ [category]) ≠ some (.file c))
    (h : (moveIntoPlace staging (input.join ⟨category⟩)).rehearse s = (r, s')) : r = .ok () := by
  have hmove {context : String} {s₁ : Session} (hcwd : s₁.cwd = s.cwd)
      (hsame : ∀ q, ¬ input.place s.cwd ++ [category] <+: q → s₁.tree.node? q = s.tree.node? q)
      (hnone : s₁.tree.node? (input.place s.cwd ++ [category]) = none)
      (h : (Run.attempt context (Host.rename staging (input.join ⟨category⟩))).rehearse s₁ =
        (r, s')) : r = .ok () := by
    have hsite : Site s₁.tree s.cwd input category :=
      site.of_eq fun w hw => hsame w (site.outside hw)
    obtain ⟨hlocate, hdir⟩ := Tree.find?_eq_some.1 hstaging
    obtain ⟨-, hfits, hdirs⟩ := Tree.locate_eq_ok.1 hlocate
    have hfrom : s₁.tree.locate s.cwd staging = .ok (staging.place s.cwd) := by
      refine Tree.locate_eq_ok.2 ⟨rfl, hfits, fun w hw => ?_⟩
      rw [hsame w (hway w (List.mem_append_left _ hw)), hdirs w hw]
    have hthere : (s₁.tree.node? (staging.place s.cwd)).isSome = true := by
      rw [hsame _ (hway _ (List.mem_append_right _ (List.mem_singleton_self _))), hdir]
      rfl
    have hto := Tree.locateName_of_locate hsite.locate
    rw [← hsite.place_eq] at hto hnone
    have hrename := Tree.rename_eq_graft hfrom hthere hto hnone
    rcases Run.rehearse_attempt_cases h with ⟨e, hfailed, rfl⟩ | ⟨_, -, rfl⟩
    · obtain ⟨herror, -⟩ := Session.change_eq_error hfailed
      rw [hcwd, hrename] at herror
      cases herror
    · rfl
  unfold moveIntoPlace at h
  rw [Run.rehearse_ask_bind, Host.isThere_apply, site.find?_eq] at h
  cases hnode : s.tree.node? (input.place s.cwd ++ [category]) with
  | none =>
    simp only [hnode, Option.isSome_none, Bool.false_eq_true, if_false] at h
    exact hmove rfl (fun _ _ => rfl) hnode h
  | some n =>
    cases n with
    | file c => exact absurd hnode (hfile c)
    | dir =>
      simp only [hnode, Option.isSome_some, if_true] at h
      have hne : (input.join ⟨category⟩).place s.cwd ≠ [] := by simp [site.place_eq]
      have hpath := (Tree.isDir_iff.1 site.isDir).1.ne_nil
      have hremoved := Tree.removeDirAll_eq_prune site.name
        (Path.getLast?_namedPieces_join site.name hpath) (site.find?_eq.trans hnode) hne
        fun w hw => site.place_eq ▸ site.outside (Path.mem_trail_of_join site.name hpath hw)
      rcases Run.rehearse_attempt_bind_cases h with ⟨e, hremove, rfl⟩ | ⟨_, s₁, hremove, h⟩
      · obtain ⟨hall, -⟩ := Session.removeDirAll_eq hremove
        rw [hremoved] at hall
        cases hall
      · obtain ⟨hall, hcwd⟩ := Session.removeDirAll_eq hremove
        rw [hremoved, Prod.mk.injEq] at hall
        rw [site.place_eq] at hne hall
        refine hmove hcwd ?_ ?_ h
        · intro q hq
          rw [← hall.2, Tree.node?_prune hne, if_neg hq]
        · rw [← hall.2, Tree.node?_prune hne, if_pos (List.prefix_refl _)]

/-- Where filling or moving the staging directory fails, that directory is all that is new. -/
theorem unchanged_of_stage_failed {staging : Path} {s₁ : Session} (ht : s.tree.Rooted)
    (hnames : ∀ u ∈ m.units, IsName u.name) (site : Site s.tree s.cwd input category)
    (hstaging : staging.Fits) (htrail : ∀ w ∈ staging.way s.cwd, w ∈ input.trail s.cwd)
    (hapart : ¬ input.place s.cwd ++ [category] <+: staging.place s.cwd)
    (hmake : (Host.makeDir staging : Rehearsal _) s = (.ok (), s₁))
    (h : (m.stage staging (input.join ⟨category⟩)).rehearse s₁ = (r, s')) (hr : r ≠ .ok ()) :
    s'.cwd = s.cwd ∧ s'.tree.node? (staging.place s.cwd) = some .dir ∧
      ∀ q, ¬ staging.place s.cwd <+: q → s'.tree.node? q = s.tree.node? q := by
  have hnew := filling_makeDir ht hmake
  rcases Run.rehearse_bind_cases h with ⟨e, hfill, rfl⟩ | ⟨_, s₂, hfill, hmove⟩
  · obtain ⟨written, hf, -⟩ := hnew.writeUnits hstaging.ne_nil hnames hfill
    exact ⟨hf.cwd, hf.isDir, hf.same⟩
  · obtain ⟨written, hf, -⟩ := hnew.writeUnits hstaging.ne_nil hnames hfill
    have hsame (w : Place) (hw : w ∈ input.trail s.cwd) : s₂.tree.node? w = s.tree.node? w :=
      hf.same w (hf.outside ht (by rw [(Tree.isDir_iff.1 site.isDir).2 w hw]; rfl))
    have hsite : Site s₂.tree s₂.cwd input category := hf.cwd ▸ site.of_eq hsame
    have hfound : s₂.tree.find? s₂.cwd staging = some .dir := by
      rw [hf.cwd]
      refine Tree.find?_eq_some.2 ⟨Tree.locate_eq_ok.2 ⟨rfl, hstaging, fun w hw => ?_⟩, hf.isDir⟩
      rw [hsame w (htrail w hw), (Tree.isDir_iff.1 site.isDir).2 w (htrail w hw)]
    have hfile : ∃ c, s₂.tree.node? ((input.join ⟨category⟩).place s₂.cwd) = some (.file c) := by
      by_contra hnot
      refine hr (moveIntoPlace_eq_ok hsite hfound ?_ ?_ hmove)
      · intro w hw
        rw [hf.cwd] at hw ⊢
        rcases List.mem_append.1 hw with hw | hw
        · exact site.outside (htrail w hw)
        · rw [List.mem_singleton.1 hw]
          exact hapart
      · intro c hc
        exact hnot ⟨c, hsite.place_eq ▸ hc⟩
    have hmoved := moved_moveIntoPlace hf.rooted hmove
    have hkept (q : Place) : s'.tree.node? q = s₂.tree.node? q := hmoved.failed hr q fun _ => hfile
    exact ⟨hmoved.cwd.trans hf.cwd, (hkept _).trans hf.isDir,
      fun q hq => (hkept q).trans (hf.same q hq)⟩

/-- A new directory that is all that was changed is removed again, and nothing is left of it. -/
theorem node?_of_cleaned {staging : Path} (ht : s.tree.Rooted) (hname : IsName name)
    (hlast : staging.namedPieces.getLast? = some name.toList) (hfits : staging.Fits)
    (hdirs : ∀ w ∈ staging.way s.cwd, s.tree.node? w = some .dir)
    (hnew : s.tree.node? (staging.place s.cwd) = none) (hcwd : s'.cwd = s.cwd)
    (hdir : s'.tree.node? (staging.place s.cwd) = some .dir)
    (hsame : ∀ q, ¬ staging.place s.cwd <+: q → s'.tree.node? q = s.tree.node? q) :
    (s'.removeDirAll staging).2.tree.node? = s.tree.node? := by
  have hne := Tree.ne_nil_of_none hnew
  have hout {w : Place} (hw : w ∈ staging.way s.cwd) : ¬ staging.place s.cwd <+: w := by
    intro hpre
    have hthere := hdirs w hw
    rw [ht.none_below hpre hnew] at hthere
    cases hthere
  have hfound : s'.tree.find? s.cwd staging = some .dir := by
    refine Tree.find?_eq_some.2 ⟨Tree.locate_eq_ok.2 ⟨rfl, hfits, fun w hw => ?_⟩, hdir⟩
    rw [hsame w (hout hw), hdirs w hw]
  have hremoved := Tree.removeDirAll_eq_prune hname hlast hfound hne fun w hw => hout hw
  rcases hclean : s'.removeDirAll staging with ⟨result, s₁⟩
  obtain ⟨hall, -⟩ := Session.removeDirAll_eq hclean
  rw [hcwd, hremoved, Prod.mk.injEq] at hall
  funext q
  rw [← hall.2, Tree.node?_prune hne]
  split
  · rename_i hpre
    exact (ht.none_below hpre hnew).symm
  · rename_i hpre
    exact hsame q hpre

/-- A directory in the way is left alone unless it may be replaced. -/
theorem write_refused {dir : Path} {overwrite : Bool}
    (hthere : (s.tree.find? s.cwd dir).isSome = true) (hkeep : overwrite = false)
    (h : (m.write dir overwrite).rehearse s = (r, s')) : r ≠ .ok () ∧ s' = s := by
  unfold write at h
  rw [Run.rehearse_ask_bind, Host.isThere_apply, hthere, hkeep] at h
  simp only [Bool.not_false, Bool.and_self, if_true] at h
  rw [Run.rehearse_bind, Run.rehearse_fail] at h
  cases h
  exact ⟨nofun, rfl⟩

/-- What writing a category does: its directory is replaced, or nothing is changed. -/
structure Replaced (m : Manifest) (place : Place) (r : Except Failure Unit) (s s' : Session) :
    Prop where
  cwd : s'.cwd = s.cwd
  done : r = .ok () → s'.tree.Rooted ∧
    s'.tree.node? = View.replace s.tree.node? place (holding m.units)
  failed : r ≠ .ok () → s'.tree.node? = s.tree.node?

theorem replaced_write {overwrite : Bool} (ht : s.tree.Rooted)
    (hnames : ∀ u ∈ m.units, IsName u.name) (site : Site s.tree s.cwd input m.category)
    (h : (m.write (input.join ⟨m.category⟩) overwrite).rehearse s = (r, s')) :
    m.Replaced (input.place s.cwd ++ [m.category]) r s s' := by
  have hinput := (Tree.isDir_iff.1 site.isDir).1.ne_nil
  obtain ⟨hcontainer, htrail⟩ :
      (input.join ⟨m.category⟩).container.place s.cwd = input.place s.cwd ∧
      ∀ w ∈ (input.join ⟨m.category⟩).container.trail s.cwd, w ∈ input.trail s.cwd :=
    Path.container_join site.name hinput
  rcases write_cases h with ⟨hr, rfl⟩ | ⟨made, s₁, hmakeDirs, hrest⟩
  · exact ⟨rfl, fun hok => absurd hok hr, fun _ => rfl⟩
  · rw [Host.makeDirs_of_isDir (isDir_container site.isDir site.name site.fits)] at hmakeDirs
    cases hmakeDirs
    rcases hrest with ⟨hr, rfl⟩ | ⟨n, s₂, staged, s₃, -, hmakeDir, hstage, hend⟩
    · exact ⟨rfl, fun hok => absurd hok hr, fun _ => rfl⟩
    · have hname := isName_stagingName site.name n
      have hnonempty := (input.join ⟨m.category⟩).isEmpty_container
      generalize hpath : m.stagingPath (input.join ⟨m.category⟩) n = staging at hmakeDir hstage hend
      have hjoin : (input.join ⟨m.category⟩).container.join ⟨m.stagingName n⟩ = staging := hpath
      have hplace : staging.place s.cwd = input.place s.cwd ++ [m.stagingName n] := by
        rw [← hjoin, Path.place_join_name hname hnonempty, hcontainer]
      have hway : ∀ w ∈ staging.way s.cwd, w ∈ input.trail s.cwd := fun w hw =>
        htrail w (Path.mem_trail_of_join hname hnonempty (hjoin ▸ hw))
      have hapart : ¬ input.place s.cwd ++ [m.category] <+: staging.place s.cwd := by
        rw [hplace, List.prefix_append_right_inj]
        simpa using (m.stagingName_ne n).symm
      have hfits : staging.Fits := by
        obtain ⟨t, hmade, -⟩ := Session.change_eq_ok hmakeDir
        exact (Tree.locateName_eq_ok.1 (Tree.makeDir_eq_ok.1 hmade).1).2.1
      rcases hend with ⟨rfl, rfl, htree, hcwd⟩ | ⟨hnot, hr, rfl⟩
      · have hparent :
            s.tree.node? ((input.join ⟨m.category⟩).container.place s.cwd) = some .dir := by
          refine (Tree.isDir_iff.1 (isDir_container site.isDir site.name site.fits)).2 _ ?_
          exact List.mem_append_right _ (List.mem_singleton_self _)
        have hstaged := staged_stage ht hnames hfits.ne_nil hparent hmakeDir hstage
        have hholds := hstaged.holds rfl
        have hsame := hstaged.same rfl
        rw [site.place_eq] at hholds hsame
        refine ⟨hcwd.trans hstaged.cwd, fun _ => ?_, fun hnot => absurd rfl hnot⟩
        rw [htree]
        exact ⟨hstaged.rooted rfl, hholds.node?_eq_replace hsame⟩
      · obtain ⟨hcwd, hdir, hsame⟩ :=
          unchanged_of_stage_failed ht hnames site hfits hway hapart hmakeDir hstage hnot
        have hclean := node?_of_cleaned ht hname
          (hjoin ▸ Path.getLast?_namedPieces_join hname hnonempty) hfits
          (fun w hw => (Tree.isDir_iff.1 site.isDir).2 w (hway w hw))
            (filling_makeDir ht hmakeDir).new
          hcwd hdir hsame
        exact ⟨hcwd, fun hok => absurd hok hr, fun _ => hclean⟩

/-- A directory that the path leads through is there. -/
theorem find?_of_way {w : Place} (ht : t.Rooted) (hdir : t.isDir cwd input = true)
    (hname : IsName name) (hfits : (input.join ⟨name⟩).Fits) (hw : w ∈ input.way cwd)
    (hpre : input.place cwd ++ [name] <+: w) : t.find? cwd (input.join ⟨name⟩) = some .dir := by
  obtain ⟨hinput, hdirs⟩ := Tree.isDir_iff.1 hdir
  refine Tree.find?_eq_some.2 ⟨Tree.locate_eq_ok.2 ⟨rfl, hfits, fun q hq => ?_⟩, ?_⟩
  · exact hdirs q (Path.mem_trail_of_join hname hinput.ne_nil hq)
  · rw [Path.place_join_name hname hinput.ne_nil]
    exact ht.dir_above_dir hpre (hdirs w (List.mem_append_left _ hw))

/-- Nothing is moved to the place of a directory that its own path leads through: once the directory
is gone, the path leads nowhere. -/
theorem moveIntoPlace_ne_ok {staging dir : Path} {w : Place}
    (hdir : s.tree.find? s.cwd dir = some .dir)
    (hw : w ∈ Tree.stations (dir.base s.cwd) dir.namedPieces) (hpre : dir.place s.cwd <+: w)
    (h : (moveIntoPlace staging dir).rehearse s = (r, s')) : r ≠ .ok () := by
  rintro rfl
  unfold moveIntoPlace at h
  rw [Run.rehearse_ask_bind, Host.isThere_apply, hdir] at h
  simp only [Option.isSome_some, if_true] at h
  rcases Run.rehearse_attempt_bind_cases h with ⟨e, -, he⟩ | ⟨_, s₁, hremove, h⟩
  · cases he
  · obtain ⟨hall, hcwd⟩ := Session.removeDirAll_eq hremove
    have hname : s₁.tree.locateName s.cwd dir = .ok (dir.place s.cwd) := by
      rcases Run.rehearse_attempt_cases h with ⟨e, -, he⟩ | ⟨_, hmove, -⟩
      · cases he
      · obtain ⟨t, hrename, -⟩ := Session.change_eq_ok hmove
        rw [hcwd] at hrename
        exact (Tree.rename_eq_ok hrename).1
    rcases Tree.removeDirAll_cases hall with ⟨-, -, hok⟩ | ⟨-, ⟨-, hne, hu⟩ | ⟨hu, hlost⟩⟩
    · exact hok rfl
    · have hthere := (Tree.locateName_eq_ok.1 hname).2.2 w hw
      rw [hu, Tree.node?_prune hne, if_pos hpre] at hthere
      cases hthere
    · have hbare : s₁.tree.node? (dir.place s.cwd) = some .dir := by
        rw [hu, Tree.node?_clear_eq, if_neg (by simp), (Tree.find?_eq_some.1 hdir).2]
      exact hlost rfl _ (Tree.locate_of_locateName hname hbare)

/-- A category that was written lies apart from what the path leads through. -/
theorem apart_of_write {overwrite : Bool} (ht : s.tree.Rooted)
    (hnames : ∀ u ∈ m.units, IsName u.name) (hdir : s.tree.isDir s.cwd input = true)
    (hname : IsName category)
    (hfits : (input.join ⟨category⟩).Fits)
    (h : (m.write (input.join ⟨category⟩) overwrite).rehearse s = (.ok (), s')) :
    ∀ w ∈ input.way s.cwd, ¬ input.place s.cwd ++ [category] <+: w := by
  intro w hw hpre
  have hinput := (Tree.isDir_iff.1 hdir).1.ne_nil
  obtain ⟨hlocate, hnode⟩ := Tree.find?_eq_some.1 (find?_of_way ht hdir hname hfits hw hpre)
  obtain ⟨-, -, hdirs⟩ := Tree.locate_eq_ok.1 hlocate
  rcases write_cases h with ⟨hr, -⟩ | ⟨made, s₁, hmakeDirs, hrest⟩
  · exact hr rfl
  · rw [Host.makeDirs_of_isDir (isDir_container hdir hname hfits)] at hmakeDirs
    cases hmakeDirs
    rcases hrest with ⟨hr, -⟩ | ⟨n, s₂, staged, s₃, -, hmakeDir, hstage, ⟨rfl, -⟩ | ⟨-, hr, -⟩⟩
    · exact hr rfl
    · rcases Run.rehearse_bind_cases hstage with ⟨e, -, he⟩ | ⟨_, s₄, hfill, hmove⟩
      · cases he
      · have hstaging := Path.isEmpty_join (input.join ⟨category⟩).isEmpty_container
          ⟨m.stagingStem ++ Tree.sixDigits n⟩
        obtain ⟨written, hf, -⟩ := (filling_makeDir ht hmakeDir).writeUnits hstaging hnames hfill
        have hsame {q : Place} (hq : s.tree.node? q = some .dir) : s₄.tree.node? q = some .dir := by
          rw [hf.same q (hf.outside ht (by simp [hq])), hq]
        have hfound : s₄.tree.find? s₄.cwd (input.join ⟨category⟩) = some .dir := by
          rw [hf.cwd]
          exact Tree.find?_eq_some.2
            ⟨Tree.locate_eq_ok.2 ⟨rfl, hfits, fun q hq => hsame (hdirs q hq)⟩, hsame hnode⟩
        have hway : w ∈ (input.join ⟨category⟩).way s.cwd := by
          refine (Path.mem_way_join hname hinput hw).resolve_left ?_
          rintro rfl
          have := hpre.length_le
          simp only [List.length_append, List.length_singleton] at this
          omega
        refine moveIntoPlace_ne_ok hfound (w := w) ?_ ?_ hmove rfl
        · rw [hf.cwd, Path.namedPieces_join hname hinput]
          exact hway
        · rw [hf.cwd, Path.place_join_name hname hinput]
          exact hpre
    · exact hr rfl

end Manifest
end Unbundle
