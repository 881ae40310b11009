import Unbundle.Manifest.Write
import Unbundle.Proofs.Rehearsal

/-! What writing a category does to a tree. The staging directory is new, so that nothing that was
there is touched before the category's own directory is replaced. -/
namespace Unbundle

/-- A directory that holds just these files; of two with one name the later one. -/
def holding (us : List UnitFile) : Tree :=
  us.foldl (fun t u => t.put [u.name] (.file (.text u.render))) .empty

theorem node?_holding_concat (us : List UnitFile) (u : UnitFile) (q : Place) :
    (holding (us ++ [u])).node? q =
      if q = [u.name] then some (.file (.text u.render)) else (holding us).node? q := by
  rw [holding, List.foldl_append, List.foldl_cons, List.foldl_nil, Tree.node?_put_of_ne (by simp)]
  rfl

/-- Where all names differ, every file is there. -/
theorem node?_holding_of_mem {us : List UnitFile} {u : UnitFile}
    (hnodup : (us.map UnitFile.name).Nodup) (hu : u ∈ us) :
    (holding us).node? [u.name] = some (.file (.text u.render)) := by
  induction us using List.reverseRecOn with
  | nil => cases hu
  | append_singleton us v ih =>
    rw [List.map_append, List.nodup_append] at hnodup
    obtain ⟨hnodup, -, hne⟩ := hnodup
    rw [node?_holding_concat]
    rcases List.mem_append.1 hu with hu | hu
    · have hname : u.name ≠ v.name := hne _ (List.mem_map_of_mem hu) _ (by simp)
      rw [if_neg (by simpa using hname), ih hnodup hu]
    · rw [List.mem_singleton.1 hu, if_pos rfl]

/-- What is at and below a place is the given directory. -/
def Tree.Holds (t : Tree) (place : Place) (dir : Tree) : Prop :=
  ∀ rest, t.node? (place ++ rest) = dir.node? rest

namespace Manifest

variable {s s' : Session} {dir staging : Path} {us : List UnitFile} {r : Except Failure Unit}

/-- What writing files into a directory leaves: some of them are there, after a success all, and
elsewhere all is as it was. -/
structure Filled (dir : Path) (us more : List UnitFile) (r : Except Failure Unit) (s s' : Session) :
    Prop where
  cwd : s'.cwd = s.cwd
  rooted : s'.tree.Rooted
  same : ∀ q, ¬ dir.place s.cwd <+: q → s'.tree.node? q = s.tree.node? q
  holds : ∃ written, s'.tree.Holds (dir.place s.cwd) (holding (us ++ written)) ∧
    (r = .ok () → written = more)

theorem filled_writeUnits {done : List UnitFile} (ht : s.tree.Rooted)
    (hdir : dir.text.isEmpty = false) (hnames : ∀ u ∈ us, IsName u.name)
    (hdone : s.tree.Holds (dir.place s.cwd) (holding done))
    (h : (writeUnits dir us).rehearse s = (r, s')) : Filled dir done us r s s' := by
  induction us generalizing done s with
  | nil =>
    cases h
    exact ⟨rfl, ht, fun _ _ => rfl, [], by simpa using hdone, fun _ => rfl⟩
  | cons u us ih =>
    rw [writeUnits] at h
    rcases Run.rehearse_attempt_bind_cases h with ⟨e, hwrite, rfl⟩ | ⟨_, s₁, hwrite, h⟩
    · obtain ⟨-, rfl⟩ := Session.change_eq_error hwrite
      exact ⟨rfl, ht, fun _ _ => rfl, [], by simpa using hdone, nofun⟩
    · obtain ⟨t, hput, rfl⟩ := Session.change_eq_ok hwrite
      obtain ⟨-, hnot, rfl⟩ := Tree.writeText_eq_ok hput
      rw [Path.place_join_name (hnames u (List.mem_cons_self ..)) hdir] at hnot h
      have hroot : s.tree.node? (dir.place s.cwd) = some .dir := by
        simpa [Tree.node?_nil] using hdone []
      have hnode (q : Place) := Tree.node?_put_of_ne (t := s.tree) (q := q)
        (p := dir.place s.cwd ++ [u.name]) (n := .file (.text u.render)) (by simp)
      have hnow : (s.tree.put (dir.place s.cwd ++ [u.name]) (.file (.text u.render))).Holds
          (dir.place s.cwd) (holding (done ++ [u])) := by
        intro rest
        simp only [hnode, node?_holding_concat, hdone rest, List.append_cancel_left_eq]
      have hnext := ih (ht.put (by simp) (by simpa using hroot) (.inr hnot))
        (fun v hv => hnames v (List.mem_cons_of_mem _ hv)) hnow h
      refine ⟨hnext.cwd, hnext.rooted, ?_, ?_⟩
      · intro q hq
        have hne : q ≠ dir.place s.cwd ++ [u.name] := by
          rintro rfl
          exact hq (List.prefix_append _ _)
        rw [hnext.same q hq, hnode, if_neg hne]
      · obtain ⟨written, hholds, hall⟩ := hnext.holds
        exact ⟨u :: written, by simpa using hholds, fun hr => by rw [hall hr]⟩

/-- What moving the staging directory leaves. After a success everything at `dir` was taken away,
and the staging directory is there instead. A failure touches nothing outside `dir`, and no file. -/
structure Moved (staging dir : Path) (r : Except Failure Unit) (s s' : Session) : Prop where
  cwd : s'.cwd = s.cwd
  done : r = .ok () → ∃ t : Tree, t.Rooted ∧ t.node? (dir.place s.cwd).dropLast = some .dir ∧
    (t.node? (staging.place s.cwd)).isSome = true ∧ t.node? (dir.place s.cwd) = none ∧
    (∀ q, ¬ dir.place s.cwd <+: q → t.node? q = s.tree.node? q) ∧
    s'.tree = t.graft (staging.place s.cwd) (dir.place s.cwd)
  file : r = .ok () → ∀ c, s.tree.node? (dir.place s.cwd) ≠ some (.file c)
  failed : r ≠ .ok () → ∀ q,
    (dir.place s.cwd <+: q → ∃ c, s.tree.node? (dir.place s.cwd) = some (.file c)) →
      s'.tree.node? q = s.tree.node? q

/-- The last step of the move: where there is no directory in the way, it can only succeed at a
place where there is nothing. -/
theorem rename_rehearse {context : String} (ht : s.tree.Rooted)
    (hfree : s.tree.find? s.cwd dir ≠ some .dir)
    (h : (Run.attempt context (Host.rename staging dir)).rehearse s = (r, s')) :
    s'.cwd = s.cwd ∧ (r ≠ .ok () → s' = s) ∧
      (r = .ok () → s.tree.node? (dir.place s.cwd).dropLast = some .dir ∧
        (s.tree.node? (staging.place s.cwd)).isSome = true ∧ s.tree.node? (dir.place s.cwd) = none ∧
        s'.tree = s.tree.graft (staging.place s.cwd) (dir.place s.cwd)) := by
  rcases Run.rehearse_attempt_cases h with ⟨e, hmove, rfl⟩ | ⟨_, hmove, rfl⟩
  · obtain ⟨-, rfl⟩ := Session.change_eq_error hmove
    exact ⟨rfl, fun _ => rfl, nofun⟩
  · obtain ⟨t, hrename, rfl⟩ := Session.change_eq_ok hmove
    obtain ⟨hname, hsource, hdir | ⟨hnone, rfl⟩⟩ := Tree.rename_eq_ok hrename
    · exact absurd (Tree.find?_eq_some.2 ⟨Tree.locate_of_locateName hname hdir, hdir⟩) hfree
    · exact ⟨rfl, fun hr => absurd rfl hr,
        fun _ => ⟨ht.dir_of_locateName hname, hsource, hnone, rfl⟩⟩

theorem moved_moveIntoPlace (ht : s.tree.Rooted)
    (h : (moveIntoPlace staging dir).rehearse s = (r, s')) : Moved staging dir r s s' := by
  unfold moveIntoPlace at h
  rw [Run.rehearse_ask_bind, Host.isThere_apply] at h
  cases hthere : s.tree.find? s.cwd dir with
  | none =>
    simp only [hthere, Option.isSome_none, Bool.false_eq_true, if_false] at h
    obtain ⟨hcwd, hsame, hdone⟩ := rename_rehearse ht (by simp [hthere]) h
    refine ⟨hcwd, ?_, ?_, ?_⟩
    · intro hr
      obtain ⟨hparent, hsource, hnone, hmoved⟩ := hdone hr
      exact ⟨s.tree, ht, hparent, hsource, hnone, fun _ _ => rfl, hmoved⟩
    · intro hr c
      simp [(hdone hr).2.2.1]
    · intro hr q _
      rw [hsame hr]
  | some n =>
    simp only [hthere, Option.isSome_some, if_true] at h
    have hkept {u : Tree} (hdir : s.tree.find? s.cwd dir = some .dir)
        (hu : u = s.tree.prune (dir.place s.cwd) ∧ dir.place s.cwd ≠ [] ∨
          u = s.tree.clear (dir.place s.cwd)) (q : Place)
        (hq : dir.place s.cwd <+: q → ∃ c, s.tree.node? (dir.place s.cwd) = some (.file c)) :
        u.node? q = s.tree.node? q := by
      have hnot : ¬ dir.place s.cwd <+: q := by
        intro hpre
        obtain ⟨c, hc⟩ := hq hpre
        rw [(Tree.find?_eq_some.1 hdir).2] at hc
        cases hc
      rcases hu with ⟨rfl, hne⟩ | rfl
      · rw [Tree.node?_prune hne, if_neg hnot]
      · rw [Tree.node?_clear_eq, if_neg fun h => hnot h.1]
    rcases Run.rehearse_attempt_bind_cases h with ⟨e, hremove, rfl⟩ | ⟨_, s₁, hremove, h⟩
    · obtain ⟨hall, hcwd⟩ := Session.removeDirAll_eq hremove
      refine ⟨hcwd, nofun, nofun, fun _ q hq => ?_⟩
      rcases Tree.removeDirAll_cases hall with ⟨-, heq, -⟩ | ⟨hdir, ⟨hok, -⟩ | ⟨hu, -⟩⟩
      · rw [heq]
      · cases hok
      · exact hkept hdir (.inr hu) q hq
    · obtain ⟨hall, hcwd⟩ := Session.removeDirAll_eq hremove
      rcases Tree.removeDirAll_cases hall with ⟨-, -, hok⟩ | ⟨hdir, ⟨-, hne, hu⟩ | ⟨hu, hlost⟩⟩
      · exact absurd rfl hok
      · have hnone : s₁.tree.node? (dir.place s.cwd) = none := by
          rw [hu, Tree.node?_prune hne, if_pos (List.prefix_refl _)]
        have hfree : s₁.tree.find? s₁.cwd dir ≠ some .dir := by
          rw [ne_eq, Tree.find?_eq_some, hcwd, hnone]
          simp
        obtain ⟨hcwd', hsame, hdone⟩ := rename_rehearse (hu ▸ ht.prune hne) hfree h
        rw [hcwd] at hdone
        refine ⟨hcwd'.trans hcwd, ?_, ?_, ?_⟩
        · intro hr
          obtain ⟨hparent, hsource, -, hmoved⟩ := hdone hr
          refine ⟨s₁.tree, hu ▸ ht.prune hne, hparent, hsource, hnone, ?_, hmoved⟩
          intro q hq
          rw [hu, Tree.node?_prune hne, if_neg hq]
        · intro _ c hc
          rw [(Tree.find?_eq_some.1 hdir).2] at hc
          cases hc
        · intro hr q hq
          rw [hsame hr]
          exact hkept hdir (.inl ⟨hu, hne⟩) q hq
      · have hfree : s₁.tree.find? s₁.cwd dir ≠ some .dir := by
          rw [ne_eq, Tree.find?_eq_some, hcwd]
          exact fun hfound => hlost rfl _ hfound.1
        obtain ⟨hcwd', hsame, hdone⟩ := rename_rehearse (hu ▸ ht.clear _) hfree h
        have hfailed : r ≠ .ok () := by
          intro hr
          have hnone := (hdone hr).2.2.1
          rw [hcwd, hu, Tree.node?_clear_eq, if_neg (by simp),
            (Tree.find?_eq_some.1 hdir).2] at hnone
          cases hnone
        refine ⟨hcwd'.trans hcwd, fun hr => absurd hr hfailed, fun hr => absurd hr hfailed, ?_⟩
        intro hr q hq
        rw [hsame hr]
        exact hkept hdir (.inr hu) q hq

def stagingPath (m : Manifest) (dir : Path) (n : Nat) : Path :=
  dir.container.join ⟨m.stagingStem ++ Tree.sixDigits n⟩

def stage (m : Manifest) (staging dir : Path) : Run Rehearsal Unit := do
  writeUnits staging m.units
  moveIntoPlace staging dir

/-- How far the writing of a category can get: it is refused, it finds no place for its staging
directory, or it fills that directory and moves it; if it fails there, the staging directory is
removed. -/
theorem write_cases {m : Manifest} {overwrite : Bool}
    (h : (m.write dir overwrite).rehearse s = (r, s')) :
    (r ≠ .ok () ∧ s' = s) ∨
      ∃ made s₁, (Host.makeDirs dir.container : Rehearsal _) s = (made, s₁) ∧
        ((r ≠ .ok () ∧ s' = s₁) ∨
          ∃ n s₂ staged s₃, made = .ok () ∧
            (Host.makeDir (m.stagingPath dir n) : Rehearsal _) s₁ = (.ok (), s₂) ∧
            (m.stage (m.stagingPath dir n) dir).rehearse s₂ = (staged, s₃) ∧
            (staged = .ok () ∧ r = .ok () ∧ s'.tree = s₃.tree ∧ s'.cwd = s₃.cwd ∨
              staged ≠ .ok () ∧ r ≠ .ok () ∧ s' = (s₃.removeDirAll (m.stagingPath dir n)).2)) := by
  unfold write at h
  rw [Run.rehearse_ask_bind, Host.isThere_apply] at h
  simp only at h
  split at h
  · rw [Run.rehearse_bind, Run.rehearse_fail] at h
    cases h
    exact .inl ⟨nofun, rfl⟩
  · refine .inr ?_
    rcases Run.rehearse_attempt_bind_cases h with ⟨e, hmake, rfl⟩ | ⟨_, s₁, hmake, h⟩
    · exact ⟨_, _, hmake, .inl ⟨nofun, rfl⟩⟩
    · refine ⟨_, s₁, hmake, ?_⟩
      rcases Run.rehearse_attempt_bind_cases h with ⟨e, htemp, rfl⟩ | ⟨staging, s₂, htemp, h⟩
      · exact .inl ⟨nofun, Session.makeTempDir_eq_error htemp⟩
      · obtain ⟨t, hnew, rfl⟩ := Session.makeTempDir_eq_ok htemp
        obtain ⟨n, rfl, hdir⟩ := Tree.makeTempDir_eq_ok hnew
        have hmade : (Host.makeDir (m.stagingPath dir n) : Rehearsal _) s₁ =
            (.ok (), { s₁ with tree := t }) := by
          change s₁.change _ = _
          rw [Session.change, stagingPath, hdir]
        obtain ⟨staged, s₃, hstage, hend⟩ := Run.rehearse_onFailure_bind_cases h
        refine .inr ⟨n, _, staged, s₃, rfl, hmade, hstage, ?_⟩
        rcases hend with ⟨_, rfl, hend⟩ | ⟨e, rfl, rfl, rfl⟩
        · cases hend
          exact .inl ⟨rfl, rfl, rfl, rfl⟩
        · exact .inr ⟨nofun, nofun, rfl⟩

theorem prefix_dropLast {a b : Place} (h : a <+: b) : a = b ∨ a <+: b.dropLast := by
  induction b using List.reverseRecOn with
  | nil => exact .inl (List.prefix_nil.1 h)
  | append_singleton b name _ => simpa using List.prefix_concat_iff.1 h

/-- A staging directory while it is filled: it is new, it holds some files, and all else is as it
was. -/
structure Filling (staging : Path) (us : List UnitFile) (s s' : Session) : Prop where
  cwd : s'.cwd = s.cwd
  rooted : s'.tree.Rooted
  new : s.tree.node? (staging.place s.cwd) = none
  holds : s'.tree.Holds (staging.place s.cwd) (holding us)
  same : ∀ q, ¬ staging.place s.cwd <+: q → s'.tree.node? q = s.tree.node? q

theorem filling_makeDir (ht : s.tree.Rooted)
    (h : (Host.makeDir staging : Rehearsal _) s = (.ok (), s')) : Filling staging [] s s' := by
  obtain ⟨t, hmade, rfl⟩ := Session.change_eq_ok h
  obtain ⟨hrooted, -, -⟩ := ht.makeDir hmade
  obtain ⟨-, hnew, rfl⟩ := Tree.makeDir_eq_ok.1 hmade
  have hne := Tree.ne_nil_of_none hnew
  refine ⟨rfl, hrooted, hnew, ?_, ?_⟩
  · intro rest
    rw [Tree.node?_put_of_ne hne]
    cases rest with
    | nil => simp [Tree.node?_nil]
    | cons name rest =>
      rw [if_neg (by simp), ht.none_below (List.prefix_append _ _) hnew]
      rfl
  · intro q hq
    rw [Tree.node?_put_of_ne hne, if_neg]
    rintro rfl
    exact hq (List.prefix_refl _)

namespace Filling

theorem writeUnits {s₁ : Session} (hf : Filling staging [] s s₁)
    (hstaging : staging.text.isEmpty = false) (hnames : ∀ u ∈ us, IsName u.name)
    (h : (Manifest.writeUnits staging us).rehearse s₁ = (r, s')) :
    ∃ written, Filling staging written s s' ∧ (r = .ok () → written = us) := by
  obtain ⟨hcwd, hrooted, hnew, hempty, hput⟩ := hf
  rw [← hcwd] at hempty
  obtain ⟨hcwd', hrooted', hsame, written, hholds, hall⟩ :=
    filled_writeUnits hrooted hstaging hnames hempty h
  rw [hcwd] at hsame hholds
  exact ⟨written, ⟨hcwd'.trans hcwd, hrooted', hnew, by simpa using hholds,
    fun q hq => (hsame q hq).trans (hput q hq)⟩, hall⟩

/-- What was there before is not in the staging directory. -/
theorem outside (hf : Filling staging us s s') (ht : s.tree.Rooted) {q : Place}
    (hq : (s.tree.node? q).isSome = true) : ¬ staging.place s.cwd <+: q := by
  intro hpre
  rw [ht.none_below hpre hf.new] at hq
  cases hq

theorem isDir (hf : Filling staging us s s') : s'.tree.node? (staging.place s.cwd) = some .dir := by
  simpa [Tree.node?_nil] using hf.holds []

end Filling

/-- What filling a new staging directory and moving it leaves. -/
structure Staged (m : Manifest) (staging dir : Path) (r : Except Failure Unit) (s s' : Session) :
    Prop where
  cwd : s'.cwd = s.cwd
  rooted : r = .ok () → s'.tree.Rooted
  holds : r = .ok () → s'.tree.Holds (dir.place s.cwd) (holding m.units)
  same : r = .ok () → ∀ q, ¬ dir.place s.cwd <+: q → s'.tree.node? q = s.tree.node? q
  file : r = .ok () → ∀ c, s.tree.node? (dir.place s.cwd) ≠ some (.file c)
  failed : r ≠ .ok () → ∀ q, ¬ staging.place s.cwd <+: q →
    (dir.place s.cwd <+: q → ∃ c, s.tree.node? (dir.place s.cwd) = some (.file c)) →
      s'.tree.node? q = s.tree.node? q

theorem Filling.staged {m : Manifest} {s₁ : Session} (hf : Filling staging m.units s s₁)
    (ht : s.tree.Rooted) (hparent : s.tree.node? (dir.container.place s.cwd) = some .dir)
    (hmoved : Moved staging dir r s₁ s') : Staged m staging dir r s s' := by
  obtain ⟨hcwd, hdone, hfile, hfailed⟩ := hmoved
  rw [hf.cwd] at hdone hfile hfailed
  have hne := Tree.ne_nil_of_none hf.new
  have hapart {t : Tree} (htr : t.Rooted)
      (hsource : (t.node? (staging.place s.cwd)).isSome = true)
      (hnone : t.node? (dir.place s.cwd) = none) :
      ¬ dir.place s.cwd <+: staging.place s.cwd ∧ ¬ staging.place s.cwd <+: dir.place s.cwd := by
    have hnot : ¬ dir.place s.cwd <+: staging.place s.cwd := by
      intro hpre
      rw [htr.none_below hpre hnone] at hsource
      cases hsource
    refine ⟨hnot, fun hpre => ?_⟩
    rcases prefix_dropLast hpre with heq | hpre
    · exact hnot (heq ▸ List.prefix_refl _)
    · exact hf.outside ht (by simp [hparent]) (hpre.trans (dir.prefix_dropLast_place s.cwd))
  refine ⟨hcwd.trans hf.cwd, ?_, ?_, ?_, ?_, ?_⟩
  · intro hr
    obtain ⟨t, htr, hup, hsource, hnone, -, heq⟩ := hdone hr
    rw [heq]
    refine htr.graft hne hnone hup fun hpre => ?_
    exact (hapart htr hsource hnone).2 (hpre.trans (List.dropLast_prefix _))
  · intro hr rest
    obtain ⟨t, htr, -, hsource, hnone, hrest, heq⟩ := hdone hr
    have hap := hapart htr hsource hnone
    rw [heq, Tree.node?_graft_append hne (Tree.ne_nil_of_none hnone)
      fun q hq => htr.none_below hq hnone, hrest, hf.holds rest]
    intro hpre
    rcases List.prefix_or_prefix_of_prefix hpre (List.prefix_append _ rest) with hor | hor
    · exact hap.1 hor
    · exact hap.2 hor
  · intro hr q hq
    obtain ⟨t, htr, -, hsource, hnone, hrest, heq⟩ := hdone hr
    rw [heq, Tree.node?_graft_of_apart hne hq]
    split
    · rename_i hpre
      exact (ht.none_below hpre hf.new).symm
    · rename_i hpre
      rw [hrest q hq, hf.same q hpre]
  · intro hr c hc
    refine hfile hr c ?_
    rw [hf.same _ (hf.outside ht (by simp [hc])), hc]
  · intro hr q hq hfile'
    rw [hfailed hr q ?_, hf.same q hq]
    intro hpre
    obtain ⟨c, hc⟩ := hfile' hpre
    exact ⟨c, by rw [hf.same _ (hf.outside ht (by simp [hc])), hc]⟩

theorem staged_stage {m : Manifest} {s₁ : Session} (ht : s.tree.Rooted)
    (hnames : ∀ u ∈ m.units, IsName u.name) (hstaging : staging.text.isEmpty = false)
    (hparent : s.tree.node? (dir.container.place s.cwd) = some .dir)
    (hmake : (Host.makeDir staging : Rehearsal _) s = (.ok (), s₁))
    (h : (m.stage staging dir).rehearse s₁ = (r, s')) : Staged m staging dir r s s' := by
  have hnew := filling_makeDir ht hmake
  rcases Run.rehearse_bind_cases h with ⟨e, hfill, rfl⟩ | ⟨_, s₂, hfill, hmove⟩
  · obtain ⟨written, hf, -⟩ := hnew.writeUnits hstaging hnames hfill
    exact ⟨hf.cwd, nofun, nofun, nofun, nofun, fun _ q hq _ => hf.same q hq⟩
  · obtain ⟨written, hf, hall⟩ := hnew.writeUnits hstaging hnames hfill
    obtain rfl := hall rfl
    exact hf.staged ht hparent (moved_moveIntoPlace hf.rooted hmove)

/-- What writing a category leaves. Whatever was outside its directory stays, and so does a file in
the directory's place; after a success the directory holds the category's files, and nothing but
directories is new elsewhere. -/
structure Wrote (m : Manifest) (dir : Path) (r : Except Failure Unit) (s s' : Session) : Prop where
  cwd : s'.cwd = s.cwd
  kept : ∀ q n, s.tree.node? q = some n →
    (dir.place s.cwd <+: q → ∃ c, s.tree.node? (dir.place s.cwd) = some (.file c)) →
      s'.tree.node? q = some n
  rooted : r = .ok () → s'.tree.Rooted
  holds : r = .ok () → s'.tree.Holds (dir.place s.cwd) (holding m.units)
  grown : r = .ok () → ∃ t, s.tree.Grown t ∧
    ∀ q, ¬ dir.place s.cwd <+: q → s'.tree.node? q = t.node? q

theorem wrote_write {m : Manifest} {overwrite : Bool} (ht : s.tree.Rooted)
    (hnames : ∀ u ∈ m.units, IsName u.name)
    (h : (m.write dir overwrite).rehearse s = (r, s')) : Wrote m dir r s s' := by
  rcases write_cases h with ⟨hr, rfl⟩ | ⟨made, s₁, hmakeDirs, hrest⟩
  · exact ⟨rfl, fun _ _ hq _ => hq, fun hok => absurd hok hr, fun hok => absurd hok hr,
      fun hok => absurd hok hr⟩
  · have hmade := Host.made_makeDirs ht dir.isEmpty_container hmakeDirs
    rcases hrest with ⟨hr, rfl⟩ | ⟨n, s₂, staged, s₃, rfl, hmakeDir, hstage, hend⟩
    · exact ⟨hmade.cwd, fun _ _ hq _ => hmade.grown.node?_eq hq, fun hok => absurd hok hr,
        fun hok => absurd hok hr, fun hok => absurd hok hr⟩
    · have hstaging := Path.isEmpty_join dir.isEmpty_container ⟨m.stagingStem ++ Tree.sixDigits n⟩
      have hparent := hmade.dir rfl
      rw [← hmade.cwd] at hparent
      have hst := staged_stage hmade.rooted hnames hstaging hparent hmakeDir hstage
      obtain ⟨hcwd, hrooted, hholds, hsame, hfile, hfailed⟩ := hst
      rw [hmade.cwd] at hcwd hholds hsame hfile hfailed
      have hfree : s₁.tree.node? ((m.stagingPath dir n).place s.cwd) = none := by
        obtain ⟨t, hnew, -⟩ := Session.change_eq_ok hmakeDir
        rw [← hmade.cwd]
        exact (Tree.makeDir_eq_ok.1 hnew).2.1
      have hout {q : Place} {x : Node} (hq : s.tree.node? q = some x) :
          ¬ (m.stagingPath dir n).place s.cwd <+: q := by
        intro hpre
        have := hmade.rooted.none_below hpre hfree
        rw [hmade.grown.node?_eq hq] at this
        cases this
      rcases hend with ⟨rfl, rfl, htree, hcwd'⟩ | ⟨hnot, hr, rfl⟩
      · rw [← htree] at hrooted hholds hsame
        refine ⟨hcwd'.trans hcwd, ?_, hrooted, hholds, fun hok => ⟨s₁.tree, hmade.grown, hsame hok⟩⟩
        intro q x hq hor
        rw [hsame rfl q ?_, hmade.grown.node?_eq hq]
        intro hpre
        obtain ⟨c, hc⟩ := hor hpre
        exact hfile rfl c (hmade.grown.node?_eq hc)
      · rcases hclean : s₃.removeDirAll (m.stagingPath dir n) with ⟨result, s₄⟩
        obtain ⟨hall, hcwd'⟩ := Session.removeDirAll_eq hclean
        refine ⟨hcwd'.trans hcwd, ?_, fun hok => absurd hok hr, fun hok => absurd hok hr,
          fun hok => absurd hok hr⟩
        intro q x hq hor
        have hkept : s₄.tree.node? q = s₃.tree.node? q := by
          have hleft : ¬ (m.stagingPath dir n).place s₃.cwd <+: q := hcwd ▸ hout hq
          have hsame : (s₃.tree.removeDirAll s₃.cwd (m.stagingPath dir n)).2.node? q =
            s₃.tree.node? q := Tree.node?_removeDirAll hleft
          rwa [hall] at hsame
        rw [hkept, hfailed hnot q (hout hq) ?_, hmade.grown.node?_eq hq]
        intro hpre
        obtain ⟨c, hc⟩ := hor hpre
        exact ⟨c, hmade.grown.node?_eq hc⟩

end Manifest
end Unbundle
