import Unbundle.Proofs.Rehearsal

/-! The places a path leads through. As long as they stay directories, what is done at the end of
the path can fail only for what is there. -/
namespace Unbundle

namespace Path

variable {p : Path} {cwd w : Place} {name more : String}

/-- The places a path leads through, and the one it leads to. -/
def trail (cwd : Place) (p : Path) : List Place := p.way cwd ++ [p.place cwd]

theorem fits_iff : p.Fits ↔ p.text.isEmpty = false ∧ p.text.toList.contains '\x00' = false ∧
    p.text.utf8ByteSize < Tree.pathLimit ∧ ∀ piece ∈ p.pieces, byteLength piece ≤ Tree.nameLimit :=
  ⟨fun h => ⟨h.ne_nil, h.zero, h.length, h.names⟩, fun h => ⟨h.1, h.2.1, h.2.2.1, h.2.2.2⟩⟩

instance : Decidable p.Fits := decidable_of_iff _ fits_iff.symm

theorem base_mem_way (p : Path) (cwd : Place) : p.base cwd ∈ p.way cwd := by
  obtain ⟨q, qs, hq⟩ := List.exists_cons_of_ne_nil (slashPieces_ne_nil p.text.toList)
  rw [way, pieces, hq]
  exact List.mem_cons_self ..

/-- A name leads through no more than the directory it is seen from. -/
theorem mem_trail_of_join (h : IsName name) (hp : p.text.isEmpty = false)
    (hw : w ∈ (p.join ⟨name⟩).way cwd) : w ∈ p.trail cwd := by
  obtain ⟨ps, idle, hpieces, hidle, -, hjoin, habs⟩ := pieces_join (isAbsolute_of_isName h) hp
  rw [way, hjoin, pieces_of_isName h, Tree.stations_append, base, habs, ← base] at hw
  rw [trail, way, place, hpieces, Tree.stations_append, List.foldl_append,
    Tree.foldl_step_of_idle hidle]
  simp only [Tree.stations, List.mem_append, List.mem_singleton] at hw ⊢
  exact hw.imp_left .inl

/-- What the path of a directory leads through, a name in it leads through too. -/
theorem mem_way_join (h : IsName name) (hp : p.text.isEmpty = false) (hw : w ∈ p.way cwd) :
    w = p.place cwd ∨ w ∈ (p.join ⟨name⟩).way cwd := by
  obtain ⟨ps, idle, hpieces, hidle, -, hjoin, habs⟩ := pieces_join (isAbsolute_of_isName h) hp
  rw [way, hpieces, Tree.stations_append, List.mem_append] at hw
  rcases hw with hw | hw
  · rw [way, hjoin, base, habs, ← base, Tree.stations_append]
    exact .inr (List.mem_append_left _ hw)
  · rw [Tree.eq_of_mem_stations hidle hw, place, hpieces, List.foldl_append,
      Tree.foldl_step_of_idle hidle]
    exact .inl rfl

theorem text_join_append (h : IsName name) (p : Path) :
    (p.join ⟨name ++ more⟩).text = (p.join ⟨name⟩).text ++ more := by
  have habs : (⟨name ++ more⟩ : Path).isAbsolute = (⟨name⟩ : Path).isAbsolute := by
    obtain ⟨c, cs, hc⟩ := List.exists_cons_of_ne_nil h.ne_nil
    simp [isAbsolute, hc]
  unfold join
  rw [habs]
  split
  · rfl
  · split <;> simp [String.append_assoc]

/-- A path that is a path stays one when its last name gets shorter. -/
theorem Fits.of_join_append (hp : p.Fits) (hn : IsName name) (hm : IsName (name ++ more))
    (h : (p.join ⟨name ++ more⟩).Fits) : (p.join ⟨name⟩).Fits := by
  have htext : (p.join ⟨name ++ more⟩).text = (p.join ⟨name⟩).text ++ more := text_join_append hn p
  refine ⟨isEmpty_join hp.ne_nil _, ?_, ?_, ?_⟩
  · have hzero := h.zero
    rw [htext] at hzero
    simp_all
  · have hlength := h.length
    rw [htext, String.utf8ByteSize_append] at hlength
    exact Nat.lt_of_le_of_lt (Nat.le_add_right ..) hlength
  · obtain ⟨ps, idle, hpieces, -, -, hjoin, -⟩ := pieces_join (isAbsolute_of_isName hn) hp.ne_nil
    obtain ⟨qs, -, -, -, -, hmore, -⟩ := pieces_join (isAbsolute_of_isName hm) hp.ne_nil
    intro piece hpiece
    rw [hjoin, pieces_of_isName hn] at hpiece
    rcases List.mem_append.1 hpiece with hpiece | hpiece
    · exact hp.names piece (hpieces ▸ List.mem_append_left _ hpiece)
    · have hlong := h.names (name ++ more).toList (by rw [hmore, pieces_of_isName hm]; simp)
      rw [List.mem_singleton.1 hpiece]
      rw [String.toList_append, byteLength_append] at hlong
      omega

/-- The end of the pieces of a path: the last step is the last piece, if that is a step. -/
theorem eq_of_append_idle {ps qs idle : List Text} {q r : Text}
    (h : ps ++ [q] = qs ++ r :: idle) (hq : isIdle q = false)
    (hidle : ∀ i ∈ idle, isIdle i = true) : qs = ps := by
  induction idle using List.reverseRecOn with
  | nil => exact (List.append_inj_left' h rfl).symm
  | append_singleton idle i _ =>
    have h : ps ++ [q] = (qs ++ r :: idle) ++ [i] := by simpa using h
    obtain rfl : q = i := by simpa using List.append_inj_right' h rfl
    rw [hidle q (by simp)] at hq
    cases hq

/-- The directory of a path that ends with a step is reached by all the steps before it. -/
theorem container_of_concat {ps : List Text} {q : Text} (hpieces : p.pieces = ps ++ [q])
    (hq : isIdle q = false) :
    p.container.place cwd = ps.foldl Tree.step (p.base cwd) ∧
      ∀ w ∈ p.container.way cwd, w ∈ p.way cwd := by
  generalize hc : p.container = c
  have hof : ContainerOf p c := hc ▸ containerOf_container p
  cases hof with
  | still hidle =>
    rw [hidle q (by simp [hpieces])] at hq
    cases hq
  | @here r idle idle' hsplit hidle habs =>
    have hps : idle = ps := eq_of_append_idle (hpieces.symm.trans hsplit) hq
      fun i hi => hidle i (List.mem_append_right _ hi)
    have hbase : p.base cwd = cwd := by simp [base, habs]
    refine ⟨?_, ?_⟩
    · rw [← hps, Tree.foldl_step_of_idle fun i hi => hidle i (List.mem_append_left _ hi), hbase]
      rfl
    · intro w hw
      rw [List.mem_singleton.1 (show w ∈ [cwd] from hw)]
      simpa only [hbase] using p.base_mem_way cwd
  | @root r idle idle' hsplit hidle habs =>
    have hps : [] :: idle = ps := eq_of_append_idle (hpieces.symm.trans hsplit) hq
      fun i hi => hidle i (List.mem_append_right _ hi)
    have hbase : p.base cwd = [] := by simp [base, habs]
    refine ⟨?_, ?_⟩
    · rw [← hps, List.foldl_cons, Tree.step_of_isIdle rfl,
        Tree.foldl_step_of_idle fun i hi => hidle i (List.mem_append_left _ hi), hbase]
      rfl
    · intro w hw
      have hw : w = [] := by simpa using (show w ∈ [[], []] from hw)
      rw [hw]
      simpa only [hbase] using p.base_mem_way cwd
  | @pieces r qs idle idle' _ hsplit hidle hqs htext hne habs =>
    have hps : qs ++ idle = ps := eq_of_append_idle (hpieces.symm.trans hsplit) hq
      fun i hi => hidle i (List.mem_append_right _ hi)
    refine ⟨?_, ?_⟩
    · rw [place, hqs, base, habs, ← base, ← hps, List.foldl_append,
        Tree.foldl_step_of_idle fun i hi => hidle i (List.mem_append_left _ hi)]
    · intro w hw
      rw [way, hqs, base, habs, ← base] at hw
      rw [way, hpieces, ← hps, Tree.stations_append, Tree.stations_append]
      exact List.mem_append_left _ (List.mem_append_left _ hw)

/-- The directory of a name is the one it is seen from. -/
theorem container_join (h : IsName name) (hp : p.text.isEmpty = false) :
    (p.join ⟨name⟩).container.place cwd = p.place cwd ∧
      ∀ w ∈ (p.join ⟨name⟩).container.trail cwd, w ∈ p.trail cwd := by
  obtain ⟨ps, idle, hpieces, hidle, -, hjoin, habs⟩ := pieces_join (isAbsolute_of_isName h) hp
  rw [pieces_of_isName h] at hjoin
  have hname : isIdle name.toList = false := by simp [isIdle, h.ne_nil, h.ne_dot]
  obtain ⟨hplace, hway⟩ := container_of_concat hjoin hname
  have heq : (p.join ⟨name⟩).container.place cwd = p.place cwd := by
    rw [hplace, base, habs, ← base, place, hpieces, List.foldl_append,
      Tree.foldl_step_of_idle hidle]
  refine ⟨heq, fun w hw => ?_⟩
  rcases List.mem_append.1 hw with hw | hw
  · exact mem_trail_of_join h hp (hway w hw)
  · rw [List.mem_singleton.1 hw, heq]
    exact List.mem_append_right _ (List.mem_singleton_self _)

theorem Fits.container (h : p.Fits) : p.container.Fits := by
  generalize hc : p.container = c
  have hof : ContainerOf p c := hc ▸ containerOf_container p
  cases hof with
  | still | here => decide
  | root => decide
  | @pieces r qs idle idle' _ hsplit hidle hqs htext hne habs =>
    obtain ⟨rest, hrest⟩ := htext
    have htext : p.text = c.text ++ String.ofList rest := by
      rw [← String.toList_inj, ← hrest]
      simp
    refine ⟨by simpa using hne, ?_, ?_, ?_⟩
    · have hzero := h.zero
      rw [← hrest] at hzero
      simp_all
    · have hlength := h.length
      rw [htext, String.utf8ByteSize_append] at hlength
      exact Nat.lt_of_le_of_lt (Nat.le_add_right ..) hlength
    · intro piece hpiece
      refine h.names piece ?_
      rw [hsplit, ← hqs, List.append_assoc]
      exact List.mem_append_left _ hpiece

theorem namedPieces_join (h : IsName name) (hp : p.text.isEmpty = false) :
    (p.join ⟨name⟩).namedPieces = (p.join ⟨name⟩).pieces := by
  obtain ⟨ps, -, -, -, -, hjoin, -⟩ := pieces_join (isAbsolute_of_isName h) hp
  rw [pieces_of_isName h] at hjoin
  simp [namedPieces, hjoin, h.ne_nil]

theorem getLast?_namedPieces_join (h : IsName name) (hp : p.text.isEmpty = false) :
    (p.join ⟨name⟩).namedPieces.getLast? = some name.toList := by
  obtain ⟨ps, -, -, -, -, hjoin, -⟩ := pieces_join (isAbsolute_of_isName h) hp
  rw [namedPieces_join h hp, hjoin, pieces_of_isName h, List.getLast?_concat]

end Path

namespace Tree

variable {t : Tree} {cwd : Place} {p q : Path}

theorem isDir_iff : t.isDir cwd p = true ↔ p.Fits ∧ ∀ w ∈ p.trail cwd, t.node? w = some .dir := by
  rw [isDir_eq_true, find?_eq_some, locate_eq_ok]
  simp only [true_and, Path.trail, List.mem_append, List.mem_singleton, or_imp, forall_and,
    forall_eq]
  exact and_assoc

theorem locateName_of_locate {place : Place} (h : t.locate cwd p = .ok place) :
    t.locateName cwd p = .ok place := by
  obtain ⟨hplace, hfits, hway⟩ := locate_eq_ok.1 h
  refine locateName_eq_ok.2 ⟨hplace, hfits, fun w hw => hway w ?_⟩
  obtain ⟨idle, hpieces, -⟩ := p.pieces_eq_named
  rw [Path.way, hpieces, stations_append]
  exact List.mem_append_left _ hw

/-- A directory is removed as a whole when its path does not lead through it. -/
theorem removeDirAll_eq_prune {name : String} (hname : IsName name)
    (hlast : p.namedPieces.getLast? = some name.toList) (hdir : t.find? cwd p = some .dir)
    (hne : p.place cwd ≠ []) (hway : ∀ w ∈ p.way cwd, ¬ p.place cwd <+: w) :
    t.removeDirAll cwd p = (.ok (), t.prune (p.place cwd)) := by
  obtain ⟨hlocate, hnode⟩ := find?_eq_some.1 hdir
  obtain ⟨-, hfits, hdirs⟩ := locate_eq_ok.1 hlocate
  have hcleared : (t.clear (p.place cwd)).locate cwd p = .ok (p.place cwd) := by
    refine locate_eq_ok.2 ⟨rfl, hfits, fun w hw => ?_⟩
    rw [node?_clear_eq, if_neg fun h => hway w hw h.1, hdirs w hw]
  have hremoved : (t.clear (p.place cwd)).removeEmpty cwd p = .ok (t.prune (p.place cwd)) := by
    rw [removeEmpty, hcleared]
    simp [hne, hlast, hname.ne_dot, hname.ne_dots, prune]
  rw [removeDirAll, hlocate]
  simp [hnode, hremoved]

theorem rename_eq_graft (hp : t.locate cwd p = .ok (p.place cwd))
    (hthere : (t.node? (p.place cwd)).isSome = true)
    (hq : t.locateName cwd q = .ok (q.place cwd)) (hfree : t.node? (q.place cwd) = none) :
    t.rename cwd p q = .ok (t.graft (p.place cwd) (q.place cwd)) := by
  obtain ⟨n, hn⟩ := Option.isSome_iff_exists.1 hthere
  rw [rename, hp, hq]
  simp [hn, hfree]

end Tree

/-- Where the directory is there already, nothing is made. -/
theorem Host.makeDirs_of_isDir {s : Session} {p : Path} (h : s.tree.isDir s.cwd p = true) :
    (makeDirs p : Rehearsal _) s = (.ok (), s) := by
  obtain ⟨hlocate, hnode⟩ := Tree.find?_eq_some.1 (Tree.isDir_eq_true.1 h)
  have hmake : (makeDir p : Rehearsal _) s = (.error .alreadyThere, s) := by
    change s.change _ = _
    simp [Session.change, Tree.makeDir, Tree.locateName_of_locate hlocate, hnode]
  have hchain : ∃ above, p.ancestors = p :: above := by
    unfold Path.ancestors Path.upwards
    split
    · exact ⟨_, rfl⟩
    · exact ⟨_, rfl⟩
  obtain ⟨above, habove⟩ := hchain
  have hne : p.text.isEmpty = false := (Tree.isDir_iff.1 h).1.ne_nil
  rw [makeDirs, habove, ensureChain_apply, hne, hmake]
  simp [orFound, h]

end Unbundle
