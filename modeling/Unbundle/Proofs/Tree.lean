import Unbundle.Proofs.Tree.Rooted

/-! What the file operations do to a tree, read through what is at each place. -/
namespace Unbundle

namespace Path

def way (cwd : Place) (p : Path) : List Place := Tree.stations (p.base cwd) p.pieces

/-- The path is a path as far as its text goes. -/
structure Fits (p : Path) : Prop where
  ne_nil : p.text.isEmpty = false
  zero : p.text.toList.contains '\x00' = false
  length : p.text.utf8ByteSize < Tree.pathLimit
  names : ∀ piece ∈ p.pieces, byteLength piece ≤ Tree.nameLimit

theorem pieces_eq_named (p : Path) :
    ∃ idle, p.pieces = p.namedPieces ++ idle ∧ ∀ i ∈ idle, i = [] := by
  refine ⟨(p.pieces.reverse.takeWhile List.isEmpty).reverse, ?_, ?_⟩
  · rw [namedPieces, ← List.reverse_append, List.takeWhile_append_dropWhile, List.reverse_reverse]
  · intro i hi
    have := List.all_takeWhile (p := List.isEmpty) (l := p.pieces.reverse)
    rw [List.all_eq_true] at this
    exact List.isEmpty_iff.1 (this i (List.mem_reverse.1 hi))

theorem place_eq_named (p : Path) (cwd : Place) :
    p.place cwd = p.namedPieces.foldl Tree.step (p.base cwd) := by
  obtain ⟨idle, hpieces, hidle⟩ := p.pieces_eq_named
  rw [place, hpieces, List.foldl_append, Tree.foldl_step_of_idle fun i hi => hidle i hi ▸ rfl]

end Path

namespace Tree

variable {t u : Tree} {cwd place : Place} {p : Path}

theorem reach_eq_ok {pieces : List Text} :
    t.reach cwd p pieces = .ok place ↔ (p.text.isEmpty = false ∧
      p.text.toList.contains '\x00' = false ∧ p.text.utf8ByteSize < pathLimit) ∧
      t.follow (p.base cwd) pieces = .ok place := by
  unfold reach
  split
  · rename_i h₁
    simp [h₁]
  · rename_i h₁
    split
    · rename_i h₂
      refine ⟨nofun, ?_⟩
      rintro ⟨⟨-, h, -⟩, -⟩
      rw [h₂] at h
      cases h
    · rename_i h₂
      split
      · rename_i h₃
        refine ⟨nofun, ?_⟩
        rintro ⟨⟨-, -, h⟩, -⟩
        omega
      · rename_i h₃
        rw [Bool.not_eq_true] at h₁ h₂
        exact ⟨fun h => ⟨⟨h₁, h₂, by omega⟩, h⟩, fun h => h.2⟩

/-- Where a path leads to, and when. -/
theorem locate_eq_ok :
    t.locate cwd p = .ok place ↔
      place = p.place cwd ∧ p.Fits ∧ ∀ w ∈ p.way cwd, t.node? w = some .dir := by
  rw [locate, reach_eq_ok, follow_eq_ok]
  constructor
  · rintro ⟨⟨h₁, h₂, h₃⟩, h, hway, hnames⟩
    exact ⟨h, ⟨h₁, h₂, h₃, hnames⟩, hway⟩
  · rintro ⟨h, hp, hway⟩
    exact ⟨⟨hp.ne_nil, hp.zero, hp.length⟩, h, hway, hp.names⟩

/-- The place that a path names is the one it leads to, and it can be found from the directory above
it. -/
theorem locateName_eq_ok :
    t.locateName cwd p = .ok place ↔
      place = p.place cwd ∧ p.Fits ∧
        ∀ w ∈ stations (p.base cwd) p.namedPieces, t.node? w = some .dir := by
  obtain ⟨idle, hpieces, hidle⟩ := p.pieces_eq_named
  have hnames : (∀ piece ∈ p.pieces, byteLength piece ≤ nameLimit) ↔
      ∀ piece ∈ p.namedPieces, byteLength piece ≤ nameLimit := by
    rw [hpieces]
    constructor
    · exact fun h piece hp => h piece (List.mem_append_left _ hp)
    · intro h piece hp
      rcases List.mem_append.1 hp with hp | hp
      · exact h piece hp
      · simp [hidle piece hp]
  rw [locateName, reach_eq_ok, follow_eq_ok, ← p.place_eq_named]
  constructor
  · rintro ⟨⟨h₁, h₂, h₃⟩, h, hway, hshort⟩
    exact ⟨h, ⟨h₁, h₂, h₃, hnames.2 hshort⟩, hway⟩
  · rintro ⟨h, hp, hway⟩
    exact ⟨⟨hp.ne_nil, hp.zero, hp.length⟩, h, hway, hnames.1 hp.names⟩

/-- A directory that a path names is one that the path leads to. -/
theorem locate_of_locateName (h : t.locateName cwd p = .ok place)
    (hdir : t.node? place = some .dir) : t.locate cwd p = .ok place := by
  obtain ⟨rfl, hp, hway⟩ := locateName_eq_ok.1 h
  refine locate_eq_ok.2 ⟨rfl, hp, ?_⟩
  obtain ⟨idle, hpieces, hidle⟩ := p.pieces_eq_named
  intro w hw
  rw [Path.way, hpieces, stations_append, List.mem_append, ← p.place_eq_named] at hw
  rcases hw with hw | hw
  · exact hway w hw
  · rw [eq_of_mem_stations (fun i hi => hidle i hi ▸ rfl) hw, hdir]

/-- What is above a place that a path names is a directory. -/
theorem Rooted.dir_of_locateName (ht : t.Rooted) (h : t.locateName cwd p = .ok place) :
    t.node? place.dropLast = some .dir := by
  obtain ⟨rfl, hp, hway⟩ := locateName_eq_ok.1 h
  obtain ⟨idle, hpieces, hidle⟩ := p.pieces_eq_named
  rw [p.place_eq_named]
  by_cases hne : p.namedPieces = []
  · obtain ⟨piece, rest, hfirst⟩ := List.exists_cons_of_ne_nil (slashPieces_ne_nil p.text.toList)
    rw [hne, List.nil_append] at hpieces
    have hnil : piece = [] := hidle piece (by
      rw [← hpieces, Path.pieces, hfirst]
      exact List.mem_cons_self ..)
    rcases (Path.head_pieces hfirst).1 hnil with habs | hempty
    · simp [hne, Path.base, habs, node?_nil]
    · have := hp.ne_nil
      simp_all
  · exact ht.dir_dropLast hne hway

theorem find?_eq_some {n : Node} :
    t.find? cwd p = some n ↔
      t.locate cwd p = .ok (p.place cwd) ∧ t.node? (p.place cwd) = some n := by
  unfold find?
  cases h : t.locate cwd p with
  | ok place =>
    obtain ⟨rfl, -⟩ := locate_eq_ok.1 h
    simp
  | error e => simp

/-- Nothing is found by a path that is too long. -/
theorem find?_eq_none_of_size (h : pathLimit ≤ p.text.utf8ByteSize) : t.find? cwd p = none := by
  rw [Option.eq_none_iff_forall_ne_some]
  intro n hn
  have hfits := (locate_eq_ok.1 (find?_eq_some.1 hn).1).2.1
  have := hfits.length
  omega

theorem isDir_eq_true : t.isDir cwd p = true ↔ t.find? cwd p = some .dir := beq_iff_eq

theorem isFile_eq_true : t.isFile cwd p = true ↔ ∃ c, t.find? cwd p = some (.file c) := by
  unfold isFile
  split
  · rename_i c h
    simp [h]
  · rename_i h
    simpa using h

theorem readText_eq_ok {text : String} (h : t.readText cwd p = .ok text) :
    t.find? cwd p = some (.file (.text text)) := by
  unfold readText at h
  split at h
  · cases h
  · rename_i place hplace
    rw [find?, hplace]
    split at h <;> cases h
    assumption

theorem readText_of_text {text : String} (h : t.find? cwd p = some (.file (.text text))) :
    t.readText cwd p = .ok text := by
  obtain ⟨hlocate, hnode⟩ := find?_eq_some.1 h
  rw [readText, hlocate]
  simp only [hnode]

theorem makeDir_eq_ok : t.makeDir cwd p = .ok u ↔ t.locateName cwd p = .ok (p.place cwd) ∧
    t.node? (p.place cwd) = none ∧ u = t.put (p.place cwd) .dir := by
  unfold makeDir
  cases h : t.locateName cwd p with
  | error e => simp
  | ok place =>
    obtain ⟨rfl, -⟩ := locateName_eq_ok.1 h
    cases hn : t.node? (p.place cwd) with
    | none => simp [hn, eq_comm]
    | some n => simp [hn]

theorem makeTempDir_eq_ok {parent : Path} {stem : String}
    (h : t.makeTempDir cwd parent stem = .ok (p, u)) :
    ∃ n, p = parent.join ⟨stem ++ sixDigits n⟩ ∧ t.makeDir cwd p = .ok u := by
  unfold makeTempDir at h
  simp only at h
  split at h
  · cases h
  · rename_i q hq
    obtain ⟨n, -, rfl⟩ := List.mem_map.1 (List.mem_of_find?_eq_some hq)
    cases hm : t.makeDir cwd (parent.join ⟨stem ++ sixDigits n⟩) with
    | error e =>
      rw [hm] at h
      cases h
    | ok made =>
      rw [hm] at h
      cases h
      exact ⟨n, rfl, hm⟩

theorem writeText_eq_ok {text : String} (h : t.writeText cwd p text = .ok u) :
    t.locateName cwd p = .ok (p.place cwd) ∧ t.node? (p.place cwd) ≠ some .dir ∧
      u = t.put (p.place cwd) (.file (.text text)) := by
  unfold writeText at h
  split at h
  · cases h
  · rename_i place hplace
    obtain ⟨rfl, -⟩ := locateName_eq_ok.1 hplace
    split at h
    · cases h
    · split at h
      · cases h
      · rename_i hnot
        cases h
        exact ⟨hplace, hnot, rfl⟩

theorem removeFile_eq_ok : t.removeFile cwd p = .ok u ↔ t.locate cwd p = .ok (p.place cwd) ∧
    (∃ c, t.node? (p.place cwd) = some (.file c)) ∧ u = t.drop (p.place cwd) := by
  unfold removeFile
  cases h : t.locate cwd p with
  | error e => simp
  | ok place =>
    obtain ⟨rfl, -⟩ := locate_eq_ok.1 h
    cases hn : t.node? (p.place cwd) with
    | none => simp [hn]
    | some n => cases n <;> simp [hn, eq_comm]

/-- What is left after the removal of a directory: all of it when there was none, nothing, or the
bare directory. The last is taken for a success when the path is lost. -/
theorem removeDirAll_cases {r : Except DiskError Unit} (h : t.removeDirAll cwd p = (r, u)) :
    (t.find? cwd p ≠ some .dir ∧ u = t ∧ r ≠ .ok ()) ∨
      t.find? cwd p = some .dir ∧
        ((r = .ok () ∧ p.place cwd ≠ [] ∧ u = t.prune (p.place cwd)) ∨
          u = t.clear (p.place cwd) ∧ (r = .ok () → ∀ q, u.locate cwd p ≠ .ok q)) := by
  rw [ne_eq, find?_eq_some]
  unfold removeDirAll at h
  cases hl : t.locate cwd p with
  | error e =>
    simp only [hl, Prod.mk.injEq] at h
    exact .inl ⟨by simp, h.2.symm, by simp [← h.1]⟩
  | ok place =>
    obtain ⟨rfl, -⟩ := locate_eq_ok.1 hl
    simp only [hl] at h
    split at h
    · rename_i hn
      cases h
      exact .inl ⟨by simp [hn], rfl, by simp⟩
    · rename_i hn
      cases h
      exact .inl ⟨by simp [hn], rfl, by simp⟩
    · rename_i hn
      refine .inr ⟨⟨rfl, hn⟩, ?_⟩
      split at h
      · rename_i removed hremoved
        cases h
        unfold removeEmpty at hremoved
        split at hremoved
        · cases hremoved
        · rename_i place hplace
          obtain ⟨rfl, -⟩ := locate_eq_ok.1 hplace
          repeat' split at hremoved
          all_goals cases hremoved
          exact .inl ⟨rfl, ‹_›, rfl⟩
      · rename_i hlost
        cases h
        refine .inr ⟨rfl, fun _ q hq => ?_⟩
        unfold removeEmpty at hlost
        rw [hq] at hlost
        simp only at hlost
        repeat' split at hlost
        all_goals cases hlost
      · cases h
        exact .inr ⟨rfl, by simp⟩

/-- Away from the directory, its removal changes nothing. -/
theorem node?_removeDirAll {q : Place} (hq : ¬ p.place cwd <+: q) :
    (t.removeDirAll cwd p).2.node? q = t.node? q := by
  rcases hr : t.removeDirAll cwd p with ⟨r, u⟩
  rcases removeDirAll_cases hr with ⟨-, rfl, -⟩ | ⟨-, ⟨-, hne, rfl⟩ | ⟨rfl, -⟩⟩
  · rfl
  · rw [node?_prune hne, if_neg hq]
  · rw [node?_clear_eq, if_neg fun h => hq h.1]

/-- A move that is no replacement takes what is there to where there was nothing. -/
theorem rename_eq_ok {q : Path} (h : t.rename cwd p q = .ok u) :
    t.locateName cwd q = .ok (q.place cwd) ∧ (t.node? (p.place cwd)).isSome = true ∧
      (t.node? (q.place cwd) = some .dir ∨
        t.node? (q.place cwd) = none ∧ u = t.graft (p.place cwd) (q.place cwd)) := by
  unfold rename at h
  split at h
  · cases h
  · cases h
  · rename_i source target hsource htarget
    obtain ⟨rfl, -⟩ := locate_eq_ok.1 hsource
    obtain ⟨rfl, -⟩ := locateName_eq_ok.1 htarget
    refine ⟨htarget, ?_⟩
    split at h
    · cases h
    · rename_i htarget hsource
      cases h
      exact ⟨Option.isSome_iff_ne_none.2 hsource, .inr ⟨htarget, rfl⟩⟩
    · cases h
    · rename_i htarget hsource
      exact ⟨Option.isSome_iff_ne_none.2 hsource, .inl htarget⟩

/-- Nothing but directories has come to the tree, and nothing has gone. -/
def Grown (t u : Tree) : Prop :=
  ∀ q, u.node? q = t.node? q ∨ t.node? q = none ∧ u.node? q = some .dir

namespace Grown

theorem refl (t : Tree) : t.Grown t := fun _ => .inl rfl

theorem trans {v : Tree} (h : t.Grown u) (h' : u.Grown v) : t.Grown v := by
  intro q
  rcases h q with heq | ⟨hnone, hdir⟩
  · rcases h' q with heq' | ⟨hnone, hdir⟩
    · exact .inl (heq'.trans heq)
    · exact .inr ⟨heq ▸ hnone, hdir⟩
  · rcases h' q with heq' | ⟨hnone', -⟩
    · exact .inr ⟨hnone, heq'.trans hdir⟩
    · rw [hdir] at hnone'
      cases hnone'

theorem node?_eq {q : Place} {n : Node} (h : t.Grown u) (hq : t.node? q = some n) :
    u.node? q = some n := by
  rcases h q with heq | ⟨hnone, -⟩
  · rw [heq, hq]
  · rw [hq] at hnone
    cases hnone

end Grown

theorem ne_nil_of_none {q : Place} (h : t.node? q = none) : q ≠ [] := by
  rintro rfl
  simp [node?_nil] at h

theorem ne_nil_of_file {q : Place} {c : Contents} (h : t.node? q = some (.file c)) : q ≠ [] := by
  rintro rfl
  simp [node?_nil] at h

/-- There is nothing below a file, so it can be dropped. -/
theorem Rooted.drop_file {q : Place} {c : Contents} (ht : t.Rooted)
    (h : t.node? q = some (.file c)) : (t.drop q).Rooted := by
  refine ht.drop (ne_nil_of_file h) fun name => ?_
  rw [Option.eq_none_iff_forall_ne_some]
  intro n hn
  have heq := ht.eq_of_file (List.prefix_append q [name]) h (by simp [hn])
  simp at heq

/-- A new directory is all that is new. -/
theorem Rooted.makeDir (ht : t.Rooted) (h : t.makeDir cwd p = .ok u) :
    u.Rooted ∧ t.Grown u ∧ u.node? (p.place cwd) = some .dir := by
  obtain ⟨hplace, hnone, rfl⟩ := makeDir_eq_ok.1 h
  have hne := ne_nil_of_none hnone
  refine ⟨ht.put hne (ht.dir_of_locateName hplace) (.inl rfl), ?_, ?_⟩
  · intro q
    rw [node?_put_of_ne hne]
    split
    · rename_i hq
      exact .inr ⟨hq ▸ hnone, rfl⟩
    · exact .inl rfl
  · rw [node?_put_of_ne hne, if_pos rfl]

end Tree

end Unbundle
