import Unbundle.Tree

/-! Where paths lead. Without links the place that a path leads to can be read off the path, and
only whether one gets there depends on the tree. -/
namespace Unbundle

variable {cs ds piece : Text} {ps : List Text}

theorem slashPieces_ne_nil (cs : Text) : slashPieces cs ≠ [] := by
  fun_induction slashPieces cs <;> simp

theorem slashPieces_append_slash (cs ds : Text) :
    slashPieces (cs ++ '/' :: ds) = slashPieces cs ++ slashPieces ds := by
  induction cs with
  | nil => simp [slashPieces]
  | cons c cs ih =>
    by_cases hc : c = '/'
    · simp [slashPieces, hc, ih]
    · obtain ⟨p, ps, hps⟩ := List.exists_cons_of_ne_nil (slashPieces_ne_nil cs)
      rw [hps] at ih
      simp [slashPieces, hc, ih, hps]

/-- A text without slashes is one piece. -/
theorem slashPieces_of_notMem (h : '/' ∉ cs) : slashPieces cs = [cs] := by
  induction cs with
  | nil => rfl
  | cons c cs ih =>
    rw [List.mem_cons, not_or] at h
    simp [slashPieces, Ne.symm h.1, ih h.2]

theorem slashPieces_replicate (n : Nat) :
    slashPieces (List.replicate n '/') = List.replicate (n + 1) [] := by
  induction n with
  | zero => rfl
  | succ n ih => rw [List.replicate_succ, slashPieces, if_pos rfl, ih, ← List.replicate_succ]

theorem notMem_of_mem_slashPieces (h : piece ∈ slashPieces cs) : '/' ∉ piece := by
  induction cs generalizing piece with
  | nil =>
    rw [slashPieces, List.mem_singleton] at h
    simp [h]
  | cons c cs ih =>
    obtain ⟨p, ps, hps⟩ := List.exists_cons_of_ne_nil (slashPieces_ne_nil cs)
    rw [hps] at ih
    by_cases hc : c = '/'
    · rw [slashPieces, if_pos hc, hps, List.mem_cons] at h
      rcases h with rfl | h
      · simp
      · exact ih h
    · simp only [slashPieces, if_neg hc, hps, List.mem_cons] at h
      rcases h with rfl | h
      · rw [List.mem_cons, not_or]
        exact ⟨Ne.symm hc, ih (List.mem_cons_self ..)⟩
      · exact ih (List.mem_cons_of_mem _ h)

theorem joinWith_cons_cons (p q : Text) (ps : List Text) :
    joinWith ['/'] (p :: q :: ps) = p ++ '/' :: joinWith ['/'] (q :: ps) := by
  simp [joinWith]

/-- Pieces without slashes can be read back from what they spell. -/
theorem slashPieces_joinWith (hne : ps ≠ []) (h : ∀ p ∈ ps, '/' ∉ p) :
    slashPieces (joinWith ['/'] ps) = ps := by
  induction ps with
  | nil => exact absurd rfl hne
  | cons p ps ih =>
    have hp := h p (List.mem_cons_self ..)
    cases ps with
    | nil => exact slashPieces_of_notMem hp
    | cons q qs =>
      rw [joinWith_cons_cons, slashPieces_append_slash, slashPieces_of_notMem hp,
        List.singleton_append, ih (by simp) fun r hr => h r (List.mem_cons_of_mem _ hr)]

theorem joinWith_slashPieces (cs : Text) : joinWith ['/'] (slashPieces cs) = cs := by
  induction cs with
  | nil => rfl
  | cons c cs ih =>
    obtain ⟨p, ps, hps⟩ := List.exists_cons_of_ne_nil (slashPieces_ne_nil cs)
    rw [hps] at ih
    by_cases hc : c = '/'
    · simp [slashPieces, hc, hps, joinWith, ih]
    · rw [slashPieces, if_neg hc, hps, ← ih]
      cases ps <;> simp [joinWith]

theorem joinWith_append (hp : ps ≠ []) {qs : List Text} (hq : qs ≠ []) :
    joinWith ['/'] (ps ++ qs) = joinWith ['/'] ps ++ '/' :: joinWith ['/'] qs := by
  induction ps with
  | nil => exact absurd rfl hp
  | cons p ps ih =>
    cases ps with
    | nil =>
      obtain ⟨q, qs, rfl⟩ := List.exists_cons_of_ne_nil hq
      simp [joinWith]
    | cons r rs =>
      rw [List.cons_append, List.cons_append, joinWith_cons_cons, joinWith_cons_cons,
        ← List.cons_append, ih (by simp)]
      simp

/-- A piece that leads nowhere. -/
def isIdle (piece : Text) : Bool := piece == [] || piece == ['.']

theorem isIdle_iff : isIdle piece = true ↔ piece = [] ∨ piece = ['.'] := by simp [isIdle]

namespace Tree

variable {place : Place}

theorem step_of_isIdle (h : isIdle piece = true) : step place piece = place := by
  rw [step, if_pos (isIdle_iff.1 h)]

theorem foldl_step_of_idle (h : ∀ p ∈ ps, isIdle p = true) : ps.foldl step place = place := by
  induction ps with
  | nil => rfl
  | cons p ps ih =>
    rw [List.foldl_cons, step_of_isIdle (h p (List.mem_cons_self ..))]
    exact ih fun q hq => h q (List.mem_cons_of_mem _ hq)

/-- A step leads at most one name further down. -/
theorem prefix_dropLast_step (place : Place) (piece : Text) :
    (step place piece).dropLast <+: place := by
  unfold step
  split
  · exact List.dropLast_prefix place
  · split
    · exact (List.dropLast_prefix _).trans (List.dropLast_prefix place)
    · simp

end Tree

/-- A name that is one step down: it is no dots, and has no slashes. -/
structure IsName (name : String) : Prop where
  slash : '/' ∉ name.toList
  ne_nil : name.toList ≠ []
  ne_dot : name.toList ≠ ['.']
  ne_dots : name.toList ≠ ['.', '.']

theorem isName_iff {name : String} : IsName name ↔ '/' ∉ name.toList ∧ name.toList ≠ [] ∧
    name.toList ≠ ['.'] ∧ name.toList ≠ ['.', '.'] :=
  ⟨fun h => ⟨h.slash, h.ne_nil, h.ne_dot, h.ne_dots⟩, fun h => ⟨h.1, h.2.1, h.2.2.1, h.2.2.2⟩⟩

instance {name : String} : Decidable (IsName name) := decidable_of_iff _ isName_iff.symm

theorem IsName.step {name : String} (h : IsName name) (place : Place) :
    Tree.step place name.toList = place ++ [name] := by
  simp [Tree.step, h.ne_nil, h.ne_dot, h.ne_dots, String.ofList_toList]

namespace Path

variable {p q : Path} {cwd : Place} {name : String}

def base (cwd : Place) (p : Path) : Place := if p.isAbsolute then [] else cwd

def place (cwd : Place) (p : Path) : Place := p.pieces.foldl Tree.step (p.base cwd)

theorem isAbsolute_of_isName (h : IsName name) : (⟨name⟩ : Path).isAbsolute = false := by
  rw [isAbsolute, beq_eq_false_iff_ne]
  exact fun hc => h.slash (List.mem_of_head? hc)

theorem pieces_of_isName (h : IsName name) : (⟨name⟩ : Path).pieces = [name.toList] :=
  slashPieces_of_notMem h.slash

/-- The pieces of a joined path are those of both; a slash at the end of the first does not
count. -/
theorem pieces_join (hq : q.isAbsolute = false) (hp : p.text.isEmpty = false) :
    ∃ ps idle, p.pieces = ps ++ idle ∧ (∀ i ∈ idle, isIdle i = true) ∧ ps ≠ [] ∧
      (p.join q).pieces = ps ++ q.pieces ∧ (p.join q).isAbsolute = p.isAbsolute := by
  have hne : p.text.toList ≠ [] := by simpa using hp
  obtain ⟨c, cs, hc⟩ := List.exists_cons_of_ne_nil hne
  unfold join
  rw [hq, hp]
  simp only [Bool.or_false, Bool.false_eq_true, if_false]
  split
  · rename_i hlast
    obtain ⟨init, hinit⟩ := List.getLast?_eq_some_iff.1 hlast
    refine ⟨slashPieces init, [[]], ?_, by simp [isIdle], slashPieces_ne_nil init, ?_, ?_⟩
    · rw [pieces, hinit, slashPieces_append_slash]
      rfl
    · simp [pieces, hinit, slashPieces_append_slash]
    · simp [isAbsolute, hc]
  · refine ⟨p.pieces, [], by simp, by simp, slashPieces_ne_nil _, ?_, by simp [isAbsolute, hc]⟩
    simp [pieces, slashPieces_append_slash]

/-- A joined path leads on from where its first part leads to. -/
theorem place_join (hq : q.isAbsolute = false) (hp : p.text.isEmpty = false) :
    (p.join q).place cwd = q.pieces.foldl Tree.step (p.place cwd) := by
  obtain ⟨ps, idle, hpieces, hidle, -, hjoin, habs⟩ := pieces_join hq hp
  rw [place, place, hjoin, hpieces, base, base, habs, List.foldl_append, List.foldl_append,
    Tree.foldl_step_of_idle hidle]

theorem place_join_name (h : IsName name) (hp : p.text.isEmpty = false) :
    (p.join ⟨name⟩).place cwd = p.place cwd ++ [name] := by
  rw [place_join (isAbsolute_of_isName h) hp, pieces_of_isName h, List.foldl_cons, h.step]
  rfl

theorem isEmpty_join (hp : p.text.isEmpty = false) (q : Path) :
    (p.join q).text.isEmpty = false := by
  have hne : p.text ≠ "" := by simpa using hp
  unfold join
  split
  · rename_i habs
    rw [hp, Bool.or_false, isAbsolute, beq_iff_eq] at habs
    cases hq : q.text.isEmpty with
    | false => rfl
    | true => simp [String.isEmpty_iff.1 hq] at habs
  · split <;> simp [hne]

/-- A path does not get shorter when a name is added. -/
theorem le_size_join (hq : q.isAbsolute = false) (hp : p.text.isEmpty = false) :
    p.text.utf8ByteSize + q.text.utf8ByteSize ≤ (p.join q).text.utf8ByteSize := by
  unfold join
  simp only [hq, hp, Bool.or_self, Bool.false_eq_true, if_false]
  split <;> simp only [String.utf8ByteSize_append] <;> omega

/-- What `dropIdle` leaves out is idle. -/
theorem dropIdle_append (absolute : Bool) (ps : List Text) :
    ∃ idle, ps = idle ++ dropIdle absolute ps ∧ ∀ i ∈ idle, isIdle i = true := by
  fun_induction dropIdle absolute ps with
  | case1 => exact ⟨[], by simp⟩
  | case2 p h => exact ⟨[p], by simp_all [isIdle]⟩
  | case3 p h => exact ⟨[], by simp⟩
  | case4 p q ps h ih =>
    obtain ⟨idle, hps, hidle⟩ := ih
    refine ⟨p :: idle, by rw [List.cons_append, ← hps], ?_⟩
    simp only [List.mem_cons, forall_eq_or_imp]
    exact ⟨isIdle_iff.2 h, hidle⟩
  | case5 p q ps h => exact ⟨[], by simp⟩

/-- The first piece is empty exactly when the path is absolute, or is no path at all. -/
theorem head_pieces {rest : List Text} (h : p.pieces = piece :: rest) :
    piece = [] ↔ p.isAbsolute = true ∨ p.text.toList = [] := by
  unfold pieces at h
  rw [isAbsolute, beq_iff_eq]
  cases hc : p.text.toList with
  | nil =>
    rw [hc] at h
    cases h
    simp
  | cons c cs =>
    rw [hc, slashPieces] at h
    by_cases hslash : c = '/'
    · rw [if_pos hslash] at h
      cases h
      simp [hslash]
    · obtain ⟨q, qs, hqs⟩ := List.exists_cons_of_ne_nil (slashPieces_ne_nil cs)
      rw [if_neg hslash, hqs] at h
      cases h
      simp [hslash]

theorem pieces_ofList_joinWith {ps : List Text} (hne : ps ≠ []) (hps : ∀ p ∈ ps, '/' ∉ p) :
    (⟨String.ofList (joinWith ['/'] ps)⟩ : Path).pieces = ps := by
  simp [pieces, slashPieces_joinWith hne hps]

/-- What the directory of a path is: its pieces up to the last step, or a dot when there are none,
or the root. -/
inductive ContainerOf (p : Path) : Path → Prop
  /-- The path has no step to lose. -/
  | still (hidle : ∀ i ∈ p.pieces, isIdle i = true) : ContainerOf p ⟨"."⟩
  | here {q : Text} {idle idle' : List Text} (hpieces : p.pieces = idle ++ q :: idle')
      (hidle : ∀ i ∈ idle ++ idle', isIdle i = true) (habs : p.isAbsolute = false) :
      ContainerOf p ⟨"."⟩
  | root {q : Text} {idle idle' : List Text} (hpieces : p.pieces = [] :: idle ++ q :: idle')
      (hidle : ∀ i ∈ idle ++ idle', isIdle i = true) (habs : p.isAbsolute = true) :
      ContainerOf p ⟨"/"⟩
  | pieces {q : Text} {ps idle idle' : List Text} {container : Path}
      (hpieces : p.pieces = ps ++ idle ++ q :: idle') (hidle : ∀ i ∈ idle ++ idle', isIdle i = true)
      (hps : container.pieces = ps) (htext : container.text.toList <+: p.text.toList)
      (hne : container.text.toList ≠ []) (habs : container.isAbsolute = p.isAbsolute) :
      ContainerOf p container

theorem dropIdle_of_isIdle {absolute : Bool} {q : Text} {ps qs : List Text}
    (h : dropIdle absolute ps = q :: qs) (hq : isIdle q = true) : qs = [] := by
  fun_induction dropIdle absolute ps with
  | case1 => cases h
  | case2 => cases h
  | case3 p hp =>
    cases h
    rfl
  | case4 p r ps hp ih => exact ih h
  | case5 p r ps hp =>
    cases h
    exact absurd (isIdle_iff.1 hq) hp

theorem dropIdle_ne_nil {ps : List Text} (h : ps ≠ []) : dropIdle true ps ≠ [] := by
  fun_induction dropIdle true ps with
  | case1 => exact absurd rfl h
  | case2 p hp => simp at hp
  | case3 => simp
  | case4 p r ps hp ih => exact ih (by simp)
  | case5 => simp

theorem joinWith_eq_nil {ps : List Text} (h : joinWith ['/'] ps = []) :
    ps.length ≤ 1 ∧ ∀ p ∈ ps, isIdle p = true := by
  cases ps with
  | nil => simp
  | cons p ps =>
    cases ps with
    | nil => simp_all [joinWith, isIdle]
    | cons q qs => simp [joinWith_cons_cons] at h

/-- Pieces from the start of a path spell a path that leads the same way. -/
theorem prefix_spelled {ps qs : List Text} (hpieces : p.pieces = ps ++ qs) (hqs : qs ≠ [])
    (hne : joinWith ['/'] ps ≠ []) :
    (⟨String.ofList (joinWith ['/'] ps)⟩ : Path).pieces = ps ∧
      joinWith ['/'] ps <+: p.text.toList ∧
      (⟨String.ofList (joinWith ['/'] ps)⟩ : Path).isAbsolute = p.isAbsolute := by
  have hps : ps ≠ [] := by
    rintro rfl
    exact hne rfl
  have htext : p.text.toList = joinWith ['/'] ps ++ '/' :: joinWith ['/'] qs := by
    rw [← joinWith_append hps hqs, ← hpieces]
    exact (joinWith_slashPieces _).symm
  refine ⟨pieces_ofList_joinWith hps ?_, ⟨_, htext.symm⟩, ?_⟩
  · intro r hr
    have hpiece : r ∈ slashPieces p.text.toList := by
      rw [← pieces, hpieces]
      exact List.mem_append_left qs hr
    exact notMem_of_mem_slashPieces hpiece
  · obtain ⟨c, cs, hc⟩ := List.exists_cons_of_ne_nil hne
    simp [isAbsolute, htext, hc]

theorem containerOf_container (p : Path) : ContainerOf p p.container := by
  obtain ⟨last, hlast, hidle'⟩ := dropIdle_append p.isAbsolute p.pieces.reverse
  have hpieces : p.pieces = p.reversed.reverse ++ last.reverse := by
    rw [← List.reverse_append, reversed, ← hlast, List.reverse_reverse]
  have hidle' : ∀ i ∈ last.reverse, isIdle i = true := fun i hi => hidle' i (List.mem_reverse.1 hi)
  cases hrev : p.reversed with
  | nil =>
    rw [container, parent?, hrev]
    rw [hrev, List.reverse_nil, List.nil_append] at hpieces
    exact .still (hpieces ▸ hidle')
  | cons q ps =>
    obtain ⟨idle, hps, hidle⟩ := dropIdle_append p.isAbsolute ps
    rw [container, parent?, hrev]
    by_cases hroot : (p.isAbsolute && q.isEmpty) = true
    · simp only [hroot, if_true]
      have hq : isIdle q = true := by
        rw [Bool.and_eq_true] at hroot
        simp [isIdle, List.isEmpty_iff.1 hroot.2]
      obtain rfl := dropIdle_of_isIdle hrev hq
      refine .still ?_
      rw [hpieces, hrev]
      simp only [List.reverse_singleton, List.singleton_append, List.mem_cons, forall_eq_or_imp]
      exact ⟨hq, hidle'⟩
    · simp only [if_neg hroot]
      generalize hds : dropIdle p.isAbsolute ps = ds at hps
      have hsplit : p.pieces = ds.reverse ++ (idle.reverse ++ q :: last.reverse) := by
        rw [hpieces, hrev, hps]
        simp
      have hidle : ∀ i ∈ idle.reverse ++ last.reverse, isIdle i = true := by
        intro i hi
        rcases List.mem_append.1 hi with hi | hi
        · exact hidle i (List.mem_reverse.1 hi)
        · exact hidle' i hi
      unfold ofReversed
      split
      · rename_i hshort
        rw [Bool.and_eq_true, decide_eq_true_eq] at hshort
        have hne : ds ≠ [] := by
          rw [← hds, hshort.1]
          refine dropIdle_ne_nil ?_
          rintro rfl
          rw [hrev, List.reverse_singleton, List.singleton_append] at hpieces
          simp [hshort.1, (head_pieces hpieces).2 (.inl hshort.1)] at hroot
        obtain ⟨d, rfl⟩ := List.length_eq_one_iff.1
          (Nat.le_antisymm hshort.2 (List.length_pos_iff.2 hne))
        rw [List.reverse_singleton, List.singleton_append] at hsplit
        obtain rfl := (head_pieces hsplit).2 (.inl hshort.1)
        exact .root hsplit hidle hshort.1
      · rename_i hlong
        by_cases htext : joinWith ['/'] ds.reverse = []
        · obtain ⟨hshort, hempty⟩ := joinWith_eq_nil htext
          have habs : p.isAbsolute = false := by
            rw [← Bool.not_eq_true]
            intro habs
            rw [List.length_reverse] at hshort
            exact hlong (by rw [habs, Bool.true_and, decide_eq_true hshort])
          simp only [htext]
          refine .here (by simpa [← List.append_assoc] using hsplit) ?_ habs
          intro i hi
          rw [List.append_assoc] at hi
          rcases List.mem_append.1 hi with hi | hi
          · exact hempty i hi
          · exact hidle i hi
        · obtain ⟨hp, hpre, habs⟩ := prefix_spelled hsplit (by simp) htext
          rw [if_neg (by simpa using htext)]
          exact .pieces (by simpa using hsplit) hidle hp (by simpa using hpre)
            (by simpa using htext) habs

/-- A path leads at most one step on from its directory. -/
theorem place_eq_step_container (p : Path) (cwd : Place) :
    p.place cwd = [] ∨ ∃ q, p.place cwd = Tree.step (p.container.place cwd) q := by
  have hdot : (⟨"."⟩ : Path).place cwd = cwd := rfl
  have hroot : (⟨"/"⟩ : Path).place cwd = [] := rfl
  generalize hc : p.container = c
  have hof : ContainerOf p c := hc ▸ containerOf_container p
  have hlast {place : Place} {q : Text} {idle idle' : List Text} (ps : List Text)
      (hidle : ∀ i ∈ idle ++ idle', isIdle i = true) :
      (ps ++ idle ++ q :: idle').foldl Tree.step place =
        Tree.step (ps.foldl Tree.step place) q := by
    rw [List.foldl_append, List.foldl_append, List.foldl_cons,
      Tree.foldl_step_of_idle fun i hi => hidle i (List.mem_append_left _ hi),
      Tree.foldl_step_of_idle fun i hi => hidle i (List.mem_append_right _ hi)]
  cases hof with
  | still hidle =>
    rw [place, Tree.foldl_step_of_idle hidle, base, hdot]
    split
    · exact .inl rfl
    · exact .inr ⟨[], rfl⟩
  | @here q idle idle' hpieces hidle habs =>
    refine .inr ⟨q, ?_⟩
    rw [place, hpieces, base, habs, hdot]
    exact hlast [] hidle
  | @root q idle idle' hpieces hidle habs =>
    refine .inr ⟨q, ?_⟩
    rw [place, hpieces, base, habs, hroot]
    exact hlast [[]] hidle
  | @pieces q ps idle idle' _ hpieces hidle hps htext hne habs =>
    refine .inr ⟨q, ?_⟩
    rw [place, place, hpieces, hps, base, base, habs]
    exact hlast ps hidle

theorem prefix_dropLast_place (p : Path) (cwd : Place) :
    (p.place cwd).dropLast <+: p.container.place cwd := by
  rcases place_eq_step_container p cwd with h | ⟨q, h⟩
  · simp [h]
  · rw [h]
    exact Tree.prefix_dropLast_step _ q

theorem isEmpty_container (p : Path) : p.container.text.isEmpty = false := by
  unfold container
  split
  · split
    · rfl
    · rename_i h
      exact Bool.eq_false_iff.2 h
  · rfl

end Path
end Unbundle
