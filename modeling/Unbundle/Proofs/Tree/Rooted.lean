import Mathlib.Data.List.Induction
import Unbundle.Proofs.Path

/-! What the changes of a tree do to each of its places. A tree stays rooted: whatever is in it is
in a directory. -/
namespace Unbundle

namespace Tree

variable {t u : Tree} {a b p q place source target : Place} {n : Node} {name : String}

theorem node?_put_of_ne (hp : p ≠ []) :
    (t.put p n).node? q = if q = p then some n else t.node? q := by
  by_cases hq : q = []
  · subst hq
    rw [node?_nil, node?_nil, if_neg hp.symm]
  · exact node?_put hq

theorem node?_drop_of_ne (hp : p ≠ []) :
    (t.drop p).node? q = if q = p then none else t.node? q := by
  by_cases hq : q = []
  · subst hq
    rw [node?_nil, node?_nil, if_neg hp.symm]
  · exact node?_drop hq

theorem node?_clear_eq : (t.clear p).node? q = if p <+: q ∧ p ≠ q then none else t.node? q := by
  by_cases hq : q = []
  · subst hq
    rw [node?_nil, node?_nil, if_neg]
    rintro ⟨hp, hne⟩
    exact hne (List.prefix_nil.1 hp)
  · rw [node?_clear hq]
    simp

theorem node?_prune (hp : p ≠ []) :
    (t.prune p).node? q = if p <+: q then none else t.node? q := by
  rw [prune, node?_drop_of_ne hp, node?_clear_eq]
  by_cases hpq : p <+: q
  · by_cases hq : q = p
    · rw [if_pos hq, if_pos hpq]
    · rw [if_neg hq, if_pos ⟨hpq, Ne.symm hq⟩, if_pos hpq]
  · have hq : q ≠ p := by
      rintro rfl
      exact hpq (List.prefix_refl q)
    rw [if_neg hq, if_neg fun h => hpq h.1, if_neg hpq]

/-- Where an entry is found after all places are renamed, if no other is renamed to it. -/
theorem lookup_map_place {f : Place → Place} {entries : List (Place × Node)} (hp : f p = q)
    (h : ∀ e ∈ entries, f e.1 = q → e.1 = p) :
    (entries.map fun e => (f e.1, e.2)).lookup q = entries.lookup p := by
  induction entries with
  | nil => rfl
  | cons e es ih =>
    have ih := ih fun x hx => h x (List.mem_cons_of_mem _ hx)
    by_cases he : e.1 = p
    · rw [List.map_cons, List.lookup_cons, List.lookup_cons, he, hp, beq_self_eq_true,
        beq_self_eq_true]
    · have hne : f e.1 ≠ q := fun hf => he (h e (List.mem_cons_self ..) hf)
      have h₁ : (q == f e.1) = false := beq_eq_false_iff_ne.2 (Ne.symm hne)
      have h₂ : (p == e.1) = false := beq_eq_false_iff_ne.2 (Ne.symm he)
      rw [List.map_cons, List.lookup_cons, List.lookup_cons, h₁, h₂, ih]

/-- Where a place is after `a` was moved to `b`. -/
def moved (a b p : Place) : Place := if a <+: p then b ++ p.drop a.length else p

theorem moved_append (a b rest : Place) : moved a b (a ++ rest) = b ++ rest := by
  rw [moved, if_pos (List.prefix_append a rest), List.drop_left]

theorem moved_of_apart (h : ¬ a <+: p) : moved a b p = p := if_neg h

theorem entries_graft (t : Tree) (a b : Place) :
    (t.graft a b).entries = t.entries.map fun e => (moved a b e.1, e.2) := by
  refine List.map_congr_left fun e _ => ?_
  by_cases h : a <+: e.1
  · simp [moved, h]
  · simp [moved, h]

/-- What was moved is found where it was moved to. -/
theorem node?_graft_append (ha : a ≠ []) (hb : b ≠ [])
    (hfree : ∀ q, b <+: q → t.node? q = none) (rest : Place) :
    (t.graft a b).node? (b ++ rest) = t.node? (a ++ rest) := by
  have hne (c : Place) (hc : c ≠ []) : c ++ rest ≠ [] := by simp [hc]
  simp only [node?, hne a ha, hne b hb, if_false, entries_graft]
  refine lookup_map_place (moved_append a b rest) ?_
  intro e he hf
  by_cases hpre : a <+: e.1
  · obtain ⟨r, hr⟩ := hpre
    rw [← hr, moved_append, List.append_cancel_left_eq] at hf
    rw [← hr, hf]
  · rw [moved_of_apart hpre] at hf
    have hnone := hfree e.1 ⟨rest, hf.symm⟩
    rw [node?, if_neg (by rw [hf]; exact hne b hb), List.lookup_eq_none_iff] at hnone
    simpa using hnone e he

/-- Away from the target, what is not moved stays where it is. -/
theorem node?_graft_of_apart (ha : a ≠ []) (hq : ¬ b <+: q) :
    (t.graft a b).node? q = if a <+: q then none else t.node? q := by
  by_cases hnil : q = []
  · subst hnil
    rw [node?_nil, node?_nil, if_neg (by simpa using ha)]
  · have hback {p : Place} (hp : moved a b p = q) : ¬ a <+: p := by
      rintro ⟨rest, rfl⟩
      rw [moved_append] at hp
      exact hq ⟨rest, hp⟩
    simp only [node?, hnil, if_false, entries_graft]
    split
    · rename_i hpre
      rw [List.lookup_eq_none_iff]
      intro e he
      obtain ⟨x, -, rfl⟩ := List.mem_map.1 he
      rw [bne_iff_ne]
      intro hx
      have hnot := hback hx.symm
      rw [moved_of_apart hnot] at hx
      exact hnot (hx ▸ hpre)
    · rename_i hpre
      refine lookup_map_place (moved_of_apart hpre) ?_
      intro e _ hf
      rwa [moved_of_apart (hback hf)] at hf

/-- Whatever is in a tree is in a directory. -/
def Rooted (t : Tree) : Prop :=
  ∀ place name, (t.node? (place ++ [name])).isSome = true → t.node? place = some .dir

namespace Rooted

/-- It is enough to look at the entries. -/
theorem of_entries (h : ∀ e ∈ t.entries, t.node? e.1.dropLast = some .dir) : t.Rooted := by
  intro place name hthere
  rw [node?, if_neg (by simp), List.lookup_isSome_iff] at hthere
  obtain ⟨e, he, hkey⟩ := hthere
  simpa [← beq_iff_eq.1 hkey] using h e he

/-- Only a directory has something below it. -/
theorem dir_above (ht : t.Rooted) (hpre : p <+: q) (hne : p ≠ q)
    (hq : (t.node? q).isSome = true) : t.node? p = some .dir := by
  obtain ⟨rest, rfl⟩ := hpre
  induction rest using List.reverseRecOn with
  | nil => exact absurd (List.append_nil p).symm hne
  | append_singleton rest name ih =>
    rw [← List.append_assoc] at hq
    have hdir := ht _ _ hq
    by_cases hrest : rest = []
    · simpa [hrest] using hdir
    · exact ih (by simpa using hrest) (by simp [hdir])

theorem dir_above_dir (ht : t.Rooted) (hpre : p <+: q) (hq : t.node? q = some .dir) :
    t.node? p = some .dir := by
  by_cases hne : p = q
  · rw [hne, hq]
  · exact ht.dir_above hpre hne (by simp [hq])

theorem none_below (ht : t.Rooted) (hpre : p <+: q) (hp : t.node? p = none) :
    t.node? q = none := by
  by_cases hpq : p = q
  · rw [← hpq, hp]
  · rw [Option.eq_none_iff_forall_ne_some]
    intro n hn
    have := ht.dir_above hpre hpq (by simp [hn])
    simp [hp] at this

/-- Nothing is below a file. -/
theorem eq_of_file (ht : t.Rooted) {c : Contents} (hpre : p <+: q) (hp : t.node? p = some (.file c))
    (hq : (t.node? q).isSome = true) : p = q := by
  refine Decidable.byContradiction fun hne => ?_
  have := ht.dir_above hpre hne hq
  simp [hp] at this

theorem put (ht : t.Rooted) (hp : p ≠ []) (hparent : t.node? p.dropLast = some .dir)
    (hn : n = .dir ∨ t.node? p ≠ some .dir) : (t.put p n).Rooted := by
  intro place name h
  rw [node?_put_of_ne hp] at h ⊢
  split at h
  · rename_i heq
    rw [← heq, List.dropLast_concat] at hparent
    rw [if_neg (by simp [← heq]), hparent]
  · have hdir := ht place name h
    split
    · rename_i heq
      rcases hn with rfl | hn
      · rfl
      · exact absurd (heq ▸ hdir) hn
    · exact hdir

theorem drop (ht : t.Rooted) (hp : p ≠ []) (hleaf : ∀ name, t.node? (p ++ [name]) = none) :
    (t.drop p).Rooted := by
  intro place name h
  rw [node?_drop_of_ne hp] at h ⊢
  split at h
  · cases h
  · have hne : place ≠ p := by
      rintro rfl
      simp [hleaf] at h
    rw [if_neg hne]
    exact ht place name h

theorem clear (ht : t.Rooted) (p : Place) : (t.clear p).Rooted := by
  intro place name h
  rw [node?_clear_eq] at h ⊢
  split at h
  · cases h
  · rename_i hnot
    rw [if_neg]
    · exact ht place name h
    · rintro ⟨⟨rest, rfl⟩, -⟩
      exact hnot ⟨⟨rest ++ [name], by simp⟩, by simp⟩

theorem prune (ht : t.Rooted) (hp : p ≠ []) : (t.prune p).Rooted := by
  refine (ht.clear p).drop hp fun name => ?_
  rw [node?_clear_eq, if_pos ⟨List.prefix_append p [name], by simp⟩]

/-- A move keeps everything in directories, if the target is in one that is not moved itself. -/
theorem graft (ht : t.Rooted) (ha : a ≠ []) (hb : t.node? b = none)
    (hparent : t.node? b.dropLast = some .dir) (hab : ¬ a <+: b.dropLast) :
    (t.graft a b).Rooted := by
  have hne : b ≠ [] := by
    rintro rfl
    simp [node?_nil] at hb
  have hfree (q : Place) (hq : b <+: q) : t.node? q = none := ht.none_below hq hb
  intro place name h
  by_cases hpre : b <+: place
  · obtain ⟨rest, rfl⟩ := hpre
    rw [List.append_assoc, node?_graft_append ha hne hfree, ← List.append_assoc] at h
    rw [node?_graft_append ha hne hfree]
    exact ht _ _ h
  · rw [node?_graft_of_apart ha hpre]
    by_cases htop : b = place ++ [name]
    · rw [htop, List.dropLast_concat] at hparent hab
      rw [if_neg hab, hparent]
    · have hnot : ¬ b <+: place ++ [name] := by
        rw [List.prefix_concat_iff]
        exact fun hor => hor.elim htop hpre
      rw [node?_graft_of_apart ha hnot] at h
      split at h
      · cases h
      · rename_i hnota
        rw [if_neg fun hor => hnota (hor.trans (List.prefix_append _ _))]
        exact ht place name h

end Rooted

/-- The directories that a way leads through. -/
def stations : Place → List Text → List Place
  | _, [] => []
  | place, piece :: rest => place :: stations (step place piece) rest

theorem stations_append (place : Place) (ps qs : List Text) :
    stations place (ps ++ qs) = stations place ps ++ stations (ps.foldl step place) qs := by
  induction ps generalizing place with
  | nil => rfl
  | cons p ps ih => simp [stations, ih]

/-- A way of idle pieces stays where it starts. -/
theorem eq_of_mem_stations {ps : List Text} (h : ∀ i ∈ ps, isIdle i = true)
    (hq : q ∈ stations place ps) : q = place := by
  induction ps with
  | nil => cases hq
  | cons p ps ih =>
    rw [stations, step_of_isIdle (h p (List.mem_cons_self ..)), List.mem_cons] at hq
    rcases hq with hq | hq
    · exact hq
    · exact ih (fun i hi => h i (List.mem_cons_of_mem _ hi)) hq

/-- A way can be followed when it leads through directories and no name on it is too long. -/
theorem follow_eq_ok {pieces : List Text} :
    t.follow place pieces = .ok q ↔ q = pieces.foldl step place ∧
      (∀ w ∈ stations place pieces, t.node? w = some .dir) ∧
      ∀ piece ∈ pieces, byteLength piece ≤ nameLimit := by
  induction pieces generalizing place with
  | nil =>
    simp only [follow, stations, List.foldl_nil, Except.ok.injEq, List.not_mem_nil]
    exact ⟨fun h => ⟨h.symm, by simp, by simp⟩, fun h => h.1.symm⟩
  | cons piece rest ih =>
    rw [follow]
    cases hn : t.node? place with
    | none => simp [stations, hn]
    | some n =>
      cases n with
      | file c => simp [stations, hn]
      | dir =>
        by_cases hlen : byteLength piece ≤ nameLimit
        · simp [stations, hn, hlen, ih]
        · simp [hlen]

/-- The parent of where a way ends is a directory. -/
theorem Rooted.dir_dropLast (ht : t.Rooted) {pieces : List Text} (hne : pieces ≠ [])
    (hway : ∀ w ∈ stations place pieces, t.node? w = some .dir) :
    t.node? (pieces.foldl step place).dropLast = some .dir := by
  rw [← List.dropLast_concat_getLast hne] at hway ⊢
  rw [List.foldl_append, List.foldl_cons, List.foldl_nil]
  refine ht.dir_above_dir (prefix_dropLast_step _ _) (hway _ ?_)
  simp [stations_append, stations]

end Tree

end Unbundle
