import Unbundle.Host.Rehearsal
import Unbundle.Proofs.Tree

/-! Runs on a tree in memory, taken apart step by step. -/
namespace Unbundle
namespace Run

variable {α β : Type} {s s' : Session} {x : Run Rehearsal α} {f : α → Run Rehearsal β}

@[simp] theorem rehearse_pure (a : α) : (pure a : Run Rehearsal α).rehearse s = (.ok a, s) := rfl

@[simp] theorem rehearse_throw (e : Failure) :
    (throw e : Run Rehearsal α).rehearse s = (.error e, s) := rfl

@[simp] theorem rehearse_fail (text : String) :
    (fail text : Run Rehearsal α).rehearse s = (.error (.ofMessage text), s) := rfl

@[simp] theorem rehearse_ask (action : Rehearsal α) :
    (ask action).rehearse s = (.ok (action s).1, (action s).2) := rfl

theorem rehearse_bind :
    (x >>= f).rehearse s =
      match x.rehearse s with
      | (.ok a, s') => (f a).rehearse s'
      | (.error e, s') => (.error e, s') := by
  simp only [rehearse, ExceptT.run_bind, StateT.run_bind]
  rcases StateT.run (ExceptT.run x) s with ⟨r, s'⟩
  cases r <;> rfl

@[simp] theorem rehearse_ask_bind {f : α → Run Rehearsal β} (action : Rehearsal α) :
    (ask action >>= f).rehearse s = (f (action s).1).rehearse (action s).2 := by
  rw [rehearse_bind, rehearse_ask]

/-- A run of two activities fails in the first, or gets through to the second. -/
theorem rehearse_bind_cases {r : Except Failure β} (h : (x >>= f).rehearse s = (r, s')) :
    (∃ e, x.rehearse s = (.error e, s') ∧ r = .error e) ∨
      ∃ a s₁, x.rehearse s = (.ok a, s₁) ∧ (f a).rehearse s₁ = (r, s') := by
  rw [rehearse_bind] at h
  rcases hx : x.rehearse s with ⟨_ | a, s₁⟩
  · rw [hx] at h
    cases h
    exact .inl ⟨_, rfl, rfl⟩
  · rw [hx] at h
    exact .inr ⟨a, s₁, rfl, h⟩

theorem rehearse_attempt (context : String) (action : Rehearsal (Except DiskError α)) :
    (attempt context action).rehearse s =
      match action s with
      | (.ok a, s') => (.ok a, s')
      | (.error e, s') => (.error ⟨[context], .disk e⟩, s') := by
  rw [attempt, rehearse_bind, rehearse_ask]
  rcases action s with ⟨r, s'⟩
  cases r <;> rfl

theorem rehearse_attempt_cases {context : String} {action : Rehearsal (Except DiskError α)}
    {r : Except Failure α} (h : (attempt context action).rehearse s = (r, s')) :
    (∃ e, action s = (.error e, s') ∧ r = .error ⟨[context], .disk e⟩) ∨
      ∃ a, action s = (.ok a, s') ∧ r = .ok a := by
  rw [rehearse_attempt] at h
  rcases ha : action s with ⟨_ | a, s₁⟩
  · rw [ha] at h
    cases h
    exact .inl ⟨_, rfl, rfl⟩
  · rw [ha] at h
    cases h
    exact .inr ⟨a, rfl, rfl⟩

theorem rehearse_attempt_bind_cases {context : String} {action : Rehearsal (Except DiskError α)}
    {r : Except Failure β} (h : (attempt context action >>= f).rehearse s = (r, s')) :
    (∃ e, action s = (.error e, s') ∧ r = .error ⟨[context], .disk e⟩) ∨
      ∃ a s₁, action s = (.ok a, s₁) ∧ (f a).rehearse s₁ = (r, s') := by
  rcases rehearse_bind_cases h with ⟨e, he, rfl⟩ | ⟨a, s₁, ha, h⟩
  · rcases rehearse_attempt_cases he with ⟨e', hact, heq⟩ | ⟨_, -, hok⟩
    · cases heq
      exact .inl ⟨e', hact, rfl⟩
    · cases hok
  · rcases rehearse_attempt_cases ha with ⟨_, -, hok⟩ | ⟨a', hact, hok⟩
    · cases hok
    · cases hok
      exact .inr ⟨a, s₁, hact, h⟩

theorem rehearse_inContext (context : String) (x : Run Rehearsal α) :
    (inContext context x).rehearse s =
      ((x.rehearse s).1.mapError (Failure.within context), (x.rehearse s).2) := rfl

theorem rehearse_onFailure (x : Run Rehearsal α) (cleanUp : Rehearsal Unit) :
    (onFailure x cleanUp).rehearse s =
      match x.rehearse s with
      | (.ok a, s') => (.ok a, s')
      | (.error e, s') => (.error e, (cleanUp s').2) := by
  simp only [onFailure, rehearse, tryCatch, tryCatchThe, MonadExceptOf.tryCatch, ExceptT.tryCatch,
    ExceptT.run_mk, StateT.run_bind]
  rcases hx : StateT.run x s with ⟨r, s'⟩
  rcases hx' : StateT.run (ExceptT.run x) s with ⟨r', s''⟩
  obtain ⟨rfl, rfl⟩ := Prod.mk.inj (hx.symm.trans hx')
  cases r <;> rfl

theorem rehearse_onFailure_bind_cases {cleanUp : Rehearsal Unit} {r : Except Failure β}
    (h : (onFailure x cleanUp >>= f).rehearse s = (r, s')) :
    ∃ tried s₁, x.rehearse s = (tried, s₁) ∧
      ((∃ a, tried = .ok a ∧ (f a).rehearse s₁ = (r, s')) ∨
        ∃ e, tried = .error e ∧ r = .error e ∧ s' = (cleanUp s₁).2) := by
  rw [rehearse_bind, rehearse_onFailure] at h
  rcases hx : x.rehearse s with ⟨e | a, s₁⟩
  · rw [hx] at h
    cases h
    exact ⟨_, s₁, rfl, .inr ⟨e, rfl, rfl, rfl⟩⟩
  · rw [hx] at h
    exact ⟨_, s₁, rfl, .inl ⟨a, rfl, h⟩⟩

/-- Questions and messages alone do not fail. -/
theorem exists_rehearse_forM (as : List α) (say : α → Rehearsal Unit) (s : Session) :
    ∃ s', (as.forM fun a => ask (say a)).rehearse s = (.ok (), s') := by
  induction as generalizing s with
  | nil => exact ⟨s, rfl⟩
  | cons a as ih =>
    obtain ⟨s', hs'⟩ := ih (say a s).2
    refine ⟨s', ?_⟩
    change (ask (say a) >>= fun _ => as.forM fun a => ask (say a)).rehearse s = _
    rw [rehearse_ask_bind]
    exact hs'

/-- The activity may fail, but it changes no files. -/
def Quiet (x : Run Rehearsal α) : Prop :=
  ∀ s, (x.rehearse s).2.tree = s.tree ∧ (x.rehearse s).2.cwd = s.cwd

namespace Quiet

theorem pure (a : α) : Quiet (Pure.pure a : Run Rehearsal α) := fun _ => ⟨rfl, rfl⟩

theorem throw (e : Failure) : Quiet (MonadExcept.throw e : Run Rehearsal α) := fun _ => ⟨rfl, rfl⟩

theorem bind (hx : Quiet x) (hf : ∀ a, Quiet (f a)) : Quiet (x >>= f) := by
  intro s
  rw [rehearse_bind]
  obtain ⟨htree, hcwd⟩ := hx s
  rcases hs : x.rehearse s with ⟨_ | a, s₁⟩
  · rw [hs] at htree hcwd
    exact ⟨htree, hcwd⟩
  · rw [hs] at htree hcwd
    exact ⟨(hf a s₁).1.trans htree, (hf a s₁).2.trans hcwd⟩

theorem ask {action : Rehearsal α}
    (h : ∀ s, (action s).2.tree = s.tree ∧ (action s).2.cwd = s.cwd) : Quiet (Run.ask action) := h

theorem attempt {context : String} {action : Rehearsal (Except DiskError α)}
    (h : ∀ s, (action s).2.tree = s.tree ∧ (action s).2.cwd = s.cwd) :
    Quiet (Run.attempt context action) := by
  refine bind (ask h) fun r => ?_
  cases r with
  | ok a => exact pure a
  | error e => exact throw _

theorem ofChecked (r : Checked α) : Quiet (Run.ofChecked r : Run Rehearsal α) := by
  cases r with
  | ok a => exact pure a
  | error e => exact throw _

theorem tell (n : Notice) : Quiet (Run.ask (Host.tell n)) := ask fun _ => ⟨rfl, rfl⟩

theorem forM {as : List α} {f : α → Run Rehearsal Unit} (hf : ∀ a, Quiet (f a)) :
    Quiet (as.forM f) := by
  induction as with
  | nil => exact pure ()
  | cons a as ih => exact bind (hf a) fun _ => ih

/-- What follows a question starts from the same files. -/
theorem ask_cases {action : Rehearsal α} (hx : Quiet (Run.ask action)) {r : Except Failure β}
    (h : (Run.ask action >>= f).rehearse s = (r, s')) :
    ∃ s₁, s₁.tree = s.tree ∧ s₁.cwd = s.cwd ∧ (f (action s).1).rehearse s₁ = (r, s') := by
  rw [rehearse_ask_bind] at h
  exact ⟨(action s).2, (hx s).1, (hx s).2, h⟩

/-- What follows a quiet activity starts from the same files. -/
theorem cases (hx : Quiet x) {r : Except Failure β} (h : (x >>= f).rehearse s = (r, s')) :
    (∃ e, r = .error e ∧ s'.tree = s.tree ∧ s'.cwd = s.cwd) ∨
      ∃ a s₁, x.rehearse s = (.ok a, s₁) ∧ s₁.tree = s.tree ∧ s₁.cwd = s.cwd ∧
        (f a).rehearse s₁ = (r, s') := by
  rcases rehearse_bind_cases h with ⟨e, he, rfl⟩ | ⟨a, s₁, ha, h⟩
  · have := hx s
    rw [he] at this
    exact .inl ⟨e, rfl, this⟩
  · have := hx s
    rw [ha] at this
    exact .inr ⟨a, s₁, ha, this.1, this.2, h⟩

end Quiet
end Run

namespace Session

variable {s s' : Session} {update : Tree → Place → Except DiskError Tree}

/-- A change that succeeds replaces the tree. -/
theorem change_eq_ok {a : Unit} (h : s.change update = (.ok a, s')) :
    ∃ t, update s.tree s.cwd = .ok t ∧ s' = { s with tree := t } := by
  unfold change at h
  split at h
  · rename_i t ht
    cases h
    exact ⟨t, ht, rfl⟩
  · cases h

/-- A change that fails leaves everything. -/
theorem change_eq_error {e : DiskError} (h : s.change update = (.error e, s')) :
    update s.tree s.cwd = .error e ∧ s' = s := by
  unfold change at h
  split at h
  · cases h
  · rename_i he
    cases h
    exact ⟨he, rfl⟩

theorem removeDirAll_eq {p : Path} {r : Except DiskError Unit} (h : s.removeDirAll p = (r, s')) :
    s.tree.removeDirAll s.cwd p = (r, s'.tree) ∧ s'.cwd = s.cwd := by
  unfold removeDirAll at h
  rcases hall : s.tree.removeDirAll s.cwd p with ⟨result, t⟩
  rw [hall] at h
  cases h
  exact ⟨rfl, rfl⟩

theorem makeTempDir_eq_ok {parent p : Path} {stem : String}
    (h : s.makeTempDir parent stem = (.ok p, s')) :
    ∃ t, s.tree.makeTempDir s.cwd parent stem = .ok (p, t) ∧ s' = { s with tree := t } := by
  unfold makeTempDir at h
  split at h
  · rename_i q t ht
    cases h
    exact ⟨t, ht, rfl⟩
  · cases h

theorem makeTempDir_eq_error {parent : Path} {stem : String} {e : DiskError}
    (h : s.makeTempDir parent stem = (.error e, s')) : s' = s := by
  unfold makeTempDir at h
  split at h
  · cases h
  · cases h
    rfl

end Session

namespace Host

variable {α β : Type} {s s' : Session} {p : Path}

theorem rehearsal_bind (x : Rehearsal α) (f : α → Rehearsal β) (s : Session) :
    (x >>= f) s = f (x s).1 (x s).2 := rfl

theorem isDir_bind_apply (f : Bool → Rehearsal α) :
    ((isDir p : Rehearsal Bool) >>= f) s = f (s.tree.isDir s.cwd p) s := rfl

theorem isThere_apply (p : Path) (s : Session) :
    (isThere p : Rehearsal Bool) s = ((s.tree.find? s.cwd p).isSome, s) := by
  have hboth : (isThere p : Rehearsal Bool) s =
      (s.tree.isDir s.cwd p || s.tree.isFile s.cwd p, s) := by
    unfold isThere
    rw [isDir_bind_apply]
    cases s.tree.isDir s.cwd p <;> rfl
  rw [hboth]
  congr 1
  unfold Tree.isDir Tree.isFile
  cases s.tree.find? s.cwd p with
  | none => rfl
  | some n => cases n <;> rfl

/-- The answer when a directory could not be made, but may have been there. -/
def orFound (p : Path) (e : DiskError) (s : Session) : Except DiskError Unit :=
  if s.tree.isDir s.cwd p then .ok () else .error e

theorem ensureDir_apply (p : Path) (s : Session) :
    (ensureDir p : Rehearsal _) s =
      match (makeDir p : Rehearsal _) s with
      | (.ok _, s₁) => (.ok (), s₁)
      | (.error e, s₁) => (orFound p e s₁, s₁) := by
  unfold ensureDir
  rw [rehearsal_bind]
  rcases (makeDir p : Rehearsal _) s with ⟨e | _, s₁⟩
  · simp only [isDir_bind_apply, orFound]
    cases s₁.tree.isDir s₁.cwd p <;> rfl
  · rfl

theorem ensureChain_apply (p : Path) (above : List Path) (s : Session) :
    (ensureChain (p :: above) : Rehearsal _) s =
      if p.text.isEmpty then (.ok (), s)
      else
        match (makeDir p : Rehearsal _) s with
        | (.ok _, s₁) => (.ok (), s₁)
        | (.error .notFound, s₁) =>
          match (ensureChain above : Rehearsal _) s₁ with
          | (.ok _, s₂) => (ensureDir p : Rehearsal _) s₂
          | (.error e, s₂) => (.error e, s₂)
        | (.error e, s₁) => (orFound p e s₁, s₁) := by
  rw [ensureChain]
  split
  · rfl
  · rw [rehearsal_bind]
    rcases (makeDir p : Rehearsal _) s with ⟨e | _, s₁⟩
    · have hfound (e : DiskError) :
          (do if ← isDir p then return .ok () else return .error e : Rehearsal _) s₁ =
            (orFound p e s₁, s₁) := by
        rw [isDir_bind_apply, orFound]
        cases s₁.tree.isDir s₁.cwd p <;> rfl
      cases e with
      | notFound =>
        simp only [rehearsal_bind]
        rcases (ensureChain above : Rehearsal _) s₁ with ⟨_ | _, s₂⟩ <;> rfl
      | _ => exact hfound _
    · rfl

/-- Only directories have come to the session's tree. -/
structure Grew (s s' : Session) : Prop where
  cwd : s'.cwd = s.cwd
  rooted : s'.tree.Rooted
  grown : s.tree.Grown s'.tree

/-- What making a directory leaves: after a success it is there. -/
structure Made (p : Path) (r : Except DiskError Unit) (s s' : Session) :
    Prop extends Grew s s' where
  dir : r = .ok () → s'.tree.node? (p.place s.cwd) = some .dir

theorem Grew.refl (ht : s.tree.Rooted) : Grew s s := ⟨rfl, ht, .refl _⟩

theorem Grew.trans_made {r : Except DiskError Unit} {s'' : Session} (h : Grew s s')
    (h' : Made p r s' s'') : Made p r s s'' :=
  ⟨⟨h'.cwd.trans h.cwd, h'.rooted, h.grown.trans h'.grown⟩, h.cwd ▸ h'.dir⟩

theorem Grew.trans {s'' : Session} (h : Grew s s') (h' : Grew s' s'') : Grew s s'' :=
  ⟨h'.cwd.trans h.cwd, h'.rooted, h.grown.trans h'.grown⟩

theorem made_makeDir (ht : s.tree.Rooted) {r : Except DiskError Unit}
    (h : (makeDir p : Rehearsal _) s = (r, s')) : Made p r s s' := by
  cases r with
  | error e =>
    obtain ⟨-, rfl⟩ := Session.change_eq_error h
    exact ⟨.refl ht, nofun⟩
  | ok _ =>
    obtain ⟨t, hmade, rfl⟩ := Session.change_eq_ok h
    obtain ⟨hrooted, hgrown, hdir⟩ := ht.makeDir hmade
    exact ⟨⟨rfl, hrooted, hgrown⟩, fun _ => hdir⟩

theorem Made.orFound {e : DiskError} (h : Made p (.error e) s s') :
    Made p (Host.orFound p e s') s s' := by
  refine ⟨h.toGrew, ?_⟩
  unfold Host.orFound
  split
  · rename_i hdir
    rw [← h.cwd]
    exact fun _ => (Tree.find?_eq_some.1 (Tree.isDir_eq_true.1 hdir)).2
  · exact nofun

theorem made_ensureDir (ht : s.tree.Rooted) {r : Except DiskError Unit}
    (h : (ensureDir p : Rehearsal _) s = (r, s')) : Made p r s s' := by
  rw [ensureDir_apply] at h
  rcases hmake : (makeDir p : Rehearsal _) s with ⟨e | _, s₁⟩
  · rw [hmake] at h
    cases h
    exact (made_makeDir ht hmake).orFound
  · rw [hmake] at h
    cases h
    exact made_makeDir ht hmake

theorem made_ensureChain {ps : List Path} (ht : s.tree.Rooted) {r : Except DiskError Unit}
    (h : (ensureChain ps : Rehearsal _) s = (r, s')) :
    Grew s s' ∧ ∀ p ∈ ps.head?, p.text.isEmpty = false → Made p r s s' := by
  induction ps generalizing s s' r with
  | nil =>
    cases h
    exact ⟨.refl ht, nofun⟩
  | cons p above ih =>
    rw [ensureChain_apply] at h
    split at h
    · rename_i hp
      cases h
      refine ⟨.refl ht, ?_⟩
      rintro q ⟨⟩ hq
      rw [hp] at hq
      cases hq
    · have hmade : Made p r s s' := by
        rcases hmake : (makeDir p : Rehearsal _) s with ⟨made, s₁⟩
        have hfirst := made_makeDir ht hmake
        rw [hmake] at h
        split at h
        · rename_i heq
          cases heq
          cases h
          exact hfirst
        · rename_i heq
          cases heq
          rcases hchain : (ensureChain above : Rehearsal _) s₁ with ⟨chain, s₂⟩
          have hgrew := hfirst.toGrew.trans (ih hfirst.rooted hchain).1
          rw [hchain] at h
          split at h
          · rename_i heq
            cases heq
            exact hgrew.trans_made (made_ensureDir hgrew.rooted h)
          · rename_i heq
            cases heq
            cases h
            exact ⟨hgrew, nofun⟩
        · rename_i heq
          cases heq
          cases h
          exact hfirst.orFound
      refine ⟨hmade.toGrew, ?_⟩
      rintro q ⟨⟩ -
      exact hmade

theorem made_makeDirs (ht : s.tree.Rooted) (hp : p.text.isEmpty = false)
    {r : Except DiskError Unit} (h : (makeDirs p : Rehearsal _) s = (r, s')) : Made p r s s' := by
  refine (made_ensureChain ht h).2 p ?_ hp
  unfold Path.ancestors Path.upwards
  split <;> rfl

end Host
end Unbundle
