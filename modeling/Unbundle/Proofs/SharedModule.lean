import Unbundle.Proofs.Faultless
import Unbundle.Proofs.Item.Widening
import Unbundle.Proofs.Sorted

/-! The shared module holds every item that it is for, once and in order. Reading it gives the
tokens of the items, with `pub` before those that had no visibility. -/
namespace Unbundle
namespace Scan

variable {s : Scan} {a b i j k lead first stop : Nat} {span : Span} {h : Head} {blockEnds : Bool}
  {t u : Token} {text : Text}

/-- What the shared module shows of an item: its tokens, with `pub` where the item proper starts if
it is private. -/
def sharedFaces (s : Scan) (item : SharedItem) : List (TokenKind × Text) :=
  ((s.inside item.1).filter (·.start < item.2.itemStart)).map Token.face ++
    ((if item.2.visibility = .priv then [(.ident, "pub".toList)] else []) ++
      ((s.inside item.1).filter (item.2.itemStart ≤ ·.start)).map Token.face)

/-- Such an item shows its tokens with those of its visibility replaced. -/
theorem PlacedAt.sharedFaces_eq (hat : s.PlacedAt blockEnds k span h lead first stop)
    (hs : s.Faithful) (ht : s.token? j = some t) (hstop : t.stop = span.stop)
    (hself : h.visibility ≠ .selfOnly) : s.sharedFaces (span, h) = s.promotedFaces span h := by
  have hlead := hat.head.lead_le
  have hfirst := hat.head.first_le
  have hkstop := hat.lt_stop
  have hj := hat.stop_eq hs ht hstop
  obtain ⟨hbefore, hbehind⟩ :=
    hs.filter_between (hat.head.itemStarts.firstFrom_eq hs) hlead (show first ≤ j + 1 by omega)
  simp only [sharedFaces, hat.inside_eq hs ht hstop, hbefore, hbehind]
  by_cases hv : h.visibility = .priv
  · rw [if_pos hv, hat.promotedFaces_of_priv hs ht hstop hv]
    rfl
  · have hwide := Visibility.widen_eq_self_iff.2 ⟨hv, hself⟩
    rw [if_neg hv, List.nil_append, ← List.map_append, between_append hlead (by omega),
      hat.promotedFaces_of_widen_eq hs ht hstop hwide]

theorem ClosedAt.reads_promoted (hc : s.ClosedAt span h) (hs : s.Faithful)
    (hself : h.visibility ≠ .selfOnly) (hp : promote s.text span h = .ok text) :
    ReadsAs text (s.sharedFaces (span, h)) := by
  obtain ⟨blockEnds, k, lead, first, stop, j, t, hat, ht, hk, hstop⟩ := hc
  rw [hat.sharedFaces_eq hs ht hstop hself]
  exact hat.reads_promoted hs ht hstop hk (fun hcrowded => hself hcrowded.1) hp

end Scan

section Module

variable {source : Source} {config : Config} {u : Inventory} {m : Manifest} {s : Scan}

/-- The items of the shared module are closed, and none is visible in its own module only. -/
structure Inventory.Shareable (u : Inventory) : Prop where
  helpers : ∀ f ∈ u.helpers, f.closed = true ∧ f.head.visibility ≠ .selfOnly
  declarations : ∀ d ∈ u.declarations, d.closed = true ∧ d.head.visibility ≠ .selfOnly

/-- What each item shows in the shared module. -/
theorem Scan.Yields.reads_promoted {item : SharedItem} {text : Text} (h : s.Yields u)
    (hs : s.Faithful) (hu : u.Shareable) (hitem : item ∈ u.sharedItems)
    (hp : promote s.text item.1 item.2 = .ok text) : ReadsAs text (s.sharedFaces item) := by
  rcases List.mem_append.1 (List.mem_mergeSort.1 hitem) with hd | hf
  · obtain ⟨d, hmem, rfl⟩ := List.mem_map.1 hd
    obtain ⟨hclosed, hself⟩ := hu.declarations d hmem
    exact (h.closedAt_declaration hs hmem hclosed).reads_promoted hs hself hp
  · obtain ⟨f, hmem, rfl⟩ := List.mem_map.1 hf
    obtain ⟨hclosed, hself⟩ := hu.helpers f hmem
    exact (h.closedAt_helper hs hmem hclosed).reads_promoted hs hself hp

/-- No two items of the shared module start at one byte. -/
theorem Scan.Yields.nodup_starts (h : s.Yields u) (hs : s.Faithful) :
    ((u.declarations.map (fun d => (d.span, d.head)) ++ u.helpers.map fun f => (f.span, f.head)).map
      fun item => item.1.start).Nodup := by
  have hdecls : u.declarations.Pairwise fun d e => d.span.start < e.span.start := by
    refine (h.declarations.pairwise hs).imp_of_mem ?_
    intro d e hd _ hle
    obtain ⟨k, -, hk⟩ := h.declarations.each d hd
    obtain ⟨lead, first, stop, hat⟩ := hk.exists_itemAt hs
    have hlt := hat.holds.start_lt_stop hs
    omega
  rw [List.map_append, List.map_map, List.map_map, List.nodup_append]
  refine ⟨?_, ?_, ?_⟩
  · apply List.pairwise_map.2
    exact hdecls.imp fun hlt => Nat.ne_of_lt hlt
  · apply List.pairwise_map.2
    exact (h.helpers.start_lt_start hs).imp fun hlt => Nat.ne_of_lt hlt
  · intro m hm n hn heq
    obtain ⟨d, hd, rfl⟩ := List.mem_map.1 hm
    obtain ⟨f, hf, rfl⟩ := List.mem_map.1 hn
    obtain ⟨i, -, hi⟩ := h.declarations.each d hd
    obtain ⟨k, hk⟩ := h.helpers.each f hf
    have hmem : f.span ∈ functionSpans (u.applets ++ u.helpers) :=
      mem_functionSpans (List.mem_append_right _ hf)
    have hout := hi.not_contains hs hk hmem
    have hlt := h.helpers.start_lt_stop hs hf
    rw [← Bool.not_eq_true, Span.contains_iff] at hout
    simp only [Function.comp] at heq
    omega

theorem sharedItems_perm (u : Inventory) :
    u.sharedItems.Perm
      (u.declarations.map (fun d => (d.span, d.head)) ++ u.helpers.map fun f => (f.span, f.head)) :=
  List.mergeSort_perm _ _

/-- The shared module has its items in the order of the text. -/
theorem Scan.Yields.pairwise_sharedItems (h : s.Yields u) (hs : s.Faithful) :
    u.sharedItems.Pairwise fun a b => a.1.start < b.1.start :=
  increasing_mergeSort (h.nodup_starts hs)

/-- Applets whose modules do not clash have a manifest, with a shared module if there is something
to share. -/
theorem exists_manifest {v : Survey} {assigned : List Assignment}
    (hv : (Scan.ofText source.text).survey = .ok v) (hu : v.inventory source.text = .ok u)
    (config : Config) (hsome : u.applets.isEmpty = false)
    (hassign : assignModules config u.hasShared [] u.applets = .ok assigned) :
    ∃ m, plan source config = .ok (.ok ⟨u, some m⟩) ∧ m.hasShared = u.hasShared := by
  obtain ⟨m, hplan⟩ := plan_of_survey hv hu config
  rw [hsome, if_neg Bool.false_ne_true, hassign] at hplan
  obtain ⟨-, shared, applets, exports, hl⟩ := exists_laidOut hplan
  exact ⟨m, hplan, hl.hasShared⟩

/-- The shared module comes first in a manifest that has one. -/
theorem exists_shared (h : plan source config = .ok (.ok ⟨u, some m⟩))
    (hshared : m.hasShared = true) :
    ∃ file, m.units.head? = some file ∧ sharedUnit config source u = .ok file := by
  obtain ⟨-, shared, applets, exports, hl⟩ := exists_laidOut h
  have hunit := hl.sharedUnit
  rw [← hl.hasShared, hshared, if_pos rfl] at hunit
  obtain ⟨file, hfile, rfl⟩ := Checked.map_eq_ok.1 hunit
  exact ⟨file, by rw [hl.units]; rfl, hfile⟩

/-- How the shared module is read: it gives the tokens of all its items in the order of the text,
with one `pub` more where an item that is private starts. -/
structure SharedReads (config : Config) (source : Source) (u : Inventory) (m : Manifest) :
    Prop where
  reads : ∃ file, m.units.head? = some file ∧ file.name = moduleFile config.sharedModule ∧
    (tokenize file.body.toList).map Token.face =
      u.sharedItems.flatMap (Scan.ofText source.text).sharedFaces
  items : u.sharedItems.Perm
    (u.declarations.map (fun d => (d.span, d.head)) ++ u.helpers.map fun f => (f.span, f.head))
  increasing : u.sharedItems.Pairwise fun a b => a.1.start < b.1.start
  implInherited : ∀ d ∈ u.declarations, d.kind = .aggregate .impl → d.head.visibility = .inherited

theorem sharedModule_reads (h : plan source config = .ok (.ok ⟨u, some m⟩))
    (hshared : m.hasShared = true) (hu : u.Shareable) : SharedReads config source u m := by
  have hs := Scan.faithful_ofText source.text
  have hy := yields_of_analyze (exists_laidOut h).1
  refine ⟨?_, sharedItems_perm u, hy.pairwise_sharedItems hs, ?_⟩
  · obtain ⟨file, hhead, hfile⟩ := exists_shared h hshared
    refine ⟨file, hhead, name_of_sharedUnit hfile, ?_⟩
    obtain ⟨texts, htexts, hbody⟩ := Checked.bind_eq_ok.1 hfile
    cases hbody
    have hblank : (['\n'] : Text).all isBlank = true := by decide +kernel
    have hall :
        List.Forall₂ (fun item text => ReadsAs text ((Scan.ofText source.text).sharedFaces item))
        u.sharedItems texts := by
      have hpromoted := (List.forall₂_and_left u.sharedItems texts).2
        ⟨fun _ hitem => hitem, Checked.mapM_eq_ok.1 htexts⟩
      refine hpromoted.imp ?_
      rintro item text ⟨hitem, hp⟩
      exact hy.reads_promoted hs hu hitem hp
    rw [String.toList_ofList]
    exact (reads_joinWith hall).map_face_tokenize hblank
  · intro d hd himpl
    obtain ⟨k, -, hk⟩ := hy.declarations.each d hd
    obtain ⟨head, -, hat, -⟩ := hk.found
    rw [himpl] at hat
    exact Scan.declarationAt_impl hat

theorem plan_oneOfEach :
    ∃ u m, plan oneOfEach .default = .ok (.ok ⟨u, some m⟩) ∧ m.hasShared = true ∧ u.Shareable := by
  obtain ⟨m, hplan, hshared⟩ :=
    exists_manifest survey_oneOfEach (Survey.inventory_eq_ok.2 ⟨rfl, rfl⟩) .default rfl rfl
  exact ⟨_, m, hplan, hshared, by decide, by decide⟩

/-- The helper and the constant of one source are read together. -/
theorem oneOfEach_reads :
    ∃ u m file, plan oneOfEach .default = .ok (.ok ⟨u, some m⟩) ∧ m.hasShared = true ∧
      u.Shareable ∧ m.units.head? = some file ∧
        (tokenize file.body.toList).map Token.face =
          u.sharedItems.flatMap (Scan.ofText oneOfEach.text).sharedFaces := by
  obtain ⟨u, m, hplan, hshared, hu⟩ := plan_oneOfEach
  obtain ⟨file, hhead, -, hfaces⟩ := (sharedModule_reads hplan hshared hu).reads
  exact ⟨u, m, file, hplan, hshared, hu, hhead, hfaces⟩

end Module
end Unbundle
