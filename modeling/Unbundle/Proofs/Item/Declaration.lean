import Unbundle.Item.Declaration
import Unbundle.Proofs.Item.Head

/-! The declarations of a text: where each lies among the tokens, and that no two overlap, whatever
functions they are looked for around. -/
namespace Unbundle
namespace Scan

variable {s : Scan} {i j k o resume : Nat} {t : Token} {d e : Declaration} {functions : List Span}
  {found : List Finding}

/-- The token at `k` starts the declaration: it lies in no function, and the head begins in none. -/
structure IsDeclaration (s : Scan) (functions : List Span) (k : Nat) (d : Declaration) : Prop where
  keyword : s.isTopLevel k = true
  kind : s.kind? k = some .ident
  outside : ∀ t, s.token? k = some t → ∀ span ∈ functions, span.contains t.start = false
  found : ∃ head, s.head k = .ok head ∧ s.declarationAt k d.kind d.name head = .ok d ∧
    ∀ span ∈ functions, span.strictlyContains head.start = false

theorem declarationAt_eq_ok {kind : DeclarationKind} {name : String} {head : Head}
    (h : s.declarationAt k kind name head = .ok d) :
    d.kind = kind ∧ d.name = name ∧ d.span.start = head.start ∧ d.head.start = head.start ∧
      d.head.itemStart = head.itemStart ∧
        s.declarationEnd k kind = .ok (d.span.stop, d.closed) := by
  obtain ⟨⟨stop, closed⟩, hend, h⟩ := Checked.bind_eq_ok.1 h
  obtain ⟨span, hspan, h⟩ := Checked.bind_eq_ok.1 h
  cases h
  obtain ⟨-, rfl⟩ := Span.make_eq_ok_iff.1 hspan
  by_cases hk : kind = .aggregate .impl
  · rw [if_pos hk]
    exact ⟨rfl, rfl, rfl, rfl, rfl, hend⟩
  · rw [if_neg hk]
    exact ⟨rfl, rfl, rfl, rfl, rfl, hend⟩

/-- A declaration starts with the head it is given, which it keeps but for the visibility. -/
theorem declarationAt_head {kind : DeclarationKind} {name : String} {h : Head}
    (hd : s.declarationAt k kind name h = .ok d) :
    h = { d.head with visibility := h.visibility } ∧ d.span.start = d.head.start := by
  obtain ⟨⟨stop, closed⟩, -, hd⟩ := Checked.bind_eq_ok.1 hd
  obtain ⟨span, hspan, hd⟩ := Checked.bind_eq_ok.1 hd
  obtain ⟨-, rfl⟩ := Span.make_eq_ok_iff.1 hspan
  split at hd <;> cases hd <;> exact ⟨rfl, rfl⟩

/-- Only an item that takes no visibility loses the one it was found with. -/
theorem declarationAt_visibility {kind : DeclarationKind} {name : String} {h : Head}
    (hd : s.declarationAt k kind name h = .ok d) :
    d.head.visibility = h.visibility ∨ d.head.visibility = .inherited := by
  obtain ⟨⟨stop, closed⟩, -, hd⟩ := Checked.bind_eq_ok.1 hd
  obtain ⟨span, -, hd⟩ := Checked.bind_eq_ok.1 hd
  split at hd
  · cases hd
    exact .inr rfl
  · cases hd
    exact .inl rfl

/-- The blocks of implementations take no visibility. -/
theorem declarationAt_impl {name : String} {h : Head}
    (hd : s.declarationAt k (.aggregate .impl) name h = .ok d) :
    d.head.visibility = .inherited := by
  obtain ⟨⟨stop, closed⟩, -, hd⟩ := Checked.bind_eq_ok.1 hd
  obtain ⟨span, -, hd⟩ := Checked.bind_eq_ok.1 hd
  cases hd
  rfl

/-- Any other declaration keeps its head. -/
theorem declarationAt_head_eq {kind : DeclarationKind} {name : String} {h : Head}
    (hd : s.declarationAt k kind name h = .ok d) (hk : kind ≠ .aggregate .impl) : d.head = h := by
  obtain ⟨⟨stop, closed⟩, -, hd⟩ := Checked.bind_eq_ok.1 hd
  obtain ⟨span, -, hd⟩ := Checked.bind_eq_ok.1 hd
  rw [if_neg hk] at hd
  cases hd
  rfl

/-- A declaration is found at a token that starts it. -/
theorem finding?_declaration (ht : s.token? i = some t)
    (hout : ∀ span ∈ functions, span.contains t.start = false)
    (h : s.finding? functions i t = .ok (some (.declaration d, resume))) :
    s.IsDeclaration functions i d ∧ s.declarationName? i t = .ok (some (d.kind, d.name)) ∧
      resume = s.firstFrom d.span.stop := by
  unfold finding? at h
  split at h
  · rename_i hk
    rw [Bool.and_eq_true, beq_iff_eq] at hk
    split at h
    · cases h
    · obtain ⟨r, hr, h⟩ := Checked.bind_eq_ok.1 h
      split at h
      · cases h
      · rename_i kind name
        obtain ⟨head, hhead, h⟩ := Checked.bind_eq_ok.1 h
        split at h
        · cases h
        · rename_i hany
          obtain ⟨d', hd, h⟩ := Checked.bind_eq_ok.1 h
          cases h
          obtain ⟨hkind, hname, -⟩ := declarationAt_eq_ok hd
          rw [← hkind, ← hname] at hd hr
          refine ⟨⟨hk.1, by simp [kind?, ht, hk.2], ?_, head, hhead, hd, ?_⟩, hr, rfl⟩
          · intro u hu
            obtain rfl := Option.some.inj (ht.symm.trans hu)
            exact hout
          · intro span hspan
            rw [← Bool.not_eq_true]
            intro hc
            exact hany (List.any_eq_true.2 ⟨span, hspan, hc⟩)
  · cases h

/-- The end of a declaration, from where the walk to it stops. -/
theorem Faithful.endsItem_declarationEnd {kind : DeclarationKind} {stop : Nat} {closed : Bool}
    (hs : s.Faithful) (ho : openBefore s.kinds (k + 1) = [])
    (h : s.declarationEnd k kind = .ok (stop, closed)) :
    ∃ b, s.EndsItem kind.endsWithBlock (k + 1) b stop := by
  have hwalk : s.Walked kind.endsWithBlock (k + 1) (s.terminator? kind.endsWithBlock (k + 1)) :=
    walked_terminator? hs ho
  unfold declarationEnd at h
  split at h
  · rename_i j hterm
    rw [hterm] at hwalk
    obtain ⟨t, ht, hk⟩ := Option.map_eq_some_iff.1 hwalk.2
    rw [token_eq_ok ht] at h
    cases h
    exact ⟨_, .semicolon hwalk.1 ht hk⟩
  · rename_i opened hterm
    rw [hterm] at hwalk
    cases h
    obtain ⟨b, hb, -⟩ := hwalk.1.endsItem_group hs hwalk.2
    exact ⟨b, hb⟩
  · rename_i hterm
    rw [hterm] at hwalk
    cases h
    exact ⟨_, .unended hwalk⟩

namespace IsDeclaration

theorem exists_itemAt (h : s.IsDeclaration functions k d) (hs : s.Faithful) :
    ∃ lead first stop, s.ItemAt d.kind.endsWithBlock k d.span d.head lead first stop := by
  obtain ⟨head, hhead, hd, -⟩ := h.found
  obtain ⟨-, -, hspan, hstart, hitem, hend⟩ := declarationAt_eq_ok hd
  obtain ⟨t, ht, -⟩ := Option.map_eq_some_iff.1 h.kind
  have hopen := hs.openBefore_eq_nil h.keyword (by simp [h.kind])
  obtain ⟨b, hb⟩ :=
    hs.endsItem_declarationEnd (openBefore_succ_eq_nil hopen (by simp [h.kind])) hend
  obtain ⟨head', lead, first, hhead', hat⟩ := hs.exists_head (lt_size ht) hopen
  rw [hhead] at hhead'
  cases hhead'
  refine ⟨lead, first, b, h.keyword, h.kind, ?_, hspan.trans hstart.symm, hb⟩
  exact ⟨hat.lead_le, hstart ▸ hat.starts, hitem ▸ hat.itemStarts, hat.clear, hat.first_le,
    hat.reach, hat.leadFrom⟩

theorem not_strictlyContains {span : Span} (h : s.IsDeclaration functions k d)
    (hspan : span ∈ functions) : span.strictlyContains d.span.start = false := by
  obtain ⟨head, -, hd, hout⟩ := h.found
  obtain ⟨-, -, hstart, -⟩ := declarationAt_eq_ok hd
  rw [hstart]
  exact hout span hspan

/-- A declaration that is met behind another begins behind it. -/
theorem stop_le_start (h : s.IsDeclaration functions k d) (h' : s.IsDeclaration functions o e)
    (hs : s.Faithful) (hresume : s.firstFrom d.span.stop ≤ o) : d.span.stop ≤ e.span.start := by
  obtain ⟨lead, first, stop, hat⟩ := h.exists_itemAt hs
  obtain ⟨lead', first', stop', hat'⟩ := h'.exists_itemAt hs
  rw [hat.ends.stopsBefore.firstFrom_eq hs] at hresume
  have hle := hat.ends.le_of_clear hs hat'.head.clear hat'.lt_size hresume
  exact hat.holds.stop_le_start hs hat'.holds.starts hle

end IsDeclaration

/-- What a walk finds, it finds at a token outside the functions. -/
theorem exists_finding?_of_mem {f : Finding} (h : s.findingsFrom functions i = .ok found)
    (hf : f ∈ found) :
    ∃ k t resume, s.token? k = some t ∧ (∀ span ∈ functions, span.contains t.start = false) ∧
      s.finding? functions k t = .ok (some (f, resume)) := by
  fun_induction findingsFrom s functions i generalizing found with
  | case1 i hi span hspan ih => exact ih h hf
  | case2 i hi hnone ihNext ihResume =>
    obtain ⟨r, hr, h⟩ := Checked.bind_eq_ok.1 h
    split at h
    · exact ihNext h hf
    · rename_i g resume
      obtain ⟨rest, hrest, h⟩ := Checked.bind_eq_ok.1 h
      cases h
      rcases List.mem_cons.1 hf with rfl | hf
      · refine ⟨i, _, resume, Array.getElem?_eq_getElem hi, ?_, hr⟩
        intro span hspan
        simpa using List.find?_eq_none.1 hnone span hspan
      · exact ihResume resume hrest hf
  | case3 i hi =>
    cases h
    cases hf

/-- Declarations as a walk from the token `i` on meets them: each behind the end of those before
it. -/
structure Met (s : Scan) (functions : List Span) (i : Nat) (ds : List Declaration) : Prop where
  each : ∀ d ∈ ds, ∃ k, i ≤ k ∧ s.IsDeclaration functions k d
  behind : ds.Pairwise fun d e =>
    ∃ k o, s.IsDeclaration functions k d ∧ s.IsDeclaration functions o e ∧
      s.firstFrom d.span.stop ≤ o

theorem Met.mono {ds : List Declaration} (h : s.Met functions j ds) (hij : i ≤ j) :
    s.Met functions i ds := by
  refine ⟨?_, h.behind⟩
  intro d hd
  obtain ⟨k, hjk, hk⟩ := h.each d hd
  exact ⟨k, by omega, hk⟩

theorem Met.cons {ds : List Declaration} (hd : s.IsDeclaration functions i d)
    (h : s.Met functions j ds) (hij : i < j) (hresume : s.firstFrom d.span.stop ≤ j) :
    s.Met functions i (d :: ds) := by
  constructor
  · intro e he
    rcases List.mem_cons.1 he with rfl | he
    · exact ⟨i, Nat.le_refl i, hd⟩
    · exact (h.mono (Nat.le_of_lt hij)).each e he
  · refine .cons ?_ h.behind
    intro e he
    obtain ⟨o, hjo, ho⟩ := h.each e he
    exact ⟨i, o, hd, ho, by omega⟩

theorem met_findingsFrom (h : s.findingsFrom functions i = .ok found) :
    s.Met functions i (found.filterMap Finding.declaration?) := by
  fun_induction findingsFrom s functions i generalizing found with
  | case1 i hi span hspan ih => exact (ih h).mono (by omega)
  | case2 i hi hnone ihNext ihResume =>
    obtain ⟨r, hr, h⟩ := Checked.bind_eq_ok.1 h
    split at h
    · exact (ihNext h).mono (by omega)
    · rename_i f resume
      obtain ⟨rest, hrest, h⟩ := Checked.bind_eq_ok.1 h
      cases h
      have hmet := ihResume resume hrest
      cases f with
      | skipped item => exact hmet.mono (by omega)
      | declaration d =>
        have hout : ∀ span ∈ functions, span.contains s.tokens[i].start = false := by
          intro span hspan
          simpa using List.find?_eq_none.1 hnone span hspan
        obtain ⟨hd, -, rfl⟩ := finding?_declaration (Array.getElem?_eq_getElem hi) hout hr
        exact hmet.cons hd (by omega) (by omega)
  | case3 i hi =>
    cases h
    exact ⟨by simp, .nil⟩

/-- Declarations do not overlap, whatever functions they are looked for around. -/
theorem Met.pairwise {ds : List Declaration} (h : s.Met functions i ds) (hs : s.Faithful) :
    ds.Pairwise fun d e => d.span.stop ≤ e.span.start := by
  refine h.behind.imp ?_
  rintro d e ⟨k, o, hd, he, hresume⟩
  exact hd.stop_le_start he hs hresume

end Scan
end Unbundle
