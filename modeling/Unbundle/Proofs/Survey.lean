import Unbundle.Proofs.Item.Visibility
import Unbundle.Proofs.Partition

/-! Surveying a text refuses nothing: what it looks at are tokens of the text, and what it cuts out
lies between two of them. -/
namespace Unbundle

def Terminator.index : Terminator → Nat
  | semicolon i => i
  | block i => i

namespace Scan

variable {s : Scan} {blockEnds : Bool} {i k : Nat} {t : Token} {h : Head} {kind : DeclarationKind}
  {functions : List Span}

/-- The walk to a terminator goes forward and comes to a token. -/
theorem terminator?_bounds {e : Terminator} (he : s.terminator? blockEnds i = some e) :
    i ≤ e.index ∧ e.index < s.size := by
  fun_induction terminator? s blockEnds i with
  | case1 i hi =>
    cases he
    exact ⟨Nat.le_refl i, hi⟩
  | case2 i hi =>
    cases he
    exact ⟨Nat.le_refl i, hi⟩
  | case3 i hi d hk hd j hp hij ih =>
    have hbounds := ih he
    omega
  | case4 => cases he
  | case5 => cases he
  | case6 i hi hsemi hopen ih =>
    have hbounds := ih he
    omega
  | case7 => cases he

/-- Between two tokens there is a slice that begins with the first of them. -/
theorem Faithful.exists_slice_from (hs : s.Faithful) {j : Nat} {u : Token}
    (ht : s.token? i = some t) (hu : s.token? j = some u) (hij : i ≤ j) :
    ∃ inside, s.slice t.start u.start = .ok inside := by
  obtain ⟨before, inside, after, -, -, -, hin⟩ :=
    Unbundle.exists_slice (hs.boundary_start ht) (hs.boundary_start hu)
      (hs.start_le_start ht hu hij)
  exact ⟨inside, hin⟩

theorem Faithful.exists_implName? (hs : s.Faithful) (next : Nat) :
    ∃ r, s.implName? next = .ok r := by
  unfold implName?
  split
  · rename_i opened hterm
    have hbounds := terminator?_bounds hterm
    simp only [Terminator.index] at hbounds
    obtain ⟨t, ht⟩ := exists_token? (Nat.lt_of_le_of_lt hbounds.1 hbounds.2)
    obtain ⟨u, hu⟩ := exists_token? hbounds.2
    obtain ⟨header, hheader⟩ := hs.exists_slice_from ht hu hbounds.1
    refine ⟨some (String.ofList (squeeze header)), ?_⟩
    simp only [token_eq_ok ht, token_eq_ok hu, Checked.ok_bind, hheader, Checked.pure_eq]
  · exact ⟨none, rfl⟩

theorem Faithful.exists_declarationName? (hs : s.Faithful) (i : Nat) (t : Token) :
    ∃ r, s.declarationName? i t = .ok r := by
  unfold declarationName?
  split
  · exact ⟨none, rfl⟩
  · rename_i next hnext
    obtain ⟨name, hname⟩ := hs.exists_implName? next
    simp only [hname, Checked.ok_bind, Checked.pure_eq]
    split_ifs <;> exact ⟨_, rfl⟩

theorem exists_declarationEnd (s : Scan) (i : Nat) (kind : DeclarationKind) :
    ∃ stop closed, s.declarationEnd i kind = .ok (stop, closed) := by
  unfold declarationEnd
  split
  · rename_i j hterm
    obtain ⟨t, ht⟩ : ∃ t, s.token? j = some t := exists_token? (terminator?_bounds hterm).2
    rw [token_eq_ok ht]
    exact ⟨t.stop, true, rfl⟩
  · exact ⟨_, _, rfl⟩
  · exact ⟨_, _, rfl⟩

/-- Behind every keyword a declaration ends, and not before its head begins. -/
theorem Faithful.exists_declarationAt (hs : s.Faithful) (hk : k < s.size)
    (ho : openBefore s.kinds k = []) (hident : s.kind? k = some .ident) (hh : s.head k = .ok h)
    (kind : DeclarationKind) (name : String) : ∃ d, s.declarationAt k kind name h = .ok d := by
  obtain ⟨stop, closed, hend⟩ := exists_declarationEnd s k kind
  obtain ⟨b, hb⟩ :=
    hs.endsItem_declarationEnd (openBefore_succ_eq_nil ho (by simp [hident])) hend
  obtain ⟨h', lead, first, hh', hat⟩ := hs.exists_head hk ho
  obtain rfl : h = h' := Except.ok.inj (hh.symm.trans hh')
  obtain ⟨t, ht, hstart⟩ := hat.starts
  have hle := hat.clear.le
  have hkb := hb.le hk
  have hlt := (hb.stopsBefore.start_lt_iff hs ht).2 (by omega)
  have hspan : Span.make h.start stop = .ok ⟨h.start, stop⟩ :=
    Span.make_eq_ok_iff.2 ⟨by omega, rfl⟩
  refine ⟨⟨kind, name, ⟨h.start, stop⟩,
    if kind = .aggregate .impl then { h with visibility := .inherited } else h, closed⟩, ?_⟩
  unfold declarationAt
  rw [hend, Checked.ok_bind]
  by_cases himpl : kind = .aggregate .impl
  · simp only [if_pos himpl, hspan, Checked.ok_bind, Checked.pure_eq]
  · simp only [if_neg himpl, hspan, Checked.ok_bind, Checked.pure_eq]

theorem Faithful.exists_finding? (hs : s.Faithful) (functions : List Span)
    (ht : s.token? i = some t) : ∃ r, s.finding? functions i t = .ok r := by
  unfold finding?
  split
  · rename_i hcode
    rw [Bool.and_eq_true, beq_iff_eq] at hcode
    have hident : s.kind? i = some .ident := by simp [kind?, ht, hcode.2]
    have ho := hs.openBefore_eq_nil hcode.1 (by simp [hident])
    split
    · exact ⟨_, rfl⟩
    · obtain ⟨found, hfound⟩ := hs.exists_declarationName? i t
      rw [hfound, Checked.ok_bind]
      cases found with
      | none => exact ⟨none, rfl⟩
      | some found =>
        obtain ⟨kind, name⟩ := found
        obtain ⟨h, lead, first, hh, -⟩ := hs.exists_head (lt_size ht) ho
        obtain ⟨d, hd⟩ := hs.exists_declarationAt (lt_size ht) ho hident hh kind name
        simp only [hh, hd, Checked.ok_bind, Checked.pure_eq]
        split <;> exact ⟨_, rfl⟩
  · exact ⟨none, rfl⟩

theorem Faithful.exists_findingsFrom (hs : s.Faithful) (functions : List Span) (i : Nat) :
    ∃ found, s.findingsFrom functions i = .ok found := by
  fun_induction findingsFrom s functions i with
  | case1 i hi span hspan ih => exact ih
  | case2 i hi hnone ihNext ihResume =>
    have ht : s.token? i = some s.tokens[i] := Array.getElem?_eq_getElem hi
    obtain ⟨r, hr⟩ := hs.exists_finding? functions ht
    rw [hr, Checked.ok_bind]
    cases r with
    | none => exact ihNext
    | some r =>
      obtain ⟨f, resume⟩ := r
      obtain ⟨found, hfound⟩ := ihResume resume
      exact ⟨f :: found, by simp only [hfound, Checked.ok_bind, Checked.pure_eq]⟩
  | case3 i hi => exact ⟨[], rfl⟩

theorem Faithful.exists_functionSites (hs : s.Faithful) : ∃ sites, s.functionSites = .ok sites := by
  have hall : ∀ k ∈ List.range s.size, ∃ r, s.functionSite? k = .ok r := by
    intro k _
    obtain ⟨r, hr, -⟩ := hs.exists_functionSite? k
    exact ⟨r, hr⟩
  obtain ⟨found, hfound⟩ := Checked.exists_mapM hall
  exact ⟨found.filterMap id, by simp only [functionSites, hfound, Checked.ok_bind, Checked.pure_eq]⟩

/-- Every text can be surveyed. -/
theorem Faithful.exists_survey (hs : s.Faithful) : ∃ v, s.survey = .ok v := by
  obtain ⟨sites, hsites⟩ := hs.exists_functionSites
  obtain ⟨found, hfound⟩ := hs.exists_findingsFrom
    (functionSpans ((Survey.mk sites []).applets ++ (Survey.mk sites []).helpers)) 0
  exact ⟨⟨sites, found⟩, survey_eq_ok.2 ⟨hsites, hfound⟩⟩

theorem functions_of_survey {v : Survey} (hv : s.survey = .ok v) :
    s.functions = .ok v.functions := by
  rw [Scan.functions, (survey_eq_ok.1 hv).1]
  rfl

end Scan

/-- So every text can be analysed: what comes of it is a partition, or two applets of one name. -/
theorem exists_analyze (source : Source) :
    ∃ v, (Scan.ofText source.text).survey = .ok v ∧
      analyze source = .ok (v.inventory source.text) := by
  obtain ⟨v, hv⟩ := (Scan.faithful_ofText source.text).exists_survey
  exact ⟨v, hv, by rw [analyze, hv]; rfl⟩

end Unbundle
