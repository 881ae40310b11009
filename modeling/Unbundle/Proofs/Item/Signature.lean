import Unbundle.Item.Signature
import Unbundle.Proofs.Text.Blank

/-! Applet signatures: three words and one parenthesis. So of two applet signatures that end in the
same place, neither holds more than blanks before the other. -/
namespace Unbundle
namespace Signature

variable {w : String} {c : Char} {cs mid rest name : Text}

theorem lit_eq_some (h : lit w cs = some rest) : cs = w.toList ++ rest := by
  unfold lit at h
  split at h
  · rename_i hp
    cases h
    obtain ⟨rest, rfl⟩ := List.isPrefixOf_iff_prefix.1 hp
    rw [← String.length_toList, List.drop_left]
  · cases h

theorem blanks_append (cs : Text) : ∃ gap, gap.all isBlank = true ∧ cs = gap ++ blanks cs :=
  ⟨cs.takeWhile isBlank, List.all_takeWhile, List.takeWhile_append_dropWhile.symm⟩

theorem someBlanks_eq_some (h : someBlanks cs = some rest) :
    ∃ c gap, (c :: gap).all isBlank = true ∧ cs = c :: gap ++ rest := by
  unfold someBlanks at h
  split at h
  · rename_i c cs
    split at h
    · rename_i hc
      cases h
      obtain ⟨gap, hg, hcs⟩ := blanks_append cs
      refine ⟨c, gap, by rw [List.all_cons, hc, hg]; rfl, ?_⟩
      rw [List.cons_append, ← hcs]
    · cases h
  · cases h

/-- A name as a signature may have it: characters of names, or such characters behind `r#`. -/
inductive NameText : Text → Prop
  | plain {c : Char} {cs : Text} (hc : (c == '_' || isNameStart c) = true)
      (hcs : cs.all isNameContinue = true) : NameText (c :: cs)
  | raw {c : Char} {cs : Text} (hc : (c == '_' || isNameStart c) = true)
      (hcs : cs.all isNameContinue = true) : NameText ('r' :: '#' :: c :: cs)

theorem isNameContinue_of_start (hc : (c == '_' || isNameStart c) = true) :
    isNameContinue c = true := by
  simp only [Bool.or_eq_true, beq_iff_eq] at hc
  rcases hc with rfl | hc
  · decide
  · exact isNameContinue_of_isNameStart hc

namespace NameText

theorem ne_nil (h : NameText name) : name ≠ [] := by
  cases h <;> simp

/-- The characters of a name: no blanks and no parenthesis. -/
theorem plain_of_mem {d : Char} (h : NameText name) (hd : d ∈ name) :
    isBlank d = false ∧ d ≠ '(' := by
  have hcont {d : Char} (h : isNameContinue d = true) : isBlank d = false ∧ d ≠ '(' := by
    refine ⟨isBlank_of_isNameContinue h, ?_⟩
    rintro rfl
    revert h
    decide
  cases h with
  | plain hc hcs =>
    rcases List.mem_cons.1 hd with rfl | hd
    · exact hcont (isNameContinue_of_start hc)
    · exact hcont (List.all_eq_true.1 hcs d hd)
  | raw hc hcs =>
    simp only [List.mem_cons] at hd
    rcases hd with rfl | rfl | rfl | hd
    · decide
    · decide
    · exact hcont (isNameContinue_of_start hc)
    · exact hcont (List.all_eq_true.1 hcs d hd)

theorem isWord (h : NameText name) : IsWord name := by
  refine ⟨h.ne_nil, List.all_eq_true.2 ?_⟩
  intro d hd
  rw [(h.plain_of_mem hd).1]
  rfl

end NameText

theorem name?_eq_some (h : name? cs = some (name, rest)) : cs = name ++ rest ∧ NameText name := by
  obtain ⟨marker, hm, hmarker, hcs⟩ : ∃ marker : Text, (marker = [] ∨ marker = ['r', '#']) ∧
      (if (lit "r#" cs).isSome then ['r', '#'] else []) = marker ∧
      cs = marker ++ optLit "r#" cs := by
    unfold optLit
    cases hl : lit "r#" cs with
    | none => exact ⟨[], .inl rfl, rfl, rfl⟩
    | some rest => exact ⟨['r', '#'], .inr rfl, rfl, lit_eq_some hl⟩
  simp only [name?, hmarker] at h
  split at h
  · rename_i c tail htail
    split at h
    · rename_i hc
      cases h
      refine ⟨?_, ?_⟩
      · rw [hcs, htail, List.append_assoc, List.cons_append, List.takeWhile_append_dropWhile]
      · rcases hm with rfl | rfl
        · exact .plain hc List.all_takeWhile
        · exact .raw hc List.all_takeWhile
    · cases h
  · cases h

/-- What lies before `rest` in a text holds no parenthesis. -/
def Past (cs rest : Text) : Prop := ∃ pre, cs = pre ++ rest ∧ '(' ∉ pre

namespace Past

theorem trans (h : Past cs mid) (h' : Past mid rest) : Past cs rest := by
  obtain ⟨pre, rfl, hp⟩ := h
  obtain ⟨post, rfl, hq⟩ := h'
  exact ⟨pre ++ post, by simp, by simp [hp, hq]⟩

theorem lit (h : lit w cs = some rest) (hw : '(' ∉ w.toList) : Past cs rest :=
  ⟨w.toList, lit_eq_some h, hw⟩

theorem optLit (hw : '(' ∉ w.toList) (cs : Text) : Past cs (optLit w cs) := by
  unfold Signature.optLit
  cases h : Signature.lit w cs with
  | none => exact ⟨[], rfl, by simp⟩
  | some rest => exact lit h hw

theorem of_blank {gap : Text} (hg : gap.all isBlank = true) : '(' ∉ gap := by
  intro hm
  have := List.all_eq_true.1 hg _ hm
  revert this
  decide

theorem blanks (cs : Text) : Past cs (blanks cs) := by
  obtain ⟨gap, hg, hcs⟩ := blanks_append cs
  exact ⟨gap, hcs, of_blank hg⟩

theorem someBlanks (h : someBlanks cs = some rest) : Past cs rest := by
  obtain ⟨c, gap, hg, hcs⟩ := someBlanks_eq_some h
  exact ⟨c :: gap, hcs, of_blank hg⟩

theorem next (h : next w cs = some rest) (hw : '(' ∉ w.toList) : Past cs rest :=
  (blanks cs).trans (lit h hw)

end Past

/-- The parameter list and the result hold one parenthesis that opens. -/
theorem afterName_eq_some (h : afterName cs = some []) :
    ∃ gap tail, gap.all isBlank = true ∧ cs = gap ++ '(' :: tail ∧ '(' ∉ tail := by
  simp only [afterName, Option.bind_eq_bind, Option.bind_eq_some_iff] at h
  obtain ⟨tail, h₀, c₁, h₁, c₂, h₂, c₃, h₃, c₄, h₄, c₅, h₅, c₆, h₆, c₇, h₇, c₈, h₈, b₉, hb₉, c₉, h₉,
    c₁₀, h₁₀, b₁₁, hb₁₁, c₁₁, h₁₁, c₁₂, h₁₂, c₁₃, h₁₃, h₁₄⟩ := h
  obtain ⟨gap, hg, hcs⟩ := blanks_append cs
  refine ⟨gap, tail, hg, ?_, ?_⟩
  · rw [hcs]
    exact congrArg (gap ++ ·) (lit_eq_some h₀)
  · have hpast : Past tail [] := by
      have argc : Past tail c₁ :=
        ((Past.blanks tail).trans (.optLit (by decide) _)).trans (.lit h₁ (by decide))
      have i32 : Past c₁ c₃ := (Past.next h₂ (by decide)).trans (.next h₃ (by decide))
      have comma : Past c₃ c₄ := .next h₄ (by decide)
      have argv : Past c₄ c₅ :=
        ((Past.blanks c₄).trans (.optLit (by decide) _)).trans (.lit h₅ (by decide))
      have star : Past c₅ c₇ := (Past.next h₆ (by decide)).trans (.next h₇ (by decide))
      have const : Past c₇ c₉ :=
        ((Past.next h₈ (by decide)).trans (.someBlanks hb₉)).trans (.lit h₉ (by decide))
      have u8 : Past c₉ c₁₁ :=
        ((Past.next h₁₀ (by decide)).trans (.someBlanks hb₁₁)).trans (.lit h₁₁ (by decide))
      have close : Past c₁₁ c₁₂ :=
        ((Past.blanks c₁₁).trans (.optLit (by decide) _)).trans (.next h₁₂ (by decide))
      have result : Past c₁₂ [] := (Past.next h₁₃ (by decide)).trans (.next h₁₄ (by decide))
      exact argc.trans <| i32.trans <| comma.trans <| argv.trans <| star.trans <| const.trans <|
        u8.trans <| close.trans result
    obtain ⟨pre, htail, hp⟩ := hpast
    rw [htail, List.append_nil]
    exact hp

end Signature

open Signature

variable {sig pre name : Text}

theorem trim_append (text : Text) :
    ∃ before after, before.all isBlank = true ∧ after.all isBlank = true ∧
      text = before ++ (trim text ++ after) := by
  refine ⟨text.takeWhile isBlank, ((text.dropWhile isBlank).reverse.takeWhile isBlank).reverse,
    List.all_takeWhile, by rw [List.all_reverse]; exact List.all_takeWhile, ?_⟩
  rw [trim, ← List.reverse_append, List.takeWhile_append_dropWhile, List.reverse_reverse,
    List.takeWhile_append_dropWhile]

/-- The words before the parenthesis of an applet's signature. -/
theorem words_of_appletName? (h : appletName? sig = some name) :
    ∃ x tail, sig = x ++ '(' :: tail ∧ '(' ∉ x ∧ '(' ∉ tail ∧
      words x = ["pub".toList, "fn".toList, name] := by
  simp only [appletName?, Option.bind_eq_bind, Option.bind_eq_some_iff] at h
  obtain ⟨c₁, h₁, b₂, hb₂, c₂, h₂, b₃, hb₃, ⟨n, c₃⟩, h₃, c₄, h₄, h⟩ := h
  split at h
  · rename_i he
    cases h
    rw [List.isEmpty_iff.1 he] at h₄
    obtain ⟨before, after, hbefore, hafter, hsig⟩ := trim_append sig
    obtain ⟨c, gap, hgap, rfl⟩ := someBlanks_eq_some hb₂
    obtain ⟨d, gap', hgap', rfl⟩ := someBlanks_eq_some hb₃
    obtain ⟨rfl, hname⟩ := name?_eq_some h₃
    have hparen : '(' ∉ n := fun hmem => (hname.plain_of_mem hmem).2 rfl
    obtain ⟨gap₃, tail, hgap₃, rfl, htail⟩ := afterName_eq_some h₄
    have hfn := lit_eq_some h₂
    subst hfn
    rw [lit_eq_some h₁] at hsig
    refine ⟨before ++ ("pub".toList ++ (c :: gap ++ ("fn".toList ++ (d :: gap' ++
      (n ++ gap₃))))), tail ++ after, ?_, ?_, ?_, ?_⟩
    · rw [hsig]
      simp
    · simp only [List.mem_append, not_or]
      exact ⟨Past.of_blank hbefore, by decide, Past.of_blank hgap, by decide, Past.of_blank hgap',
        hparen, Past.of_blank hgap₃⟩
    · simp only [List.mem_append, not_or]
      exact ⟨htail, Past.of_blank hafter⟩
    · have hc : isBlank c = true := by simp_all
      have hd : isBlank d = true := by simp_all
      have hblank : ∀ e ∈ gap₃.head?, isBlank e = true := by
        intro e he
        exact List.all_eq_true.1 hgap₃ e (List.mem_of_mem_head? he)
      have hend : words gap₃ = [] := by
        have := words_gap hgap₃ []
        rwa [List.append_nil] at this
      rw [words_gap hbefore, words_word ⟨by decide, by decide⟩ (by simp [hc]), words_gap hgap,
        words_word ⟨by decide, by decide⟩ (by simp [hd]), words_gap hgap',
        words_word hname.isWord hblank, hend]
  · cases h

/-- Nothing but blanks can be put before an applet's signature. -/
theorem isBlank_of_appletName?_append (hp : (appletName? (pre ++ sig)).isSome = true)
    (hs : (appletName? sig).isSome = true) : pre.all isBlank = true := by
  obtain ⟨m, hm⟩ := Option.isSome_iff_exists.1 hp
  obtain ⟨n, hn⟩ := Option.isSome_iff_exists.1 hs
  obtain ⟨x, tail, hx, hxp, htail, hwx⟩ := words_of_appletName? hm
  obtain ⟨y, tail', rfl, hyp, htail', hwy⟩ := words_of_appletName? hn
  have hxy : x = pre ++ y := by
    have hpre : '(' ∉ pre := by
      intro hmem
      have hcount := congrArg (List.count '(') hx
      have := List.count_pos_iff.2 hmem
      simp only [List.count_append, List.count_cons, List.count_eq_zero_of_not_mem hxp,
        List.count_eq_zero_of_not_mem hyp, List.count_eq_zero_of_not_mem htail,
        List.count_eq_zero_of_not_mem htail'] at hcount
      simp at hcount
      omega
    have htake {a b : Text} (ha : '(' ∉ a) : (a ++ '(' :: b).takeWhile (· != '(') = a := by
      rw [List.takeWhile_append_of_pos]
      · simp
      · intro e he
        simp only [bne_iff_ne]
        rintro rfl
        exact ha he
    rw [← htake hxp (b := tail), ← hx, ← List.append_assoc, htake]
    simp only [List.mem_append, not_or]
    exact ⟨hpre, hyp⟩
  rw [← Bool.not_eq_false]
  intro hblank
  rcases words_append hblank hwy with hlt | ⟨g, hg, hw⟩
  · rw [← hxy, hwx] at hlt
    simp at hlt
  · rw [← hxy, hwx] at hw
    have hpub := (List.cons.inj hw).1
    have := congrArg List.length hpub
    rw [List.length_append] at this
    exact hg (List.length_eq_zero_iff.1 (by omega))

end Unbundle
