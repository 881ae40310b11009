import Unbundle.Proofs.Item.Form
import Unbundle.Proofs.Item.Restriction

/-! Restrictions and the words they are printed with. These words are a normal form of the words
that were read: printed and read again, a restriction stays what it is, and two restrictions are the
same exactly when their normal forms are. -/
namespace Unbundle
namespace Visibility

variable {w x y : Text} {ws vs : List Text}

section Words

/-- The words that make a restriction without a path, each of them alone. -/
def loneWords : List (List Text) := [["crate".toList], ["super".toList], ["self".toList]]

/-- The words of the path: a word `in` before others is no part of it. -/
def pathWords : List Text → List Text
  | w :: v :: vs => if w = "in".toList then v :: vs else w :: v :: vs
  | ws => ws

def printedWords (ws : List Text) : List Text :=
  if ws ∈ loneWords then ws else "in".toList :: pathWords ws

theorem pathWords_ne_nil (hne : ws ≠ []) : pathWords ws ≠ [] := by
  match ws with
  | [] => exact absurd rfl hne
  | [w] => simp [pathWords]
  | w :: v :: vs =>
    rw [pathWords]
    split <;> simp

theorem mem_of_mem_pathWords (hw : w ∈ pathWords ws) : w ∈ ws := by
  match ws with
  | [] => exact hw
  | [v] => exact hw
  | u :: v :: vs =>
    rw [pathWords] at hw
    split at hw
    · exact List.mem_cons_of_mem u hw
    · exact hw

theorem isWord_of_mem_pathWords (hws : ∀ w ∈ ws, IsWord w) : ∀ w ∈ pathWords ws, IsWord w :=
  fun w hw => hws w (mem_of_mem_pathWords hw)

theorem mem_loneWords_iff :
    ws ∈ loneWords ↔ ws = ["crate".toList] ∨ ws = ["super".toList] ∨ ws = ["self".toList] := by
  simp [loneWords]

theorem in_cons_notMem_loneWords (ws : List Text) : "in".toList :: ws ∉ loneWords := by
  simp [loneWords]

theorem printedWords_of_mem (h : ws ∈ loneWords) : printedWords ws = ws := if_pos h

theorem printedWords_of_notMem (h : ws ∉ loneWords) :
    printedWords ws = "in".toList :: pathWords ws :=
  if_neg h

theorem isWord_of_mem_printedWords (hws : ∀ w ∈ ws, IsWord w) :
    ∀ w ∈ printedWords ws, IsWord w := by
  by_cases hlone : ws ∈ loneWords
  · rw [printedWords_of_mem hlone]
    exact hws
  · rw [printedWords_of_notMem hlone]
    exact List.forall_mem_cons.2 ⟨⟨by decide, by decide⟩, isWord_of_mem_pathWords hws⟩

theorem printedWords_mem_loneWords_iff : printedWords ws ∈ loneWords ↔ ws ∈ loneWords := by
  by_cases hlone : ws ∈ loneWords
  · rw [printedWords_of_mem hlone]
  · rw [printedWords_of_notMem hlone]
    exact iff_of_false (in_cons_notMem_loneWords _) hlone

/-- What is printed is a normal form of what was read. -/
theorem printedWords_printedWords (hne : ws ≠ []) :
    printedWords (printedWords ws) = printedWords ws := by
  by_cases hlone : ws ∈ loneWords
  · rw [printedWords_of_mem hlone, printedWords_of_mem hlone]
  · have hpath : pathWords ("in".toList :: pathWords ws) = pathWords ws := by
      obtain ⟨v, vs, hv⟩ := List.exists_cons_of_ne_nil (pathWords_ne_nil hne)
      rw [hv, pathWords, if_pos rfl]
    rw [printedWords_of_notMem hlone, printedWords_of_notMem (in_cons_notMem_loneWords _), hpath]

theorem isSimple_restricted_iff : (restricted x).isSimple = true ↔ words x ∈ loneWords := by
  constructor
  · intro h
    obtain ⟨w, hw, hwords, -⟩ := restricted_of_isSimple h
    rw [hwords]
    simpa [loneWords] using hw
  · intro h
    rcases mem_loneWords_iff.1 h with h | h | h <;> rw [restricted, h] <;> rfl

theorem restricted_of_notMem_loneWords (h : words x ∉ loneWords) :
    restricted x = ofPathWords (pathWords (words x)) := by
  rw [mem_loneWords_iff, not_or, not_or] at h
  obtain ⟨hcrate, hsuper, hself⟩ := h
  unfold restricted
  simp only [if_neg hcrate, if_neg hsuper, if_neg hself]
  split
  · rename_i w v vs hws
    rw [hws, pathWords, apply_ite ofPathWords]
  · rename_i hnot
    rw [pathWords]
    exact hnot

end Words
section Characters

def afterIn : Text → Text
  | 'i' :: 'n' :: ' ' :: path => path
  | path => path

/-- Reads a restriction by its characters when its blanks are squeezed. -/
def ofSqueezed (path : Text) : Visibility :=
  if path = "crate".toList then .crate
  else if path = "super".toList then .super
  else if path = "self".toList then .selfOnly
  else .inPath (String.ofList (trim (afterIn path)))

theorem afterIn_eq_self (h : ∀ path, x ≠ "in ".toList ++ path) : afterIn x = x := by
  unfold afterIn
  split
  · rename_i path
    exact absurd rfl (h path)
  · rfl

/-- Joined words begin with `in` and a space when a word `in` stands before others. -/
theorem afterIn_joinWith (hws : ∀ w ∈ ws, IsWord w) :
    afterIn (joinWith [' '] ws) = joinWith [' '] (pathWords ws) := by
  match ws with
  | [] => rfl
  | [w] =>
    refine afterIn_eq_self ?_
    rintro path rfl
    exact (hws _ List.mem_cons_self).notMem (show isBlank ' ' = true by decide) (by simp)
  | w :: v :: vs =>
    rw [pathWords]
    split_ifs with hin
    · rw [hin, joinWith_cons (by simp)]
      rfl
    · refine afterIn_eq_self ?_
      intro path hpath
      have hread := words_word (w := "in".toList) (x := ' ' :: path) ⟨by decide, by decide⟩
        (by rintro c ⟨⟩; decide)
      rw [show "in".toList ++ ' ' :: path = "in ".toList ++ path from rfl, ← hpath,
        words_joinWith hws] at hread
      exact hin (List.cons.inj hread).1

/-- Words that are joined by spaces have no blanks around them. -/
theorem trim_joinWith (hws : ∀ w ∈ ws, IsWord w) :
    trim (joinWith [' '] ws) = joinWith [' '] ws := by
  cases ws with
  | nil => rfl
  | cons w vs =>
    obtain ⟨y, hy⟩ := exists_append_joinWith [' '] w vs
    have hfirst : ∀ c ∈ (joinWith [' '] (w :: vs)).head?, isBlank c = false := by
      rw [hy]
      exact (hws w List.mem_cons_self).head?_append y
    obtain ⟨x, v, hv, hx⟩ := exists_joinWith_append hws (by simp)
    have hlast : ∀ c ∈ (joinWith [' '] (w :: vs)).getLast?, isBlank c = false := by
      rw [hx, List.getLast?_append_of_ne_nil _ hv.ne_nil]
      exact hv.getLast?
    have hne : joinWith [' '] (w :: vs) ≠ [] := by
      rw [hx]
      exact List.append_ne_nil_of_right_ne_nil x hv.ne_nil
    have htrim : trim ([] ++ (joinWith [' '] (w :: vs) ++ [])) = joinWith [' '] (w :: vs) :=
      trim_gap rfl rfl hfirst hlast hne
    rwa [List.nil_append, List.append_nil] at htrim

theorem squeeze_eq_iff (hw : ' ' ∉ w) (hne : w ≠ []) : squeeze x = w ↔ words x = [w] := by
  rw [squeeze, joinWith_blank_eq hw]
  simp [hne]

/-- The words decide as the characters do: blanks are squeezed, three texts are looked for, and any
other text is a path, perhaps behind `in` and a space. -/
theorem restricted_eq_ofSqueezed (x : Text) : restricted x = ofSqueezed (squeeze x) := by
  by_cases hlone : words x ∈ loneWords
  · rcases mem_loneWords_iff.1 hlone with h | h | h <;> rw [restricted, squeeze, h] <;> rfl
  · have hwords := isWord_words x
    rw [restricted_of_notMem_loneWords hlone, ofPathWords,
      ← trim_joinWith (isWord_of_mem_pathWords hwords), ← afterIn_joinWith hwords]
    rw [mem_loneWords_iff, not_or, not_or] at hlone
    obtain ⟨hcrate, hsuper, hself⟩ := hlone
    rw [ofSqueezed, if_neg (mt (squeeze_eq_iff (by decide) (by decide)).1 hcrate),
      if_neg (mt (squeeze_eq_iff (by decide) (by decide)).1 hsuper),
      if_neg (mt (squeeze_eq_iff (by decide) (by decide)).1 hself), squeeze]

end Characters
section Printed

theorem ofPathWords_inj (hws : ∀ w ∈ ws, IsWord w) (hvs : ∀ w ∈ vs, IsWord w) :
    ofPathWords ws = ofPathWords vs ↔ ws = vs := by
  constructor
  · intro h
    rw [ofPathWords, ofPathWords, inPath.injEq, ← String.toList_inj, String.toList_ofList,
      String.toList_ofList] at h
    rw [← words_joinWith hws, h, words_joinWith hvs]
  · rintro rfl
    rfl

theorem text_of_mem_loneWords (h : words x ∈ loneWords) :
    (restricted x).text.toList = "pub(".toList ++ (joinWith [' '] (words x) ++ [')']) := by
  obtain ⟨w, -, hwords, htext⟩ := restricted_of_isSimple (isSimple_restricted_iff.2 h)
  rw [htext, hwords, joinWith]

theorem restricted_eq_iff_of_mem (hx : words x ∈ loneWords) (hy : words y ∈ loneWords) :
    restricted x = restricted y ↔ words x = words y := by
  constructor
  · intro h
    have htext := text_of_mem_loneWords hx
    rw [h, text_of_mem_loneWords hy, List.append_cancel_left_eq,
      List.append_cancel_right_eq] at htext
    rw [← words_joinWith (isWord_words x), ← htext, words_joinWith (isWord_words y)]
  · intro h
    rw [restricted, restricted, h]

theorem restricted_eq_iff_of_notMem (hx : words x ∉ loneWords) (hy : words y ∉ loneWords) :
    restricted x = restricted y ↔ pathWords (words x) = pathWords (words y) := by
  rw [restricted_of_notMem_loneWords hx, restricted_of_notMem_loneWords hy]
  exact ofPathWords_inj (isWord_of_mem_pathWords (isWord_words x))
    (isWord_of_mem_pathWords (isWord_words y))

/-- Restrictions are the same exactly when they are printed with the same words. -/
theorem restricted_eq_restricted_iff :
    restricted x = restricted y ↔ printedWords (words x) = printedWords (words y) := by
  by_cases hlone : words x ∈ loneWords ↔ words y ∈ loneWords
  · by_cases hx : words x ∈ loneWords
    · have hy := hlone.1 hx
      rw [restricted_eq_iff_of_mem hx hy, printedWords_of_mem hx, printedWords_of_mem hy]
    · have hy := mt hlone.2 hx
      rw [restricted_eq_iff_of_notMem hx hy, printedWords_of_notMem hx, printedWords_of_notMem hy,
        List.cons_inj_right]
  · refine iff_of_false ?_ ?_
    · intro h
      rw [← isSimple_restricted_iff, ← isSimple_restricted_iff, h] at hlone
      exact hlone Iff.rfl
    · intro h
      rw [← printedWords_mem_loneWords_iff, h, printedWords_mem_loneWords_iff] at hlone
      exact hlone Iff.rfl

/-- The path `crate` is another restriction than the word `crate`. -/
example : restricted "in crate".toList ≠ restricted "crate".toList := by decide +kernel

theorem text_inPath (path : String) :
    (inPath path).text.toList = "pub(in ".toList ++ (path.toList ++ [')']) := by
  rw [text, String.toList_append, String.toList_append, List.append_assoc]
  rfl

/-- A restriction with words is printed with its normal form. -/
theorem text_restricted (hne : words x ≠ []) :
    (restricted x).text.toList =
      "pub(".toList ++ (joinWith [' '] (printedWords (words x)) ++ [')']) := by
  by_cases hlone : words x ∈ loneWords
  · rw [printedWords_of_mem hlone]
    exact text_of_mem_loneWords hlone
  · rw [restricted_of_notMem_loneWords hlone, printedWords_of_notMem hlone,
      joinWith_cons (pathWords_ne_nil hne), ofPathWords, text_inPath, String.toList_ofList]
    simp

/-- What stands between `pub(` and the last parenthesis of the printed visibility is read as that
visibility. -/
def ReadsBack (v : Visibility) : Prop :=
  ∃ inside, v.text.toList = "pub(".toList ++ (inside ++ [')']) ∧ restricted inside = v

theorem readsBack_of_words_ne_nil (hne : words x ≠ []) : (restricted x).ReadsBack := by
  have hwords := isWord_of_mem_printedWords (isWord_words x)
  refine ⟨joinWith [' '] (printedWords (words x)), text_restricted hne, ?_⟩
  rw [restricted_eq_restricted_iff, words_joinWith hwords, printedWords_printedWords hne]

/-- The restriction without words is printed as the path `in`. -/
theorem not_readsBack_of_words_eq_nil (h : words x = []) : ¬ (restricted x).ReadsBack := by
  rintro ⟨inside, htext, hread⟩
  have hinside : inside = "in ".toList := by
    have hempty : restricted x = .inPath "" := by
      rw [restricted_of_notMem_loneWords (by rw [h]; decide), h]
      rfl
    rw [hempty, text_inPath, show "pub(in ".toList = "pub(".toList ++ "in ".toList from rfl,
      List.append_assoc, List.append_cancel_left_eq] at htext
    exact (List.append_cancel_right_eq _ _ _).mp htext.symm
  rw [restricted_eq_restricted_iff, h, hinside] at hread
  revert hread
  decide +kernel

/-- A restriction that holds anything but blanks is read back from what it prints, and only its
words count. -/
theorem restricted_readsBack (x : Text) :
    ((restricted x).ReadsBack ↔ ∃ c ∈ x, isBlank c = false) ∧
      ∀ y ws, ConsistsOf x ws → ConsistsOf y ws → restricted x = restricted y := by
  constructor
  · rw [← words_ne_nil_iff]
    constructor
    · intro hread hnil
      exact not_readsBack_of_words_eq_nil hnil hread
    · exact readsBack_of_words_ne_nil
  · intro y ws hx hy
    rw [restricted_eq_restricted_iff, consistsOf_iff.1 hx, consistsOf_iff.1 hy]

def spacedPath : Text := " in\tin  crate::x\n".toList

theorem spacedPath_readsBack :
    (∃ c ∈ spacedPath, isBlank c = false) ∧
      ConsistsOf spacedPath ["in".toList, "in".toList, "crate::x".toList] ∧
      ConsistsOf "in in crate::x".toList ["in".toList, "in".toList, "crate::x".toList] ∧
      restricted spacedPath = .inPath "in crate::x" ∧
      restricted spacedPath = restricted "in in crate::x".toList ∧
      (restricted spacedPath).ReadsBack := by
  have hany : ∃ c ∈ spacedPath, isBlank c = false := ⟨'i', by decide +kernel, by decide⟩
  have hx : ConsistsOf spacedPath ["in".toList, "in".toList, "crate::x".toList] :=
    consistsOf_iff.2 (by decide +kernel)
  have hy : ConsistsOf "in in crate::x".toList ["in".toList, "in".toList, "crate::x".toList] :=
    consistsOf_iff.2 (by decide +kernel)
  exact ⟨hany, hx, hy, by decide +kernel, (restricted_readsBack spacedPath).2 _ _ hx hy,
    (restricted_readsBack spacedPath).1.2 hany⟩

end Printed

end Visibility
end Unbundle
