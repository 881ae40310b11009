import Unbundle.Proofs.Item.Signature

/-! The form of applet signatures: the pieces that one is made of, and where blanks may or must
stand between them. The texts laid out in this form are exactly the signatures of applets. -/
namespace Unbundle
namespace Signature

/-- What stands before a piece of a signature. -/
inductive Spacing
  /-- Nothing. -/
  | tight
  /-- Blanks or nothing. -/
  | loose
  /-- One blank or more. -/
  | apart
deriving DecidableEq, Repr

def Spacing.allows : Spacing → Text → Bool
  | tight, gap => gap.isEmpty
  | loose, _ => true
  | apart, gap => !gap.isEmpty

/-- The pieces of a text, each with what stands before it. -/
abbrev Form := List (Spacing × Text)

/-- The text is made of these pieces. -/
inductive Laid : Form → Text → Prop
  | nil : Laid [] []
  | cons {spacing : Spacing} {gap w x : Text} {form : Form} (hg : gap.all isBlank = true)
      (hs : spacing.allows gap = true) (h : Laid form x) :
      Laid ((spacing, w) :: form) (gap ++ (w ++ x))

variable {w : String} {cs gap name rest x y : Text} {form : Form}

/-- The parameters and the result, as they follow the name. -/
def tailForm (argc argv : Text) (comma : Bool) : Form :=
  [(.loose, ['(']), (.loose, argc), (.loose, [':']), (.loose, "i32".toList), (.loose, [',']),
    (.loose, argv), (.loose, [':']), (.loose, ['*']), (.loose, "const".toList), (.apart, ['*']),
    (.loose, "const".toList), (.apart, "u8".toList)] ++
    ((if comma then [(.loose, [','])] else []) ++
      [(.loose, [')']), (.loose, ['-']), (.tight, ['>']), (.loose, "i32".toList)])

def signatureForm (name argc argv : Text) (comma : Bool) : Form :=
  (.loose, "pub".toList) :: (.apart, "fn".toList) :: (.apart, name) :: tailForm argc argv comma

def argcNames : List Text := ["argc".toList, "_argc".toList]

def argvNames : List Text := ["argv".toList, "_argv".toList]

theorem lit_append (w : String) (x : Text) : lit w (w.toList ++ x) = some x := by
  rw [lit, if_pos (List.isPrefixOf_iff_prefix.2 (List.prefix_append _ _)), ← String.length_toList,
    List.drop_left]

theorem blanks_gap (hg : gap.all isBlank = true) (hx : ∀ c ∈ x.head?, isBlank c = false) :
    blanks (gap ++ x) = x := by
  rw [blanks, List.dropWhile_append_of_pos (by simpa using hg)]
  cases x with
  | nil => rfl
  | cons c x => simp [hx c rfl]

theorem someBlanks_gap (hg : gap.all isBlank = true) (hne : gap ≠ [])
    (hx : ∀ c ∈ x.head?, isBlank c = false) : someBlanks (gap ++ x) = some x := by
  cases gap with
  | nil => exact absurd rfl hne
  | cons c gap =>
    rw [List.all_cons, Bool.and_eq_true] at hg
    rw [List.cons_append, someBlanks, if_pos hg.1, blanks_gap hg.2 hx]

def isSolid (w : Text) : Bool := w.head?.any (!isBlank ·)

theorem head?_append_of_isSolid {w : Text} (hw : isSolid w = true) (x : Text) :
    ∀ c ∈ (w ++ x).head?, isBlank c = false := by
  cases w with
  | nil => cases hw
  | cons d w =>
    rintro c ⟨⟩
    simpa [isSolid] using hw

theorem laid_cons_iff {spacing : Spacing} {w : Text} :
    Laid ((spacing, w) :: form) cs ↔ ∃ gap x, gap.all isBlank = true ∧ spacing.allows gap = true ∧
      cs = gap ++ (w ++ x) ∧ Laid form x := by
  constructor
  · intro h
    cases h with
    | @cons _ gap w x form hg hs h => exact ⟨gap, x, hg, hs, rfl, h⟩
  · rintro ⟨gap, x, hg, hs, rfl, h⟩
    exact .cons hg hs h

theorem Laid.skip {w : Text} (hg : gap.all isBlank = true) (h : Laid ((.loose, w) :: form) cs) :
    Laid ((.loose, w) :: form) (gap ++ cs) := by
  obtain ⟨gap', x, hg', -, rfl, hrest⟩ := laid_cons_iff.1 h
  rw [← List.append_assoc]
  exact .cons (by rw [List.all_append, hg, hg']; rfl) rfl hrest

/-- A literal that blanks may precede. -/
theorem next_iff (hw : isSolid w.toList = true) :
    (∃ rest, next w cs = some rest ∧ Laid form rest) ↔ Laid ((.loose, w.toList) :: form) cs := by
  rw [laid_cons_iff]
  constructor
  · rintro ⟨rest, hnext, h⟩
    obtain ⟨gap, hg, hcs⟩ := blanks_append cs
    rw [lit_eq_some hnext] at hcs
    exact ⟨gap, rest, hg, rfl, hcs, h⟩
  · rintro ⟨gap, x, hg, -, rfl, h⟩
    refine ⟨x, ?_, h⟩
    rw [next, blanks_gap hg (head?_append_of_isSolid hw x), lit_append]

/-- A literal that blanks must precede. -/
theorem apart_iff (hw : isSolid w.toList = true) :
    (∃ mid, someBlanks cs = some mid ∧ ∃ rest, lit w mid = some rest ∧ Laid form rest) ↔
      Laid ((.apart, w.toList) :: form) cs := by
  rw [laid_cons_iff]
  constructor
  · rintro ⟨mid, hmid, rest, hlit, h⟩
    obtain ⟨c, gap, hg, rfl⟩ := someBlanks_eq_some hmid
    exact ⟨c :: gap, rest, hg, rfl, by rw [lit_eq_some hlit], h⟩
  · rintro ⟨gap, x, hg, hs, rfl, h⟩
    refine ⟨w.toList ++ x, someBlanks_gap hg ?_ (head?_append_of_isSolid hw x), x,
      lit_append w x, h⟩
    rintro rfl
    cases hs

/-- A parameter's name, with or without an underscore. -/
theorem param_iff (hw : isSolid w.toList = true) (hu : w.toList.head? ≠ some '_') :
    (∃ rest, lit w (optLit "_" (blanks cs)) = some rest ∧ Laid form rest) ↔
      ∃ v ∈ [w.toList, '_' :: w.toList], Laid ((.loose, v) :: form) cs := by
  constructor
  · rintro ⟨rest, hlit, h⟩
    obtain ⟨gap, hg, hcs⟩ := blanks_append cs
    unfold optLit at hlit
    cases hopt : lit "_" (blanks cs) with
    | none =>
      rw [hopt] at hlit
      rw [show blanks cs = w.toList ++ rest from lit_eq_some hlit] at hcs
      exact ⟨_, List.mem_cons_self, laid_cons_iff.2 ⟨gap, rest, hg, rfl, hcs, h⟩⟩
    | some mid =>
      rw [hopt] at hlit
      rw [lit_eq_some hopt, show mid = w.toList ++ rest from lit_eq_some hlit] at hcs
      exact ⟨'_' :: w.toList, by simp, laid_cons_iff.2 ⟨gap, rest, hg, rfl, hcs, h⟩⟩
  · rintro ⟨v, hv, h⟩
    obtain ⟨gap, x, hg, -, rfl, hrest⟩ := laid_cons_iff.1 h
    refine ⟨x, ?_, hrest⟩
    simp only [List.mem_cons, List.not_mem_nil, or_false] at hv
    rcases hv with rfl | rfl
    · have hnone : lit "_" (w.toList ++ x) = none := by
        cases hlist : w.toList with
        | nil => rw [hlist] at hw; cases hw
        | cons c v =>
          have hc : ¬ '_' = c := by
            rintro rfl
            simp [hlist] at hu
          simp [lit, hc]
      rw [blanks_gap hg (head?_append_of_isSolid hw x), optLit, hnone]
      exact lit_append w x
    · have hsome : lit "_" ('_' :: (w.toList ++ x)) = some (w.toList ++ x) :=
        lit_append "_" (w.toList ++ x)
      have hsolid : isSolid ('_' :: w.toList) = true := by simp [isSolid, isBlank]
      rw [blanks_gap hg (head?_append_of_isSolid hsolid x), List.cons_append, optLit, hsome]
      exact lit_append w x

/-- The end of the parameters, with or without a comma before it. -/
theorem close_iff :
    (∃ rest, next ")" (optLit "," (blanks cs)) = some rest ∧ Laid form rest) ↔
      ∃ comma : Bool, Laid ((if comma then [(.loose, [','])] else []) ++
        (.loose, [')']) :: form) cs := by
  have hparen : isSolid ")".toList = true := by decide
  constructor
  · rintro ⟨rest, hnext, h⟩
    obtain ⟨gap, hg, hcs⟩ := blanks_append cs
    have hclose : Laid ((.loose, [')']) :: form) (optLit "," (blanks cs)) :=
      (next_iff hparen).1 ⟨rest, hnext, h⟩
    unfold optLit at hclose
    cases hopt : lit "," (blanks cs) with
    | none =>
      rw [hopt] at hclose
      refine ⟨false, ?_⟩
      rw [hcs]
      exact hclose.skip hg
    | some mid =>
      rw [hopt] at hclose
      refine ⟨true, ?_⟩
      rw [hcs, lit_eq_some hopt]
      exact .cons hg rfl hclose
  · rintro ⟨comma, h⟩
    cases comma with
    | false =>
      obtain ⟨gap, x, hg, -, rfl, hrest⟩ := laid_cons_iff.1 h
      have hnone : lit "," (')' :: x) = none := by simp [lit]
      refine ⟨x, ?_, hrest⟩
      rw [blanks_gap hg (by rintro c ⟨⟩; decide), optLit]
      show next ")" ((lit "," (')' :: x)).getD (')' :: x)) = some x
      rw [hnone]
      exact lit_append ")" x
    | true =>
      obtain ⟨gap, x, hg, -, rfl, hclose⟩ := laid_cons_iff.1 h
      have hsome : lit "," (',' :: x) = some x := lit_append "," x
      obtain ⟨rest, hnext, hrest⟩ := (next_iff hparen).2 hclose
      refine ⟨rest, ?_, hrest⟩
      rw [blanks_gap hg (by rintro c ⟨⟩; decide), optLit]
      show next ")" ((lit "," (',' :: x)).getD (',' :: x)) = some rest
      rw [hsome]
      exact hnext

/-- The two characters of the arrow stand together. -/
theorem arrow_iff :
    (∃ rest, next "->" cs = some rest ∧ Laid form rest) ↔
      Laid ((.loose, ['-']) :: (.tight, ['>']) :: form) cs := by
  rw [next_iff (by decide), laid_cons_iff, laid_cons_iff]
  constructor
  · rintro ⟨gap, x, hg, hs, rfl, h⟩
    refine ⟨gap, '>' :: x, hg, hs, rfl, laid_cons_iff.2 ⟨[], x, rfl, rfl, rfl, h⟩⟩
  · rintro ⟨gap, x, hg, hs, rfl, h⟩
    obtain ⟨tight, y, -, ht, rfl, hrest⟩ := laid_cons_iff.1 h
    obtain rfl : tight = [] := List.isEmpty_iff.1 ht
    exact ⟨gap, y, hg, hs, rfl, hrest⟩

/-- What follows the name is read to its end exactly when it is laid out in its form. -/
theorem afterName_eq_nil_iff :
    afterName cs = some [] ↔
      ∃ argc ∈ argcNames, ∃ argv ∈ argvNames, ∃ comma, Laid (tailForm argc argv comma) cs := by
  simp only [afterName, Option.bind_eq_bind, Option.bind_eq_some_iff]
  constructor
  · rintro ⟨c₀, h₀, c₁, h₁, c₂, h₂, c₃, h₃, c₄, h₄, c₅, h₅, c₆, h₆, c₇, h₇, c₈, h₈, b₉, hb₉, c₉, h₉,
      c₁₀, h₁₀, b₁₁, hb₁₁, c₁₁, h₁₁, c₁₂, h₁₂, c₁₃, h₁₃, h₁₄⟩
    have l₁₃ := (next_iff (by decide)).1 ⟨[], h₁₄, .nil⟩
    have l₁₂ := arrow_iff.1 ⟨c₁₃, h₁₃, l₁₃⟩
    obtain ⟨comma, l₁₁⟩ := close_iff.1 ⟨c₁₂, h₁₂, l₁₂⟩
    have l₁₀ := (apart_iff (by decide)).1 ⟨b₁₁, hb₁₁, c₁₁, h₁₁, l₁₁⟩
    have l₉ := (next_iff (by decide)).1 ⟨c₁₀, h₁₀, l₁₀⟩
    have l₈ := (apart_iff (by decide)).1 ⟨b₉, hb₉, c₉, h₉, l₉⟩
    have l₇ := (next_iff (by decide)).1 ⟨c₈, h₈, l₈⟩
    have l₆ := (next_iff (by decide)).1 ⟨c₇, h₇, l₇⟩
    have l₅ := (next_iff (by decide)).1 ⟨c₆, h₆, l₆⟩
    obtain ⟨argv, hargv, l₄⟩ := (param_iff (by decide) (by decide)).1 ⟨c₅, h₅, l₅⟩
    have l₃ := (next_iff (by decide)).1 ⟨c₄, h₄, l₄⟩
    have l₂ := (next_iff (by decide)).1 ⟨c₃, h₃, l₃⟩
    have l₁ := (next_iff (by decide)).1 ⟨c₂, h₂, l₂⟩
    obtain ⟨argc, hargc, l₀⟩ := (param_iff (by decide) (by decide)).1 ⟨c₁, h₁, l₁⟩
    exact ⟨argc, hargc, argv, hargv, comma, (next_iff (by decide)).1 ⟨c₀, h₀, l₀⟩⟩
  · rintro ⟨argc, hargc, argv, hargv, comma, l⟩
    obtain ⟨c₀, h₀, l₀⟩ := (next_iff (w := "(") (by decide)).2 l
    obtain ⟨c₁, h₁, l₁⟩ := (param_iff (w := "argc") (by decide) (by decide)).2 ⟨argc, hargc, l₀⟩
    obtain ⟨c₂, h₂, l₂⟩ := (next_iff (w := ":") (by decide)).2 l₁
    obtain ⟨c₃, h₃, l₃⟩ := (next_iff (w := "i32") (by decide)).2 l₂
    obtain ⟨c₄, h₄, l₄⟩ := (next_iff (w := ",") (by decide)).2 l₃
    obtain ⟨c₅, h₅, l₅⟩ := (param_iff (w := "argv") (by decide) (by decide)).2 ⟨argv, hargv, l₄⟩
    obtain ⟨c₆, h₆, l₆⟩ := (next_iff (w := ":") (by decide)).2 l₅
    obtain ⟨c₇, h₇, l₇⟩ := (next_iff (w := "*") (by decide)).2 l₆
    obtain ⟨c₈, h₈, l₈⟩ := (next_iff (w := "const") (by decide)).2 l₇
    obtain ⟨b₉, hb₉, c₉, h₉, l₉⟩ := (apart_iff (w := "*") (by decide)).2 l₈
    obtain ⟨c₁₀, h₁₀, l₁₀⟩ := (next_iff (w := "const") (by decide)).2 l₉
    obtain ⟨b₁₁, hb₁₁, c₁₁, h₁₁, l₁₁⟩ := (apart_iff (w := "u8") (by decide)).2 l₁₀
    obtain ⟨c₁₂, h₁₂, l₁₂⟩ := close_iff.2 ⟨comma, l₁₁⟩
    obtain ⟨c₁₃, h₁₃, l₁₃⟩ := arrow_iff.2 l₁₂
    obtain ⟨c₁₄, h₁₄, l₁₄⟩ := (next_iff (w := "i32") (by decide)).2 l₁₃
    cases l₁₄
    exact ⟨c₀, h₀, c₁, h₁, c₂, h₂, c₃, h₃, c₄, h₄, c₅, h₅, c₆, h₆, c₇, h₇, c₈, h₈, b₉, hb₉, c₉, h₉,
      c₁₀, h₁₀, b₁₁, hb₁₁, c₁₁, h₁₁, c₁₂, h₁₂, c₁₃, h₁₃, h₁₄⟩

theorem NameText.isSolid (hn : NameText name) : isSolid name = true := by
  cases name with
  | nil => exact absurd rfl hn.ne_nil
  | cons c cs => simp [Signature.isSolid, (hn.plain_of_mem List.mem_cons_self).1]

/-- A name is read up to a blank or a parenthesis. -/
theorem name?_append (hn : NameText name) (hrest : ∀ d ∈ rest.head?, isBlank d = true ∨ d = '(') :
    name? (name ++ rest) = some (name, rest) := by
  have hend : ∀ d ∈ rest.head?, isNameContinue d = false := by
    intro d hd
    rw [← Bool.not_eq_true]
    intro hcont
    rcases hrest d hd with hblank | rfl
    · rw [isBlank_of_isNameContinue hcont] at hblank
      cases hblank
    · revert hcont
      decide
  have hcut {cs : Text} (hcs : cs.all isNameContinue = true) :
      (cs ++ rest).takeWhile isNameContinue = cs ∧
        (cs ++ rest).dropWhile isNameContinue = rest := by
    have hall : ∀ d ∈ cs, isNameContinue d = true := List.all_eq_true.1 hcs
    rw [List.takeWhile_append_of_pos hall, List.dropWhile_append_of_pos hall]
    cases hr : rest with
    | nil => simp
    | cons d ds => simp [hend d (by rw [hr]; rfl)]
  cases hn with
  | @plain c cs hc hcs =>
    have hraw : lit "r#" (c :: (cs ++ rest)) = none := by
      have hhash : (cs ++ rest).head? ≠ some '#' := by
        cases cs with
        | nil =>
          intro hhead
          rcases hrest _ hhead with h | h <;> revert h <;> decide
        | cons d cs =>
          intro hhead
          obtain rfl : d = '#' := Option.some.inj hhead
          simp at hcs
          exact absurd hcs.1 (by decide)
      cases htail : cs ++ rest with
      | nil => simp [lit]
      | cons d ds =>
        rw [htail] at hhash
        have hne : ¬ '#' = d := by
          rintro rfl
          exact hhash rfl
        simp [lit, hne]
    simp only [List.cons_append, name?, optLit, hraw, Option.getD_none, if_pos hc, (hcut hcs).1,
      (hcut hcs).2]
    rfl
  | @raw c cs hc hcs =>
    have hraw : lit "r#" ('r' :: '#' :: c :: (cs ++ rest)) = some (c :: (cs ++ rest)) :=
      lit_append "r#" (c :: (cs ++ rest))
    simp only [List.cons_append, name?, optLit, hraw, Option.getD_some, if_pos hc, (hcut hcs).1,
      (hcut hcs).2]
    rfl

theorem Laid.exists_head {c : Char} {cs : Text} (h : Laid ((.loose, c :: cs) :: form) x) :
    ∃ d ds, x = d :: ds ∧ (isBlank d = true ∨ d = c) := by
  obtain ⟨gap, y, hg, -, rfl, -⟩ := laid_cons_iff.1 h
  cases gap with
  | nil => exact ⟨c, _, rfl, .inr rfl⟩
  | cons e gap =>
    rw [List.all_cons, Bool.and_eq_true] at hg
    exact ⟨e, _, rfl, .inl hg.1⟩

/-- The text ends as its last piece does. -/
theorem Laid.getLast?_eq {spacing : Spacing} {w : Text} (h : Laid form x)
    (hlast : form.getLast? = some (spacing, w)) (hw : w ≠ []) : x.getLast? = w.getLast? := by
  have hsome : w.getLast?.isSome = true := by simpa using hw
  induction h with
  | nil => cases hlast
  | @cons s gap v y form hg hs h ih =>
    cases form with
    | nil =>
      cases h
      cases hlast
      rw [List.append_nil, List.getLast?_append, Option.or_of_isSome hsome]
    | cons piece form =>
      have hy := ih (by rwa [List.getLast?_cons_cons] at hlast)
      rw [List.getLast?_append, List.getLast?_append, hy, Option.or_of_isSome hsome,
        Option.or_of_isSome hsome]

end Signature

open Signature

variable {sig name : Text}

theorem trim_gap {gap x tail : Text} (hg : gap.all isBlank = true) (htail : tail.all isBlank = true)
    (hfirst : ∀ c ∈ x.head?, isBlank c = false) (hlast : ∀ c ∈ x.getLast?, isBlank c = false)
    (hx : x ≠ []) : trim (gap ++ (x ++ tail)) = x := by
  have hhead : ∀ c ∈ (x ++ tail).head?, isBlank c = false := by
    cases x with
    | nil => exact absurd rfl hx
    | cons c x => exact hfirst
  have hback : ∀ c ∈ x.reverse.head?, isBlank c = false := by
    rw [List.head?_reverse]
    exact hlast
  have hrev : tail.reverse.all isBlank = true := by
    rw [List.all_reverse]
    exact htail
  have hends := blanks_gap hrev hback
  have hstarts := blanks_gap hg hhead
  rw [blanks] at hends hstarts
  rw [trim, hstarts, List.reverse_append, hends, List.reverse_reverse]

/-- The signatures of applets are the texts laid out in their form, with blanks around them. -/
theorem appletName?_eq_some_iff :
    appletName? sig = some name ↔ NameText name ∧
      ∃ argc ∈ argcNames, ∃ argv ∈ argvNames, ∃ comma core tail, sig = core ++ tail ∧
        tail.all isBlank = true ∧ Laid (signatureForm name argc argv comma) core := by
  simp only [appletName?, Option.bind_eq_bind, Option.bind_eq_some_iff]
  constructor
  · rintro ⟨c₁, h₁, b₂, hb₂, c₂, h₂, b₃, hb₃, ⟨n, c₃⟩, h₃, c₄, h₄, h⟩
    split at h
    · rename_i he
      cases h
      rw [List.isEmpty_iff.1 he] at h₄
      obtain ⟨argc, hargc, argv, hargv, comma, htail⟩ := afterName_eq_nil_iff.1 h₄
      obtain ⟨rfl, hname⟩ := name?_eq_some h₃
      obtain ⟨before, after, hbefore, hafter, hsig⟩ := trim_append sig
      obtain ⟨c, gap, hgap, rfl⟩ := someBlanks_eq_some hb₃
      have hnamed : Laid ((.apart, n) :: tailForm argc argv comma) (c :: gap ++ (n ++ c₃)) :=
        .cons hgap rfl htail
      have hfn := (apart_iff (by decide)).1 ⟨b₂, hb₂, _, h₂, hnamed⟩
      refine ⟨hname, argc, hargc, argv, hargv, comma, before ++ trim sig, after, ?_, hafter, ?_⟩
      · rw [List.append_assoc]
        exact hsig
      · rw [lit_eq_some h₁]
        exact .cons hbefore rfl hfn
    · cases h
  · rintro ⟨hname, argc, hargc, argv, hargv, comma, core, tail, rfl, htail, h⟩
    obtain ⟨gap, x, hg, -, rfl, hfn⟩ := laid_cons_iff.1 h
    obtain ⟨b₂, hb₂, c₂, h₂, hnamed⟩ := (apart_iff (w := "fn") (by decide)).2 hfn
    obtain ⟨gap₃, c₃, hg₃, hs₃, rfl, hafter⟩ := laid_cons_iff.1 hnamed
    have hne : gap₃ ≠ [] := by
      rintro rfl
      cases hs₃
    have hend : ∀ d ∈ c₃.head?, isBlank d = true ∨ d = '(' := by
      obtain ⟨d, ds, rfl, hd⟩ := hafter.exists_head
      rintro d ⟨⟩
      exact hd
    have hlast : ("pub".toList ++ x).getLast? = some '2' := by
      have hform : ((.apart, "fn".toList) :: (.apart, name) :: tailForm argc argv comma).getLast? =
          some (.loose, "i32".toList) := by
        cases comma <;> rfl
      rw [List.getLast?_append, hfn.getLast?_eq hform (by decide)]
      rfl
    have htrim : trim (gap ++ ("pub".toList ++ x) ++ tail) = "pub".toList ++ x := by
      rw [List.append_assoc]
      refine trim_gap hg htail (by rintro c ⟨⟩; decide) ?_ (by simp)
      rw [hlast]
      rintro c ⟨⟩
      decide
    refine ⟨x, ?_, b₂, hb₂, _, h₂, name ++ c₃,
      someBlanks_gap hg₃ hne (head?_append_of_isSolid hname.isSolid c₃), (name, c₃),
      name?_append hname hend, [], ?_, rfl⟩
    · rw [htrim]
      exact lit_append "pub" x
    · exact afterName_eq_nil_iff.2 ⟨argc, hargc, argv, hargv, comma, hafter⟩

end Unbundle
