import Unbundle.Imports
import Unbundle.Proofs.Item.Function
import Unbundle.Proofs.Scan.Excerpt
import Unbundle.Proofs.Token.Name

/-! Which names a piece of code uses, and which it invokes as macros. A name directly before an
exclamation mark counts as a macro whatever follows the mark, and one that a comment keeps from its
mark does not; apart from that comments leave the imports as they are. -/
namespace Unbundle

variable {ts ts' : List Token} {t : Token} {w name : String}

namespace Token

def isMark (t : Token) : Bool := t.kind == .punct '!'

theorem isMark_iff : t.isMark = true ↔ t.kind = .punct '!' := beq_iff_eq

/-- No exclamation mark is a comment. -/
theorem isComment_of_isMark (h : t.isMark = true) : t.isComment = false := by
  simp [isComment, isMark_iff.1 h]

theorem isWord_iff : t.isWord w = true ↔ t.kind = .ident ∧ w = t.text := by
  rw [isWord, Bool.and_eq_true, beq_iff_eq, beq_iff_eq, text, ← String.toList_inj,
    String.toList_ofList, eq_comm (a := w.toList)]

end Token

theorem usedNames_cons : w ∈ usedNames (t :: ts) ↔
    (t.kind = .ident ∧ (w = t.text ∨ w = t.text ++ "!" ∧ ts.head?.any Token.isMark = true)) ∨
      w ∈ usedNames ts := by
  rw [usedNames]
  by_cases hident : t.kind = .ident
  · rw [if_pos hident]
    by_cases hmark : ts.head?.any Token.isMark = true
    · have hmark' : ts.head?.any (·.kind == .punct '!') = true := hmark
      rw [if_pos hmark']
      simp [hident, hmark]
      tauto
    · have hmark' : ¬ ts.head?.any (·.kind == .punct '!') = true := hmark
      rw [if_neg hmark']
      simp [hident, hmark]
  · rw [if_neg hident]
    simp [hident]

/-- A name is used where a word is, and one with an exclamation mark where the word stands before
one. -/
theorem mem_usedNames : w ∈ usedNames ts ↔ ∃ n t, ts[n]? = some t ∧ t.kind = .ident ∧
    (w = t.text ∨ w = t.text ++ "!" ∧ ts[n + 1]?.any Token.isMark = true) := by
  induction ts with
  | nil => simp [usedNames]
  | cons u ts ih =>
    rw [usedNames_cons, ih]
    constructor
    · rintro (⟨hident, hw⟩ | ⟨n, t, ht, hident, hw⟩)
      · exact ⟨0, u, rfl, hident, by simpa [List.head?_eq_getElem?] using hw⟩
      · exact ⟨n + 1, t, ht, hident, hw⟩
    · rintro ⟨n, t, ht, hident, hw⟩
      cases n with
      | zero =>
        cases ht
        exact .inl ⟨hident, by simpa [List.head?_eq_getElem?] using hw⟩
      | succ n => exact .inr ⟨n, t, ht, hident, hw⟩

/-- A plain name needs no more than a word. -/
theorem mem_usedNames_of_plain (hw : ∀ stem, w ≠ stem ++ "!") :
    w ∈ usedNames ts ↔ ∃ t ∈ ts, t.isWord w = true := by
  rw [mem_usedNames]
  constructor
  · rintro ⟨n, t, ht, hident, h | ⟨h, -⟩⟩
    · exact ⟨t, List.mem_of_getElem? ht, Token.isWord_iff.2 ⟨hident, h⟩⟩
    · exact absurd h (hw _)
  · rintro ⟨t, ht, hword⟩
    obtain ⟨n, hn⟩ := List.mem_iff_getElem?.1 ht
    obtain ⟨hident, h⟩ := Token.isWord_iff.1 hword
    exact ⟨n, t, hn, hident, .inl h⟩

/-- What is used depends on the kinds and the characters of the tokens only. -/
theorem usedNames_eq_of_faces (h : ts.map Token.face = ts'.map Token.face) :
    usedNames ts = usedNames ts' := by
  induction ts generalizing ts' with
  | nil => rw [List.map_eq_nil_iff.1 h.symm]
  | cons t ts ih =>
    obtain ⟨t', us, rfl, hface, hrest⟩ := List.map_eq_cons_iff.1 h.symm
    obtain ⟨hkind, hchars⟩ := Prod.mk.inj hface
    have hhead : us.head?.any (·.kind == .punct '!') = ts.head?.any (·.kind == .punct '!') := by
      have hmark : ∀ vs : List Token, vs.head?.any (·.kind == .punct '!') =
          (vs.map Token.face).head?.any (·.1 == .punct '!') := by
        intro vs
        cases vs <;> rfl
      rw [hmark, hmark, hrest]
    rw [usedNames, usedNames, ih hrest.symm, hhead, hkind, Token.text, Token.text, hchars]

/-- The name stands before comments, and they before an exclamation mark. -/
def PartedIn (name : String) (ts : List Token) : Prop :=
  ∃ before t comments mark rest, ts = before ++ t :: (comments ++ mark :: rest) ∧
    t.isWord name = true ∧ comments ≠ [] ∧ (∀ c ∈ comments, c.isComment = true) ∧ mark.isMark = true

theorem PartedIn.cons (u : Token) (h : PartedIn name ts) : PartedIn name (u :: ts) := by
  obtain ⟨before, t, comments, mark, rest, rfl, h⟩ := h
  exact ⟨u :: before, t, comments, mark, rest, rfl, h⟩

/-- Comments before an exclamation mark are all that hides it. -/
theorem any_isMark_filter (ht : t.isWord name = true) (h : ¬ PartedIn name (t :: ts)) :
    (ts.filter (!·.isComment)).head?.any Token.isMark = true ↔
      ts.head?.any Token.isMark = true := by
  constructor
  · intro hhead
    cases hcode : ts.filter (!·.isComment) with
    | nil =>
      rw [hcode] at hhead
      cases hhead
    | cons mark code =>
      rw [hcode] at hhead
      obtain ⟨comments, rest, rfl, hcomments, -, -⟩ := List.filter_eq_cons_iff.1 hcode
      cases comments with
      | nil => exact hhead
      | cons c comments =>
        exact absurd
          ⟨[], t, c :: comments, mark, rest, rfl, ht, by simp, by simpa using hcomments, hhead⟩ h
  · intro hhead
    cases ts with
    | nil => cases hhead
    | cons mark rest =>
      have hm : mark.isMark = true := hhead
      rw [List.filter_cons_of_pos (by simp [Token.isComment_of_isMark hm])]
      exact hm

/-- Comments hide no name, and no macro whose name they do not part from its mark. -/
theorem mem_usedNames_filter (h : ∀ name, w = name ++ "!" → ¬ PartedIn name ts) :
    w ∈ usedNames (ts.filter (!·.isComment)) ↔ w ∈ usedNames ts := by
  induction ts with
  | nil => rfl
  | cons u ts ih =>
    have ih := ih fun name hw hp => h name hw (hp.cons u)
    by_cases hu : u.isComment = true
    · have hident : u.kind ≠ .ident := fun hk => by simp [Token.isComment, hk] at hu
      rw [List.filter_cons_of_neg (by simp [hu]), ih, usedNames_cons]
      simp [hident]
    · rw [List.filter_cons_of_pos (by simp [hu]), usedNames_cons, usedNames_cons, ih]
      refine or_congr_left
        (and_congr_right fun hident => or_congr_right (and_congr_right fun hw => ?_))
      exact any_isMark_filter (Token.isWord_iff.2 ⟨hident, rfl⟩) (h u.text hw)

namespace Scan

variable {s : Scan} {span : Span} {i n : Nat}

def startingIn (s : Scan) (span : Span) : List Token :=
  s.between (s.firstFrom span.start) (s.firstFrom span.stop)

theorem usage_eq (s : Scan) (span : Span) : s.usage span = usedNames (s.startingIn span) := rfl

/-- The tokens in a span are the tokens of the text from the first of them on. -/
theorem Faithful.getElem?_startingIn (hs : s.Faithful) :
    (s.startingIn span)[n]? = some t ↔
      s.token? (s.firstFrom span.start + n) = some t ∧ span.contains t.start = true := by
  rw [startingIn, getElem?_between, and_comm]
  apply and_congr_right
  intro ht
  have hstart := hs.lt_firstFrom_iff ht span.start
  rw [hs.lt_firstFrom_iff ht span.stop, Span.contains_iff]
  omega

/-- A token of the text that starts in the span is one of them. -/
theorem Faithful.exists_startingIn (hs : s.Faithful) (ht : s.token? i = some t)
    (hin : span.contains t.start = true) : ∃ n, i = s.firstFrom span.start + n := by
  have := hs.lt_firstFrom_iff ht span.start
  have := (Span.contains_iff.1 hin).1
  exact ⟨i - s.firstFrom span.start, by omega⟩

def isNameIn (s : Scan) (span : Span) (name : String) (i : Nat) : Bool :=
  (s.token? i).any fun t => span.contains t.start && t.isWord name

def isMarkIn (s : Scan) (span : Span) (i : Nat) : Bool :=
  (s.token? i).any fun t => span.contains t.start && t.isMark

/-- The token at the index is the first character of `!=`. -/
def beginsUnequal (s : Scan) (i : Nat) : Bool :=
  (s.token? i).any fun t => t.isMark && (s.token? (i + 1)).any fun u =>
    u.kind == .punct '=' && u.start == t.stop

/-- The next token that is no comment is an exclamation mark of the span, and not that of `!=`. -/
def isInvoked (s : Scan) (span : Span) (i : Nat) : Bool :=
  (s.nextCode? i).any fun j => s.isMarkIn span j && !s.beginsUnequal j

/-- The next token is the exclamation mark of `!=`. -/
def isCompared (s : Scan) (span : Span) (i : Nat) : Bool :=
  s.isMarkIn span (i + 1) && s.beginsUnequal (i + 1)

def isParted (s : Scan) (i : Nat) : Bool := (s.token? (i + 1)).any Token.isComment

theorem isNameIn_iff : s.isNameIn span name i = true ↔
    ∃ t, s.token? i = some t ∧ span.contains t.start = true ∧ t.isWord name = true := by
  simp [isNameIn, Option.any_eq_true]

theorem isMarkIn_iff : s.isMarkIn span i = true ↔
    ∃ t, s.token? i = some t ∧ span.contains t.start = true ∧ t.isMark = true := by
  simp [isMarkIn, Option.any_eq_true]

theorem Faithful.mem_usage_of_plain (hs : s.Faithful) (hw : ∀ stem, w ≠ stem ++ "!") :
    w ∈ s.usage span ↔ ∃ i, s.isNameIn span w i = true := by
  rw [usage_eq, mem_usedNames_of_plain hw]
  constructor
  · rintro ⟨t, ht, hword⟩
    obtain ⟨n, hn⟩ := List.mem_iff_getElem?.1 ht
    obtain ⟨ht, hin⟩ := hs.getElem?_startingIn.1 hn
    exact ⟨_, isNameIn_iff.2 ⟨t, ht, hin, hword⟩⟩
  · rintro ⟨i, h⟩
    obtain ⟨t, ht, hin, hword⟩ := isNameIn_iff.1 h
    obtain ⟨n, rfl⟩ := hs.exists_startingIn ht hin
    exact ⟨t, List.mem_of_getElem? (hs.getElem?_startingIn.2 ⟨ht, hin⟩), hword⟩

/-- No word of a text holds an exclamation mark. -/
theorem Faithful.text_ne (hs : s.Faithful) (ht : s.token? i = some t) (hident : t.kind = .ident) :
    t.text ≠ name ++ "!" := by
  intro h
  have hspells := spells_of_mem_tokenize (hs.mem_tokenize ht) (by simp [Token.isName, hident])
  rw [hident] at hspells
  cases hspells with
  | word hword =>
    apply notMem_of_isIdentifier (c := '!') (by decide +kernel) hword
    rw [← String.toList_ofList (l := t.chars), ← Token.text, h, String.toList_append]
    exact List.mem_append_right _ (by decide)

/-- A name is recorded as a macro where an exclamation mark is the very next token. -/
theorem Faithful.mem_usage_of_macro (hs : s.Faithful) :
    name ++ "!" ∈ s.usage span ↔
      ∃ i, s.isNameIn span name i = true ∧ s.isMarkIn span (i + 1) = true := by
  rw [usage_eq, mem_usedNames]
  constructor
  · rintro ⟨n, t, hn, hident, h⟩
    obtain ⟨ht, hin⟩ := hs.getElem?_startingIn.1 hn
    rcases h with h | ⟨h, hmark⟩
    · exact absurd h.symm (hs.text_ne ht hident)
    · have hname := (String.append_left_inj _).1 h
      obtain ⟨mark, hm, hmark⟩ := (Option.any_eq_true _ _).1 hmark
      obtain ⟨hm, hmin⟩ := hs.getElem?_startingIn.1 hm
      exact ⟨_, isNameIn_iff.2 ⟨t, ht, hin, Token.isWord_iff.2 ⟨hident, hname⟩⟩,
        isMarkIn_iff.2 ⟨mark, hm, hmin, hmark⟩⟩
  · rintro ⟨i, hi, hi'⟩
    obtain ⟨t, ht, hin, hword⟩ := isNameIn_iff.1 hi
    obtain ⟨mark, hm, hmin, hmark⟩ := isMarkIn_iff.1 hi'
    obtain ⟨n, rfl⟩ := hs.exists_startingIn ht hin
    obtain ⟨hident, hname⟩ := Token.isWord_iff.1 hword
    have hnext : (s.startingIn span)[n + 1]? = some mark := hs.getElem?_startingIn.2 ⟨hm, hmin⟩
    refine ⟨n, t, hs.getElem?_startingIn.2 ⟨ht, hin⟩, hident, .inr ⟨by rw [hname], ?_⟩⟩
    rw [hnext]
    exact hmark

theorem nextCode?_of_isMarkIn (h : s.isMarkIn span (i + 1) = true) :
    s.nextCode? i = some (i + 1) := by
  obtain ⟨t, ht, -, hmark⟩ := isMarkIn_iff.1 h
  have hcode := Token.isComment_of_isMark hmark
  exact codeFrom?_eq_some.2 ⟨t, Nat.le_refl _, ht, hcode, fun m him hmi => by omega⟩

/-- The next token is a mark when it is that of a macro with no comment between, or that of `!=`. -/
theorem isMarkIn_succ_iff : s.isMarkIn span (i + 1) = true ↔
    s.isInvoked span i = true ∧ s.isParted i = false ∨ s.isCompared span i = true := by
  constructor
  · intro hmark
    obtain ⟨t, ht, -, hm⟩ := isMarkIn_iff.1 hmark
    by_cases hunequal : s.beginsUnequal (i + 1) = true
    · right
      rw [isCompared, hmark, hunequal, Bool.and_self]
    · left
      constructor
      · simp [isInvoked, nextCode?_of_isMarkIn hmark, hmark, hunequal]
      · simp [isParted, ht, Token.isComment_of_isMark hm]
  · rintro (⟨hinvoked, hparted⟩ | hcompared)
    · obtain ⟨j, hj, hmark⟩ := (Option.any_eq_true _ _).1 hinvoked
      rw [Bool.and_eq_true] at hmark
      obtain ⟨t, hfirst⟩ := codeFrom?_eq_some.1 hj
      rcases Nat.eq_or_lt_of_le hfirst.le with rfl | hlt
      · exact hmark.1
      · obtain ⟨u, hu, hcomment⟩ := hfirst.comments (i + 1) (Nat.le_refl _) hlt
        simp [isParted, hu, hcomment] at hparted
    · exact (Bool.and_eq_true _ _ ▸ hcompared).1

/-- What is compared is not invoked there. -/
theorem isInvoked_of_isCompared (h : s.isCompared span i = true) : s.isInvoked span i = false := by
  rw [isCompared, Bool.and_eq_true] at h
  simp [isInvoked, nextCode?_of_isMarkIn h.1, h.2]

/-- The name stands in the span before an exclamation mark, with a comment between them. -/
def Parted (s : Scan) (span : Span) (name : String) : Prop :=
  ∃ i, s.isNameIn span name i = true ∧ s.isParted i = true ∧
    (s.nextCode? i).any (s.isMarkIn span) = true

/-- Where no word stands right before a comment, none is parted from a mark. -/
theorem not_parted (h : ∀ i < s.size, (s.kind? i == some .ident) = true → s.isParted i = false) :
    ¬ s.Parted span name := by
  rintro ⟨i, hi, hparted, -⟩
  obtain ⟨t, ht, -, hword⟩ := isNameIn_iff.1 hi
  have hident : s.kind? i = some .ident := by
    rw [kind?, ht, Option.map_some, Token.kind_of_isWord hword]
  rw [h i (lt_size ht) (beq_iff_eq.2 hident)] at hparted
  cases hparted

/-- What stands behind the first tokens of a span stands there in the text. -/
theorem Faithful.token?_of_startingIn (hs : s.Faithful) (h : s.startingIn span = ts ++ ts')
    (ht : ts'[n]? = some t) :
    s.token? (s.firstFrom span.start + ts.length + n) = some t ∧ span.contains t.start = true := by
  rw [Nat.add_assoc]
  apply hs.getElem?_startingIn.1
  rw [h, List.getElem?_append_right (Nat.le_add_right _ _), Nat.add_sub_cancel_left]
  exact ht

theorem Faithful.parted_of_partedIn (hs : s.Faithful) (h : PartedIn name (s.startingIn span)) :
    s.Parted span name := by
  obtain ⟨before, t, comments, mark, rest, heq, hword, hne, hcomments, hmark⟩ := h
  have hbehind : s.startingIn span = (before ++ [t]) ++ (comments ++ mark :: rest) := by simp [heq]
  obtain ⟨ht, hin⟩ := hs.token?_of_startingIn (n := 0) heq rfl
  obtain ⟨hm, hmin⟩ := hs.token?_of_startingIn (n := comments.length) (t := mark) hbehind (by simp)
  have hbetween : ∀ n < comments.length, ∃ u,
      s.token? (s.firstFrom span.start + (before ++ [t]).length + n) = some u ∧
        u.isComment = true := by
    intro n hn
    have hu : (comments ++ mark :: rest)[n]? = some comments[n] := by
      rw [List.getElem?_append_left hn, List.getElem?_eq_getElem hn]
    exact ⟨_, (hs.token?_of_startingIn hbehind hu).1, hcomments _ (List.getElem_mem hn)⟩
  rw [List.length_append, List.length_singleton, ← Nat.add_assoc] at hm hbetween
  generalize s.firstFrom span.start + before.length = i at *
  have hnext : s.nextCode? i = some (i + 1 + comments.length) := by
    refine codeFrom?_eq_some.2 ⟨mark, by omega, hm, Token.isComment_of_isMark hmark, ?_⟩
    intro m hle hlt
    obtain ⟨n, rfl⟩ := Nat.exists_eq_add_of_le hle
    exact hbetween n (by omega)
  obtain ⟨c, hc, hcomment⟩ := hbetween 0 (List.length_pos_iff.2 hne)
  refine ⟨i, isNameIn_iff.2 ⟨t, ht, hin, hword⟩, ?_, ?_⟩
  · exact (Option.any_eq_true _ _).2 ⟨c, hc, hcomment⟩
  · rw [hnext]
    exact isMarkIn_iff.2 ⟨mark, hm, hmin, hmark⟩

/-- The kinds and the characters of the tokens that start in the span and are no comments. -/
def codeIn (s : Scan) (span : Span) : List (TokenKind × Text) :=
  ((s.startingIn span).filter (!·.isComment)).map Token.face

end Scan

section Comments

variable {s s' : Scan} {span span' : Span} {settings : ImportSettings}

/-- Two pieces of code that differ in their comments and blanks only use the same names, and the
same macros but for those whose names a comment parts from their marks. -/
theorem mem_usage_iff_of_codeIn (hs : s.Faithful) (hs' : s'.Faithful)
    (hcode : s'.codeIn span' = s.codeIn span)
    (h : ∀ name, w = name ++ "!" → ¬ s.Parted span name ∧ ¬ s'.Parted span' name) :
    w ∈ s'.usage span' ↔ w ∈ s.usage span := by
  have hfirst : ∀ name, w = name ++ "!" → ¬ PartedIn name (s.startingIn span) :=
    fun name hw hp => (h name hw).1 (hs.parted_of_partedIn hp)
  have hsecond : ∀ name, w = name ++ "!" → ¬ PartedIn name (s'.startingIn span') :=
    fun name hw hp => (h name hw).2 (hs'.parted_of_partedIn hp)
  rw [Scan.usage_eq, Scan.usage_eq, ← mem_usedNames_filter hfirst, ← mem_usedNames_filter hsecond,
    usedNames_eq_of_faces hcode]

/-- Which rules apply depends on which of their triggers are used. -/
theorem ImportSettings.detect_congr {usage usage' : List String}
    (h : ∀ rule ∈ settings.rules, ∀ w ∈ rule.triggers, w ∈ usage' ↔ w ∈ usage) :
    settings.detect usage' = settings.detect usage := by
  apply List.filter_congr
  intro rule hrule
  have htriggers :
      rule.triggers.any (usage'.contains ·) = rule.triggers.any (usage.contains ·) := by
    rw [Bool.eq_iff_iff, List.any_eq_true, List.any_eq_true]
    apply exists_congr
    intro w
    apply and_congr_right
    intro hw
    rw [List.contains_iff_mem, List.contains_iff_mem, h rule hrule w hw]
  rw [htriggers]

end Comments

/-- The usage of a span is wrong about the macro `name`: the name is compared and nowhere invoked,
or it is invoked behind comments only and nowhere compared. -/
def Scan.Mistakes (s : Scan) (span : Span) (name : String) : Prop :=
  ((∃ i, s.isNameIn span name i = true ∧ s.isCompared span i = true) ∧
      ∀ i, s.isNameIn span name i = true → s.isInvoked span i = false) ∨
    ((∃ i, s.isNameIn span name i = true ∧ s.isInvoked span i = true) ∧
      ∀ i, s.isNameIn span name i = true →
        s.isCompared span i = false ∧ (s.isInvoked span i = true → s.isParted i = true))

/-- What the identifiers used in a span tell of the code there. -/
structure Scan.UsageTold (s : Scan) (span : Span) : Prop where
  /-- A plain name is used when it is a word of the span. -/
  names : ∀ name, (∀ stem, name ≠ stem ++ "!") →
    (name ∈ s.usage span ↔ ∃ i, s.isNameIn span name i = true)
  /-- A name with a mark is used when it is a word of the span that is invoked, with no comment
  before the mark, or compared. -/
  macros : ∀ name, name ++ "!" ∈ s.usage span ↔ ∃ i, s.isNameIn span name i = true ∧
    (s.isInvoked span i = true ∧ s.isParted i = false ∨ s.isCompared span i = true)
  /-- But for mistakes that is the use of the macros that are invoked. -/
  invoked : ∀ name, (name ++ "!" ∈ s.usage span ↔
    ∃ i, s.isNameIn span name i = true ∧ s.isInvoked span i = true) ↔ ¬ s.Mistakes span name

theorem Scan.Faithful.usageTold {s : Scan} (hs : s.Faithful) (span : Span) : s.UsageTold span := by
  have hmacros : ∀ name, name ++ "!" ∈ s.usage span ↔ ∃ i, s.isNameIn span name i = true ∧
      (s.isInvoked span i = true ∧ s.isParted i = false ∨ s.isCompared span i = true) := by
    intro name
    rw [hs.mem_usage_of_macro]
    simp only [isMarkIn_succ_iff]
  refine ⟨fun name hname => hs.mem_usage_of_plain hname, hmacros, ?_⟩
  intro name
  rw [hmacros]
  constructor
  · rintro h (⟨⟨i, hi, hcompared⟩, hnever⟩ | ⟨⟨i, hi, hinvoked⟩, hmissed⟩)
    · obtain ⟨j, hj, hinvoked⟩ := h.1 ⟨i, hi, .inr hcompared⟩
      rw [hnever j hj] at hinvoked
      cases hinvoked
    · obtain ⟨j, hj, ⟨hinvoked, hparted⟩ | hcompared⟩ := h.2 ⟨i, hi, hinvoked⟩
      · rw [(hmissed j hj).2 hinvoked] at hparted
        cases hparted
      · rw [(hmissed j hj).1] at hcompared
        cases hcompared
  · intro hright
    constructor
    · rintro ⟨i, hi, ⟨hinvoked, -⟩ | hcompared⟩
      · exact ⟨i, hi, hinvoked⟩
      · by_contra hnever
        exact hright
          (.inl ⟨⟨i, hi, hcompared⟩, fun j hj => by simpa using fun h => hnever ⟨j, hj, h⟩⟩)
    · rintro ⟨i, hi, hinvoked⟩
      by_contra hmissed
      refine hright (.inr ⟨⟨i, hi, hinvoked⟩, fun j hj => ⟨?_, fun h => ?_⟩⟩)
      · by_contra hcompared
        exact hmissed ⟨j, hj, .inr (by simpa using hcompared)⟩
      · by_contra hparted
        exact hmissed ⟨j, hj, .inl ⟨h, by simpa using hparted⟩⟩

/-- Imports are told from the words of the code. Names are found wherever they stand, macros where
nothing stands before the mark. Comments leave the import lines as they are, unless one stands
between a macro trigger and its mark. -/
theorem usage_told (text : Text) (span : Span) :
    (Scan.ofText text).UsageTold span ∧
      ∀ text' span', (Scan.ofText text').codeIn span' = (Scan.ofText text).codeIn span →
        ∀ settings : ImportSettings,
          (∀ rule ∈ settings.rules, ∀ name, name ++ "!" ∈ rule.triggers →
            ¬ (Scan.ofText text).Parted span name ∧ ¬ (Scan.ofText text').Parted span' name) →
          settings.linesFor (Scan.ofText text') span' =
            settings.linesFor (Scan.ofText text) span := by
  have hs := Scan.faithful_ofText text
  refine ⟨hs.usageTold span, ?_⟩
  intro text' span' hcode settings hparted
  have hs' := Scan.faithful_ofText text'
  rw [ImportSettings.linesFor, ImportSettings.linesFor, settings.detect_congr]
  intro rule hrule w hw
  apply mem_usage_iff_of_codeIn hs hs' hcode
  rintro name rfl
  exact hparted rule hrule name hw

/-- A macro with a comment among its arguments is found, and the comment changes no import. -/
theorem commentedMacro_told :
    (Scan.ofText "vec![/* x */ 1]".toList).codeIn ⟨0, 15⟩ =
        (Scan.ofText "vec![1]".toList).codeIn ⟨0, 7⟩ ∧
      "vec" ++ "!" ∈ (Scan.ofText "vec![1]".toList).usage ⟨0, 7⟩ ∧
      ImportSettings.default.linesFor (Scan.ofText "vec![/* x */ 1]".toList) ⟨0, 15⟩ =
        ImportSettings.default.linesFor (Scan.ofText "vec![1]".toList) ⟨0, 7⟩ := by
  obtain ⟨htold, hcomments⟩ := usage_told "vec![1]".toList ⟨0, 7⟩
  have hcode : (Scan.ofText "vec![/* x */ 1]".toList).codeIn ⟨0, 15⟩ =
      (Scan.ofText "vec![1]".toList).codeIn ⟨0, 7⟩ := by decide +kernel
  refine ⟨hcode, ?_, hcomments _ _ hcode _ ?_⟩
  · exact (htold.macros "vec").2
      ⟨0, by decide +kernel, Scan.isMarkIn_succ_iff.1 (by decide +kernel)⟩
  · intro rule _ name _
    exact ⟨Scan.not_parted (by decide +kernel), Scan.not_parted (by decide +kernel)⟩

/-- A name that is compared counts as a macro, and a comment before the mark hides one. -/
theorem not_forall_invoked :
    (¬ ∀ text span name, name ++ "!" ∈ (Scan.ofText text).usage span ↔
        ∃ i, (Scan.ofText text).isNameIn span name i = true ∧
          (Scan.ofText text).isInvoked span i = true) ∧
      ¬ ∀ text text' span span',
        (Scan.ofText text').codeIn span' = (Scan.ofText text).codeIn span →
          ∀ settings : ImportSettings, settings.linesFor (Scan.ofText text') span' =
            settings.linesFor (Scan.ofText text) span := by
  constructor
  · intro h
    have hused : "vec" ++ "!" ∈ (Scan.ofText "vec != x".toList).usage ⟨0, 8⟩ := by decide +kernel
    obtain ⟨i, hi, hinvoked⟩ := (h _ _ _).1 hused
    have hcompared : ∀ i < 4, (Scan.ofText "vec != x".toList).isNameIn ⟨0, 8⟩ "vec" i = true →
        (Scan.ofText "vec != x".toList).isCompared ⟨0, 8⟩ i = true := by decide +kernel
    obtain ⟨t, ht, -⟩ := Scan.isNameIn_iff.1 hi
    have hsize : (Scan.ofText "vec != x".toList).size = 4 := by decide +kernel
    have hlt := Scan.lt_size ht
    rw [Scan.isInvoked_of_isCompared (hcompared i (by omega) hi)] at hinvoked
    cases hinvoked
  · intro h
    have hcode : (Scan.ofText "vec /**/ ![]".toList).codeIn ⟨0, 12⟩ =
        (Scan.ofText "vec![]".toList).codeIn ⟨0, 6⟩ := by decide +kernel
    have hsame := h _ _ _ _ hcode .default
    revert hsame
    decide +kernel

end Unbundle
