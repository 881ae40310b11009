import Unbundle.Span

/-! Texts as lists of characters, addressed by byte offsets in UTF-8. -/
namespace Unbundle

/-- A text is the list of its characters. -/
abbrev Text := List Char

/-- The length of a text in bytes. -/
def byteLength : Text → Nat
  | [] => 0
  | c :: cs => c.utf8Size + byteLength cs

@[simp] theorem byteLength_nil : byteLength [] = 0 := rfl

@[simp] theorem byteLength_cons (c : Char) (cs : Text) :
    byteLength (c :: cs) = c.utf8Size + byteLength cs := rfl

@[simp] theorem byteLength_append (a b : Text) :
    byteLength (a ++ b) = byteLength a + byteLength b := by
  induction a with
  | nil => simp
  | cons c cs ih => simp [ih, Nat.add_assoc]

/-- Cuts a text at a byte offset; `none` past its end or inside a character. -/
def cutAt : Nat → Text → Option (Text × Text)
  | 0, cs => some ([], cs)
  | _ + 1, [] => none
  | n + 1, c :: cs =>
    if c.utf8Size ≤ n + 1 then
      (cutAt (n + 1 - c.utf8Size) cs).map fun (before, after) => (c :: before, after)
    else none

/-- A cut loses nothing and falls on the offset asked for. -/
theorem cutAt_eq_some {n : Nat} {cs a b : Text} (h : cutAt n cs = some (a, b)) :
    cs = a ++ b ∧ byteLength a = n := by
  fun_induction cutAt n cs generalizing a b with
  | case1 => simp_all
  | case2 => simp at h
  | case3 n c cs hc ih =>
    obtain ⟨⟨a', b'⟩, hab, heq⟩ := Option.map_eq_some_iff.1 h
    obtain ⟨rfl, rfl⟩ := Prod.mk.inj heq
    obtain ⟨rfl, hn⟩ := ih hab
    exact ⟨rfl, by simp only [byteLength_cons]; omega⟩
  | case4 => simp at h

/-- A text can be cut where its first part ends. -/
theorem cutAt_append (a b : Text) : cutAt (byteLength a) (a ++ b) = some (a, b) := by
  induction a with
  | nil => cases b <;> simp [cutAt]
  | cons c cs ih =>
    have hc := c.utf8Size_pos
    obtain ⟨n, hn⟩ : ∃ n, byteLength (c :: cs) = n + 1 :=
      ⟨byteLength (c :: cs) - 1, by simp only [byteLength_cons]; omega⟩
    have hle : c.utf8Size ≤ n + 1 := by rw [← hn]; simp
    have hsub : n + 1 - c.utf8Size = byteLength cs := by rw [← hn]; simp
    rw [hn, List.cons_append, cutAt, if_pos hle, hsub, ih]
    rfl

/-- The characters before a byte offset. -/
def textBefore (text : Text) (offset : Nat) : Checked Text :=
  match cutAt offset text with
  | some (before, _) => .ok before
  | none => .error (.slice 0 offset)

/-- The characters from a byte offset on. -/
def textFrom (text : Text) (offset : Nat) : Checked Text :=
  match cutAt offset text with
  | some (_, after) => .ok after
  | none => .error (.slice offset (byteLength text))

/-- The characters of a span. Refuses a span that is reversed, reaches past the end, or begins or
ends inside a character. -/
def slice (text : Text) (start stop : Nat) : Checked Text :=
  if start ≤ stop then
    match cutAt start text with
    | some (_, after) =>
      match cutAt (stop - start) after with
      | some (inside, _) => .ok inside
      | none => .error (.slice start stop)
    | none => .error (.slice start stop)
  else .error (.slice start stop)

/-- The line, counted from 1, that holds the byte at `offset`; the last line past the end. -/
def lineOf : Text → Nat → Nat
  | [], _ => 1
  | _ :: _, 0 => 1
  | c :: cs, n + 1 => (if c = '\n' then 1 else 0) + lineOf cs (n + 1 - c.utf8Size)

/-- The byte offset of the last character, and 0 in the empty text. -/
def lastOffset : Text → Nat
  | [] => 0
  | [_] => 0
  | c :: cs => c.utf8Size + lastOffset cs

/-- Replaces `old` by `new` wherever it occurs, from left to right and without overlap. `skip`
counts the characters that remain of the last occurrence. -/
def substituteFrom (old new : Text) : Nat → Text → Text
  | _, [] => []
  | skip + 1, _ :: cs => substituteFrom old new skip cs
  | 0, c :: cs =>
    if old.isPrefixOf (c :: cs) then new ++ substituteFrom old new (old.length - 1) cs
    else c :: substituteFrom old new 0 cs

/-- Replaces every occurrence of `old` in a text by `new`. -/
def substitute (old new text : String) : String :=
  String.ofList (substituteFrom old.toList new.toList 0 text.toList)

/-- Puts `margin` before every line of a text but the first. -/
def hang (margin text : String) : String := substitute "\n" ("\n" ++ margin) text

/-- Joins texts with a separator between neighbours. -/
def joinWith (sep : Text) : List Text → Text
  | [] => []
  | [t] => t
  | t :: ts => t ++ sep ++ joinWith sep ts

end Unbundle
