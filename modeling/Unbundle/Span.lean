import Unbundle.Fault

/-! Half-open byte ranges into a text. -/
namespace Unbundle

/-- The bytes from `start` up to, and without, `stop`. A reversed span holds no byte. -/
structure Span where
  start : Nat
  stop : Nat
deriving DecidableEq, Repr, Inhabited

namespace Span

/-- Builds a span and refuses a reversed one. -/
def make (start stop : Nat) : Checked Span :=
  if start ≤ stop then .ok ⟨start, stop⟩ else .error (.reversed start stop)

def length (s : Span) : Nat := s.stop - s.start

def isEmpty (s : Span) : Bool := s.start == s.stop

/-- The offset lies in the span, its first byte included. -/
def contains (s : Span) (offset : Nat) : Bool := s.start ≤ offset && offset < s.stop

/-- The offset lies in the span but is not its first byte. -/
def strictlyContains (s : Span) (offset : Nat) : Bool := s.start < offset && offset < s.stop

def overlaps (s t : Span) : Bool := s.start < t.stop && t.start < s.stop

/-- Spans are ordered by start, then by end. -/
def order (s t : Span) : Ordering := (compare s.start t.start).then (compare s.stop t.stop)

/-- The span does not come after `t` in that order. -/
def notAfter (s t : Span) : Bool := (s.order t).isLE

theorem contains_iff {s : Span} {n : Nat} : s.contains n = true ↔ s.start ≤ n ∧ n < s.stop := by
  simp [contains]

theorem strictlyContains_iff {s : Span} {n : Nat} :
    s.strictlyContains n = true ↔ s.start < n ∧ n < s.stop := by
  simp [strictlyContains]

theorem make_eq_ok_iff {a b : Nat} {s : Span} : make a b = .ok s ↔ a ≤ b ∧ s = ⟨a, b⟩ := by
  unfold make
  split <;> rename_i h <;> simp [h, eq_comm]

end Span
end Unbundle
