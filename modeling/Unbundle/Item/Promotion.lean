import Unbundle.Item.Head

/-! Moving an item to the shared module: its visibility is widened and nothing else changes. -/
namespace Unbundle

/-- The difference of two offsets, which must not be reversed. -/
def offsetWithin (base offset : Nat) : Checked Nat :=
  if base ≤ offset then .ok (offset - base) else .error .overflow

/-- The text of the item in a span, with the visibility it needs in the shared module. A visibility
is replaced where it stands; an item without one gets it where the item proper starts. -/
def promote (source : Text) (span : Span) (head : Head) : Checked Text := do
  let text ← slice source span.start span.stop
  let wide := head.visibility.widen .sharedModule
  if wide = head.visibility then return text
  else
    match head.visibilitySpan with
    | some v =>
      let before ← textBefore text (← offsetWithin span.start v.start)
      let after ← textFrom text (← offsetWithin span.start v.stop)
      return before ++ wide.text.toList ++ after
    | none =>
      let start ← offsetWithin span.start head.itemStart
      let before ← textBefore text start
      let after ← textFrom text start
      return before ++ wide.text.toList ++ ' ' :: after

end Unbundle
