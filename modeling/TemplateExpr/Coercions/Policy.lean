-- Hosts with rules of their own about truth, text and kinds: one that keeps to the
-- standard answers, one with stricter ideas, one whose conversions are wrong, and one
-- that refuses to convert.
import TemplateExpr.Coercions

namespace TemplateExpr

inductive Policy where
  /-- The standard answers, with dates after the pattern in force. -/
  | standard
  /-- The standard answers, with dates after the usual pattern. -/
  | plain
  /-- Zero is false, and texts are in capitals. -/
  | strict
  /-- Every conversion gives the same text. -/
  | broken
  /-- No conversion is allowed. -/
  | refusing
deriving DecidableEq

namespace Policy

/-- Truth to which an integer zero is false as well. -/
def strictTruth : Value → Bool
  | .int n => n != 0
  | v => v.truth

/-- The services of a host with this policy. -/
def coercions (policy : Policy) (pattern : String) (h : Heap) : Coercions :=
  let base := Coercions.standard h Calendar.usualPattern
  match policy with
  | standard => .standard h pattern
  | plain => base
  | strict => { base with
      truth := strictTruth
      text := fun _ v => (h.text pattern v).map Char.toUpper }
  | broken => { base with convert := fun _ _ _ => .ok (.string "nope") }
  | refusing => { base with
      convert := fun span v kind =>
        .error ⟨.invalidArgument s!"no {v.kind.name} as {kind.name}", span⟩ }

end Policy

end TemplateExpr
