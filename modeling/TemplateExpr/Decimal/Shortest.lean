-- The shortest decimal that reads back as a given floating-point number. Grids of
-- one, two, three … digits are tried in turn; on each only the two points next to
-- the number can be nearest to it, and the first grid with a point that reads back
-- decides. Of two such points the nearer is taken, and the greater of a tie.
import TemplateExpr.Decimal.Basic

namespace TemplateExpr

namespace Decimal

/-- The least power of ten above a positive ratio. -/
def reachOfRatio (num den : Nat) : Int :=
  let shift := if den ≤ num then 0 else den.log2 + 1
  (digits (num * tenPow shift / den)).length - shift

/-- The point of a grid nearest to a ratio among those next to it that are accepted. -/
def pick? (accepts : Decimal → Bool) (num den : Nat) (unit : Int) : Option Decimal :=
  let scaled := num * tenPow (-unit).toNat
  let divisor := den * tenPow unit.toNat
  let low : Decimal := ⟨scaled / divisor, unit⟩
  let high : Decimal := ⟨scaled / divisor + 1, unit⟩
  match accepts low, accepts high with
  | true, true => some (if 2 * (scaled % divisor) < divisor then low else high)
  | true, false => some low
  | false, true => some high
  | false, false => none

/-- All digits of `m * 2 ^ e`. -/
def exact (m : Nat) (e : Int) : Decimal :=
  if 0 ≤ e then ⟨m * Binary.twoPow e.toNat, 0⟩ else ⟨m * Nat.pow 5 (-e).toNat, e⟩

end Decimal

namespace Binary

variable {f : Format}

/-- Seventeen digits always suffice for the two formats; with fewer the search would fall back
on the exact digits. -/
def shortest (m : Nat) (e : Int) (accepts : Decimal → Bool) : Decimal :=
  let num := m * twoPow e.toNat
  let den := twoPow (-e).toNat
  let reach := Decimal.reachOfRatio num den
  let found := (List.range 17).findSome? fun (n : Nat) =>
    Decimal.pick? accepts num den (reach - (n + 1))
  (found.getD (.exact m e)).trimmed

/-- The decimal that stands for the magnitude of a finite number in texts. -/
def decimal? : Binary f → Option Decimal
  | finite _ m e h =>
    some (if m = 0 then ⟨0, 0⟩
      else shortest m e fun d => decide (ofDecimal false d = finite false m e h))
  | _ => none

end Binary

end TemplateExpr
