-- The order of texts by their UTF-16 units. Characters from U+10000 on are written
-- as two units from the surrogate range, so they come before U+E000 to U+FFFF.

namespace TemplateExpr

namespace Text

/-- The UTF-16 units of a character. -/
def unitsOf (c : Char) : List Nat :=
  if c.toNat < 0x10000 then [c.toNat]
  else [0xd800 + (c.toNat - 0x10000) / 0x400, 0xdc00 + (c.toNat - 0x10000) % 0x400]

def units (cs : List Char) : List Nat := cs.flatMap unitsOf

/-- The first difference decides, and a text comes after each of its beginnings. -/
def compareUnits : List Nat → List Nat → Ordering
  | [], [] => .eq
  | [], _ :: _ => .lt
  | _ :: _, [] => .gt
  | a :: as, b :: bs => (compare a b).then (compareUnits as bs)

/-- The order of texts that operators use. -/
def ordinal (s t : String) : Ordering := compareUnits (units s.toList) (units t.toList)

end Text

end TemplateExpr
