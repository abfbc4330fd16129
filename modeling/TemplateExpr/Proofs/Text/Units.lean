-- The order of texts by their units. Seen from the other text it is the other way round,
-- and only equal texts are equal in it, since the units of a text tell its characters.
import TemplateExpr.Text.Units

namespace TemplateExpr

namespace Text

/-! ## Lists of units -/

theorem compareUnits_swap (as bs : List Nat) : (compareUnits as bs).swap = compareUnits bs as := by
  induction as generalizing bs with
  | nil => cases bs <;> rfl
  | cons a as ih =>
    cases bs with
    | nil => rfl
    | cons b bs => rw [compareUnits, compareUnits, Ordering.swap_then, Nat.compare_swap, ih]

theorem compareUnits_eq_iff {as bs : List Nat} : compareUnits as bs = .eq ↔ as = bs := by
  induction as generalizing bs with
  | nil => cases bs <;> simp [compareUnits]
  | cons a as ih =>
    cases bs with
    | nil => simp [compareUnits]
    | cons b bs => simp [compareUnits, Ordering.then_eq_eq, ih]

/-- Units are compared as lists of numbers are. -/
theorem compareUnits_eq_lt_iff {as bs : List Nat} : compareUnits as bs = .lt ↔ as < bs := by
  induction as generalizing bs with
  | nil => cases bs <;> simp [compareUnits]
  | cons a as ih =>
    cases bs with
    | nil => simp [compareUnits]
    | cons b bs =>
      simp [compareUnits, Ordering.then_eq_lt, List.cons_lt_cons_iff, Nat.compare_eq_lt, ih]

/-! ## Texts -/

/-- No character is a surrogate. -/
theorem toNat_of_char (c : Char) : c.toNat < 0xd800 ∨ 0xdfff < c.toNat ∧ c.toNat < 0x110000 :=
  c.valid

/-- A unit that starts a pair is no character, so the first unit tells how many belong to the
first character. -/
theorem unitsOf_append_inj {c d : Char} {as bs : List Nat}
    (h : unitsOf c ++ as = unitsOf d ++ bs) : c = d ∧ as = bs := by
  have hc := toNat_of_char c
  have hd := toNat_of_char d
  unfold unitsOf at h
  split at h <;> split at h
  all_goals simp only [List.cons_append, List.nil_append, List.cons.injEq] at h
  · exact ⟨Char.toNat_inj.1 h.1, h.2⟩
  · omega
  · omega
  · exact ⟨Char.toNat_inj.1 (by omega), h.2.2⟩

theorem unitsOf_ne_nil (c : Char) : unitsOf c ≠ [] := by
  unfold unitsOf
  split <;> simp

theorem units_injective {cs ds : List Char} (h : units cs = units ds) : cs = ds := by
  unfold units at h
  induction cs generalizing ds with
  | nil =>
    cases ds with
    | nil => rfl
    | cons d ds => simp [unitsOf_ne_nil] at h
  | cons c cs ih =>
    cases ds with
    | nil => simp [unitsOf_ne_nil] at h
    | cons d ds =>
      rw [List.flatMap_cons, List.flatMap_cons] at h
      obtain ⟨rfl, hrest⟩ := unitsOf_append_inj h
      rw [ih hrest]

theorem ordinal_eq_lt_iff {s t : String} :
    ordinal s t = .lt ↔ units s.toList < units t.toList := compareUnits_eq_lt_iff

theorem ordinal_swap (s t : String) : (ordinal s t).swap = ordinal t s := compareUnits_swap _ _

theorem ordinal_eq_iff {s t : String} : ordinal s t = .eq ↔ s = t := by
  rw [ordinal, compareUnits_eq_iff]
  constructor
  · intro h
    exact String.toList_injective (units_injective h)
  · rintro rfl
    rfl

end Text

end TemplateExpr
