-- How texts compare. Their units order them totally, with each of its beginnings before a text;
-- the order is that of their code points, turned round where two texts first differ in a
-- character that takes two units and one that is above all units of pairs.
import TemplateExpr.Proofs.Operation.Comparison

namespace TemplateExpr

/-! ## Lists of numbers -/

section

variable {as bs cs : List Nat}

theorem append_lt_append_iff : cs ++ as < cs ++ bs ↔ as < bs := by
  constructor
  · intro h
    rw [← List.not_le] at h ⊢
    exact fun hle => h (List.append_left_le hle)
  · exact List.append_left_lt

/-- A list comes after each of its beginnings. -/
theorem lt_iff_ne_of_isPrefix (h : as <+: bs) : as < bs ↔ as ≠ bs := by
  obtain ⟨rest, rfl⟩ := h
  have hempty : as ++ [] < as ++ rest ↔ [] < rest := append_lt_append_iff
  rw [List.append_nil] at hempty
  rw [hempty]
  cases rest <;> simp

end

namespace Text

/-! ## Code points -/

def codePoints (cs : List Char) : List Nat := cs.map Char.toNat

/-- The texts are the same up to here, where the one goes on with `c` and the other with `d`. -/
def FirstDifference (cs ds : List Char) (c d : Char) : Prop :=
  c ≠ d ∧ ∃ shared rest rest', cs = shared ++ c :: rest ∧ ds = shared ++ d :: rest'

/-- One of the characters takes two units, and the other is above all units of pairs. -/
def Crossed (c d : Char) : Prop :=
  (0x10000 ≤ c.toNat ∧ 0xe000 ≤ d.toNat ∧ d.toNat ≤ 0xffff) ∨
    (0x10000 ≤ d.toNat ∧ 0xe000 ≤ c.toNat ∧ c.toNat ≤ 0xffff)

instance (c d : Char) : Decidable (Crossed c d) := inferInstanceAs (Decidable (_ ∨ _))

theorem codePoints_injective {cs ds : List Char} (h : codePoints cs = codePoints ds) : cs = ds :=
  List.map_injective_iff.2 (fun _ _ => Char.toNat_inj.1) h

theorem prefix_or_difference (cs ds : List Char) :
    cs <+: ds ∨ ds <+: cs ∨ ∃ c d, FirstDifference cs ds c d := by
  induction cs generalizing ds with
  | nil => exact .inl List.nil_prefix
  | cons c cs ih =>
    cases ds with
    | nil => exact .inr (.inl List.nil_prefix)
    | cons d ds =>
      by_cases hcd : c = d
      · subst hcd
        rcases ih ds with hprefix | hprefix | ⟨x, y, hne, shared, rest, rest', rfl, rfl⟩
        · exact .inl (List.cons_prefix_cons.2 ⟨rfl, hprefix⟩)
        · exact .inr (.inl (List.cons_prefix_cons.2 ⟨rfl, hprefix⟩))
        · exact .inr (.inr ⟨x, y, hne, c :: shared, rest, rest', rfl, rfl⟩)
      · exact .inr (.inr ⟨c, d, hcd, [], cs, ds, rfl, rfl⟩)

theorem isPrefix_units {cs ds : List Char} (h : cs <+: ds) : units cs <+: units ds := by
  obtain ⟨rest, rfl⟩ := h
  exact ⟨units rest, List.flatMap_append.symm⟩

/-- Two characters are in the order of their units, whatever follows. -/
theorem unitsOf_lt_iff {c d : Char} (hne : c ≠ d) (as bs : List Nat) :
    unitsOf c ++ as < unitsOf d ++ bs ↔
      if Crossed c d then d.toNat < c.toNat else c.toNat < d.toNat := by
  have hc := toNat_of_char c
  have hd := toNat_of_char d
  have hdiffer : c.toNat ≠ d.toNat := mt Char.toNat_inj.1 hne
  by_cases hcrossed : Crossed c d
  · rw [if_pos hcrossed]
    unfold Crossed at hcrossed
    unfold unitsOf
    split <;> split <;> simp only [List.cons_append, List.nil_append, List.cons_lt_cons_iff]
    all_goals omega
  · rw [if_neg hcrossed]
    unfold Crossed at hcrossed
    unfold unitsOf
    split <;> split <;> simp only [List.cons_append, List.nil_append, List.cons_lt_cons_iff]
    all_goals omega

theorem units_lt_iff_of_difference {cs ds : List Char} {c d : Char}
    (h : FirstDifference cs ds c d) :
    units cs < units ds ↔ if Crossed c d then d.toNat < c.toNat else c.toNat < d.toNat := by
  obtain ⟨hne, shared, rest, rest', rfl, rfl⟩ := h
  simp only [units, List.flatMap_append, List.flatMap_cons]
  rw [append_lt_append_iff, unitsOf_lt_iff hne]

theorem codePoints_lt_iff_of_difference {cs ds : List Char} {c d : Char}
    (h : FirstDifference cs ds c d) : codePoints cs < codePoints ds ↔ c.toNat < d.toNat := by
  obtain ⟨hne, shared, rest, rest', rfl, rfl⟩ := h
  have hdiffer : c.toNat ≠ d.toNat := mt Char.toNat_inj.1 hne
  simp only [codePoints, List.map_append, List.map_cons]
  rw [append_lt_append_iff, List.cons_lt_cons_iff]
  simp [hdiffer]

theorem FirstDifference.symm {cs ds : List Char} {c d : Char} (h : FirstDifference cs ds c d) :
    FirstDifference ds cs d c := by
  obtain ⟨hne, shared, rest, rest', hcs, hds⟩ := h
  exact ⟨hne.symm, shared, rest', rest, hds, hcs⟩

/-- Where no pair is crossed the units are in the order of the code points. -/
theorem units_lt_iff_codePoints_lt {cs ds : List Char}
    (h : ∀ c d, FirstDifference cs ds c d → ¬ Crossed c d) :
    units cs < units ds ↔ codePoints cs < codePoints ds := by
  rcases prefix_or_difference cs ds with hprefix | hprefix | ⟨c, d, hdiffer⟩
  · have hpoints : codePoints cs <+: codePoints ds := hprefix.map _
    rw [lt_iff_ne_of_isPrefix (isPrefix_units hprefix), lt_iff_ne_of_isPrefix hpoints]
    exact not_congr ⟨fun heq => congrArg codePoints (units_injective heq),
      fun heq => congrArg units (codePoints_injective heq)⟩
  · have hpoints : codePoints ds <+: codePoints cs := hprefix.map _
    exact iff_of_false (List.not_lt.2 (isPrefix_units hprefix).le) (List.not_lt.2 hpoints.le)
  · rw [units_lt_iff_of_difference hdiffer, if_neg (h c d hdiffer),
      codePoints_lt_iff_of_difference hdiffer]

end Text

namespace Operation

variable (h : Heap) (pattern : String)

/-! ## Comparisons of texts -/

theorem yields_text_comparison {op : BinaryOp} (hop : op.isComparison = true) (s t : String) :
    Yields (.standard h pattern) h op (.string s) (.string t)
      (.bool (op.holds (some (Text.ordinal s t)))) := by
  rintro o rfl
  rw [o.apply_of_isCalculation _ h (BinaryOp.isCalculation_of_isComparison hop),
    o.calculate_of_hasText _ h (.inl rfl), o.onStrings_of_isComparison _ _ _ hop]
  simp only [Coercions.standard, text_string]
  rfl

/-- The answer of the operator to two texts is yes, wherever it stands. -/
def Affirms (op : BinaryOp) (s t : String) : Prop :=
  Yields (.standard h pattern) h op (.string s) (.string t) (.bool true)

theorem affirms_iff {op : BinaryOp} (hop : op.isComparison = true) (s t : String) :
    Affirms h pattern op s t ↔ op.holds (some (Text.ordinal s t)) = true := by
  have hyields := yields_text_comparison h pattern hop s t
  constructor
  · intro haffirms
    exact Value.bool.inj (hyields.unique haffirms)
  · intro hholds
    rwa [hholds] at hyields

theorem affirms_less_iff (s t : String) :
    Affirms h pattern .less s t ↔ Text.units s.toList < Text.units t.toList := by
  rw [affirms_iff h pattern rfl, ← Text.ordinal_eq_lt_iff]
  cases Text.ordinal s t <;> simp [BinaryOp.holds]

theorem affirms_equal_iff (s t : String) : Affirms h pattern .equal s t ↔ s = t := by
  rw [affirms_iff h pattern rfl, ← Text.ordinal_eq_iff]
  cases Text.ordinal s t <;> simp [BinaryOp.holds]

/-- How the other operators follow from these two. -/
theorem affirms_greater_iff (s t : String) :
    Affirms h pattern .greater s t ↔ Affirms h pattern .less t s := by
  rw [affirms_iff h pattern rfl, affirms_iff h pattern rfl, ← Text.ordinal_swap s t]
  cases Text.ordinal s t <;> simp [BinaryOp.holds]

theorem affirms_lessEqual_iff (s t : String) :
    Affirms h pattern .lessEqual s t ↔ Affirms h pattern .less s t ∨ s = t := by
  rw [affirms_iff h pattern rfl, affirms_iff h pattern rfl, ← Text.ordinal_eq_iff]
  cases Text.ordinal s t <;> simp [BinaryOp.holds]

theorem affirms_greaterEqual_iff (s t : String) :
    Affirms h pattern .greaterEqual s t ↔ Affirms h pattern .less t s ∨ s = t := by
  rw [← affirms_greater_iff, affirms_iff h pattern rfl, affirms_iff h pattern rfl,
    ← Text.ordinal_eq_iff]
  cases Text.ordinal s t <;> simp [BinaryOp.holds]

theorem affirms_notEqual_iff (s t : String) : Affirms h pattern .notEqual s t ↔ s ≠ t := by
  rw [affirms_iff h pattern rfl, ne_eq, ← Text.ordinal_eq_iff]
  cases Text.ordinal s t <;> simp [BinaryOp.holds]

/-! ## The law -/

/-- The six comparisons put texts in one order. -/
structure OrdersTexts : Prop where
  answered : ∀ op : BinaryOp, op.isComparison = true → ∀ s t, ∃ b,
    Yields (.standard h pattern) h op (.string s) (.string t) (.bool b)
  irreflexive : ∀ s, ¬ Affirms h pattern .less s s
  transitive : ∀ s t u, Affirms h pattern .less s t → Affirms h pattern .less t u →
    Affirms h pattern .less s u
  total : ∀ s t, Affirms h pattern .less s t ∨ s = t ∨ Affirms h pattern .less t s
  /-- Only texts of the same characters are equal. -/
  equal : ∀ s t, Affirms h pattern .equal s t ↔ s.toList = t.toList
  notEqual : ∀ s t, Affirms h pattern .notEqual s t ↔ s.toList ≠ t.toList
  greater : ∀ s t, Affirms h pattern .greater s t ↔ Affirms h pattern .less t s
  lessEqual : ∀ s t, Affirms h pattern .lessEqual s t ↔ Affirms h pattern .less s t ∨ s = t
  greaterEqual : ∀ s t,
    Affirms h pattern .greaterEqual s t ↔ Affirms h pattern .less t s ∨ s = t
  /-- A text comes after each of its beginnings. -/
  beginning : ∀ s t : String, s.toList <+: t.toList → s ≠ t → Affirms h pattern .less s t
  code_points : ∀ s t : String,
    (∀ c d, Text.FirstDifference s.toList t.toList c d → ¬ Text.Crossed c d) →
    (Affirms h pattern .less s t ↔ Text.codePoints s.toList < Text.codePoints t.toList)
  reversed : ∀ (s t : String) (c d : Char),
    Text.FirstDifference s.toList t.toList c d → Text.Crossed c d →
    (Affirms h pattern .less s t ↔ Text.codePoints t.toList < Text.codePoints s.toList)

theorem texts_are_ordered_by_their_units : OrdersTexts h pattern := by
  have htrichotomy : ∀ s t, Affirms h pattern .less s t ∨ s = t ∨ Affirms h pattern .less t s := by
    intro s t
    rw [affirms_less_iff, affirms_less_iff]
    rcases lt_trichotomy (Text.units s.toList) (Text.units t.toList) with hlt | heq | hgt
    · exact .inl hlt
    · exact .inr (.inl (String.toList_injective (Text.units_injective heq)))
    · exact .inr (.inr hgt)
  refine ⟨fun op hop s t => ⟨_, yields_text_comparison h pattern hop s t⟩, ?_, ?_, htrichotomy,
    ?_, ?_, affirms_greater_iff h pattern, affirms_lessEqual_iff h pattern,
    affirms_greaterEqual_iff h pattern, ?_, ?_, ?_⟩
  · intro s
    rw [affirms_less_iff]
    exact List.lt_irrefl _
  · intro s t u hst htu
    rw [affirms_less_iff] at hst htu ⊢
    exact List.lt_trans hst htu
  · intro s t
    rw [affirms_equal_iff, String.toList_inj]
  · intro s t
    rw [affirms_notEqual_iff, ne_eq, ne_eq, String.toList_inj]
  · intro s t hprefix hne
    rw [affirms_less_iff, lt_iff_ne_of_isPrefix (Text.isPrefix_units hprefix)]
    exact fun heq => hne (String.toList_injective (Text.units_injective heq))
  · intro s t hnot
    rw [affirms_less_iff, Text.units_lt_iff_codePoints_lt hnot]
  · intro s t c d hdiffer hcrossed
    rw [affirms_less_iff, Text.units_lt_iff_of_difference hdiffer, if_pos hcrossed,
      Text.codePoints_lt_iff_of_difference hdiffer.symm]

end Operation

end TemplateExpr
