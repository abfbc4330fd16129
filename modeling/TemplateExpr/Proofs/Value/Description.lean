-- How long descriptions are. Of a list a description shows at most eight items, and of a range
-- its ends, so only the depth of a value and the texts of its leaves bound the length, however
-- many items there are. Where nothing is left out, a description is the text of the value.
import Mathlib.Algebra.Order.BigOperators.Group.List
import TemplateExpr.Proofs.Decimal.Nearest
import TemplateExpr.Proofs.Heap.Nesting

namespace TemplateExpr

/-! ## Lengths of texts -/

namespace Text

/-- Every text takes two more characters: those of a separator, or those of the brackets. -/
theorem length_bracketed {texts : List String} (htexts : texts ≠ []) :
    (bracketed texts).length = (texts.map fun s => s.length + 2).sum := by
  have hinner : (", ".intercalate texts).length + 2 = (texts.map fun s => s.length + 2).sum := by
    induction texts with
    | nil => exact absurd rfl htexts
    | cons s ss ih =>
      cases ss with
      | nil => simp
      | cons t ts =>
        have hrest := ih (List.cons_ne_nil t ts)
        have hseparator : ", ".length = 2 := rfl
        rw [String.intercalate_cons_cons, String.length_append, String.length_append,
          List.map_cons, List.sum_cons, ← hrest]
        omega
  have hbrackets : "[".length = 1 ∧ "]".length = 1 := ⟨rfl, rfl⟩
  rw [← hinner, bracketed, String.length_append, String.length_append]
  omega

/-- At most `k` texts, and perhaps a mark for those left out. -/
theorem length_bracketed_le {texts rest : List String} {n k : Nat}
    (htexts : ∀ s ∈ texts, s.length ≤ n) (hcount : texts.length ≤ k)
    (hrest : rest = [] ∨ rest = ["..."]) :
    (bracketed (texts ++ rest)).length ≤ k * (n + 2) + 5 := by
  by_cases hempty : texts ++ rest = []
  · rw [hempty]
    have hnone : (bracketed []).length = 2 := rfl
    omega
  · have hsum : (texts.map fun s => s.length + 2).sum ≤ texts.length * (n + 2) := by
      have hle := List.sum_le_card_nsmul (texts.map fun s => s.length + 2) (n + 2) (by
        intro m hm
        obtain ⟨t, ht, rfl⟩ := List.mem_map.1 hm
        exact Nat.add_le_add_right (htexts t ht) 2)
      simpa using hle
    have hmark : (rest.map fun s => s.length + 2).sum ≤ 5 := by
      rcases hrest with rfl | rfl
      · exact Nat.zero_le 5
      · exact Nat.le_refl 5
    have hmul := Nat.mul_le_mul_right (n + 2) hcount
    rw [length_bracketed hempty, List.map_append, List.sum_append]
    omega

end Text

theorem Decimal.length_intText_le {n : Int} {k : Nat} (hk : 0 < k) (hn : n.natAbs < 10 ^ k) :
    (intText n).length ≤ k + 1 := by
  have hdigits := (length_digits_le_iff hk).2 hn
  rw [intText, String.length_ofList, intDigits]
  split
  · exact Nat.succ_le_succ hdigits
  · exact Nat.le_succ_of_le hdigits

/-- Two numbers of 32 bits with the signs between them. -/
theorem Range.length_brief_le (r : Range) : r.brief.length ≤ 25 := by
  have hend : ∀ n : Int32, (Decimal.intText n.toInt).length ≤ 11 := by
    intro n
    have hle := n.le_toInt
    have hlt := n.toInt_lt
    exact Decimal.length_intText_le (k := 10) (by decide) (by omega)
  have hsymbol : r.symbol.length ≤ 3 := by
    unfold symbol
    split <;> decide
  have hfirst := hend r.first
  have hlast := hend r.last
  rw [brief, String.length_append, String.length_append]
  omega

/-! ## Descriptions -/

namespace Heap

variable {h : Heap}

/-- The most characters that a description takes of lists nested this deep, if the texts of their
leaves take at most so many. -/
def descriptionBound (leaf : Nat) : Nat → Nat
  | 0 => leaf
  | depth + 1 => 8 * descriptionBound leaf depth + 21

theorem le_descriptionBound (leaf depth : Nat) : leaf ≤ descriptionBound leaf depth := by
  induction depth with
  | zero => exact Nat.le_refl leaf
  | succ depth ih =>
    rw [descriptionBound]
    omega

/-- Other leaves than ranges are described by their texts. -/
theorem describeWithin_leaf (h : Heap) {v : Value} (d : Nat) (hlist : v.kind ≠ .list)
    (hrange : v.kind ≠ .range) :
    h.describeWithin d v = h.text Calendar.usualPattern v := by
  rw [h.describeWithin_of_ne_list d hlist, h.text_of_ne_list _ hlist]
  cases v with
  | range => exact absurd rfl hrange
  | _ => rfl

/-- What a value holds that is neither a list nor a range is written in so many characters. -/
def LeavesWithin (h : Heap) (leaf : Nat) (v : Value) : Prop :=
  ∀ u, h.Contains v u → u.kind ≠ .list → u.kind ≠ .range →
    (h.text Calendar.usualPattern u).length ≤ leaf

/-- No range and no list of more items than messages show is anywhere in the value. -/
def ShownWhole (h : Heap) (v : Value) : Prop :=
  ∀ u, h.Contains v u → u.kind ≠ .range ∧
    ∀ r, u = .list r → (h.items r).length ≤ describedItems

theorem LeavesWithin.of_holds {leaf : Nat} {u v : Value} (hv : h.LeavesWithin leaf v)
    (hu : h.Holds u v) : h.LeavesWithin leaf u := fun x hx => hv x (.of_holds hu hx)

theorem ShownWhole.of_holds {u v : Value} (hv : h.ShownWhole v) (hu : h.Holds u v) :
    h.ShownWhole u := fun x hx => hv x (.of_holds hu hx)

theorem LeavesWithin.length_le {leaf : Nat} {v : Value} (hv : h.LeavesWithin leaf v)
    (hleaf : 25 ≤ leaf) (d : Nat) (hlist : v.kind ≠ .list) :
    (h.describeWithin d v).length ≤ leaf := by
  by_cases hrange : v.kind = .range
  · rw [h.describeWithin_of_ne_list d hlist]
    cases v with
    | range r => exact Nat.le_trans r.length_brief_le hleaf
    | _ => cases hrange
  · rw [h.describeWithin_leaf d hlist hrange]
    exact hv v (h.contains_self v) hlist hrange

/-- Each level of lists multiplies the length by eight at most, whatever limit of depth is set. -/
theorem LeavesWithin.length_describeWithin_le {leaf depth : Nat} {v : Value}
    (hv : h.LeavesWithin leaf v) (hleaf : 25 ≤ leaf) (hnested : h.NestedWithin depth v) (d : Nat) :
    (h.describeWithin d v).length ≤ descriptionBound leaf depth := by
  induction depth generalizing d v with
  | zero => exact hv.length_le hleaf d hnested
  | succ depth ih =>
    rcases v.list_or_leaf with ⟨r, rfl⟩ | hlist
    · cases d with
      | zero =>
        have hcut : h.describeWithin 0 (.list r) = "[...]" := rfl
        have hlength : "[...]".length = 5 := rfl
        rw [hcut, hlength, descriptionBound]
        omega
      | succ d =>
        have hbound : descriptionBound leaf (depth + 1) =
            describedItems * (descriptionBound leaf depth + 2) + 5 := by
          rw [descriptionBound, describedItems]
          omega
        rw [describeWithin, hbound]
        refine Text.length_bracketed_le ?_ ?_ ?_
        · intro s hs
          obtain ⟨u, hu, rfl⟩ := List.mem_map.1 hs
          have hholds : h.Holds u (.list r) := ⟨r, rfl, List.mem_of_mem_take hu⟩
          exact ih (hv.of_holds hholds) (hnested u hholds) d
        · rw [List.length_map]
          exact List.length_take_le _ _
        · split
          · exact .inr rfl
          · exact .inl rfl
    · exact Nat.le_trans (hv.length_le hleaf d hlist) (le_descriptionBound leaf (depth + 1))

/-- With nothing left out, the two renderings go through the same items in the same order. -/
theorem ShownWhole.describeWithin_eq {v : Value} (hv : h.ShownWhole v) (d : Nat) :
    h.describeWithin d v = h.textWithin Calendar.usualPattern d v := by
  induction d generalizing v with
  | zero =>
    cases v with
    | range => exact absurd rfl (hv _ (h.contains_self _)).1
    | _ => rfl
  | succ d ih =>
    rcases v.list_or_leaf with ⟨r, rfl⟩ | hlist
    · have hcount := (hv _ (h.contains_self _)).2 r rfl
      rw [describeWithin, textWithin]
      rw [List.take_of_length_le hcount, if_neg (Nat.not_lt.2 hcount), List.append_nil]
      congr 1
      exact List.map_congr_left fun u hu => ih (hv.of_holds ⟨r, rfl, hu⟩)
    · have hrange := (hv v (h.contains_self v)).1
      rw [h.describeWithin_leaf _ hlist hrange, h.textWithin_of_ne_list _ _ hlist,
        h.text_of_ne_list _ hlist]

/-! ## The law -/

/-- What the description of a value is to its text. -/
structure DescribesBriefly (h : Heap) (v : Value) : Prop where
  /-- However many items lists have and however long ranges are, the depth and the leaves bound the
  description. -/
  bounded : ∀ leaf depth, 25 ≤ leaf → h.LeavesWithin leaf v → h.NestedWithin depth v →
    (h.describe v).length ≤ descriptionBound leaf depth
  /-- The description is the text if there is nothing to leave out. -/
  faithful : h.ShownWhole v → h.describe v = h.text Calendar.usualPattern v
  /-- Neither of the two has come to a limit of depth where no list holds itself. -/
  ends : h.Closed → v.In h → h.Grounded v → h.Describes v (h.describe v) ∧
    h.Writes Calendar.usualPattern v (h.text Calendar.usualPattern v)

/-- Descriptions are short for how deep their values are, and faithful where they are not cut. -/
theorem descriptions_are_bounded_and_faithful (h : Heap) (v : Value) : h.DescribesBriefly v where
  bounded := fun _ _ hleaf hv hnested => hv.length_describeWithin_le hleaf hnested h.depth
  faithful := fun hv => hv.describeWithin_eq h.depth
  ends := by
    intro hc hin hg
    have hends := ends_of_grounded hc hin hg
    exact ⟨hends.describes, hends.writes Calendar.usualPattern⟩

/-- The bound is met: of nine items the eight that are shown have 25 characters each. -/
example : descriptionBound "-2147483648..<-2147483648".length 1 = 8 * (25 + 2) + 5 ∧
    describe { lists := #[List.replicate 9 (.range ⟨-2147483648, -2147483648, false⟩)] }
      (.list ⟨0⟩) = Text.bracketed (List.replicate 8 "-2147483648..<-2147483648" ++ ["..."]) := by
  decide +kernel

end Heap

end TemplateExpr
