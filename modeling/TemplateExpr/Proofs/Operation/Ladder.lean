-- How high the kinds stand on the ladder. Two operands meet at the greater of their
-- heights; a value always converts upwards, and what stands off the ladder never
-- converts to a kind on it, texts apart.
import TemplateExpr.Operation.Promotion

namespace TemplateExpr

/-! ## Heights -/

namespace Kind

/-- How many rungs of the ladder are at or below a kind; none are for a kind off the ladder. -/
def height : Kind → Nat
  | bool => 1
  | int | enum => 2
  | long => 3
  | float => 4
  | double => 5
  | _ => 0

theorem rung_eq_iff {target : Kind} (ht : target ∈ ladder) (k : Kind) :
    k.rung = target ↔ k.height = target.height := by
  simp only [ladder, List.mem_cons, List.not_mem_nil, or_false] at ht
  rcases ht with rfl | rfl | rfl | rfl | rfl <;> cases k <;> simp [rung, height]

/-- The rungs above a rung are the higher ones. -/
theorem ladder_split {target : Kind} (ht : target ∈ ladder) :
    ∃ above below, ladder = above ++ target :: below ∧ ∀ k ∈ above, target.height < k.height := by
  simp only [ladder, List.mem_cons, List.not_mem_nil, or_false] at ht
  rcases ht with rfl | rfl | rfl | rfl | rfl
  · exact ⟨[], [float, long, int, bool], rfl, by simp⟩
  · exact ⟨[double], [long, int, bool], rfl, by simp [height]⟩
  · exact ⟨[double, float], [int, bool], rfl, by simp [height]⟩
  · exact ⟨[double, float, long], [bool], rfl, by simp [height]⟩
  · exact ⟨[double, float, long, int], [], rfl, by simp [height]⟩

/-- Two kinds of which one at least is on the ladder have a rung to meet at. -/
theorem exists_rung {left right : Kind} (hpos : 0 < max left.height right.height) :
    ∃ target ∈ ladder, target.height = max left.height right.height := by
  have hrung : ∀ k : Kind, 0 < k.height → k.rung ∈ ladder ∧ k.rung.height = k.height := by
    intro k hk
    cases k <;> simp_all [rung, ladder, height]
  rcases Nat.le_total left.height right.height with hle | hle
  · obtain ⟨hmem, hheight⟩ := hrung right (by omega)
    exact ⟨right.rung, hmem, by omega⟩
  · obtain ⟨hmem, hheight⟩ := hrung left (by omega)
    exact ⟨left.rung, hmem, by omega⟩

/-- Operands meet at the greater of their heights. -/
theorem target?_eq_some {left right target : Kind} (ht : target ∈ ladder)
    (hmax : target.height = max left.height right.height) : target? left right = some target := by
  obtain ⟨above, below, hsplit, habove⟩ := ladder_split ht
  unfold target?
  rw [List.find?_eq_some_iff_append]
  refine ⟨?_, above, below, hsplit, ?_⟩
  · simp only [rung_eq_iff ht, Bool.or_eq_true, decide_eq_true_eq]
    omega
  · intro k hk
    have hmem : k ∈ ladder := by
      rw [hsplit]
      exact List.mem_append_left _ hk
    have hlt := habove k hk
    simp only [rung_eq_iff hmem, Bool.not_eq_true', Bool.or_eq_false_iff, decide_eq_false_iff_not]
    omega

theorem height_pos {target : Kind} (ht : target ∈ ladder) : 0 < target.height := by
  simp only [ladder, List.mem_cons, List.not_mem_nil, or_false] at ht
  rcases ht with rfl | rfl | rfl | rfl | rfl <;> simp [height]

theorem target?_eq_none {left right : Kind} (hl : left.height = 0) (hr : right.height = 0) :
    target? left right = none := by
  unfold target?
  rw [List.find?_eq_none]
  intro k hk
  have hpos := height_pos hk
  simp only [rung_eq_iff hk, Bool.or_eq_true, decide_eq_true_eq]
  omega

end Kind

/-! ## Conversions -/

namespace Value

theorem convert?_kind (v : Value) : v.convert? v.kind = some v := by
  unfold convert?
  rw [if_pos rfl]

/-- A conversion gives a value of the kind that it is asked for. -/
theorem kind_of_convert? {v w : Value} {target : Kind} (h : v.convert? target = some w) :
    w.kind = target := by
  unfold convert? at h
  split at h
  · cases h
    assumption
  · cases target with
    | int | long | float | double | bool =>
      obtain ⟨x, _, rfl⟩ := Option.map_eq_some_iff.1 h
      rfl
    | _ => cases h

theorem convert?_bool {v : Value} (hv : v.kind.height = 1) :
    ∃ b, v.convert? .bool = some (.bool b) := by
  cases v with
  | bool b => exact ⟨b, rfl⟩
  | _ => simp [kind, Kind.height] at hv

/-- Whatever stands no higher than the ints has the same whole number as an int. -/
theorem convert?_int {v : Value} (hpos : 0 < v.kind.height) (hle : v.kind.height ≤ 2) :
    ∃ n, v.convert? .int = some (.int n) ∧ v.integer? = some n.toInt := by
  cases v with
  | bool b => cases b <;> exact ⟨_, rfl, rfl⟩
  | int n => exact ⟨n, rfl, rfl⟩
  | enum member =>
    refine ⟨member.value, ?_, rfl⟩
    simp [convert?, kind, toInt32?, word?, integer?, int32?_toInt]
  | _ => simp [kind, Kind.height] at hpos hle

theorem int64?_toInt_int (n : Int32) : int64? n.toInt = some n.toInt64 := by
  rw [← Int32.toInt_toInt64, int64?_toInt]

/-- Whatever stands no higher than the longs has the same whole number as a long. -/
theorem convert?_long {v : Value} (hpos : 0 < v.kind.height) (hle : v.kind.height ≤ 3) :
    ∃ n, v.convert? .long = some (.long n) ∧ v.integer? = some n.toInt := by
  cases v with
  | bool b => cases b <;> exact ⟨_, rfl, rfl⟩
  | int n =>
    refine ⟨n.toInt64, ?_, by rw [integer?, Int32.toInt_toInt64]⟩
    simp [convert?, kind, toInt64?, word?, integer?, int64?_toInt_int]
  | long n => exact ⟨n, rfl, rfl⟩
  | enum member =>
    refine ⟨member.value.toInt64, ?_, by rw [integer?, Int32.toInt_toInt64]⟩
    simp [convert?, kind, toInt64?, word?, integer?, int64?_toInt_int]
  | _ => simp [kind, Kind.height] at hpos hle

theorem convert?_float {v : Value} (hpos : 0 < v.kind.height) (hle : v.kind.height ≤ 4) :
    ∃ x, v.convert? .float = some (.float x) := by
  cases v with
  | bool | int | long | float | enum => exact ⟨_, rfl⟩
  | _ => simp [kind, Kind.height] at hpos hle

theorem convert?_double {v : Value} (hpos : 0 < v.kind.height) :
    ∃ x, v.convert? .double = some (.double x) := by
  cases v with
  | bool | int | long | float | double | enum => exact ⟨_, rfl⟩
  | _ => simp [kind, Kind.height] at hpos

/-- A value on the ladder converts to every rung that is not below its own. -/
theorem convert?_up {v : Value} {target : Kind} (ht : target ∈ Kind.ladder)
    (hpos : 0 < v.kind.height) (hle : v.kind.height ≤ target.height) :
    ∃ w, v.convert? target = some w ∧ w.kind = target := by
  simp only [Kind.ladder, List.mem_cons, List.not_mem_nil, or_false] at ht
  rcases ht with rfl | rfl | rfl | rfl | rfl
  · obtain ⟨x, hx⟩ := convert?_double hpos
    exact ⟨.double x, hx, rfl⟩
  · obtain ⟨x, hx⟩ := convert?_float hpos hle
    exact ⟨.float x, hx, rfl⟩
  · obtain ⟨n, hn, _⟩ := convert?_long hpos hle
    exact ⟨.long n, hn, rfl⟩
  · obtain ⟨n, hn, _⟩ := convert?_int hpos hle
    exact ⟨.int n, hn, rfl⟩
  · obtain ⟨b, hb⟩ := convert?_bool (Nat.le_antisymm hle hpos)
    exact ⟨.bool b, hb, rfl⟩

/-- Nothing off the ladder converts to a kind on it, except texts. -/
theorem convert?_off_ladder {v : Value} {target : Kind} (ht : target ∈ Kind.ladder)
    (hv : v.kind.height = 0) (htext : v.kind ≠ .string) : v.convert? target = none := by
  simp only [Kind.ladder, List.mem_cons, List.not_mem_nil, or_false] at ht
  cases v with
  | bool | int | long | float | double | enum => simp [kind, Kind.height] at hv
  | string => simp [kind] at htext
  | _ => rcases ht with rfl | rfl | rfl | rfl | rfl <;> rfl

end Value

namespace Operation

/-- A standard host brings an operand to a kind exactly if the operand converts to it. -/
theorem promote_standard (o : Operation) (h : Heap) (pattern : String) (v : Value) (target : Kind)
    {w : Value} (hw : v.convert? target = some w) (hkind : w.kind = target) :
    o.promote (.standard h pattern) h v target = .ok w := by
  unfold promote
  by_cases heq : v.kind = target
  · subst heq
    rw [Value.convert?_kind] at hw
    rw [if_pos rfl, Option.some.inj hw]
  · have hconvert : h.convert o.span v target = .ok w := by
      rw [Heap.convert, hw]
    simp [heq, Coercions.standard, hconvert, hkind, bind, Except.bind]

theorem promote_standard_error (o : Operation) (h : Heap) (pattern : String) {v : Value}
    {target : Kind} (hnone : v.convert? target = none) :
    o.promote (.standard h pattern) h v target = .error (h.conversionFailure v target o.span) := by
  unfold promote
  have hne : v.kind ≠ target := by
    rintro rfl
    rw [Value.convert?_kind] at hnone
    cases hnone
  have hconvert : h.convert o.span v target = .error (h.conversionFailure v target o.span) := by
    rw [Heap.convert, hnone]
  simp [hne, Coercions.standard, hconvert, bind, Except.bind]

end Operation

end TemplateExpr
