-- How values compare. Two values have one comparison, whatever operator asks for it, and
-- all six operators read their answers off it. It is turned round when the values change
-- places, so whatever ties the operators together is a law about comparisons.
import TemplateExpr.Proofs.Calendar.Moment
import TemplateExpr.Proofs.Heap.Nesting
import TemplateExpr.Proofs.Operation.Likeness
import TemplateExpr.Proofs.Operation.Outcome
import TemplateExpr.Proofs.Text.Units
import TemplateExpr.Value.Equality

namespace TemplateExpr

/-! ## Orders of numbers -/

theorem Binary.compare?_swap {f : Binary.Format} (x y : Binary f) :
    (x.compare? y).map Ordering.swap = y.compare? x := by
  cases x with
  | nan => cases y <;> rfl
  | infinite a =>
    cases y with
    | nan => rfl
    | infinite b => cases a <;> cases b <;> rfl
    | finite b => cases a <;> rfl
  | finite a m e =>
    cases y with
    | nan => rfl
    | infinite b => cases b <;> rfl
    | finite b n g => simp only [compare?, Option.map_some, Int.compare_swap, Int.min_comm]

/-! ## Comparisons -/

/-- The operator that asks the same of its operands the other way round. -/
def BinaryOp.mirrored : BinaryOp → BinaryOp
  | greater => less
  | less => greater
  | greaterEqual => lessEqual
  | lessEqual => greaterEqual
  | op => op

theorem BinaryOp.comparison_cases {op : BinaryOp} (hop : op.isComparison = true) :
    op = equal ∨ op = notEqual ∨ op = greater ∨ op = less ∨ op = greaterEqual ∨
      op = lessEqual := by
  cases op <;> simp_all [isComparison]

/-- What a comparison of two integers comes to. -/
def BinaryOp.relates (op : BinaryOp) (x y : Int) : Bool :=
  match op with
  | equal => x = y
  | notEqual => x ≠ y
  | greater => x > y
  | less => x < y
  | greaterEqual => x ≥ y
  | lessEqual => x ≤ y
  | _ => false

/-- What two values are to each other. -/
inductive Comparison where
  /-- They are not compared. -/
  | refused
  /-- They are equal or not, and neither comes first. -/
  | equality (same : Bool)
  /-- They have an order, except that one of them may be a NaN. -/
  | order (o : Option Ordering)

namespace Comparison

def swap : Comparison → Comparison
  | order o => order (o.map Ordering.swap)
  | x => x

/-- What an operator answers, if it does. -/
def answer? (op : BinaryOp) : Comparison → Option Bool
  | refused => none
  | equality same =>
    match op with
    | .equal => some same
    | .notEqual => some !same
    | _ => none
  | order o => some (op.holds o)

theorem answer?_swap {op : BinaryOp} (hop : op.isComparison = true) (x : Comparison) :
    x.swap.answer? op.mirrored = x.answer? op := by
  cases x with
  | refused => rfl
  | equality same =>
    rcases BinaryOp.comparison_cases hop with rfl | rfl | rfl | rfl | rfl | rfl <;> rfl
  | order o =>
    rcases BinaryOp.comparison_cases hop with rfl | rfl | rfl | rfl | rfl | rfl <;>
      rcases o with _ | (_ | _ | _) <;> rfl

theorem answer?_notEqual (x : Comparison) :
    x.answer? .notEqual = (x.answer? .equal).map fun b => !b := by
  cases x with
  | order o => rcases o with _ | (_ | _ | _) <;> rfl
  | _ => rfl

theorem answer?_equal (o : Ordering) :
    (order (some o)).answer? .equal = some (decide (o = .eq)) := by
  cases o <;> rfl

/-- Where there is an order, an operator says what it says of integers in that order. -/
theorem answer?_of_compare {op : BinaryOp} (hop : op.isComparison = true) (x y : Int) :
    (order (some (compare x y))).answer? op = some (op.relates x y) := by
  rw [answer?, Option.some.injEq]
  rcases Int.lt_trichotomy x y with hlt | rfl | hgt
  · rw [Int.compare_eq_lt.2 hlt]
    rcases BinaryOp.comparison_cases hop with rfl | rfl | rfl | rfl | rfl | rfl
    all_goals simp [BinaryOp.relates, hlt, hlt.le, hlt.ne, hlt.not_ge, hlt.not_gt]; rfl
  · rw [Int.compare_eq_eq.2 rfl]
    rcases BinaryOp.comparison_cases hop with rfl | rfl | rfl | rfl | rfl | rfl
    all_goals simp [BinaryOp.relates]; rfl
  · rw [Int.compare_eq_gt.2 hgt]
    rcases BinaryOp.comparison_cases hop with rfl | rfl | rfl | rfl | rfl | rfl
    all_goals simp [BinaryOp.relates, hgt, hgt.le, hgt.ne', hgt.not_ge, hgt.not_gt]; rfl

end Comparison

/-! ## Values -/

namespace Value

/-- Two values of one kind on the ladder. -/
def comparison : Value → Value → Comparison
  | double a, double b => .order (a.compare? b)
  | float a, float b => .order (a.compare? b)
  | long a, long b => .order (some (compare a.toInt b.toInt))
  | int a, int b => .order (some (compare a.toInt b.toInt))
  | bool a, bool b => .equality (a == b)
  | _, _ => .refused

/-- Two values off the ladder. -/
def dates : Value → Value → Comparison
  | date a, date b => .order (some (compare a.nanos b.nanos))
  | _, _ => .refused

/-- Two values brought to the kind at which they meet. -/
def meeting (l r : Value) : Comparison :=
  match Kind.target? l.kind r.kind with
  | none => dates l r
  | some target =>
    match l.convert? target, r.convert? target with
    | some a, some b => a.comparison b
    | _, _ => .refused

theorem comparison_swap (v w : Value) : (v.comparison w).swap = w.comparison v := by
  cases v with
  | double a =>
    cases w with
    | double b => exact congrArg Comparison.order (a.compare?_swap b)
    | _ => rfl
  | float a =>
    cases w with
    | float b => exact congrArg Comparison.order (a.compare?_swap b)
    | _ => rfl
  | long a =>
    cases w with
    | long b => exact congrArg (Comparison.order ∘ some) (Int.compare_swap a.toInt b.toInt)
    | _ => rfl
  | int a =>
    cases w with
    | int b => exact congrArg (Comparison.order ∘ some) (Int.compare_swap a.toInt b.toInt)
    | _ => rfl
  | bool a =>
    cases w with
    | bool b => exact congrArg Comparison.equality (Bool.beq_comm (a := a))
    | _ => rfl
  | _ => cases w <;> rfl

theorem dates_swap (v w : Value) : (v.dates w).swap = w.dates v := by
  cases v with
  | date a =>
    cases w with
    | date b => exact congrArg (Comparison.order ∘ some) (Int.compare_swap a.nanos b.nanos)
    | _ => rfl
  | _ => cases w <;> rfl

theorem meeting_swap (l r : Value) : (l.meeting r).swap = r.meeting l := by
  unfold meeting
  rw [Kind.target?_comm r.kind l.kind]
  cases Kind.target? l.kind r.kind with
  | none => exact dates_swap l r
  | some target =>
    cases hl : l.convert? target with
    | none => cases hr : r.convert? target <;> simp [hl, hr, Comparison.swap]
    | some a =>
      cases hr : r.convert? target with
      | none => simp [hl, hr, Comparison.swap]
      | some b => simpa [hl, hr] using comparison_swap a b

theorem eq_null_of_isNull {v : Value} (h : v.isNull = true) : v = .null := by
  cases v with
  | null => rfl
  | _ => cases h

/-- Null has no order with anything. -/
theorem meeting_of_null {l r : Value} (h : (l.isNull || r.isNull) = true) :
    l.meeting r = .refused := by
  unfold meeting
  cases htarget : Kind.target? l.kind r.kind with
  | none =>
    rcases Bool.or_eq_true_iff.1 h with hl | hr
    · rw [eq_null_of_isNull hl]
      rfl
    · rw [eq_null_of_isNull hr]
      cases l <;> rfl
  | some target =>
    have hnull : Value.null.convert? target = none :=
      convert?_off_ladder (List.mem_of_find?_eq_some htarget) rfl (by simp [kind])
    rcases Bool.or_eq_true_iff.1 h with hl | hr
    · simp [eq_null_of_isNull hl, hnull]
    · simp [eq_null_of_isNull hr, hnull]

end Value

/-- How two values compare, with texts after a pattern for dates. -/
def Heap.comparison (h : Heap) (pattern : String) (l r : Value) : Comparison :=
  if l.isString || r.isString then
    .order (some (Text.ordinal (h.text pattern l) (h.text pattern r)))
  else if l.isNull || r.isNull then .equality (l.isNull && r.isNull)
  else l.meeting r

theorem Heap.comparison_swap (h : Heap) (pattern : String) (l r : Value) :
    (h.comparison pattern l r).swap = h.comparison pattern r l := by
  unfold comparison
  rw [Bool.or_comm r.isString, Bool.or_comm r.isNull, Bool.and_comm r.isNull]
  split
  · exact congrArg (Comparison.order ∘ some) (Text.ordinal_swap _ _)
  · split
    · rfl
    · exact l.meeting_swap r

namespace Operation

/-! ## Results -/

/-- The result is this truth value, or an error where there is none. -/
def Tells (result : Except RuntimeError Outcome) : Option Bool → Prop
  | some b => result = .ok (.value (.bool b))
  | none => ∃ err, result = .error err

section

variable (o : Operation) (h : Heap)

theorem onStrings_of_isComparison (c : Coercions) (l r : Value) (hop : o.op.isComparison = true) :
    o.onStrings c l r =
      .ok (.bool (o.op.holds (some (Text.ordinal (c.text o.span l) (c.text o.span r))))) := by
  unfold onStrings
  split
  · simp_all [BinaryOp.isComparison]
  · simp_all [BinaryOp.isComparison]
  · rw [if_pos hop]

theorem onDoubles_of_isComparison (a b : Double) (hop : o.op.isComparison = true) :
    o.onDoubles a b = .ok (.bool (o.op.holds (a.compare? b))) := by
  unfold onDoubles
  split
  case h_7 => exact if_pos hop
  all_goals
    rename_i hcase
    rw [hcase] at hop
    cases hop

theorem onFloats_of_isComparison (a b : Single) (hop : o.op.isComparison = true) :
    o.onFloats a b = .ok (.bool (o.op.holds (a.compare? b))) := by
  unfold onFloats
  split
  case h_7 => exact if_pos hop
  all_goals
    rename_i hcase
    rw [hcase] at hop
    cases hop

theorem onLongs_of_isComparison (a b : Int64) (hop : o.op.isComparison = true) :
    o.onLongs a b = .ok (.bool (o.op.holds (some (compare a.toInt b.toInt)))) := by
  unfold onLongs
  split
  case h_7 => exact if_pos hop
  all_goals
    rename_i hcase
    rw [hcase] at hop
    cases hop

theorem onInts_of_isComparison (a b : Int32) (hop : o.op.isComparison = true) :
    o.onInts a b = .ok (.bool (o.op.holds (some (compare a.toInt b.toInt)))) := by
  unfold onInts runInts
  split
  case h_9 => exact if_pos hop
  all_goals
    rename_i hcase
    rw [hcase] at hop
    cases hop

theorem onDates_of_isComparison (a b : Calendar.Moment) (hop : o.op.isComparison = true) :
    o.onDates a b = .ok (.bool (o.op.holds (some (compare a.nanos b.nanos)))) := by
  unfold onDates
  split
  case h_2 => exact if_pos hop
  all_goals
    rename_i hcase
    rw [hcase] at hop
    cases hop

theorem tells_of_eq {x : Except RuntimeError Value} {b : Bool} (hx : x = .ok (.bool b)) :
    Tells (x.map .value) (some b) := by
  rw [hx]
  rfl

/-- Whatever handler two operands go to, it compares them as they compare. -/
theorem onPromoted_tells (l r a b : Value) (hop : o.op.isComparison = true) :
    Tells ((o.onPromoted h l r a b).map .value) ((a.comparison b).answer? o.op) := by
  cases a with
  | double a =>
    cases b with
    | double b => exact tells_of_eq (o.onDoubles_of_isComparison a b hop)
    | _ => exact ⟨_, rfl⟩
  | float a =>
    cases b with
    | float b => exact tells_of_eq (o.onFloats_of_isComparison a b hop)
    | _ => exact ⟨_, rfl⟩
  | long a =>
    cases b with
    | long b => exact tells_of_eq (o.onLongs_of_isComparison a b hop)
    | _ => exact ⟨_, rfl⟩
  | int a =>
    cases b with
    | int b => exact tells_of_eq (o.onInts_of_isComparison a b hop)
    | _ => exact ⟨_, rfl⟩
  | bool a =>
    cases b with
    | bool b =>
      rcases BinaryOp.comparison_cases hop with hop | hop | hop | hop | hop | hop <;>
        simp [onPromoted, runOnKind, onBools, hop, Value.comparison, Comparison.answer?, Tells,
          Except.map, bne]
    | _ => exact ⟨_, rfl⟩
  | _ => exact ⟨_, rfl⟩

theorem offLadder_tells (l r : Value) (hop : o.op.isComparison = true) :
    Tells ((o.offLadder h l r).map .value) ((l.dates r).answer? o.op) := by
  cases l with
  | date a =>
    cases r with
    | date b => exact tells_of_eq (o.onDates_of_isComparison a b hop)
    | timeSpan d =>
      rcases BinaryOp.comparison_cases hop with hop | hop | hop | hop | hop | hop <;>
        exact ⟨_, by simp only [offLadder, onDateAndTimeSpan, hop]; rfl⟩
    | _ => exact ⟨_, rfl⟩
  | _ => exact ⟨_, rfl⟩

theorem promoted_tells (pattern : String) (l r : Value) (hop : o.op.isComparison = true) :
    Tells ((o.promoted (.standard h pattern) h l r).map .value) ((l.meeting r).answer? o.op) := by
  unfold Value.meeting
  cases htarget : Kind.target? l.kind r.kind with
  | none =>
    rw [o.promoted_of_none _ h htarget]
    exact o.offLadder_tells h l r hop
  | some target =>
    rw [o.promoted_of_some _ h htarget]
    simp only [bind, Except.bind]
    cases hl : l.convert? target with
    | none =>
      rw [o.promote_standard_error h pattern hl]
      exact ⟨_, rfl⟩
    | some a =>
      rw [o.promote_standard h pattern l target hl (Value.kind_of_convert? hl)]
      cases hr : r.convert? target with
      | none =>
        simp only [o.promote_standard_error h pattern hr]
        exact ⟨_, rfl⟩
      | some b =>
        simp only [o.promote_standard h pattern r target hr (Value.kind_of_convert? hr)]
        exact o.onPromoted_tells h l r a b hop

/-- Every comparison is read off how the operands compare. -/
theorem apply_tells (pattern : String) (l r : Value) (hop : o.op.isComparison = true) :
    Tells (o.apply (.standard h pattern) h l r) ((h.comparison pattern l r).answer? o.op) := by
  rw [o.apply_of_isCalculation _ h (BinaryOp.isCalculation_of_isComparison hop)]
  unfold calculate runCalculation Heap.comparison
  by_cases htext : (l.isString || r.isString) = true
  · rw [if_pos htext, if_pos htext, o.onStrings_of_isComparison _ l r hop]
    rfl
  · rw [if_neg htext, if_neg htext]
    by_cases hnull : (l.isNull || r.isNull) = true
    · rw [if_pos hnull]
      rcases BinaryOp.comparison_cases hop with hop' | hop' | hop' | hop' | hop' | hop'
      · simp [hop', hnull, Tells, Comparison.answer?, Except.map]
      · simp [hop', hnull, Tells, Comparison.answer?, Except.map]
      all_goals
        have hpromoted := o.promoted_tells h pattern l r hop
        rw [Value.meeting_of_null hnull] at hpromoted
        simpa [hop', Tells, Comparison.answer?, promoted] using hpromoted
    · rw [if_neg hnull, if_neg (by simp [hnull])]
      exact o.promoted_tells h pattern l r hop

end

/-! ## Values with an order -/

/-- Operands of which one comes first unless they are equal, if they are compared at all. -/
def Ordered (l r : Value) : Prop :=
  HasText l r ∨ (l.kind = .date ∧ r.kind = .date) ∨
    Kind.target? l.kind r.kind = some .int ∨ Kind.target? l.kind r.kind = some .long

theorem meeting_of_convert {l r a b : Value} {target : Kind}
    (htarget : Kind.target? l.kind r.kind = some target) (ha : l.convert? target = some a)
    (hb : r.convert? target = some b) : l.meeting r = a.comparison b := by
  simp only [Value.meeting, htarget, ha, hb]

theorem meeting_of_whole {l r : Value} {target : Kind} (ht : target = .int ∨ target = .long)
    (htarget : Kind.target? l.kind r.kind = some target) :
    l.meeting r = .refused ∨ ∃ o, l.meeting r = .order (some o) := by
  cases ha : l.convert? target with
  | none => exact .inl (by simp only [Value.meeting, htarget, ha])
  | some a =>
    cases hb : r.convert? target with
    | none => exact .inl (by simp only [Value.meeting, htarget, ha, hb])
    | some b =>
      rw [meeting_of_convert htarget ha hb]
      have hakind := Value.kind_of_convert? ha
      have hbkind := Value.kind_of_convert? hb
      rcases ht with rfl | rfl
      · cases a <;> cases hakind
        cases b <;> cases hbkind
        exact .inr ⟨_, rfl⟩
      · cases a <;> cases hakind
        cases b <;> cases hbkind
        exact .inr ⟨_, rfl⟩

theorem comparison_of_ordered {h : Heap} {pattern : String} {l r : Value} (hordered : Ordered l r)
    {b : Bool} (hless : (h.comparison pattern l r).answer? .less = some b) :
    ∃ o, h.comparison pattern l r = .order (some o) := by
  unfold Heap.comparison at hless ⊢
  by_cases htext : (l.isString || r.isString) = true
  · rw [if_pos htext]
    exact ⟨_, rfl⟩
  · rw [if_neg htext] at hless ⊢
    by_cases hnull : (l.isNull || r.isNull) = true
    · rw [if_pos hnull] at hless
      cases hless
    · rw [if_neg hnull] at hless ⊢
      have hwhole : ∀ target, target = .int ∨ target = .long →
          Kind.target? l.kind r.kind = some target → ∃ o, l.meeting r = .order (some o) := by
        intro target ht htarget
        rcases meeting_of_whole ht htarget with hrefused | horder
        · rw [hrefused] at hless
          cases hless
        · exact horder
      rcases hordered with hhas | ⟨hl, hr⟩ | hint | hlong
      · exact absurd ((hasText_iff l r).2 hhas) htext
      · cases l <;> cases hl
        cases r <;> cases hr
        exact ⟨_, rfl⟩
      · exact hwhole .int (.inl rfl) hint
      · exact hwhole .long (.inr rfl) hlong

/-- An int, a long or an enum stands between the booleans and the floats. -/
theorem integer_of_kind {v : Value} (hv : v.kind ∈ [.int, .long, .enum]) :
    (∃ x, v.integer? = some x) ∧ v.isString = false ∧ v.isNull = false ∧ 2 ≤ v.kind.height ∧
      v.kind.height ≤ 3 := by
  cases v with
  | int n => exact ⟨⟨_, rfl⟩, rfl, rfl, by simp [Value.kind, Kind.height]⟩
  | long n => exact ⟨⟨_, rfl⟩, rfl, rfl, by simp [Value.kind, Kind.height]⟩
  | enum member => exact ⟨⟨_, rfl⟩, rfl, rfl, by simp [Value.kind, Kind.height]⟩
  | _ => simp [Value.kind] at hv

/-- Ints, longs and enums are compared as the integers that they are. -/
theorem comparison_of_integers (h : Heap) (pattern : String) {l r : Value} {x y : Int}
    (hl : l.kind ∈ [.int, .long, .enum]) (hr : r.kind ∈ [.int, .long, .enum])
    (hx : l.integer? = some x) (hy : r.integer? = some y) :
    h.comparison pattern l r = .order (some (compare x y)) := by
  obtain ⟨_, hltext, hlnull, hl2, hl3⟩ := integer_of_kind hl
  obtain ⟨_, hrtext, hrnull, hr2, hr3⟩ := integer_of_kind hr
  have hmeeting : h.comparison pattern l r = l.meeting r := by
    simp [Heap.comparison, hltext, hrtext, hlnull, hrnull]
  rw [hmeeting]
  by_cases hboth : l.kind.height = 2 ∧ r.kind.height = 2
  · obtain ⟨m, hm, hmx⟩ := Value.convert?_int (by omega) (le_of_eq hboth.1)
    obtain ⟨n, hn, hny⟩ := Value.convert?_int (by omega) (le_of_eq hboth.2)
    have htarget : Kind.target? l.kind r.kind = some .int :=
      Kind.target?_eq_some (by decide) (by rw [hboth.1, hboth.2]; rfl)
    rw [meeting_of_convert htarget hm hn, Option.some.inj (hx.symm.trans hmx),
      Option.some.inj (hy.symm.trans hny)]
    rfl
  · obtain ⟨m, hm, hmx⟩ := Value.convert?_long (by omega) hl3
    obtain ⟨n, hn, hny⟩ := Value.convert?_long (by omega) hr3
    have htarget : Kind.target? l.kind r.kind = some .long :=
      Kind.target?_eq_some (by decide) (by simp only [Kind.height] at *; omega)
    rw [meeting_of_convert htarget hm hn, Option.some.inj (hx.symm.trans hmx),
      Option.some.inj (hy.symm.trans hny)]
    rfl

/-- On two values of one of these kinds the comparison asks for equality. -/
theorem comparison_of_kind (h : Heap) (pattern : String) {l r : Value} (hkind : l.kind = r.kind)
    (hl : l.kind ∈ [.null, .bool, .int, .long, .string, .date]) :
    (h.comparison pattern l r).answer? .equal = some (h.same l r) := by
  have hsame : h.same l r = l.sameLeaf r := by
    apply Heap.sameWithin_of_ne_list
    rintro ⟨hlist, _⟩
    rw [hlist] at hl
    simp at hl
  rw [hsame]
  cases l with
  | null =>
    cases r <;> cases hkind
    rfl
  | bool a =>
    cases r <;> cases hkind
    rename_i b
    have hcomparison : h.comparison pattern (.bool a) (.bool b) = .equality (a == b) := rfl
    simp [hcomparison, Comparison.answer?, Value.sameLeaf, Bool.beq_eq_decide_eq]
  | int a =>
    cases r <;> cases hkind
    rename_i b
    have hcomparison : h.comparison pattern (.int a) (.int b) =
      .order (some (compare a.toInt b.toInt)) := rfl
    simp [hcomparison, Comparison.answer?_equal, Value.sameLeaf, Int32.toInt_inj]
  | long a =>
    cases r <;> cases hkind
    rename_i b
    have hcomparison : h.comparison pattern (.long a) (.long b) =
      .order (some (compare a.toInt b.toInt)) := rfl
    simp [hcomparison, Comparison.answer?_equal, Value.sameLeaf, Int64.toInt_inj]
  | string s =>
    cases r <;> cases hkind
    rename_i t
    have hcomparison : h.comparison pattern (.string s) (.string t) =
        .order (some (Text.ordinal s t)) := by
      simp [Heap.comparison, Value.isString, text_string]
    simp [hcomparison, Comparison.answer?_equal, Text.ordinal_eq_iff, Value.sameLeaf]
  | date a =>
    cases r <;> cases hkind
    rename_i b
    have hcomparison : h.comparison pattern (.date a) (.date b) =
      .order (some (compare a.nanos b.nanos)) := rfl
    simp [hcomparison, Comparison.answer?_equal, Value.sameLeaf, Calendar.Moment.nanos_inj]
  | _ => simp [Value.kind] at hl

/-! ## The law -/

/-- What ties together the answers of the operators to two values, and to the two values in the
other order. -/
structure Coherent (h : Heap) (l r : Value)
    (result swapped : BinaryOp → Except RuntimeError Outcome) : Prop where
  mirrored : ∀ op : BinaryOp, op.isComparison = true →
    ∃ answer, Tells (result op) answer ∧ Tells (swapped op.mirrored) answer
  opposite : ∃ answer, Tells (result .equal) answer ∧
    Tells (result .notEqual) (answer.map fun b => !b)
  /-- One and only one of three answers is true, and the other two operators follow from them. -/
  trichotomy : (∃ outcome, result .less = .ok outcome) → Ordered l r →
    ∃ lt eq gt, Tells (result .less) (some lt) ∧ Tells (result .equal) (some eq) ∧
      Tells (result .greater) (some gt) ∧ [lt, eq, gt].count true = 1 ∧
      Tells (result .lessEqual) (some (lt || eq)) ∧
      Tells (result .greaterEqual) (some (gt || eq))
  integers : l.kind ∈ [.int, .long, .enum] → r.kind ∈ [.int, .long, .enum] →
    ∃ x y, l.integer? = some x ∧ r.integer? = some y ∧
      ∀ op : BinaryOp, op.isComparison = true → Tells (result op) (some (op.relates x y))
  /-- The equality that expressions ask for is that of values. -/
  same : l.kind = r.kind → l.kind ∈ [.null, .bool, .int, .long, .string, .date] →
    Tells (result .equal) (some (h.same l r))

/-- The six comparisons of two values never contradict each other, whatever operands they stand
between. -/
theorem comparisons_are_coherent (h : Heap) (pattern : String) (l r : Value) (x y x' y' : Expr) :
    Coherent h l r (fun op => apply ⟨op, x, y⟩ (.standard h pattern) h l r)
      (fun op => apply ⟨op, x', y'⟩ (.standard h pattern) h r l) := by
  have htells : ∀ op : BinaryOp, op.isComparison = true →
      Tells (apply ⟨op, x, y⟩ (.standard h pattern) h l r)
        ((h.comparison pattern l r).answer? op) :=
    fun op hop => apply_tells ⟨op, x, y⟩ h pattern l r hop
  refine ⟨?_, ?_, ?_, ?_, ?_⟩
  · intro op hop
    have hmirrored : op.mirrored.isComparison = true := by
      rcases BinaryOp.comparison_cases hop with rfl | rfl | rfl | rfl | rfl | rfl <;> rfl
    have hswapped := apply_tells ⟨op.mirrored, x', y'⟩ h pattern r l hmirrored
    rw [← h.comparison_swap pattern l r, Comparison.answer?_swap hop] at hswapped
    exact ⟨_, htells op hop, hswapped⟩
  · refine ⟨_, htells .equal rfl, ?_⟩
    rw [← Comparison.answer?_notEqual]
    exact htells .notEqual rfl
  · rintro ⟨outcome, hless⟩ hordered
    have hsome : ∃ b, (h.comparison pattern l r).answer? .less = some b := by
      have hanswer := htells .less rfl
      cases hcase : (h.comparison pattern l r).answer? .less with
      | some b => exact ⟨b, rfl⟩
      | none =>
        rw [hcase, hless] at hanswer
        obtain ⟨err, herr⟩ := hanswer
        cases herr
    obtain ⟨b, hb⟩ := hsome
    obtain ⟨o, ho⟩ := comparison_of_ordered hordered hb
    simp only [ho, Comparison.answer?] at htells
    refine ⟨_, _, _, htells .less rfl, htells .equal rfl, htells .greater rfl, ?_, ?_, ?_⟩
    · cases o <;> rfl
    · have hle := htells .lessEqual rfl
      cases o <;> exact hle
    · have hge := htells .greaterEqual rfl
      cases o <;> exact hge
  · intro hl hr
    obtain ⟨⟨m, hm⟩, _⟩ := integer_of_kind hl
    obtain ⟨⟨n, hn⟩, _⟩ := integer_of_kind hr
    refine ⟨m, n, hm, hn, ?_⟩
    intro op hop
    rw [← Comparison.answer?_of_compare hop, ← comparison_of_integers h pattern hl hr hm hn]
    exact htells op hop
  · intro hkind hl
    rw [← comparison_of_kind h pattern hkind hl]
    exact htells .equal rfl

end Operation

end TemplateExpr
