-- Arithmetic on operands that are integers: ints, longs, enums, and booleans beside one of
-- these. They meet as longs if one of them is a long and as ints otherwise, and what comes
-- out is the exact number, wrapped around, of the kind at which they meet.
import TemplateExpr.Proofs.Operation.Outcome

namespace TemplateExpr

/-! ## Exact numbers -/

namespace BinaryOp

/-- Sums, differences, products and the two parts of a division. -/
def isWhole : BinaryOp → Bool
  | add | subtract | multiply | quotient | remainder => true
  | _ => false

def isDivision : BinaryOp → Bool
  | quotient | remainder => true
  | _ => false

/-- The exact whole number that an operator makes of two. Quotients are cut off towards zero, and
divisions by zero have no result. -/
def whole? (op : BinaryOp) (x y : Int) : Option Int :=
  match op with
  | add => some (x + y)
  | subtract => some (x - y)
  | multiply => some (x * y)
  | quotient => if y = 0 then none else some (x.tdiv y)
  | remainder => if y = 0 then none else some (x.tmod y)
  | _ => none

theorem isCalculation_of_isWhole {op : BinaryOp} (h : op.isWhole = true) :
    op.isCalculation = true := by
  cases op <;> first | rfl | cases h

theorem isWhole_of_isDivision {op : BinaryOp} (h : op.isDivision = true) : op.isWhole = true := by
  cases op <;> first | rfl | cases h

theorem isWhole_of_whole? {op : BinaryOp} {x y z : Int} (h : op.whole? x y = some z) :
    op.isWhole = true := by
  cases op <;> first | rfl | cases h

/-- Only divisions by zero have no number. -/
theorem zero_of_whole?_eq_none {op : BinaryOp} {x y : Int} (hop : op.isDivision = true)
    (hnone : op.whole? x y = none) : y = 0 := by
  cases op <;> simp_all [whole?, isDivision]

end BinaryOp

/-! ## Integers of a kind -/

namespace Kind

/-- The kind at which two integers meet. -/
def common (k l : Kind) : Kind := if k = long ∨ l = long then long else int

/-- The range of a kind of integers. -/
def Fits (kind : Kind) (z : Int) : Prop := kind.least ≤ z ∧ z < -kind.least

theorem common_cases (k l : Kind) : common k l = int ∨ common k l = long := by
  unfold common
  split
  · exact .inr rfl
  · exact .inl rfl

@[simp] theorem common_ne_bool (k l : Kind) : common k l ≠ bool := by
  rcases common_cases k l with h | h <;> rw [h] <;> nofun

@[simp] theorem common_common (k l : Kind) : common (common k l) l = common k l := by
  simp only [common]
  split <;> simp_all

@[simp] theorem common_self (k l : Kind) : common (common k l) (common k l) = common k l := by
  rcases common_cases k l with h | h <;> rw [h] <;> rfl

end Kind

namespace Value

/-- The integer of a kind for a whole number, wrapped around if it does not fit. -/
def ofWhole (kind : Kind) (z : Int) : Value :=
  match kind with
  | .int => .int (Int32.ofInt z)
  | _ => .long (Int64.ofInt z)

variable {v l r : Value} {kind : Kind} {x y z : Int}

/-- The value is of the kind and has this whole number. -/
def IsWhole (kind : Kind) (z : Int) (v : Value) : Prop := v.kind = kind ∧ v.integer? = some z

theorem isWhole_ofWhole (hkind : kind = .int ∨ kind = .long) (hz : kind.Fits z) :
    (ofWhole kind z).IsWhole kind z := by
  obtain ⟨hle, hlt⟩ := hz
  rcases hkind with rfl | rfl
  · exact ⟨rfl, congrArg some (Int32.toInt_ofInt_of_le hle hlt)⟩
  · exact ⟨rfl, congrArg some (Int64.toInt_ofInt_of_le hle hlt)⟩

/-- Two integers meet at their common kind, booleans apart. -/
theorem meetAt_common (hx : l.integer? = some x) (hy : r.integer? = some y)
    (hnot : l.kind ≠ .bool ∨ r.kind ≠ .bool) :
    Operation.MeetAt (Kind.common l.kind r.kind) l r := by
  unfold Operation.MeetAt
  cases l with
  | bool | int | long | enum =>
    cases r with
    | bool | int | long | enum =>
      simp_all [kind, Kind.common, Kind.ladder, Kind.height]
    | _ => cases hy
  | _ => cases hx

/-- A number fits wherever a value that has it meets another integer. -/
theorem fits_common (hx : l.integer? = some x) (k : Kind) : (Kind.common l.kind k).Fits x := by
  unfold Kind.Fits Kind.common
  cases l with
  | bool b =>
    cases hx
    split <;> cases b <;> simp [Kind.least]
  | int n =>
    cases hx
    have hle := n.le_toInt
    have hlt := n.toInt_lt
    split <;> simp only [Kind.least] <;> omega
  | long n =>
    cases hx
    simpa [kind, Kind.least] using And.intro n.le_toInt n.toInt_lt
  | enum member =>
    cases hx
    have hle := member.value.le_toInt
    have hlt := member.value.toInt_lt
    split <;> simp only [Kind.least] <;> omega
  | _ => cases hx

theorem height_of_integer (hx : v.integer? = some x) :
    0 < v.kind.height ∧ v.kind.height ≤ 3 ∧ v.kind ≠ .string ∧ v.kind ≠ .null := by
  cases v with
  | bool | int | long | enum => simp [kind, Kind.height]
  | _ => cases hx

end Value

/-! ## What operators make of integers -/

namespace Operation

variable (o : Operation)

/-- What an operator gives for two integers that meet at a kind: the exact number, wrapped around,
unless there is no such number or it is the one quotient that does not fit. -/
def wholeResult (kind : Kind) (x y : Int) : Except RuntimeError Value :=
  match o.op.whole? x y with
  | none => .error o.divisionByZero
  | some z =>
    if o.op.isDivision = true ∧ x = kind.least ∧ y = -1 then .error o.overflow
    else .ok (.ofWhole kind z)

variable {o}

theorem wholeResult_of_whole? {kind : Kind} {x y z : Int} (hz : o.op.whole? x y = some z)
    (hfits : ¬ (o.op.isDivision = true ∧ x = kind.least ∧ y = -1)) :
    o.wholeResult kind x y = .ok (.ofWhole kind z) := by
  simp only [wholeResult, hz, if_neg hfits]

theorem wholeResult_by_zero (hop : o.op.isDivision = true) (kind : Kind) (x : Int) :
    o.wholeResult kind x 0 = .error o.divisionByZero := by
  cases hcase : o.op <;> simp_all [wholeResult, BinaryOp.whole?, BinaryOp.isDivision]

theorem wholeResult_overflow (hop : o.op.isDivision = true) (kind : Kind) :
    o.wholeResult kind kind.least (-1) = .error o.overflow := by
  cases hcase : o.op <;> simp_all [wholeResult, BinaryOp.whole?, BinaryOp.isDivision]

/-- A division is what it should be if its two checks and its answer are. -/
theorem divided_eq_wholeResult {kind : Kind} {x y z : Int} {byZero overflows : Bool}
    (hop : o.op.isDivision = true) (hwhole : o.op.whole? x y = if y = 0 then none else some z)
    (hzero : byZero = true ↔ y = 0) (hover : overflows = true ↔ x = kind.least ∧ y = -1) :
    o.divided byZero overflows (.ofWhole kind z) = o.wholeResult kind x y := by
  unfold divided wholeResult
  by_cases hy : y = 0
  · rw [if_pos (hzero.2 hy), hwhole, if_pos hy]
  · rw [if_neg (mt hzero.1 hy), hwhole, if_neg hy]
    simp only [hop, true_and, hover]

variable (o)

theorem onInts_eq_wholeResult (hop : o.op.isWhole = true) (a b : Int32) :
    o.onInts a b = o.wholeResult .int a.toInt b.toInt := by
  cases hcase : o.op with
  | add | subtract | multiply =>
    simp [onInts, runInts, wholeResult, hcase, BinaryOp.whole?, BinaryOp.isDivision, Value.ofWhole]
  | quotient =>
    have hquotient : Int32.ofInt (a.toInt.tdiv b.toInt) = a / b := by
      rw [← Int32.toInt_inj, Int32.toInt_div]
      exact Int32.toInt_ofInt
    simp only [onInts, runInts, hcase, ← hquotient, Reported.result_silent]
    exact divided_eq_wholeResult (by rw [hcase]; rfl) (by rw [hcase]; rfl) (isZero_int b)
      (overflows_int a b)
  | remainder =>
    have hremainder : Int32.ofInt (a.toInt.tmod b.toInt) = a % b := by
      rw [← Int32.toInt_mod, Int32.ofInt_toInt]
    simp only [onInts, runInts, hcase, ← hremainder, Reported.result_silent]
    exact divided_eq_wholeResult (by rw [hcase]; rfl) (by rw [hcase]; rfl) (isZero_int b)
      (overflows_int a b)
  | _ =>
    rw [hcase] at hop
    cases hop

theorem onLongs_eq_wholeResult (hop : o.op.isWhole = true) (a b : Int64) :
    o.onLongs a b = o.wholeResult .long a.toInt b.toInt := by
  cases hcase : o.op with
  | add | subtract | multiply =>
    simp [onLongs, wholeResult, hcase, BinaryOp.whole?, BinaryOp.isDivision, Value.ofWhole]
  | quotient =>
    have hquotient : Int64.ofInt (a.toInt.tdiv b.toInt) = a / b := by
      rw [← Int64.toInt_inj, Int64.toInt_div]
      exact Int64.toInt_ofInt
    simp only [onLongs, hcase, ← hquotient]
    exact divided_eq_wholeResult (by rw [hcase]; rfl) (by rw [hcase]; rfl) (isZero_long b)
      (overflows_long a b)
  | remainder =>
    have hremainder : Int64.ofInt (a.toInt.tmod b.toInt) = a % b := by
      rw [← Int64.toInt_mod, Int64.ofInt_toInt]
    simp only [onLongs, hcase, ← hremainder]
    exact divided_eq_wholeResult (by rw [hcase]; rfl) (by rw [hcase]; rfl) (isZero_long b)
      (overflows_long a b)
  | _ =>
    rw [hcase] at hop
    cases hop

/-- Integers have the result of their numbers at the kind at which they meet. -/
theorem apply_integers (hop : o.op.isWhole = true) (h : Heap) (pattern : String) {l r : Value}
    {x y : Int} (hx : l.integer? = some x) (hy : r.integer? = some y)
    (hnot : l.kind ≠ .bool ∨ r.kind ≠ .bool) :
    o.apply (.standard h pattern) h l r =
      (o.wholeResult (Kind.common l.kind r.kind) x y).map .value := by
  obtain ⟨hl, _, hltext, hlnull⟩ := Value.height_of_integer hx
  obtain ⟨hr, _, hrtext, hrnull⟩ := Value.height_of_integer hy
  have hcalculation := BinaryOp.isCalculation_of_isWhole hop
  have hcomputes : o.Computes l r := by
    refine ⟨hcalculation, ?_, ?_⟩
    · simp [HasText, hltext, hrtext]
    · simp [AsksForNull, hlnull, hrnull]
  have hmeet := Value.meetAt_common hx hy hnot
  obtain ⟨hlle, hrle⟩ := hmeet.height_le
  rw [o.apply_of_isCalculation _ h hcalculation, o.calculate_of_computes _ h hcomputes]
  rcases Kind.common_cases l.kind r.kind with hcommon | hcommon
  · rw [hcommon] at hmeet hlle hrle ⊢
    obtain ⟨a, ha, hax⟩ := Value.convert?_int hl hlle
    obtain ⟨b, hb, hby⟩ := Value.convert?_int hr hrle
    rw [o.promoted_of_target h pattern hmeet ha rfl hb rfl, o.onPromoted_int,
      o.onInts_eq_wholeResult hop, Option.some.inj (hx.symm.trans hax),
      Option.some.inj (hy.symm.trans hby)]
  · rw [hcommon] at hmeet hlle hrle ⊢
    obtain ⟨a, ha, hax⟩ := Value.convert?_long hl hlle
    obtain ⟨b, hb, hby⟩ := Value.convert?_long hr hrle
    rw [o.promoted_of_target h pattern hmeet ha rfl hb rfl, o.onPromoted_long,
      o.onLongs_eq_wholeResult hop, Option.some.inj (hx.symm.trans hax),
      Option.some.inj (hy.symm.trans hby)]

/-- Where the exact number fits, every operation with the operator gives it. -/
theorem exists_yields (op : BinaryOp) {kind : Kind} {l r : Value} {x y z : Int}
    (hz : op.whole? x y = some z) (hx : l.integer? = some x) (hy : r.integer? = some y)
    (hnot : l.kind ≠ .bool ∨ r.kind ≠ .bool) (hkind : Kind.common l.kind r.kind = kind)
    (hleast : ¬ (op.isDivision = true ∧ x = kind.least ∧ y = -1)) (hfits : kind.Fits z) (h : Heap)
    (pattern : String) :
    ∃ v : Value, v.IsWhole kind z ∧ Yields (.standard h pattern) h op l r v := by
  subst hkind
  refine ⟨_, Value.isWhole_ofWhole (Kind.common_cases _ _) hfits, ?_⟩
  rintro o rfl
  rw [o.apply_integers (BinaryOp.isWhole_of_whole? hz) h pattern hx hy hnot,
    wholeResult_of_whole? hz hleast]
  rfl

end Operation

end TemplateExpr
