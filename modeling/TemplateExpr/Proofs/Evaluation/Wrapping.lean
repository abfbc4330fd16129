-- Integers wrap around. An expression of integers of one kind, joined by signs, sums,
-- differences and products, never fails, and its value is what it would be if integers had
-- no bounds, up to a multiple of two to their width: every node keeps this, however often
-- the values below it have wrapped.
import Mathlib.Data.Int.ModEq
import TemplateExpr.Proofs.Operation.Hosts

namespace TemplateExpr

/-! ## Expressions of integers -/

/-- Sums, differences and products without bounds. -/
def BinaryOp.exact (op : BinaryOp) (x y : Int) : Int :=
  match op with
  | add => x + y
  | subtract => x - y
  | multiply => x * y
  | _ => 0

namespace Expr

/-- What an expression would come to if integers had no bounds. -/
def exact (values : Bindings Value) : Expr → Int
  | literal value _ => value.value.integer?.getD 0
  | named name _ => ((values.find? name).bind Value.integer?).getD 0
  | unary _ e _ => -e.exact values
  | binary op l r => op.exact (l.exact values) (r.exact values)
  | call .. | list .. => 0

/-- Literals and variables of one kind, joined by signs, sums, differences and products. -/
inductive Integral (values : Bindings Value) (kind : Kind) : Expr → Prop
  | literal {value : Literal} {span : Span} (hkind : value.value.kind = kind) :
    Integral values kind (literal value span)
  | named {name : String} {span : Span} {v : Value} (hfind : values.find? name = some v)
    (hkind : v.kind = kind) : Integral values kind (named name span)
  | negate {e : Expr} {span : Span} (he : Integral values kind e) :
    Integral values kind (unary .negate e span)
  | binary {op : BinaryOp} {l r : Expr} (hop : op = .add ∨ op = .subtract ∨ op = .multiply)
    (hl : Integral values kind l) (hr : Integral values kind r) :
    Integral values kind (binary op l r)

end Expr

/-! ## Sums, differences and products that wrap -/

section

variable {m x y x' y' : Int} {op : BinaryOp}

theorem bmod_modEq (x : Int) (m : Nat) : x.bmod m ≡ x [ZMOD m] := Int.bmod_emod

theorem BinaryOp.exact_modEq (hx : x ≡ x' [ZMOD m]) (hy : y ≡ y' [ZMOD m]) :
    op.exact x y ≡ op.exact x' y' [ZMOD m] := by
  cases op with
  | add => exact hx.add hy
  | subtract => exact hx.sub hy
  | multiply => exact hx.mul hy
  | _ => exact Int.ModEq.rfl

end

namespace Operation

variable (o : Operation) (c : Coercions) (h : Heap)

/-- Operands of one kind on the ladder go to its handler as they are, whatever the host says. -/
theorem apply_of_kind (l r : Value) {target : Kind} (hop : o.op.isCalculation = true)
    (ht : target ∈ Kind.ladder) (hl : l.kind = target) (hr : r.kind = target) :
    o.apply c h l r = (o.onPromoted h l r l r).map .value := by
  have htarget : Kind.target? l.kind r.kind = some target :=
    Kind.target?_eq_some ht (by rw [hl, hr, max_self])
  rw [o.apply_of_isCalculation c h hop,
    o.calculate_of_computes c h (computes_of_kind hop ht hl hr), o.promoted_of_some c h htarget]
  simp only [promote, if_pos hl, if_pos hr]
  rfl

variable {o} (hop : o.op = .add ∨ o.op = .subtract ∨ o.op = .multiply)
include hop

theorem onInts_wraps (a b : Int32) :
    ∃ n, o.onInts a b = .ok (.int n) ∧ n.toInt ≡ o.op.exact a.toInt b.toInt [ZMOD 2 ^ 32] := by
  rcases hop with hop | hop | hop
  · refine ⟨a + b, by simp only [onInts, runInts, hop, Reported.result_silent], ?_⟩
    rw [hop, Int32.toInt_add]
    exact bmod_modEq _ _
  · refine ⟨a - b, by simp only [onInts, runInts, hop, Reported.result_silent], ?_⟩
    rw [hop, Int32.toInt_sub]
    exact bmod_modEq _ _
  · refine ⟨a * b, by simp only [onInts, runInts, hop, Reported.result_silent], ?_⟩
    rw [hop, Int32.toInt_mul]
    exact bmod_modEq _ _

theorem onLongs_wraps (a b : Int64) :
    ∃ n, o.onLongs a b = .ok (.long n) ∧ n.toInt ≡ o.op.exact a.toInt b.toInt [ZMOD 2 ^ 64] := by
  rcases hop with hop | hop | hop
  · refine ⟨a + b, by simp only [onLongs, hop], ?_⟩
    rw [hop, Int64.toInt_add]
    exact bmod_modEq _ _
  · refine ⟨a - b, by simp only [onLongs, hop], ?_⟩
    rw [hop, Int64.toInt_sub]
    exact bmod_modEq _ _
  · refine ⟨a * b, by simp only [onLongs, hop], ?_⟩
    rw [hop, Int64.toInt_mul]
    exact bmod_modEq _ _

end Operation

/-! ## Integers that stand for others -/

/-- The kinds of integers, with what they are counted modulo. -/
inductive Kind.Wraps : Kind → Int → Prop
  | int : Wraps .int (2 ^ 32)
  | long : Wraps .long (2 ^ 64)

theorem Kind.Wraps.mem_ladder {kind : Kind} {modulus : Int} (h : kind.Wraps modulus) :
    kind ∈ ladder := by
  cases h <;> decide

namespace Value

/-- An integer of a kind that differs from this one by a multiple of the modulus. -/
def StandsFor (kind : Kind) (modulus : Int) (v : Value) (x : Int) : Prop :=
  v.kind = kind ∧ ∃ y, v.integer? = some y ∧ y ≡ x [ZMOD modulus]

variable {kind : Kind} {modulus : Int} {v w : Value} {x y : Int}

theorem standsFor_integer (hwraps : kind.Wraps modulus) (hkind : v.kind = kind) :
    v.StandsFor kind modulus (v.integer?.getD 0) := by
  refine ⟨hkind, ?_⟩
  cases hwraps <;> cases v <;> cases hkind <;> exact ⟨_, rfl, rfl⟩

theorem StandsFor.cases_int (h : v.StandsFor .int modulus x) :
    ∃ n, v = .int n ∧ n.toInt ≡ x [ZMOD modulus] := by
  obtain ⟨hkind, y, hy, hmod⟩ := h
  cases v <;> cases hkind
  cases hy
  exact ⟨_, rfl, hmod⟩

theorem StandsFor.cases_long (h : v.StandsFor .long modulus x) :
    ∃ n, v = .long n ∧ n.toInt ≡ x [ZMOD modulus] := by
  obtain ⟨hkind, y, hy, hmod⟩ := h
  cases v <;> cases hkind
  cases hy
  exact ⟨_, rfl, hmod⟩

/-! ## Steps -/

theorem StandsFor.negate (hwraps : kind.Wraps modulus) (hv : v.StandsFor kind modulus x)
    (e : Expr) (span : Span) :
    ∃ u, UnaryOp.negate.apply e span v = .ok u ∧ u.StandsFor kind modulus (-x) := by
  cases hwraps with
  | int =>
    obtain ⟨n, rfl, hn⟩ := hv.cases_int
    refine ⟨.int (-n), rfl, rfl, _, rfl, ?_⟩
    rw [Int32.toInt_neg]
    exact (bmod_modEq _ _).trans hn.neg
  | long =>
    obtain ⟨n, rfl, hn⟩ := hv.cases_long
    refine ⟨.long (-n), rfl, rfl, _, rfl, ?_⟩
    rw [Int64.toInt_neg]
    exact (bmod_modEq _ _).trans hn.neg

theorem StandsFor.operation (hwraps : kind.Wraps modulus) (hv : v.StandsFor kind modulus x)
    (hw : w.StandsFor kind modulus y) (o : Operation)
    (hop : o.op = .add ∨ o.op = .subtract ∨ o.op = .multiply) (c : Coercions) (h : Heap) :
    ∃ u, o.apply c h v w = .ok (.value u) ∧ u.StandsFor kind modulus (o.op.exact x y) := by
  have hcalculation : o.op.isCalculation = true := by
    rcases hop with hop | hop | hop <;> rw [hop] <;> rfl
  have happly := o.apply_of_kind c h v w hcalculation hwraps.mem_ladder hv.1 hw.1
  cases hwraps with
  | int =>
    obtain ⟨m, rfl, hm⟩ := hv.cases_int
    obtain ⟨n, rfl, hn⟩ := hw.cases_int
    obtain ⟨k, hk, hmod⟩ := Operation.onInts_wraps hop m n
    refine ⟨.int k, ?_, rfl, _, rfl, hmod.trans (BinaryOp.exact_modEq hm hn)⟩
    rw [happly, o.onPromoted_int, hk]
    rfl
  | long =>
    obtain ⟨m, rfl, hm⟩ := hv.cases_long
    obtain ⟨n, rfl, hn⟩ := hw.cases_long
    obtain ⟨k, hk, hmod⟩ := Operation.onLongs_wraps hop m n
    refine ⟨.long k, ?_, rfl, _, rfl, hmod.trans (BinaryOp.exact_modEq hm hn)⟩
    rw [happly, o.onPromoted_long, hk]
    rfl

end Value

/-! ## Runs -/

namespace Context

variable {σ : Type} (ctx : Context σ)

/-- The value of an expression of integers stands for what it would come to without bounds. -/
theorem eval_of_integral {kind : Kind} {modulus : Int} {e : Expr} (hwraps : kind.Wraps modulus)
    (he : e.Integral ctx.values kind) (w : World σ) :
    ∃ v w', (ctx.eval e).run w = (.ok v, w') ∧
      v.StandsFor kind modulus (e.exact ctx.values) := by
  -- For every world, since the right operand starts in the world that the left one leaves.
  induction he generalizing w with
  | literal hkind => exact ⟨_, w, rfl, Value.standsFor_integer hwraps hkind⟩
  | @named name span v hfind hkind =>
    refine ⟨v, w, ?_, ?_⟩
    · simp only [eval, lookup, hfind]
      rfl
    · rw [Expr.exact, hfind]
      exact Value.standsFor_integer hwraps hkind
  | @negate e span _ ih =>
    obtain ⟨v, w', hrun, hv⟩ := ih w
    obtain ⟨u, hu, hstands⟩ := hv.negate hwraps e span
    refine ⟨u, w', ?_, hstands⟩
    rw [eval, Eval.run_bind_ok hrun, hu]
    rfl
  | @binary op l r hop _ _ ihl ihr =>
    obtain ⟨a, w₁, hl, ha⟩ := ihl w
    obtain ⟨b, w₂, hr, hb⟩ := ihr w₁
    obtain ⟨u, hu, hstands⟩ := ha.operation hwraps hb ⟨op, l, r⟩ hop (ctx.coercions w₂.heap) w₂.heap
    have hrun : (ctx.eval (.binary op l r)).run w =
        (Operation.perform ⟨op, l, r⟩ ctx.coercions a b).run w₂ := by
      rw [eval, Eval.run_bind_ok hl, Eval.run_bind_ok hr]
    exact ⟨u, _, hrun.trans (Operation.run_perform_of_ok hu), hstands⟩

/-- Expressions of integers of one kind never fail, however far what is below them overflows, and
come to what they would without bounds, up to a multiple of two to the width of the kind. -/
theorem integers_wrap_around (e : Expr) (w : World σ) :
    (e.Integral ctx.values .int → ∃ n, ((ctx.eval e).run w).1 = .ok (.int n) ∧
      n.toInt ≡ e.exact ctx.values [ZMOD 2 ^ 32]) ∧
    (e.Integral ctx.values .long → ∃ n, ((ctx.eval e).run w).1 = .ok (.long n) ∧
      n.toInt ≡ e.exact ctx.values [ZMOD 2 ^ 64]) := by
  constructor
  · intro he
    obtain ⟨v, w', hrun, hv⟩ := ctx.eval_of_integral .int he w
    obtain ⟨n, rfl, hn⟩ := hv.cases_int
    exact ⟨n, by rw [hrun], hn⟩
  · intro he
    obtain ⟨v, w', hrun, hv⟩ := ctx.eval_of_integral .long he w
    obtain ⟨n, rfl, hn⟩ := hv.cases_long
    exact ⟨n, by rw [hrun], hn⟩

/-- The least int and the greatest long. -/
def extremes : Context Unit :=
  { values := ⟨[("x", .int Int32.minValue), ("y", .long Int64.maxValue)]⟩ }

/-- The expression of `-x * x - 1`. -/
def squareBelow : Expr :=
  .binary .subtract
    (.binary .multiply (.unary .negate (.named "x" default) default) (.named "x" default))
    (.literal (.int 1) default)

/-- The expression of `2L + y * y`. -/
def squareAbove : Expr :=
  .binary .add (.literal (.long 2) default)
    (.binary .multiply (.named "y" default) (.named "y" default))

/-- The least int is its own negation, and the squares of both integers do not fit either. -/
theorem the_squares_of_extremes_wrap_around :
    squareBelow.Integral extremes.values .int ∧
      squareBelow.exact extremes.values = -4611686018427387905 ∧
      (∃ n, ((extremes.eval squareBelow).run ⟨{}, (), #[]⟩).1 = .ok (.int n) ∧
        n.toInt ≡ squareBelow.exact extremes.values [ZMOD 2 ^ 32]) ∧
      squareAbove.Integral extremes.values .long ∧
      squareAbove.exact extremes.values = 85070591730234615847396907784232501251 ∧
      ∃ n, ((extremes.eval squareAbove).run ⟨{}, (), #[]⟩).1 = .ok (.long n) ∧
        n.toInt ≡ squareAbove.exact extremes.values [ZMOD 2 ^ 64] := by
  have hbelow : squareBelow.Integral extremes.values .int :=
    .binary (.inr (.inl rfl))
      (.binary (.inr (.inr rfl)) (.negate (.named rfl rfl)) (.named rfl rfl)) (.literal rfl)
  have habove : squareAbove.Integral extremes.values .long :=
    .binary (.inl rfl) (.literal rfl) (.binary (.inr (.inr rfl)) (.named rfl rfl) (.named rfl rfl))
  exact ⟨hbelow, rfl, (integers_wrap_around extremes _ _).1 hbelow, habove, rfl,
    (integers_wrap_around extremes _ _).2 habove⟩

end Context

end TemplateExpr
