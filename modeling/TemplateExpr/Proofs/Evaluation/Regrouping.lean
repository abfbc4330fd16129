-- Null coalescing and the logical operators regroup freely. Both operands are evaluated
-- whatever they are, what is made of their values is a function of the two, and none of
-- these operators fails; so only the reports of the operators tell one grouping from
-- another, and no computation reads reports.
import TemplateExpr.Proofs.Evaluation.CallOrder

namespace TemplateExpr

variable {σ α β : Type}

/-! ## Worlds but for reports -/

/-- The worlds have the same lists, the same state of the host and the same calls of host functions
so far, and differ at most in what operators have reported. -/
structure World.Same (w w' : World σ) : Prop where
  heap : w'.heap = w.heap
  state : w'.state = w.state
  calls : w'.calls = w.calls

namespace World.Same

variable {w w' w'' : World σ}

theorem refl (w : World σ) : Same w w := ⟨rfl, rfl, rfl⟩

theorem symm (h : Same w w') : Same w' w := ⟨h.heap.symm, h.state.symm, h.calls.symm⟩

theorem trans (h : Same w w') (h' : Same w' w'') : Same w w'' :=
  ⟨h'.heap.trans h.heap, h'.state.trans h.state, h'.calls.trans h.calls⟩

end World.Same

namespace Eval

/-- From worlds that are the same but for reports, the computations have the same value or the same
error, and leave worlds that are the same but for reports. -/
def Equivalent (x y : Eval σ α) : Prop :=
  ∀ w w', w.Same w' → (y.run w').1 = (x.run w).1 ∧ (x.run w).2.Same (y.run w').2

namespace Equivalent

variable {x y z : Eval σ α}

theorem symm (h : Equivalent x y) : Equivalent y x := by
  intro w w' hw
  obtain ⟨hresult, hafter⟩ := h w' w hw.symm
  exact ⟨hresult.symm, hafter.symm⟩

theorem trans (hxy : Equivalent x y) (hyz : Equivalent y z) : Equivalent x z := by
  intro w w' hw
  obtain ⟨hresult, hafter⟩ := hxy w w' hw
  obtain ⟨hresult', hafter'⟩ := hyz w' w' (.refl w')
  exact ⟨hresult'.trans hresult, hafter.trans hafter'⟩

theorem ofExcept (x : Except RuntimeError α) :
    Equivalent (ofExcept x : Eval σ α) (Eval.ofExcept x) := fun _ _ hw => ⟨rfl, hw⟩

theorem pure (a : α) : Equivalent (Pure.pure a : Eval σ α) (Pure.pure a) := ofExcept (.ok a)

theorem bind {f g : α → Eval σ β} (hxy : Equivalent x y) (hfg : ∀ a, Equivalent (f a) (g a)) :
    Equivalent (x >>= f) (y >>= g) := by
  intro w w' hw
  obtain ⟨hresult, hafter⟩ := hxy w w' hw
  rcases hx : x.run w with ⟨result, w₁⟩
  rcases hy : y.run w' with ⟨result', w₂⟩
  rw [hx, hy] at hresult hafter
  -- The two go on alike, as their results are one.
  cases hresult
  cases result with
  | error err =>
    rw [run_bind_error hx, run_bind_error hy]
    exact ⟨rfl, hafter⟩
  | ok a =>
    rw [run_bind_ok hx, run_bind_ok hy]
    exact hfg a w₁ w₂ hafter

end Equivalent

end Eval

/-! ## Evaluation does not read reports -/

namespace Context

theorem equivalent_perform (o : Operation) (coercions : Heap → Coercions) (a b : Value) :
    Eval.Equivalent (o.perform coercions a b : Eval σ Value) (o.perform coercions a b) := by
  intro w w' hw
  have hstate := state_perform o coercions a b w'
  have hcalls := calls_perform o coercions a b w'
  rw [hw.state, ← state_perform o coercions a b w] at hstate
  rw [hw.calls, ← calls_perform o coercions a b w] at hcalls
  cases happly : o.apply (coercions w.heap) w.heap a b with
  | error err =>
    have happly' : o.apply (coercions w'.heap) w'.heap a b = .error err := by rwa [hw.heap]
    rw [Operation.run_perform_of_error happly, Operation.run_perform_of_error happly']
      at hstate hcalls ⊢
    exact ⟨rfl, hw.heap, hstate, hcalls⟩
  | ok outcome =>
    have happly' : o.apply (coercions w'.heap) w'.heap a b = .ok outcome := by rwa [hw.heap]
    rw [Operation.run_perform_of_ok happly, Operation.run_perform_of_ok happly', hw.heap]
      at hstate hcalls ⊢
    exact ⟨rfl, rfl, hstate, hcalls⟩

/-- An operation that gives a value only adds to the reports. -/
theorem run_perform_of_value {o : Operation} (coercions : Heap → Coercions) {a b v : Value}
    {w : World σ} (h : o.apply (coercions w.heap) w.heap a b = .ok (.value v)) :
    ∃ w', (o.perform coercions a b).run w = (.ok v, w') ∧ w.Same w' := by
  have hcalls := calls_perform o coercions a b w
  rw [Operation.run_perform_of_ok h] at hcalls ⊢
  exact ⟨_, rfl, rfl, rfl, hcalls⟩

theorem equivalent_call (ctx : Context σ) (name : String) (args : List Value) (span : Span) :
    Eval.Equivalent (ctx.call name args span) (ctx.call name args span) := by
  intro w w' hw
  cases hf : ctx.functions.find? name with
  | some f =>
    rw [run_call_of_host hf, run_call_of_host hf, hw.heap, hw.state]
    refine ⟨rfl, rfl, rfl, ?_⟩
    have hcalls : w'.log.toList.filterMap Event.call? = w.log.toList.filterMap Event.call? :=
      hw.calls
    simp only [World.calls, Array.toList_push, List.filterMap_append, hcalls]
  | none =>
    cases hb : Builtin.ofName? name with
    | some b =>
      rw [run_call_of_builtin hf hb, run_call_of_builtin hf hb, hw.heap]
      exact ⟨rfl, hw⟩
    | none =>
      rw [run_call_of_unknown hf hb, run_call_of_unknown hf hb]
      exact ⟨rfl, hw⟩

theorem equivalent_visit (ctx : Context σ) (n : Expr) (operands : List Value) :
    Eval.Equivalent (ctx.visit n operands) (ctx.visit n operands) := by
  cases n with
  | literal value span => exact .pure _
  | named name span => exact .ofExcept _
  | unary op e span => exact .ofExcept _
  | binary op l r => exact equivalent_perform ⟨op, l, r⟩ ctx.coercions _ _
  | call name arguments span => exact ctx.equivalent_call name operands span
  | list items span =>
    intro w w' hw
    refine ⟨?_, ?_, hw.state, hw.calls⟩ <;> simp only [visit, Eval.newList, Eval.run, hw.heap]

theorem equivalent_evalAll {ctx : Context σ} {es : List Expr}
    (h : ∀ e ∈ es, Eval.Equivalent (ctx.eval e) (ctx.eval e)) :
    Eval.Equivalent (ctx.evalAll es) (ctx.evalAll es) := by
  induction es with
  | nil => exact .pure []
  | cons e es ih =>
    have he := h e List.mem_cons_self
    have hes := ih fun c hc => h c (List.mem_cons_of_mem e hc)
    rw [evalAll]
    exact he.bind fun v => hes.bind fun vs => .pure (v :: vs)

/-- What an expression does never depends on what has been reported before. -/
theorem equivalent_eval (ctx : Context σ) (e : Expr) :
    Eval.Equivalent (ctx.eval e) (ctx.eval e) := by
  induction e using Expr.of_children with
  | step e ih =>
    rw [eval_eq_visit]
    exact (equivalent_evalAll ih).bind fun operands => ctx.equivalent_visit e operands

end Context

/-! ## Operators that join two values -/

/-- The operator never fails, and makes this of the values of its operands. -/
def BinaryOp.Joins (op : BinaryOp) (join : Value → Value → Value) : Prop :=
  ∀ (l r : Expr) (h : Heap) (pattern : String) (a b : Value),
    Operation.apply ⟨op, l, r⟩ (.standard h pattern) h a b = .ok (.value (join a b))

namespace Value

/-- The first value, or the second one in the place of null. -/
def ifNull (a b : Value) : Value := if a.isNull then b else a

def both (a b : Value) : Value := .bool (a.truth && b.truth)

def either (a b : Value) : Value := .bool (a.truth || b.truth)

def negation (a : Value) : Value := .bool !a.truth

@[simp] theorem truth_bool (b : Bool) : (bool b).truth = b := by cases b <;> rfl

theorem ifNull_assoc (a b c : Value) : (a.ifNull b).ifNull c = a.ifNull (b.ifNull c) := by
  cases a <;> rfl

theorem both_assoc (a b c : Value) : (a.both b).both c = a.both (b.both c) := by
  simp only [both, truth_bool, Bool.and_assoc]

theorem either_assoc (a b c : Value) : (a.either b).either c = a.either (b.either c) := by
  simp only [either, truth_bool, Bool.or_assoc]

theorem either_negation (a b : Value) : a.negation.either b.negation = (a.both b).negation := by
  simp only [either, both, negation, truth_bool, Bool.not_and]

theorem both_negation (a b : Value) : a.negation.both b.negation = (a.either b).negation := by
  simp only [either, both, negation, truth_bool, Bool.not_or]

end Value

theorem Context.eval_not (ctx : Context σ) (e : Expr) (span : Span) :
    ctx.eval (.unary .not e span) = ctx.eval e >>= fun v => pure v.negation := by
  rw [eval]
  rfl

namespace BinaryOp

theorem joins_coalesce : coalesce.Joins Value.ifNull := fun _ _ _ _ _ _ => rfl

theorem joins_and : and.Joins Value.both := fun _ _ _ _ _ _ => rfl

theorem joins_or : or.Joins Value.either := fun _ _ _ _ _ _ => rfl

namespace Joins

variable {op op' : BinaryOp} {join join' : Value → Value → Value}

/-- Such an operation only adds to the reports. -/
theorem equivalent_perform (hop : op.Joins join) (ctx : Context σ) (l r : Expr) (a b : Value) :
    Eval.Equivalent (Operation.perform ⟨op, l, r⟩ ctx.coercions a b : Eval σ Value)
      (pure (join a b)) := by
  intro w w' hw
  obtain ⟨w₁, hrun, hsame⟩ := Context.run_perform_of_value ctx.coercions
    (hop l r w.heap ctx.pattern a b)
  rw [hrun]
  exact ⟨rfl, hsame.symm.trans hw⟩

theorem equivalent_eval (hop : op.Joins join) (ctx : Context σ) (l r : Expr) :
    Eval.Equivalent (ctx.eval (.binary op l r)) (do
      let a ← ctx.eval l
      let b ← ctx.eval r
      pure (join a b)) := by
  rw [Context.eval]
  exact (ctx.equivalent_eval l).bind fun a => (ctx.equivalent_eval r).bind fun b =>
    hop.equivalent_perform ctx l r a b

/-- The three operands are evaluated in one order, and their values joined in either way. -/
theorem regroup (hop : op.Joins join)
    (hassoc : ∀ a b c, join (join a b) c = join a (join b c)) (ctx : Context σ) (a b c : Expr) :
    Eval.Equivalent (ctx.eval (.binary op (.binary op a b) c))
      (ctx.eval (.binary op a (.binary op b c))) := by
  have hleft := (hop.equivalent_eval ctx (.binary op a b) c).trans
    ((hop.equivalent_eval ctx a b).bind fun v =>
      (ctx.equivalent_eval c).bind fun z => .pure (join v z))
  have hright := (hop.equivalent_eval ctx a (.binary op b c)).trans
    ((ctx.equivalent_eval a).bind fun x =>
      (hop.equivalent_eval ctx b c).bind fun v => .pure (join x v))
  simp only [bind_assoc, pure_bind, hassoc] at hleft hright
  exact hleft.trans hright.symm

/-- Negating what one operator makes of two values is what the other makes of the negated values. -/
theorem negate (hop : op.Joins join) (hop' : op'.Joins join')
    (hdual : ∀ a b, join' a.negation b.negation = (join a b).negation)
    (ctx : Context σ) (a b : Expr) (span left right : Span) :
    Eval.Equivalent (ctx.eval (.unary .not (.binary op a b) span))
      (ctx.eval (.binary op' (.unary .not a left) (.unary .not b right))) := by
  have hleft := (hop.equivalent_eval ctx a b).bind fun v => .pure v.negation
  have hright := hop'.equivalent_eval ctx (.unary .not a left) (.unary .not b right)
  rw [← Context.eval_not _ _ span] at hleft
  simp only [Context.eval_not, bind_assoc, pure_bind, hdual] at hleft hright
  exact hleft.trans hright.symm

end Joins

end BinaryOp

/-! ## The laws -/

/-- Between these operands `??`, `&&` and `||` are associative, and a negation of the last two can
be drawn in. -/
structure Context.Regroups (ctx : Context σ) (a b c : Expr) : Prop where
  associative : ∀ op ∈ [BinaryOp.coalesce, .and, .or],
    Eval.Equivalent (ctx.eval (.binary op (.binary op a b) c))
      (ctx.eval (.binary op a (.binary op b c)))
  not_and : ∀ span left right, Eval.Equivalent (ctx.eval (.unary .not (.binary .and a b) span))
    (ctx.eval (.binary .or (.unary .not a left) (.unary .not b right)))
  not_or : ∀ span left right, Eval.Equivalent (ctx.eval (.unary .not (.binary .or a b) span))
    (ctx.eval (.binary .and (.unary .not a left) (.unary .not b right)))

/-- Null coalescing and the logical operators regroup in every context, whatever their operands do
to the world and whether or not they fail. -/
theorem Context.null_coalescing_and_logic_regroup (ctx : Context σ) (a b c : Expr) :
    ctx.Regroups a b c := by
  constructor
  · intro op hop
    simp only [List.mem_cons, List.not_mem_nil, or_false] at hop
    rcases hop with rfl | rfl | rfl
    · exact BinaryOp.joins_coalesce.regroup Value.ifNull_assoc ctx a b c
    · exact BinaryOp.joins_and.regroup Value.both_assoc ctx a b c
    · exact BinaryOp.joins_or.regroup Value.either_assoc ctx a b c
  · exact BinaryOp.joins_and.negate BinaryOp.joins_or Value.either_negation ctx a b
  · exact BinaryOp.joins_or.negate BinaryOp.joins_and Value.both_negation ctx a b

end TemplateExpr
