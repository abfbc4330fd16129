-- Evaluation as a walk over the nodes of an expression, each after those below it. A
-- walk keeps the values of the nodes it has visited on a stack and ends at the first
-- node that fails; it leaves the same value and the same world as evaluation does.
import TemplateExpr.Evaluation

namespace TemplateExpr

/-! ## Nodes -/

namespace Expr

/-- The nodes right below a node, from left to right. -/
def children : Expr → List Expr
  | literal .. | named .. => []
  | unary _ e _ => [e]
  | binary _ l r => [l, r]
  | call _ arguments _ => arguments
  | list items _ => items

mutual

/-- The nodes of an expression, each after those below it, from left to right. -/
def postorder : Expr → List Expr
  | literal value span => [literal value span]
  | named name span => [named name span]
  | unary op e span => e.postorder ++ [unary op e span]
  | binary op l r => l.postorder ++ r.postorder ++ [binary op l r]
  | call name arguments span => postorderAll arguments ++ [call name arguments span]
  | list items span => postorderAll items ++ [list items span]

def postorderAll : List Expr → List Expr
  | [] => []
  | e :: es => e.postorder ++ postorderAll es

end

theorem postorder_eq (e : Expr) : e.postorder = postorderAll e.children ++ [e] := by
  cases e <;> simp [postorder, postorderAll, children]

theorem mem_postorder_self (e : Expr) : e ∈ e.postorder := by
  rw [postorder_eq]
  exact List.mem_append_right _ List.mem_cons_self

theorem mem_postorderAll {es : List Expr} {e n : Expr} (he : e ∈ es) (hn : n ∈ e.postorder) :
    n ∈ postorderAll es := by
  induction es with
  | nil => cases he
  | cons c cs ih =>
    rw [postorderAll]
    rcases List.mem_cons.1 he with rfl | he
    · exact List.mem_append_left _ hn
    · exact List.mem_append_right _ (ih he)

theorem mem_postorder_of_child {e c n : Expr} (hc : c ∈ e.children) (hn : n ∈ c.postorder) :
    n ∈ e.postorder := by
  rw [postorder_eq]
  exact List.mem_append_left _ (mem_postorderAll hc hn)

mutual

/-- What every node has as soon as the nodes right below it do, every node has. -/
theorem of_children {P : Expr → Prop} (step : ∀ e : Expr, (∀ c ∈ e.children, P c) → P e) :
    (e : Expr) → P e
  | literal value span => step (literal value span) nofun
  | named name span => step (named name span) nofun
  | unary op e span => by
    refine step (unary op e span) ?_
    intro c hc
    rw [List.mem_singleton.1 hc]
    exact of_children step e
  | binary op l r => by
    refine step (binary op l r) ?_
    intro c hc
    rcases List.mem_cons.1 hc with hl | hr
    · rw [hl]
      exact of_children step l
    · rw [List.mem_singleton.1 hr]
      exact of_children step r
  | call name arguments span => step (call name arguments span) (of_all_children step arguments)
  | list items span => step (list items span) (of_all_children step items)

theorem of_all_children {P : Expr → Prop}
    (step : ∀ e : Expr, (∀ c ∈ e.children, P c) → P e) : (es : List Expr) → ∀ c ∈ es, P c
  | [] => nofun
  | e :: es => by
    intro c hc
    rcases List.mem_cons.1 hc with he | hes
    · rw [he]
      exact of_children step e
    · exact of_all_children step es c hes

end

end Expr

/-! ## Computations in sequence -/

namespace Eval

variable {σ α β : Type}

theorem ext_run {x y : Eval σ α} (h : ∀ w, x.run w = y.run w) : x = y := funext h

instance : LawfulMonad (Eval σ) := by
  refine LawfulMonad.mk' (Eval σ) ?_ (fun _ _ => rfl) ?_
  · intro α x
    apply ext_run
    intro w
    change (x >>= pure).run w = x.run w
    rw [run_bind]
    rcases x.run w with ⟨_ | _, _⟩ <;> rfl
  · intro α β γ x f g
    apply ext_run
    intro w
    rw [run_bind, run_bind, run_bind]
    rcases x.run w with ⟨_ | _, _⟩ <;> rfl

theorem run_bind_ok {x : Eval σ α} {w w' : World σ} {a : α} (h : x.run w = (.ok a, w'))
    (f : α → Eval σ β) : (x >>= f).run w = (f a).run w' := by
  rw [run_bind, h]

theorem run_bind_error {x : Eval σ α} {w w' : World σ} {e : RuntimeError}
    (h : x.run w = (.error e, w')) (f : α → Eval σ β) : (x >>= f).run w = (.error e, w') := by
  rw [run_bind, h]

theorem run_bind_eq_ok {x : Eval σ α} {f : α → Eval σ β} {w w' : World σ} {b : β}
    (h : (x >>= f).run w = (.ok b, w')) :
    ∃ a w₁, x.run w = (.ok a, w₁) ∧ (f a).run w₁ = (.ok b, w') := by
  rcases hx : x.run w with ⟨_ | a, w₁⟩
  · rw [run_bind_error hx] at h
    cases h
  · rw [run_bind_ok hx] at h
    exact ⟨a, w₁, rfl, h⟩

end Eval

namespace Operation

variable {σ : Type} {o : Operation} {coercions : Heap → Coercions} {a b : Value} {w : World σ}

theorem run_perform_of_ok {outcome : Outcome}
    (h : o.apply (coercions w.heap) w.heap a b = .ok outcome) :
    (o.perform coercions a b).run w = (.ok (w.heap.place outcome).1,
      { w with
        heap := (w.heap.place outcome).2
        log := w.log ++ (o.run (coercions w.heap) w.heap a b).events }) := by
  rw [apply] at h
  simp only [perform, Eval.run, h]

theorem run_perform_of_error {err : RuntimeError}
    (h : o.apply (coercions w.heap) w.heap a b = .error err) :
    (o.perform coercions a b).run w =
      (.error err, { w with log := w.log ++ (o.run (coercions w.heap) w.heap a b).events }) := by
  rw [apply] at h
  simp only [perform, Eval.run, h]

end Operation

namespace Context

variable {σ : Type}

theorem length_of_evalAll (ctx : Context σ) {es : List Expr} {vs : List Value} {w w' : World σ}
    (h : (ctx.evalAll es).run w = (.ok vs, w')) : vs.length = es.length := by
  induction es generalizing vs w with
  | nil =>
    rw [evalAll] at h
    cases h
    rfl
  | cons e es ih =>
    rw [evalAll] at h
    obtain ⟨v, w₁, _, h⟩ := Eval.run_bind_eq_ok h
    obtain ⟨us, w₂, hus, h⟩ := Eval.run_bind_eq_ok h
    cases h
    rw [List.length_cons, List.length_cons, ih hus]

/-! ## The step of a node -/

/-- What a node does with the values of the nodes right below it. -/
def visit (ctx : Context σ) : Expr → List Value → Eval σ Value
  | .literal value _, _ => pure value.value
  | .named name span, _ => .ofExcept (ctx.lookup name span)
  | .unary op e span, operands => .ofExcept (op.apply e span (operands.headD .null))
  | .binary op l r, operands =>
    Operation.perform ⟨op, l, r⟩ ctx.coercions (operands.headD .null) (operands.getD 1 .null)
  | .call name _ span, operands => ctx.call name operands span
  | .list _ _, operands => .newList operands

/-- Every node is evaluated alike: what is right below it from left to right, then its own step. -/
theorem eval_eq_visit (ctx : Context σ) (e : Expr) :
    ctx.eval e = ctx.evalAll e.children >>= ctx.visit e := by
  cases e with
  | call | list =>
    rw [eval]
    rfl
  | _ => simp [eval, evalAll, Expr.children, visit]

section

variable {ctx : Context σ} {name : String}

theorem run_call_of_host {f : HostFunction σ} (hf : ctx.functions.find? name = some f)
    (args : List Value) (span : Span) (w : World σ) :
    (ctx.call name args span).run w = ((f args span w.heap w.state).1,
      ⟨(f args span w.heap w.state).2.1, (f args span w.heap w.state).2.2,
        w.log.push (.calling name args)⟩) := by
  simp only [call, Eval.run, hf]

theorem run_call_of_builtin {b : Builtin} (hname : ctx.functions.find? name = none)
    (hb : Builtin.ofName? name = some b) (args : List Value) (span : Span) (w : World σ) :
    (ctx.call name args span).run w = (b.call w.heap args span, w) := by
  simp only [call, Eval.run, hname, hb]

theorem run_call_of_unknown (hname : ctx.functions.find? name = none)
    (hb : Builtin.ofName? name = none) (args : List Value) (span : Span) (w : World σ) :
    (ctx.call name args span).run w = (.error ⟨.unknownFunction name, span⟩, w) := by
  simp only [call, Eval.run, hname, hb]

end

/-! ## Walks -/

/-- Visits nodes one after the other, each with the operands on top of the stack, where it leaves
its own value. -/
def walk (ctx : Context σ) : List Expr → List Value → Eval σ (List Value)
  | [], stack => pure stack
  | n :: ns, stack => do
    let v ← ctx.visit n (stack.take n.children.length).reverse
    ctx.walk ns (v :: stack.drop n.children.length)

theorem walk_postorderAll_of {ctx : Context σ} {es : List Expr}
    (h : ∀ e ∈ es, ∀ ns stack, ctx.walk (e.postorder ++ ns) stack =
      ctx.eval e >>= fun v => ctx.walk ns (v :: stack)) (ns : List Expr) (stack : List Value) :
    ctx.walk (Expr.postorderAll es ++ ns) stack =
      ctx.evalAll es >>= fun vs => ctx.walk ns (vs.reverse ++ stack) := by
  induction es generalizing stack with
  | nil => simp [Expr.postorderAll, evalAll]
  | cons e es ih =>
    have he := h e List.mem_cons_self
    have hes := ih fun c hc => h c (List.mem_cons_of_mem e hc)
    rw [Expr.postorderAll, List.append_assoc, he, evalAll]
    simp [hes]

theorem operands_on_stack (vs stack : List Value) :
    ((vs.reverse ++ stack).take vs.length).reverse = vs ∧
      (vs.reverse ++ stack).drop vs.length = stack := by
  have hlength : vs.length = vs.reverse.length := by simp
  rw [hlength, List.take_left, List.drop_left, List.reverse_reverse]
  exact ⟨rfl, rfl⟩

/-- A walk over the nodes of an expression does what evaluation does, and leaves the value on the
stack. -/
theorem walk_postorder (ctx : Context σ) (e : Expr) : ∀ ns stack,
    ctx.walk (e.postorder ++ ns) stack = ctx.eval e >>= fun v => ctx.walk ns (v :: stack) := by
  induction e using Expr.of_children with
  | step e ih =>
    intro ns stack
    rw [Expr.postorder_eq, List.append_assoc, walk_postorderAll_of ih, eval_eq_visit, bind_assoc]
    apply Eval.ext_run
    intro w
    rcases hvs : (ctx.evalAll e.children).run w with ⟨_ | vs, w₁⟩
    · rw [Eval.run_bind_error hvs, Eval.run_bind_error hvs]
    · obtain ⟨htake, hdrop⟩ := operands_on_stack vs stack
      rw [Eval.run_bind_ok hvs, Eval.run_bind_ok hvs, List.singleton_append, walk,
        ← ctx.length_of_evalAll hvs, htake, hdrop]

theorem walk_postorderAll (ctx : Context σ) (es : List Expr) (ns : List Expr)
    (stack : List Value) : ctx.walk (Expr.postorderAll es ++ ns) stack =
      ctx.evalAll es >>= fun vs => ctx.walk ns (vs.reverse ++ stack) :=
  walk_postorderAll_of (fun e _ => ctx.walk_postorder e) ns stack

theorem walk_postorder_nil (ctx : Context σ) (e : Expr) (stack : List Value) :
    ctx.walk e.postorder stack = ctx.eval e >>= fun v => pure (v :: stack) := by
  have hwalk := ctx.walk_postorder e [] stack
  rwa [List.append_nil] at hwalk

theorem walk_postorderAll_nil (ctx : Context σ) (es : List Expr) (stack : List Value) :
    ctx.walk (Expr.postorderAll es) stack =
      ctx.evalAll es >>= fun vs => pure (vs.reverse ++ stack) := by
  have hwalk := ctx.walk_postorderAll es [] stack
  rwa [List.append_nil] at hwalk

end Context

end TemplateExpr
