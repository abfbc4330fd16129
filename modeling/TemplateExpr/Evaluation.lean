-- The value of an expression. Operands, arguments and items are evaluated from left to
-- right and always all of them; the first failure ends the evaluation, and what was
-- done to the world before it stays done.
import TemplateExpr.Bindings
import TemplateExpr.Builtin
import TemplateExpr.Operation.Apply

namespace TemplateExpr

/-! ## Context and world -/

/-- Everything that evaluation changes: the lists there are, whatever the host functions keep, and
the log of events. -/
structure World (σ : Type) where
  heap : Heap
  state : σ
  log : Array Event := #[]

/-- A function of the host. It gets the arguments and the place of the call, and may change the heap
and the state of the host even if it fails. -/
abbrev HostFunction (σ : Type) :=
  List Value → Span → Heap → σ → Except RuntimeError Value × Heap × σ

/-- What an expression is evaluated in, and cannot change. -/
structure Context (σ : Type) where
  values : Bindings Value := {}
  functions : Bindings (HostFunction σ) := {}
  pattern : String := Calendar.usualPattern

/-- The answers to operators in a context. -/
def Context.coercions {σ : Type} (ctx : Context σ) (h : Heap) : Coercions :=
  .standard h ctx.pattern

/-! ## Computations -/

/-- A computation in a world, which it leaves changed whether or not it fails. -/
def Eval (σ α : Type) := World σ → Except RuntimeError α × World σ

namespace Eval

variable {σ α β : Type}

instance : Monad (Eval σ) where
  pure a := fun w => (.ok a, w)
  bind x f := fun w =>
    match x w with
    | (.ok a, w) => f a w
    | (.error e, w) => (.error e, w)

def run (x : Eval σ α) (w : World σ) : Except RuntimeError α × World σ := x w

/-- A computation that leaves the world alone. -/
def ofExcept (x : Except RuntimeError α) : Eval σ α := fun w => (x, w)

/-- A new list. -/
def newList (items : List Value) : Eval σ Value := fun w =>
  (.ok (.list (w.heap.newList items).1), { w with heap := (w.heap.newList items).2 })

@[simp] theorem run_pure (a : α) (w : World σ) : (pure a : Eval σ α).run w = (.ok a, w) := rfl

theorem run_bind (x : Eval σ α) (f : α → Eval σ β) (w : World σ) :
    (x >>= f).run w =
      match x.run w with
      | (.ok a, w) => (f a).run w
      | (.error e, w) => (.error e, w) := rfl

end Eval

/-! ## Nodes -/

/-- A sign before an operand with this value. -/
def UnaryOp.apply (op : UnaryOp) (operand : Expr) (span : Span) (v : Value) :
    Except RuntimeError Value :=
  match op, v with
  | .not, v => .ok (.bool !v.truth)
  | .negate, .int n => .ok (.int (-n))
  | .negate, .long n => .ok (.long (-n))
  | .negate, .float x => .ok (.float x.neg)
  | .negate, .double x => .ok (.double x.neg)
  | .negate, .timeSpan d =>
    match d.neg? with
    | some d => .ok (.timeSpan d)
    | none => .error ⟨.overflow (op.symbol ++ operand.text), span⟩
  | .negate, v => .error ⟨.unsupportedUnary .negate v.kind, span⟩

/-- An operation on values, reported and carried out. -/
def Operation.perform {σ : Type} (o : Operation) (coercions : Heap → Coercions)
    (left right : Value) : Eval σ Value := fun w =>
  let done := o.run (coercions w.heap) w.heap left right
  let log := w.log ++ done.events
  match done.result with
  | .ok outcome =>
    (.ok (w.heap.place outcome).1, { w with heap := (w.heap.place outcome).2, log })
  | .error e => (.error e, { w with log })

namespace Context

variable {σ : Type}

/-- The value of a variable. -/
def lookup (ctx : Context σ) (name : String) (span : Span) : Except RuntimeError Value :=
  match ctx.values.find? name with
  | some v => .ok v
  | none => .error ⟨.unknownVariable name, span⟩

/-- A call with its arguments. Functions of the host hide the builtin ones. -/
def call (ctx : Context σ) (name : String) (args : List Value) (span : Span) : Eval σ Value :=
  fun w =>
    match ctx.functions.find? name with
    | some f =>
      let done := f args span w.heap w.state
      (done.1, ⟨done.2.1, done.2.2, w.log.push (.calling name args)⟩)
    | none =>
      match Builtin.ofName? name with
      | some b => (b.call w.heap args span, w)
      | none => (.error ⟨.unknownFunction name, span⟩, w)

mutual

def eval (ctx : Context σ) : Expr → Eval σ Value
  | .literal value _ => pure value.value
  | .named name span => .ofExcept (ctx.lookup name span)
  | .unary op e span => do
    let v ← ctx.eval e
    .ofExcept (op.apply e span v)
  | .binary op l r => do
    let a ← ctx.eval l
    let b ← ctx.eval r
    Operation.perform ⟨op, l, r⟩ ctx.coercions a b
  | .call name arguments span => do
    let args ← ctx.evalAll arguments
    ctx.call name args span
  | .list items _ => do
    let values ← ctx.evalAll items
    .newList values

/-- The values of expressions, evaluated in their order. -/
def evalAll (ctx : Context σ) : List Expr → Eval σ (List Value)
  | [] => pure []
  | e :: es => do
    let v ← ctx.eval e
    let vs ← ctx.evalAll es
    pure (v :: vs)

end

/-- An operation whose operands are evaluated in a context and joined by other rules. -/
def evalWith (ctx : Context σ) (coercions : Heap → Coercions) (o : Operation) : Eval σ Value := do
  let a ← ctx.eval o.left
  let b ← ctx.eval o.right
  o.perform coercions a b

end Context

end TemplateExpr
