-- What evaluation reports about itself. Every binary operation is reported once with
-- the kinds of its operands; what it then does, and every call of a host function, is
-- reported in more detail, by the step that does it.
import TemplateExpr.RuntimeError
import TemplateExpr.Text.Quoted
import TemplateExpr.Value

namespace TemplateExpr

inductive Event where
  /-- Both operands of an operation have their values. -/
  | evaluating (op : BinaryOp) (left right : Kind)
  | coalescing (leftIsNull : Bool)
  | logical (op : BinaryOp) (left right result : Bool)
  /-- A new list has been made of a sequence and one more item. -/
  | extended (op : BinaryOp) (length : Nat)
  | onStrings (op : BinaryOp)
  | promoting (op : BinaryOp) (target : Kind)
  | rangeMade (r : Range)
  /-- A host function is about to run. -/
  | calling (name : String) (arguments : List Value)
deriving DecidableEq

namespace Event

/-- How much has to be asked for before the event is shown. -/
def detail : Event → Nat
  | evaluating .. => 1
  | _ => 2

def boolText (b : Bool) : String := if b then "true" else "false"

/-- The line that shows the event. -/
def text : Event → String
  | evaluating op l r =>
    s!"DEBUG evaluating binary expression op={op.symbol} left={l.name} right={r.name}"
  | coalescing b => s!"TRACE coalescing left_is_null={boolText b}"
  | logical op l r b =>
    s!"TRACE logical operator op={op.symbol} left={boolText l} right={boolText r}" ++
      s!" result={boolText b}"
  | extended op n => s!"TRACE shifted into new list op={op.symbol} len={n}"
  | onStrings op => s!"TRACE string overload op={op.symbol}"
  | promoting op k => s!"TRACE promoting operands op={op.symbol} target={k.name}"
  | rangeMade r =>
    s!"TRACE range created start={r.first.toInt} end={r.last.toInt}" ++
      s!" inclusive={boolText r.inclusive}"
  | calling name _ => s!"TRACE calling native function name={Text.display name}"

/-- The lines that are shown when this much detail is asked for. -/
def lines (detail : Nat) (events : List Event) : List String :=
  (events.filter fun e => e.detail ≤ detail).map text

end Event

/-! ## Steps that report -/

/-- What a step comes to, and what it has reported until then, even if it fails. -/
structure Reported (α : Type) where
  result : Except RuntimeError α
  events : List Event

namespace Reported

variable {α β : Type}

/-- A step that reports nothing. -/
def silent (result : Except RuntimeError α) : Reported α := ⟨result, []⟩

/-- A step before which an event is reported. -/
def after (event : Event) (x : Reported α) : Reported α := ⟨x.result, event :: x.events⟩

def map (f : α → β) (x : Reported α) : Reported β := ⟨x.result.map f, x.events⟩

/-- A step that fails is the last one to report anything. -/
instance : Monad Reported where
  pure a := silent (.ok a)
  bind x f :=
    match x.result with
    | .ok a => ⟨(f a).result, x.events ++ (f a).events⟩
    | .error e => ⟨.error e, x.events⟩

@[simp] theorem result_silent (result : Except RuntimeError α) : (silent result).result = result :=
  rfl

@[simp] theorem events_silent (result : Except RuntimeError α) : (silent result).events = [] := rfl

@[simp] theorem result_after (event : Event) (x : Reported α) : (after event x).result = x.result :=
  rfl

@[simp] theorem events_after (event : Event) (x : Reported α) :
    (after event x).events = event :: x.events := rfl

@[simp] theorem result_map (f : α → β) (x : Reported α) : (x.map f).result = x.result.map f := rfl

@[simp] theorem events_map (f : α → β) (x : Reported α) : (x.map f).events = x.events := rfl

@[simp] theorem result_bind (x : Reported α) (f : α → Reported β) :
    (x >>= f).result = x.result >>= fun a => (f a).result := by
  obtain ⟨result, events⟩ := x
  cases result <;> rfl

@[simp] theorem result_pure (a : α) : (pure a : Reported α).result = .ok a := rfl

theorem silent_ok_bind (a : α) (f : α → Reported β) : silent (.ok a) >>= f = f a := rfl

end Reported

end TemplateExpr
