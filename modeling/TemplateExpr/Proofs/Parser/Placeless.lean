-- The parser does not look at places. Without the places of its tokens it goes through the
-- same states without places, and ends with the same tree or with the same error.
import TemplateExpr.Proofs.Parser.Soundness

namespace TemplateExpr

/-! ## Without places -/

namespace Expr

mutual

/-- The expression with the same place for all its nodes. -/
def unplaced : Expr → Expr
  | literal value _ => literal value default
  | named name _ => named name default
  | unary op e _ => unary op e.unplaced default
  | binary op l r => binary op l.unplaced r.unplaced
  | call name arguments _ => call name (unplacedAll arguments) default
  | list items _ => list (unplacedAll items) default

def unplacedAll : List Expr → List Expr
  | [] => []
  | e :: es => e.unplaced :: unplacedAll es

end

theorem unplacedAll_eq_map (es : List Expr) : unplacedAll es = es.map unplaced := by
  induction es with
  | nil => rfl
  | cons e es ih => rw [unplacedAll, ih, List.map_cons]

@[simp] theorem span_unplaced (e : Expr) : e.unplaced.span = default := by
  match e with
  | literal _ _ | named _ _ | unary _ _ _ | call _ _ _ | list _ _ =>
    rw [unplaced]
    rfl
  | binary op l r =>
    rw [unplaced, span, span_unplaced l, span_unplaced r]
    rfl

mutual

theorem tree_unplaced : (e : Expr) → e.unplaced.tree = e.tree
  | literal _ _ | named _ _ => rfl
  | unary op e _ => by rw [unplaced, tree, tree, tree_unplaced e]
  | binary op l r => by rw [unplaced, tree, tree, tree_unplaced l, tree_unplaced r]
  | call name arguments _ => by rw [unplaced, tree, tree, treeAll_unplacedAll arguments]
  | list items _ => by rw [unplaced, tree, tree, treeAll_unplacedAll items]

theorem treeAll_unplacedAll : (es : List Expr) → treeAll (unplacedAll es) = treeAll es
  | [] => rfl
  | e :: es => by rw [unplacedAll, treeAll, treeAll, tree_unplaced e, treeAll_unplacedAll es]

end

end Expr

namespace SyntaxError

/-- The error without the place that it names. -/
def unplaced : SyntaxError → SyntaxError
  | unexpectedToken token _ => unexpectedToken token default
  | unexpectedEnd _ => unexpectedEnd 0
  | expectedDelimiter expected _ => expectedDelimiter expected default
  | trailingToken token _ => trailingToken token default
  | outOfRange literal _ => outOfRange literal default

end SyntaxError

namespace Parser

def Shape.unplaced : Shape → Shape
  | list _ => list default
  | call name _ => call name default

def Frame.unplaced : Frame → Frame
  | binary op l => binary op l.unplaced
  | unary op _ => unary op default
  | group _ => group default
  | items shape before => items shape.unplaced (before.map Expr.unplaced)

def Focus.unplaced : Focus → Focus
  | .operand => .operand
  | .firstItem => .firstItem
  | .name word _ => .name word default
  | .complete e => .complete e.unplaced

def State.unplaced (s : State) : State := ⟨s.frames.map Frame.unplaced, s.focus.unplaced⟩

/-- A result without places, given what it is to take them from a success. -/
def unplacedResult {α : Type} (f : α → α) (x : Except SyntaxError α) : Except SyntaxError α :=
  (x.map f).mapError SyntaxError.unplaced

@[simp] theorem unplacedResult_ok {α : Type} (f : α → α) (a : α) :
    unplacedResult f (.ok a) = .ok (f a) := rfl

@[simp] theorem unplacedResult_error {α : Type} (f : α → α) (err : SyntaxError) :
    unplacedResult f (.error err) = .error err.unplaced := rfl

@[simp] theorem bracket_unplaced (shape : Shape) : shape.unplaced.bracket = shape.bracket := by
  cases shape <;> rfl

theorem expr_unplaced (shape : Shape) (items : List Expr) :
    (shape.expr items).unplaced = shape.unplaced.expr (items.map Expr.unplaced) := by
  cases shape <;> simp [Shape.expr, Shape.unplaced, Expr.unplaced, Expr.unplacedAll_eq_map]

/-! ## Taking up frames -/

theorem applySigns_unplaced (frames : List Frame) (e : Expr) :
    applySigns (frames.map Frame.unplaced) e.unplaced =
      ((applySigns frames e).1.map Frame.unplaced, (applySigns frames e).2.unplaced) := by
  induction frames generalizing e with
  | nil => rfl
  | cons frame frames ih =>
    cases frame with
    | unary op span =>
      have hsign : (Expr.unary op e (span.cover e.span)).unplaced =
          .unary op e.unplaced ((default : Span).cover e.unplaced.span) := by
        rw [Expr.unplaced, Expr.span_unplaced]
        rfl
      rw [List.map_cons, Frame.unplaced, applySigns, applySigns, ← hsign, ih]
    | _ => rfl

theorem complete_unplaced (frames : List Frame) (e : Expr) :
    complete (frames.map Frame.unplaced) e.unplaced = (complete frames e).unplaced := by
  rw [complete, applySigns_unplaced]
  rfl

theorem reduce_unplaced (level : Nat) (frames : List Frame) (e : Expr) :
    reduce level (frames.map Frame.unplaced) e.unplaced =
      ((reduce level frames e).1.map Frame.unplaced, (reduce level frames e).2.unplaced) := by
  induction frames generalizing e with
  | nil => rfl
  | cons frame frames ih =>
    cases frame with
    | binary op l =>
      rw [List.map_cons, Frame.unplaced, reduce, reduce]
      split
      · rw [← ih, Expr.unplaced]
      · rfl
    | _ => rfl

/-! ## One token -/

theorem beginOperand_unplaced (frames : List Frame) (token : Token) (span : Span) :
    beginOperand (frames.map Frame.unplaced) token default =
      unplacedResult State.unplaced (beginOperand frames token span) := by
  have of_literal : ∀ token value, literal? token = some value →
      complete (frames.map Frame.unplaced) (.literal value default) =
        (complete frames (.literal value span)).unplaced := by
    intro token value _
    exact complete_unplaced frames (.literal value span)
  unfold beginOperand
  split
  case h_6 =>
    cases hliteral : literal? token with
    | none => rfl
    | some value => simp only [unplacedResult_ok, of_literal token value hliteral]
  all_goals rfl

theorem misplaced_unplaced (token : Token) (span : Span) (frames : List Frame) :
    misplaced token default (frames.map Frame.unplaced) =
      (misplaced token span frames).unplaced := by
  cases frames with
  | nil => rfl
  | cons frame frames =>
    cases frame with
    | items shape before =>
      rw [List.map_cons, Frame.unplaced, misplaced, misplaced, bracket_unplaced]
      rfl
    | _ => rfl

theorem followOperand_unplaced (frames : List Frame) (e : Expr) (token : Token) (span : Span) :
    followOperand (frames.map Frame.unplaced) e.unplaced token default =
      unplacedResult State.unplaced (followOperand frames e token span) := by
  have hmisplaced : ∀ above, Except.error (misplaced token default (above.map Frame.unplaced)) =
      unplacedResult State.unplaced (.error (misplaced token span above)) := by
    intro above
    rw [misplaced_unplaced, unplacedResult_error]
  cases token with
  | operator op =>
    simp only [followOperand, reduce_unplaced]
    rfl
  | comma =>
    simp only [followOperand, reduce_unplaced]
    cases (reduce 0 frames e).1 with
    | nil => exact hmisplaced []
    | cons frame above =>
      cases frame with
      | items shape before => rfl
      | binary op l => exact hmisplaced (.binary op l :: above)
      | unary op place => exact hmisplaced (.unary op place :: above)
      | group place => exact hmisplaced (.group place :: above)
  | closing b =>
    simp only [followOperand, reduce_unplaced]
    cases (reduce 0 frames e).1 with
    | nil => cases b <;> exact hmisplaced []
    | cons frame above =>
      cases frame with
      | binary op l => cases b <;> exact hmisplaced (.binary op l :: above)
      | unary op place => cases b <;> exact hmisplaced (.unary op place :: above)
      | group place =>
        cases b with
        | round => exact congrArg Except.ok (complete_unplaced above _)
        | square => exact hmisplaced (.group place :: above)
      | items shape before =>
        have herror := hmisplaced (.items shape before :: above)
        have hcomplete :=
          complete_unplaced above (shape.expr ((reduce 0 frames e).2 :: before).reverse)
        rw [expr_unplaced, List.map_reverse, List.map_cons] at hcomplete
        cases b <;> cases shape
        case round.call | square.list => exact congrArg Except.ok hcomplete
        all_goals exact herror
  | _ =>
    simp only [followOperand, reduce_unplaced]
    exact hmisplaced _

theorem step_unplaced (s : State) (token : Token) (span : Span) :
    step s.unplaced token default = unplacedResult State.unplaced (step s token span) := by
  obtain ⟨frames, focus⟩ := s
  cases focus with
  | operand => exact beginOperand_unplaced frames token span
  | complete e => exact followOperand_unplaced frames e token span
  | name name place =>
    simp only [State.unplaced, Focus.unplaced, step]
    split
    · rfl
    · have hname := applySigns_unplaced frames (.named name place)
      rw [Expr.unplaced] at hname
      rw [hname]
      exact followOperand_unplaced _ _ token span
  | firstItem =>
    have hbegin := beginOperand_unplaced frames token span
    cases token with
    | closing b =>
      rcases frames with _ | ⟨_ | _ | _ | ⟨shape, before⟩, above⟩
      case cons.items =>
        simp only [State.unplaced, Focus.unplaced, step, List.map_cons, Frame.unplaced,
          bracket_unplaced]
        split
        · rw [unplacedResult_ok, ← complete_unplaced, expr_unplaced]
          rfl
        · exact hbegin
      all_goals exact hbegin
    | _ => exact hbegin

/-! ## All tokens -/

theorem run_unplaced (s : State) (tokens : List (Token × Span)) :
    run s.unplaced (tokens.map fun t => (t.1, default)) =
      unplacedResult State.unplaced (run s tokens) := by
  induction tokens generalizing s with
  | nil => rfl
  | cons t tokens ih =>
    obtain ⟨token, span⟩ := t
    rw [List.map_cons, run_cons, run_cons, step_unplaced s token span]
    cases step s token span with
    | error err => rfl
    | ok s' => exact ih s'

theorem finishOperand_unplaced (line line' : Nat) (frames : List Frame) (e : Expr) :
    unplacedResult id (finishOperand line' (frames.map Frame.unplaced) e.unplaced) =
      unplacedResult Expr.unplaced (finishOperand line frames e) := by
  unfold finishOperand
  rw [reduce_unplaced]
  rcases reduce 0 frames e with ⟨above, e'⟩
  cases above with
  | nil => rfl
  | cons frame above => cases frame <;> rfl

theorem finish_unplaced (line line' : Nat) (s : State) :
    unplacedResult id (finish line' s.unplaced) = unplacedResult Expr.unplaced (finish line s) := by
  obtain ⟨frames, focus⟩ := s
  cases focus with
  | operand => rfl
  | firstItem => rfl
  | complete e => exact finishOperand_unplaced line line' frames e
  | name name place =>
    have hname := applySigns_unplaced frames (.named name place)
    rw [Expr.unplaced] at hname
    simp only [State.unplaced, Focus.unplaced, finish, hname]
    exact finishOperand_unplaced line line' _ _

theorem ofTokens_unplaced (tokens : List (Token × Span)) :
    unplacedResult id (Expr.ofTokens (tokens.map fun t => (t.1, default))) =
      unplacedResult Expr.unplaced (Expr.ofTokens tokens) := by
  have hrun := run_unplaced start tokens
  rw [ofTokens_eq, ofTokens_eq]
  change run start _ = _ at hrun
  rw [hrun]
  cases run start tokens with
  | error err => cases err <;> rfl
  | ok s => exact finish_unplaced _ _ s

/-- Tokens alone decide what the parser gives, apart from places. -/
theorem unplacedResult_ofTokens {tokens tokens' : List (Token × Span)}
    (h : tokens'.map Prod.fst = tokens.map Prod.fst) :
    unplacedResult Expr.unplaced (Expr.ofTokens tokens') =
      unplacedResult Expr.unplaced (Expr.ofTokens tokens) := by
  have hmap : ∀ ts : List (Token × Span),
      ts.map (fun t => (t.1, (default : Span))) = (ts.map Prod.fst).map fun t => (t, default) := by
    intro ts
    rw [List.map_map]
    rfl
  rw [← ofTokens_unplaced, ← ofTokens_unplaced, hmap, hmap, h]

end Parser

end TemplateExpr
