-- From tokens to expressions, one token at a time. What has been read stands on a
-- stack of frames: left operands that wait for their right one, signs that wait for
-- an operand, and open brackets. An operator first takes up the frames that bind at
-- least as tightly, so operators of one level associate to the left; a sign takes the
-- very next primary. Every state that has been reached can be completed to a whole
-- expression, which is why an error names the first token that cannot go on.
import TemplateExpr.Expr
import TemplateExpr.Token.Scanner

namespace TemplateExpr

namespace Parser

/-! ## States -/

/-- What a comma-separated sequence is for. -/
inductive Shape where
  | list (span : Span)
  | call (name : String) (span : Span)

namespace Shape

def bracket : Shape → Bracket
  | list _ => .square
  | call _ _ => .round

def expr (items : List Expr) : Shape → Expr
  | list span => .list items span
  | call name span => .call name items span

end Shape

/-- Something begun that waits for what follows. The items of a sequence are kept latest first. -/
inductive Frame where
  | binary (op : BinaryOp) (left : Expr)
  | unary (op : UnaryOp) (span : Span)
  | group (opening : Span)
  | items (shape : Shape) (before : List Expr)

/-- What the next token has to be. -/
inductive Focus where
  /-- The start of an operand. -/
  | operand
  /-- The start of an operand, or the end of a sequence that is still empty. -/
  | firstItem
  /-- The opening bracket of a call, or what follows an operand that is this name. -/
  | name (name : String) (span : Span)
  /-- What follows a complete operand. -/
  | complete (e : Expr)

structure State where
  frames : List Frame
  focus : Focus

def start : State := ⟨[], .operand⟩

/-! ## Taking up frames -/

/-- A primary goes under the signs in front of it. -/
def applySigns : List Frame → Expr → List Frame × Expr
  | .unary op s :: frames, e => applySigns frames (.unary op e (s.cover e.span))
  | frames, e => (frames, e)

/-- The state after a primary. -/
def complete (frames : List Frame) (e : Expr) : State :=
  ⟨(applySigns frames e).1, .complete (applySigns frames e).2⟩

/-- Left operands whose operators bind at least as tightly as a level get what was read as their
right operand. -/
def reduce (level : Nat) : List Frame → Expr → List Frame × Expr
  | .binary op l :: frames, e =>
    if level ≤ op.level then reduce level frames (.binary op l e) else (.binary op l :: frames, e)
  | frames, e => (frames, e)

/-! ## One token -/

/-- The literal that a token stands for. Integers are ints where they fit and longs otherwise. -/
def literal? : Token → Option Literal
  | .null => some .null
  | .bool b => some (.bool b)
  | .integer n => some (((int32? n.toInt).map Literal.int).getD (.long n))
  | .long n => some (.long n)
  | .float x => some (.float x)
  | .double x => some (.double x)
  | .string s => some (.string s)
  | _ => none

/-- A token where an operand has to begin. -/
def beginOperand (frames : List Frame) (token : Token) (span : Span) :
    Except SyntaxError State :=
  match token with
  | .identifier name => .ok ⟨frames, .name name span⟩
  | .opening .round => .ok ⟨.group span :: frames, .operand⟩
  | .opening .square => .ok ⟨.items (.list span) [] :: frames, .firstItem⟩
  | .operator .subtract => .ok ⟨.unary .negate span :: frames, .operand⟩
  | .bang => .ok ⟨.unary .not span :: frames, .operand⟩
  | token =>
    match literal? token with
    | some value => .ok (complete frames (.literal value span))
    | none => .error (.unexpectedToken token.text span)

/-- The error for a token that cannot follow an operand inside these frames. -/
def misplaced (token : Token) (span : Span) : List Frame → SyntaxError
  | .group _ :: _ => .expectedDelimiter ')' span
  | .items shape _ :: _ => .expectedDelimiter shape.bracket.closer span
  | _ => .trailingToken token.text span

/-- A token after an operand. -/
def followOperand (frames : List Frame) (e : Expr) (token : Token) (span : Span) :
    Except SyntaxError State :=
  match token with
  | .operator op =>
    let taken := reduce op.level frames e
    .ok ⟨.binary op taken.2 :: taken.1, .operand⟩
  | token =>
    let taken := reduce 0 frames e
    match token, taken.1 with
    | .comma, .items shape before :: frames =>
      .ok ⟨.items shape (taken.2 :: before) :: frames, .operand⟩
    | .closing .round, .group _ :: frames => .ok (complete frames taken.2)
    | .closing b, .items shape before :: frames =>
      if b = shape.bracket then .ok (complete frames (shape.expr (taken.2 :: before).reverse))
      else .error (misplaced token span taken.1)
    | token, frames => .error (misplaced token span frames)

/-- The state after one more token. -/
def step (s : State) (token : Token) (span : Span) : Except SyntaxError State :=
  match s.focus with
  | .operand => beginOperand s.frames token span
  | .firstItem =>
    match token, s.frames with
    | .closing b, .items shape _ :: frames =>
      if b = shape.bracket then .ok (complete frames (shape.expr []))
      else beginOperand s.frames token span
    | _, _ => beginOperand s.frames token span
  | .name name place =>
    if token = .opening .round then .ok ⟨.items (.call name place) [] :: s.frames, .firstItem⟩
    else
      let primary := applySigns s.frames (.named name place)
      followOperand primary.1 primary.2 token span
  | .complete e => followOperand s.frames e token span

/-! ## The end of the tokens -/

/-- The expression that is complete where the tokens end, the last of them on this line. -/
def finishOperand (line : Nat) (frames : List Frame) (e : Expr) : Except SyntaxError Expr :=
  match reduce 0 frames e with
  | ([], e) => .ok e
  | (.group opening :: _, _) => .error (.expectedDelimiter ')' opening)
  | _ => .error (.unexpectedEnd line)

def finish (line : Nat) (s : State) : Except SyntaxError Expr :=
  match s.focus with
  | .operand | .firstItem => .error (.unexpectedEnd line)
  | .name name place =>
    let primary := applySigns s.frames (.named name place)
    finishOperand line primary.1 primary.2
  | .complete e => finishOperand line s.frames e

/-- The line of the last token, or the first line where there is none. -/
def lastLine (tokens : List (Token × Span)) : Nat := (tokens.getLast?.map (·.2.line)).getD 1

end Parser

namespace Expr

/-- The expression that the tokens spell. -/
def ofTokens (tokens : List (Token × Span)) : Except SyntaxError Expr := do
  let s ← tokens.foldlM (fun s (token, span) => Parser.step s token span) Parser.start
  Parser.finish (Parser.lastLine tokens) s

/-- The expression that a source spells. -/
def ofSource (source : String) : Except SyntaxError Expr := Token.ofSource source >>= ofTokens

end Expr

end TemplateExpr
