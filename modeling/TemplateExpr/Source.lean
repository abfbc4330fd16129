-- Evaluating a source: it is read as an expression, and the expression is evaluated.
-- Nothing happens in the world if the source cannot be read.
import TemplateExpr.Evaluation
import TemplateExpr.Expr.Parser

namespace TemplateExpr

/-- Why a source has no value. -/
inductive Failure where
  | source (e : SyntaxError)
  | evaluation (e : RuntimeError)
deriving DecidableEq

def Failure.message : Failure → String
  | source e => e.message
  | evaluation e => e.message

/-- The value of a source, and the world after its evaluation. -/
def Context.evalSource {σ : Type} (ctx : Context σ) (source : String) (w : World σ) :
    Except Failure Value × World σ :=
  match Expr.ofSource source with
  | .error e => (.error (.source e), w)
  | .ok e => (((ctx.eval e).run w).1.mapError .evaluation, ((ctx.eval e).run w).2)

end TemplateExpr
