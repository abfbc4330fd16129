-- Which node a runtime error names: the first in post-order whose own step fails. The
-- place of the error is that of the node, a stretch of the source that is not empty, and
-- what it says of operators, names and texts is said of the node too.
import TemplateExpr.Proofs.Evaluation.CallOrder
import TemplateExpr.Proofs.Operation.Errors
import TemplateExpr.Proofs.Parser.Places
import TemplateExpr.Proofs.Scanner.Tiling
import TemplateExpr.Session.Sample

namespace TemplateExpr

/-! ## Places in a source -/

/-- A part of the source that is not empty, on the line that its first byte is on. -/
structure Span.IsIn (span : Span) (source : String) : Prop where
  nonempty : span.start < span.stop
  inside : span.stop ≤ source.utf8ByteSize
  line : ∃ before after, source.toList = before ++ after ∧
    span.start = Scanner.bytes before ∧ span.line = 1 + Scanner.lineBreaks before

theorem isIn_of_stretch {source : String} {tokens : List (Token × Span)} {span : Span}
    (h : Token.ofSource source = .ok tokens) (hspan : Parser.Stretch tokens span) :
    span.IsIn source := by
  obtain ⟨hstands, hpairwise⟩ := Scanner.stands_of_ofSource h
  obtain ⟨before, middle, after, first, last, rfl, hfirst, hlast, rfl⟩ := hspan
  have hmiddle : ∀ p ∈ middle, p ∈ before ++ (middle ++ after) := fun p hp =>
    List.mem_append_right _ (List.mem_append_left _ hp)
  have hfirst' := hstands first.1 first.2 (hmiddle first (List.mem_of_mem_head? hfirst))
  have hlast' := hstands last.1 last.2 (hmiddle last (List.mem_of_getLast? hlast))
  have horder : first.2.start < last.2.stop := by
    have hrow := (List.pairwise_append.1 (List.pairwise_append.1 hpairwise).2.1).1
    obtain ⟨more, rfl⟩ := List.head?_eq_some_iff.1 hfirst
    have hfirstLt := hfirst'.start_lt_stop
    have hlastLt := hlast'.start_lt_stop
    rcases List.mem_cons.1 (List.mem_of_getLast? hlast) with rfl | hmore
    · exact hfirstLt
    · have hle := (List.pairwise_cons.1 hrow).1 last hmore
      omega
  obtain ⟨text, slice, rest, hsource, hplace, _⟩ := hfirst'
  refine ⟨horder, hlast'.stop_le, text, slice ++ rest, hsource, ?_, ?_⟩
  · rw [Span.start_cover, hplace]
    rfl
  · rw [Span.line_cover, hplace]
    rfl

namespace Context

variable {σ : Type}

/-! ## What an error says -/

/-- A host function that fails refuses its arguments, at the place of the call. -/
def RefusesArguments (ctx : Context σ) : Prop :=
  ∀ name f, ctx.functions.find? name = some f → ∀ args span h s err,
    (f args span h s).1 = .error err → ∃ details, err = ⟨.invalidArgument details, span⟩

/-- The cause is one that this node can have, and what it names is of this node. -/
def Blames (ctx : Context σ) (n : Expr) : RuntimeError.Cause → Prop
  | .unsupportedOperator op text _ _ _ _ | .unsupportedTypes op text _ _ _ _
  | .notRepeatable op text => (∃ l r, n = .binary op l r) ∧ text = n.text
  | .divisionByZero text | .overflow text => (∃ op l r, n = .binary op l r) ∧ text = n.text
  | .conversionFailure _ _ _ _ => (∃ op l r, n = .binary op l r) ∨
      ∃ name arguments span, n = .call name arguments span ∧
        ctx.functions.find? name = none ∧ (Builtin.ofName? name).isSome = true
  | .unsupportedUnary op _ => ∃ e span, op = .negate ∧ n = .unary .negate e span
  | .unknownVariable name => ∃ span, n = .named name span
  | .unknownFunction name | .argumentCount name _ _ => ∃ arguments span,
      n = .call name arguments span
  | .invalidArgument _ => ∃ name arguments span, n = .call name arguments span

/-- The node is the first in post-order whose own step fails, and this is the error of its step. -/
def FirstToFail (ctx : Context σ) (e : Expr) (w : World σ) (n : Expr) (err : RuntimeError) : Prop :=
  ∃ before operands after, ctx.visits e.postorder [] w = before ++ [⟨n, operands, .error err⟩] ∧
    (∀ visit ∈ before, visit.Succeeded) ∧ ctx.Fed ⟨n, operands, .error err⟩ ∧
    e.postorder = before.map Visit.node ++ n :: after

/-! ## The step of a node -/

/-- No span of time is too long for a sign, so the only error of a sign is that of the kind. -/
theorem blames_unary {ctx : Context σ} {op : UnaryOp} {e : Expr} {span : Span} {v : Value}
    {err : RuntimeError} (h : op.apply e span v = .error err) :
    err.span = span ∧ ctx.Blames (.unary op e span) err.cause := by
  unfold UnaryOp.apply at h
  split at h
  case h_6 d =>
    obtain ⟨d', hd⟩ := d.exists_neg?
    rw [hd] at h
    cases h
  case h_7 =>
    cases h
    exact ⟨rfl, e, span, rfl, rfl⟩
  all_goals cases h

theorem blames_operation {ctx : Context σ} {o : Operation} {err : RuntimeError}
    (h : o.Raises err) : err.span = o.span ∧ ctx.Blames o.expr err.cause := by
  cases h with
  | unsupportedOperator | unsupportedTypes | notRepeatable => exact ⟨rfl, ⟨_, _, rfl⟩, rfl⟩
  | divisionByZero | overflow => exact ⟨rfl, ⟨_, _, _, rfl⟩, rfl⟩
  | conversionFailure => exact ⟨rfl, .inl ⟨_, _, _, rfl⟩⟩

theorem blames_builtin {ctx : Context σ} {name : String} {b : Builtin} {arguments : List Expr}
    {span : Span} {err : RuntimeError} (hfunction : ctx.functions.find? name = none)
    (hname : Builtin.ofName? name = some b) (h : b.Raises span err) :
    err.span = span ∧ ctx.Blames (.call name arguments span) err.cause := by
  have hb : b.name = name := by
    have hfound := List.find?_some hname
    simpa using hfound
  cases h with
  | argumentCount => exact ⟨rfl, arguments, span, by rw [hb]⟩
  | conversionFailure =>
    exact ⟨rfl, .inr ⟨name, arguments, span, rfl, hfunction, by rw [hname]; rfl⟩⟩
  | invalidArgument => exact ⟨rfl, name, arguments, span, rfl⟩

theorem blames_call {ctx : Context σ} (hhost : ctx.RefusesArguments) {name : String}
    {args : List Value} {arguments : List Expr} {span : Span} {w w' : World σ}
    {err : RuntimeError} (h : (ctx.call name args span).run w = (.error err, w')) :
    err.span = span ∧ ctx.Blames (.call name arguments span) err.cause := by
  unfold call Eval.run at h
  dsimp only at h
  split at h
  · rename_i f hf
    obtain ⟨details, rfl⟩ := hhost name f hf args span w.heap w.state err (congrArg Prod.fst h)
    exact ⟨rfl, name, arguments, span, rfl⟩
  · rename_i hfunction
    split at h
    · rename_i b hb
      exact blames_builtin hfunction hb (Builtin.raises_call (congrArg Prod.fst h))
    · cases h
      exact ⟨rfl, arguments, span, rfl⟩

/-- A node that fails gives an error about itself. -/
theorem blames_visit {ctx : Context σ} (hhost : ctx.RefusesArguments) {n : Expr}
    {operands : List Value} {w w' : World σ} {err : RuntimeError}
    (h : (ctx.visit n operands).run w = (.error err, w')) :
    err.span = n.span ∧ ctx.Blames n err.cause := by
  cases n with
  | literal value span => cases h
  | named name span =>
    have hlookup : ctx.lookup name span = .error err := congrArg Prod.fst h
    unfold lookup at hlookup
    split at hlookup
    · cases hlookup
    · cases hlookup
      exact ⟨rfl, span, rfl⟩
  | unary op e span => exact blames_unary (congrArg Prod.fst h)
  | binary op l r =>
    refine blames_operation (o := ⟨op, l, r⟩) ?_
    simp only [visit, Operation.perform, Eval.run] at h
    split at h
    · cases h
    · rename_i happly
      cases h
      exact Operation.raises_apply (Operation.converts_standard w.heap ctx.pattern) happly
  | call name arguments span => exact blames_call hhost h
  | list items span => cases h

/-! ## The law -/

theorem firstToFail_of_error {ctx : Context σ} {e : Expr} {w w' : World σ} {err : RuntimeError}
    (h : (ctx.eval e).run w = (.error err, w')) : ∃ n, ctx.FirstToFail e w n err := by
  have hwalk : (ctx.walk e.postorder []).run w = (.error err, w') := by
    rw [walk_postorder_nil, Eval.run_bind_error h]
  obtain ⟨before, last, after, hvisits, hbefore, hlast, hnodes⟩ := walk_failed hwalk
  have hfed := ctx.fed_postorder e [] w last (by rw [hvisits]; simp)
  obtain ⟨n, operands, result⟩ := last
  dsimp only at hlast hnodes
  subst hlast
  exact ⟨n, before, operands, after, hvisits, hbefore, hfed, hnodes⟩

/-- A runtime error names the first node in post-order whose own step fails. It is where the node
is, a part of the source that is not empty, and what it says is true of that node. -/
theorem a_runtime_error_names_the_node_that_failed (ctx : Context σ)
    (hhost : ctx.RefusesArguments) (source : String) (e : Expr)
    (hsource : Expr.ofSource source = .ok e) (w w' : World σ) (err : RuntimeError)
    (h : (ctx.eval e).run w = (.error err, w')) :
    ∃ n, ctx.FirstToFail e w n err ∧ err.span = n.span ∧ err.span.IsIn source ∧
      ctx.Blames n err.cause := by
  obtain ⟨n, hfirst⟩ := firstToFail_of_error h
  obtain ⟨tokens, htokens, hparse⟩ := tokens_of_ofSource hsource
  have hmem : n ∈ e.postorder := by
    obtain ⟨before, operands, after, _, _, _, hnodes⟩ := hfirst
    rw [hnodes]
    exact List.mem_append_right _ List.mem_cons_self
  have hblame : err.span = n.span ∧ ctx.Blames n err.cause := by
    obtain ⟨before, operands, after, _, _, ⟨_, w₁, w₂, _, hvisit⟩, _⟩ := hfirst
    exact blames_visit hhost hvisit
  refine ⟨n, hfirst, hblame.1, ?_, hblame.2⟩
  rw [hblame.1]
  exact isIn_of_stretch htokens (Parser.made_of_ofTokens hparse n hmem)

/-- A host with a function that always refuses its arguments. -/
def refusing : Context Journal := { functions := ⟨[("refuse", Sample.function .fail "refuse" 0)]⟩ }

theorem refusesArguments_refusing : refusing.RefusesArguments := by
  intro name f hf args span h s err herr
  have hlookup : List.lookup name [("refuse", Sample.function .fail "refuse" 0)] = some f := hf
  rw [List.lookup_cons] at hlookup
  split at hlookup
  · cases hlookup
    cases herr
    exact ⟨_, rfl⟩
  · cases hlookup

/-- The expression of `[1,` and, on the next line, `7 // 0]`. -/
def division : Expr :=
  .list [.literal (.int 1) ⟨1, 2, 1⟩,
    .binary .quotient (.literal (.int 7) ⟨4, 5, 2⟩) (.literal (.int 0) ⟨9, 10, 2⟩)] ⟨0, 1, 1⟩

/-- A division by zero on the second line of a list. -/
theorem a_division_by_zero_names_its_node :
    refusing.RefusesArguments ∧ Expr.ofSource "[1,\n7 // 0]" = .ok division ∧
      ((refusing.eval division).run ⟨{}, {}, #[]⟩).1 =
        .error ⟨.divisionByZero "7 // 0", ⟨4, 10, 2⟩⟩ ∧
      ∃ n, refusing.FirstToFail division ⟨{}, {}, #[]⟩ n
          ⟨.divisionByZero "7 // 0", ⟨4, 10, 2⟩⟩ ∧ ⟨4, 10, 2⟩ = n.span ∧
        Span.IsIn ⟨4, 10, 2⟩ "[1,\n7 // 0]" ∧ refusing.Blames n (.divisionByZero "7 // 0") := by
  have htokens : Token.ofSource "[1,\n7 // 0]" = .ok [(.opening .square, ⟨0, 1, 1⟩),
      (.integer 1, ⟨1, 2, 1⟩), (.comma, ⟨2, 3, 1⟩), (.integer 7, ⟨4, 5, 2⟩),
      (.operator .quotient, ⟨6, 8, 2⟩), (.integer 0, ⟨9, 10, 2⟩),
      (.closing .square, ⟨10, 11, 2⟩)] := by decide +kernel
  have hsource : Expr.ofSource "[1,\n7 // 0]" = .ok division := by
    rw [Expr.ofSource, htokens]
    rfl
  have herror : ((refusing.eval division).run ⟨{}, {}, #[]⟩).1 =
      .error ⟨.divisionByZero "7 // 0", ⟨4, 10, 2⟩⟩ := by rfl
  exact ⟨refusesArguments_refusing, hsource, herror,
    a_runtime_error_names_the_node_that_failed refusing refusesArguments_refusing _ division
      hsource _ _ _ (Prod.ext herror rfl)⟩

end Context

end TemplateExpr
