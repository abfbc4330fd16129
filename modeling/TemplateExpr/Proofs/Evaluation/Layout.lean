-- Layout does not matter, from the source to its value. Places come in with the source and
-- go out with errors; nothing between looks at them unless a function of the host does.
import TemplateExpr.Proofs.Evaluation.Postorder
import TemplateExpr.Proofs.Operation.Likeness
import TemplateExpr.Proofs.Parser.Placeless
import TemplateExpr.Proofs.Printer.Spelling
import TemplateExpr.Proofs.Scanner.Layout
import TemplateExpr.Session.Sample

namespace TemplateExpr

/-! ## Computations that agree but for places -/

namespace Eval

variable {σ α β : Type}

/-- In every world the computations give the same, but for the places of errors, and leave the same
world. -/
def Agree (x y : Eval σ α) : Prop :=
  ∀ w, keyed id (y.run w).1 = keyed id (x.run w).1 ∧ (y.run w).2 = (x.run w).2

theorem Agree.refl (x : Eval σ α) : Agree x x := fun _ => ⟨rfl, rfl⟩

theorem Agree.symm {x y : Eval σ α} (h : Agree x y) : Agree y x :=
  fun w => ⟨(h w).1.symm, (h w).2.symm⟩

theorem Agree.trans {x y z : Eval σ α} (hxy : Agree x y) (hyz : Agree y z) : Agree x z :=
  fun w => ⟨(hyz w).1.trans (hxy w).1, (hyz w).2.trans (hxy w).2⟩

theorem Agree.bind {x y : Eval σ α} {f g : α → Eval σ β} (hxy : Agree x y)
    (hfg : ∀ a, Agree (f a) (g a)) : Agree (x >>= f) (y >>= g) := by
  intro w
  obtain ⟨hresult, hworld⟩ := hxy w
  rcases hx : x.run w with ⟨err | a, w₁⟩
  · rcases hy : y.run w with ⟨err' | b, w₂⟩
    · rw [run_bind_error hx, run_bind_error hy]
      rw [hx, hy] at hresult hworld
      exact ⟨congrArg Except.error (Except.error.inj hresult), hworld⟩
    · rw [hx, hy] at hresult
      cases hresult
  · rcases hy : y.run w with ⟨err' | b, w₂⟩
    · rw [hx, hy] at hresult
      cases hresult
    · rw [run_bind_ok hx, run_bind_ok hy]
      rw [hx, hy] at hresult hworld
      cases hresult
      cases hworld
      exact hfg a w₁

theorem agree_ofExcept {x y : Except RuntimeError α} (h : keyed id y = keyed id x) :
    Agree (ofExcept x : Eval σ α) (ofExcept y) := fun _ => ⟨h, rfl⟩

end Eval

/-! ## Operations without places -/

theorem Expr.children_unplaced (e : Expr) : e.unplaced.children = e.children.map unplaced := by
  cases e <;> simp [unplaced, children, unplacedAll_eq_map]

namespace Operation

/-- The operation between its operands without places. -/
def unplaced (o : Operation) : Operation := ⟨o.op, o.left.unplaced, o.right.unplaced⟩

theorem text_unplaced (e : Expr) : e.unplaced.text = e.text := by
  rw [← Tree.text_tree, Expr.tree_unplaced, Tree.text_tree]

/-- Without places an operation has the same errors, apart from the places. -/
theorem like_unplaced (o : Operation) : Like id o o.unplaced := by
  have htext : o.unplaced.text = o.text := text_unplaced o.expr
  constructor
  · rfl
  · intro k l
    simp only [id, unsupportedOperator, htext]
    rw [unplaced, text_unplaced, text_unplaced]
  · intro s k t l
    rw [htext]
    rfl
  · simp only [id, notRepeatable, htext]
    rfl
  · simp only [id, divisionByZero, htext]
  · simp only [id, overflow, htext]

theorem agree_perform {σ : Type} (o : Operation) (pattern : String) (a b : Value) :
    Eval.Agree (o.perform (fun h => .standard h pattern) a b : Eval σ Value)
      (o.unplaced.perform (fun h => .standard h pattern) a b) := by
  intro w
  obtain ⟨hresult, hevents⟩ := Prod.mk.inj (o.like_unplaced.run w.heap pattern a b)
  simp only [perform, Eval.run, hevents]
  rcases keyed_cases hresult with ⟨outcome, hx, hy⟩ | ⟨err, err', hx, hy, hkey⟩
  · rw [hx, hy]
    exact ⟨rfl, rfl⟩
  · rw [hx, hy]
    exact ⟨congrArg Except.error hkey, rfl⟩

end Operation

/-! ## Evaluation without places -/

namespace Context

variable {σ : Type}

/-- The host functions do the same wherever they are called from, but for the places of errors. -/
def IgnoresPlaces (ctx : Context σ) : Prop :=
  ∀ name f, ctx.functions.find? name = some f → ∀ args span span' h s,
    keyed id (f args span' h s).1 = keyed id (f args span h s).1 ∧
      (f args span' h s).2 = (f args span h s).2

namespace IgnoresPlaces

variable {ctx : Context σ} (hctx : ctx.IgnoresPlaces)

include hctx

theorem agree_call (name : String) (args : List Value) (span span' : Span) :
    Eval.Agree (ctx.call name args span) (ctx.call name args span') := by
  intro w
  simp only [call, Eval.run]
  cases hf : ctx.functions.find? name with
  | some f =>
    obtain ⟨hresult, hafter⟩ := hctx name f hf args span span' w.heap w.state
    exact ⟨hresult, by simp only [hafter]⟩
  | none =>
    cases Builtin.ofName? name with
    | some b =>
      have hargs : List.Forall₂ (Indistinct id w.heap w.heap) args args :=
        List.forall₂_same.2 fun v _ => .refl w.heap v
      exact ⟨b.keyed_call hargs span span', rfl⟩
    | none => exact ⟨rfl, rfl⟩

/-- The step of a node does not depend on places. -/
theorem agree_visit (n : Expr) (operands : List Value) :
    Eval.Agree (ctx.visit n operands) (ctx.visit n.unplaced operands) := by
  cases n with
  | literal value span => exact .refl _
  | named name span =>
    apply Eval.agree_ofExcept
    unfold lookup
    split <;> rfl
  | unary op e span =>
    have hv : Indistinct id {} {} (operands.headD .null) (operands.headD .null) := .refl _ _
    exact Eval.agree_ofExcept (op.keyed_apply _ _ _ _ hv)
  | binary op l r => exact Operation.agree_perform ⟨op, l, r⟩ ctx.pattern _ _
  | call name arguments span => exact hctx.agree_call name operands span default
  | list items span => exact .refl _

omit hctx in
theorem agree_evalAll {es : List Expr}
    (h : ∀ e ∈ es, Eval.Agree (ctx.eval e) (ctx.eval e.unplaced)) :
    Eval.Agree (ctx.evalAll es) (ctx.evalAll (es.map Expr.unplaced)) := by
  induction es with
  | nil => exact .refl _
  | cons e es ih =>
    have he := h e List.mem_cons_self
    have hes := ih fun c hc => h c (List.mem_cons_of_mem e hc)
    rw [List.map_cons, evalAll, evalAll]
    exact he.bind fun v => hes.bind fun vs => .refl _

/-- Without places an expression has the same value, and does the same to the world. -/
theorem agree_unplaced (e : Expr) : Eval.Agree (ctx.eval e) (ctx.eval e.unplaced) := by
  induction e using Expr.of_children with
  | step e ih =>
    rw [eval_eq_visit, eval_eq_visit, Expr.children_unplaced]
    exact (agree_evalAll ih).bind fun operands => hctx.agree_visit e operands

end IgnoresPlaces

/-! ## Sources that mean the same -/

/-- Two readings that are the same but for places: expressions with one tree, or errors of one
kind that name the same token. -/
def SameReading : Except SyntaxError Expr → Except SyntaxError Expr → Prop
  | .ok e, .ok e' => e'.tree = e.tree
  | .error err, .error err' => err'.unplaced = err.unplaced
  | _, _ => False

/-- Two sources with the same tokens, the same readings and the same evaluations, but for places. -/
structure SameMeaning (ctx : Context σ) (source source' : String) : Prop where
  tokens : ∃ tokens tokens', Token.ofSource source = .ok tokens ∧
    Token.ofSource source' = .ok tokens' ∧ tokens'.map Prod.fst = tokens.map Prod.fst
  reading : SameReading (Expr.ofSource source) (Expr.ofSource source')
  evaluation : ∀ e e', Expr.ofSource source = .ok e → Expr.ofSource source' = .ok e' →
    Eval.Agree (ctx.eval e) (ctx.eval e')

/-- Sources with the same tokens mean the same. -/
theorem IgnoresPlaces.sameMeaning {ctx : Context σ} (hctx : ctx.IgnoresPlaces)
    {source source' : String} {tokens tokens' : List (Token × Span)}
    (h : Token.ofSource source = .ok tokens) (h' : Token.ofSource source' = .ok tokens')
    (htokens : tokens'.map Prod.fst = tokens.map Prod.fst) : ctx.SameMeaning source source' := by
  have hsource : Expr.ofSource source = Expr.ofTokens tokens := by rw [Expr.ofSource, h]; rfl
  have hsource' : Expr.ofSource source' = Expr.ofTokens tokens' := by rw [Expr.ofSource, h']; rfl
  have hreading := Parser.unplacedResult_ofTokens htokens
  refine ⟨⟨tokens, tokens', h, h', htokens⟩, ?_, ?_⟩
  · rw [hsource, hsource']
    cases hx : Expr.ofTokens tokens with
    | error err =>
      cases hy : Expr.ofTokens tokens' with
      | error err' =>
        rw [hx, hy] at hreading
        exact Except.error.inj hreading
      | ok e' =>
        rw [hx, hy] at hreading
        cases hreading
    | ok e =>
      cases hy : Expr.ofTokens tokens' with
      | error err' =>
        rw [hx, hy] at hreading
        cases hreading
      | ok e' =>
        rw [hx, hy] at hreading
        have htrees := congrArg Expr.tree (Except.ok.inj hreading)
        rwa [Expr.tree_unplaced, Expr.tree_unplaced] at htrees
  · intro e e' he he'
    rw [← hsource, ← hsource', he, he'] at hreading
    have hexpr : e'.unplaced = e.unplaced := Except.ok.inj hreading
    have hunplaced' := hctx.agree_unplaced e'
    rw [hexpr] at hunplaced'
    exact (hctx.agree_unplaced e).trans hunplaced'.symm

/-- Layout does not matter. What stands at the places of the tokens of a source, in the same order
and with any layout before, between and after, means what the source means in every context whose
functions do not look at places. -/
theorem layout_does_not_matter (ctx : Context σ) (hctx : ctx.IgnoresPlaces) (source : String)
    (tokens : List (Token × Span)) (h : Token.ofSource source = .ok tokens) :
    ∃ slices, List.Forall₂ (Scanner.At source.toList) (tokens.map Prod.snd) slices ∧
      ∀ source', Scanner.Spaced slices source'.toList → ctx.SameMeaning source source' := by
  obtain ⟨slices, hslices⟩ := Scanner.exists_slices h
  refine ⟨slices, hslices, ?_⟩
  intro source' hspaced
  obtain ⟨tokens', h', htokens⟩ := Scanner.tokens_of_spaced h hslices hspaced
  exact hctx.sameMeaning h h' htokens

/-- A host with a function that fails at the place of its call. -/
def failing : Context Journal := { functions := ⟨[("fail", Sample.function .fail "fail" 0)]⟩ }

theorem ignoresPlaces_failing : failing.IgnoresPlaces := by
  intro name f hf args span span' h s
  have hlookup : List.lookup name [("fail", Sample.function .fail "fail" 0)] = some f := hf
  rw [List.lookup_cons] at hlookup
  split at hlookup
  · cases hlookup
    exact ⟨rfl, rfl⟩
  · cases hlookup

/-- A call whose tokens are pulled apart, with a comment inside the range. -/
theorem a_call_over_two_lines_means_the_same :
    failing.IgnoresPlaces ∧
      failing.SameMeaning "fail(1..3)" " fail ( 1\t..# to\n3 )\x0c" := by
  have htokens : Token.ofSource "fail(1..3)" = .ok [(.identifier "fail", ⟨0, 4, 1⟩),
      (.opening .round, ⟨4, 5, 1⟩), (.integer 1, ⟨5, 6, 1⟩), (.operator .through, ⟨6, 8, 1⟩),
      (.integer 3, ⟨8, 9, 1⟩), (.closing .round, ⟨9, 10, 1⟩)] := by decide +kernel
  have hat : List.Forall₂ (Scanner.At "fail(1..3)".toList)
      [⟨0, 4, 1⟩, ⟨4, 5, 1⟩, ⟨5, 6, 1⟩, ⟨6, 8, 1⟩, ⟨8, 9, 1⟩, ⟨9, 10, 1⟩]
      ["fail".toList, ['('], ['1'], ['.', '.'], ['3'], [')']] :=
    .cons ⟨[], "(1..3)".toList, by decide, by decide⟩ <|
    .cons ⟨"fail".toList, "1..3)".toList, by decide, by decide⟩ <|
    .cons ⟨"fail(".toList, "..3)".toList, by decide, by decide⟩ <|
    .cons ⟨"fail(1".toList, "3)".toList, by decide, by decide⟩ <|
    .cons ⟨"fail(1..".toList, [')'], by decide, by decide⟩ <|
    .cons ⟨"fail(1..3".toList, [], by decide, by decide⟩ .nil
  obtain ⟨slices, hslices, hspaced⟩ :=
    layout_does_not_matter failing ignoresPlaces_failing "fail(1..3)" _ htokens
  obtain rfl := Scanner.slices_unique hslices hat
  refine ⟨ignoresPlaces_failing, hspaced _ ?_⟩
  have hclosing : Scanner.Spaced [[')']] ([' '] ++ ([')'] ++ ['\x0c'])) :=
    .slice (.blank (by decide) .nil) (by simp) (.layout (.blank (by decide) .nil))
  have hcomment : Pattern.Layout "# to\n".toList "3 )\x0c".toList :=
    @Pattern.Layout.comment " to".toList ['\n'] _ (by simp) (by simp) (.blank (by simp) .nil)
  have hthree : Scanner.Spaced [['3'], [')']] ("# to\n".toList ++ (['3'] ++ " )\x0c".toList)) :=
    .slice hcomment (by simp [Scanner.layoutStarts]) hclosing
  have hrange : Scanner.Spaced [['.', '.'], ['3'], [')']]
      (['\t'] ++ ("..".toList ++ "# to\n3 )\x0c".toList)) :=
    .slice (.blank (by simp) .nil) (by simp [Scanner.layoutStarts]) hthree
  have hone : Scanner.Spaced [['1'], ['.', '.'], ['3'], [')']]
      ([' '] ++ (['1'] ++ "\t..# to\n3 )\x0c".toList)) :=
    .slice (.blank (by simp) .nil) (by simp [Scanner.layoutStarts]) hrange
  have hopening : Scanner.Spaced [['('], ['1'], ['.', '.'], ['3'], [')']]
      ([' '] ++ (['('] ++ " 1\t..# to\n3 )\x0c".toList)) :=
    .slice (.blank (by simp) .nil) (by simp [Scanner.layoutStarts]) hone
  have hname : Scanner.Spaced ["fail".toList, ['('], ['1'], ['.', '.'], ['3'], [')']]
      ([' '] ++ ("fail".toList ++ " ( 1\t..# to\n3 )\x0c".toList)) :=
    .slice (.blank (by simp) .nil) (by simp [Scanner.layoutStarts]) hopening
  exact hname

end Context

end TemplateExpr
