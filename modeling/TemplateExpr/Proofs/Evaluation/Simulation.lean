-- Evaluation side by side. Without functions of the host, an expression gives in two worlds
-- that have grown out of one values that are alike or errors of one variant, because no node
-- looks at which lists its operands are or at how they were written.
import TemplateExpr.Proofs.Evaluation.Building
import TemplateExpr.Proofs.Operation.Alike

namespace TemplateExpr

/-! ## Computations side by side -/

namespace Eval

variable {σ α β γ δ : Type}

/-- The computation makes lists and does nothing else to the heap. -/
def Grows (x : Eval σ α) : Prop := ∀ w : World σ, w.heap.Grown (x.run w).2.heap

theorem Grows.of_run {x : Eval σ α} (hx : x.Grows) {w w₁ : World σ} {a : Except RuntimeError α}
    (h : x.run w = (a, w₁)) : w.heap.Grown w₁.heap := by
  have hgrown := hx w
  rwa [h] at hgrown

theorem grows_ofExcept (x : Except RuntimeError α) : (ofExcept x : Eval σ α).Grows :=
  fun w => .refl w.heap

theorem Grows.bind {x : Eval σ α} {f : α → Eval σ β} (hx : x.Grows) (hf : ∀ a, (f a).Grows) :
    (x >>= f).Grows := by
  intro w
  rcases hrun : x.run w with ⟨err | a, w₁⟩
  · rw [run_bind_error hrun]
    exact hx.of_run hrun
  · rw [run_bind_ok hrun]
    exact (hx.of_run hrun).trans (hf a w₁)

/-- From two worlds the computations give results that are related in what they leave. -/
def Alike (R : Heap → Heap → α → β → Prop) (x : Eval σ α) (y : Eval σ β) (w w' : World σ) : Prop :=
  SameResult (R (x.run w).2.heap (y.run w').2.heap) (x.run w).1 (y.run w').1

theorem alike_of_run {R : Heap → Heap → α → β → Prop} {x : Eval σ α} {y : Eval σ β}
    {w w' w₁ w₁' : World σ} {a : Except RuntimeError α} {b : Except RuntimeError β}
    (hx : x.run w = (a, w₁)) (hy : y.run w' = (b, w₁'))
    (h : SameResult (R w₁.heap w₁'.heap) a b) : Alike R x y w w' := by
  unfold Alike
  rwa [hx, hy]

theorem Alike.bind {R : Heap → Heap → α → β → Prop} {S : Heap → Heap → γ → δ → Prop}
    {x : Eval σ α} {y : Eval σ β} {f : α → Eval σ γ} {g : β → Eval σ δ} {w w' : World σ}
    (hxy : Alike R x y w w')
    (hfg : ∀ a b w₁ w₁', x.run w = (.ok a, w₁) → y.run w' = (.ok b, w₁') →
      R w₁.heap w₁'.heap a b → Alike S (f a) (g b) w₁ w₁') :
    Alike S (x >>= f) (y >>= g) w w' := by
  unfold Alike at hxy
  rcases hx : x.run w with ⟨result, w₁⟩
  rcases hy : y.run w' with ⟨result', w₁'⟩
  rw [hx, hy] at hxy
  cases hxy with
  | ok hR =>
    exact alike_of_run (run_bind_ok hx f) (run_bind_ok hy g) (hfg _ _ w₁ w₁' hx hy hR)
  | error he => exact alike_of_run (run_bind_error hx f) (run_bind_error hy g) (.error he)

end Eval

namespace Operation

variable {σ : Type}

theorem grows_perform (o : Operation) (coercions : Heap → Coercions) (a b : Value) :
    (o.perform coercions a b : Eval σ Value).Grows := by
  intro w
  cases h : o.apply (coercions w.heap) w.heap a b with
  | error err =>
    rw [run_perform_of_error h]
    exact .refl _
  | ok outcome =>
    rw [run_perform_of_ok h]
    exact w.heap.grown_place outcome

theorem alike_perform {o o' : Operation} {h₀ : Heap} {w w' : World σ} {a a' b b' : Value}
    (hop : o'.op = o.op) (hc : h₀.Closed) (hw : h₀.Grown w.heap) (hw' : h₀.Grown w'.heap)
    (ha : w.heap.Alike w'.heap a a') (hb : w.heap.Alike w'.heap b b')
    (hends : Ends o.op w.heap a b) (pattern : String) :
    Eval.Alike Heap.Alike (o.perform (fun h => .standard h pattern) a b)
      (o'.perform (fun h => .standard h pattern) a' b') w w' := by
  have happly := alike_apply hop hc hw hw' ha hb hends pattern
  generalize hx : o.apply (.standard w.heap pattern) w.heap a b = x at happly
  generalize hy : o'.apply (.standard w'.heap pattern) w'.heap a' b' = y at happly
  cases happly with
  | ok houtcome =>
    exact Eval.alike_of_run (run_perform_of_ok hx) (run_perform_of_ok hy) (.ok houtcome.place)
  | error herror =>
    exact Eval.alike_of_run (run_perform_of_error hx) (run_perform_of_error hy) (.error herror)

end Operation

/-! ## Nodes side by side -/

theorem forall₂_getD {α β : Type} {R : α → β → Prop} {as : List α} {bs : List β}
    (hall : List.Forall₂ R as bs) {a : α} {b : β} (hab : R a b) (i : Nat) :
    R (as.getD i a) (bs.getD i b) := by
  induction hall generalizing i with
  | nil => exact hab
  | cons hfirst _ ih =>
    cases i with
    | zero => exact hfirst
    | succ i => exact ih i

/-- Two nodes that are the same but for what is below them. -/
inductive Expr.Kin : Expr → Expr → Prop
  | literal (value : Literal) (span : Span) : Kin (.literal value span) (.literal value span)
  | named (name : String) (span : Span) : Kin (.named name span) (.named name span)
  | unary (op : UnaryOp) (e e' : Expr) (span : Span) : Kin (.unary op e span) (.unary op e' span)
  | binary (op : BinaryOp) (l l' r r' : Expr) : Kin (.binary op l r) (.binary op l' r')
  | call (name : String) (arguments arguments' : List Expr) (span : Span) :
      Kin (.call name arguments span) (.call name arguments' span)
  | list (items items' : List Expr) (span : Span) : Kin (.list items span) (.list items' span)

theorem Expr.Kin.refl (n : Expr) : Kin n n := by
  cases n <;> constructor

/-- The step of a node comes to an end on these operands. -/
def Expr.EndsOn (h : Heap) (operands : List Value) : Expr → Prop
  | .binary op _ _ => Operation.Ends op h (operands.headD .null) (operands.getD 1 .null)
  | _ => True

namespace Context

variable {σ : Type}

/-- The values of the variables, and all that the heap holds, can be had of the heap. -/
structure LivesIn (ctx : Context σ) (h : Heap) : Prop where
  closed : h.Closed
  values : ∀ name v, ctx.values.find? name = some v → v.In h

/-- The node is no call of a function of the host. -/
def HostFree (ctx : Context σ) : Expr → Prop
  | .call name _ _ => ctx.functions.find? name = none
  | _ => True

/-- The node is no variable that has another value among these. -/
def Unmoved (ctx : Context σ) (values : Bindings Value) : Expr → Prop
  | .named name _ => values.find? name = ctx.values.find? name
  | _ => True

section

variable {ctx : Context σ} {values : Bindings Value} {h₀ : Heap} {w w' : World σ}

theorem alike_call {name : String} (hname : ctx.functions.find? name = none)
    {args args' : List Value} (hargs : List.Forall₂ (w.heap.Alike w'.heap) args args')
    (span : Span) :
    Eval.Alike Heap.Alike (ctx.call name args span)
      (Context.call { ctx with values } name args' span) w w' := by
  cases hb : Builtin.ofName? name with
  | none =>
    exact Eval.alike_of_run (run_call_of_unknown hname hb args span w)
      (run_call_of_unknown hname hb args' span w') (.error rfl)
  | some b =>
    have hindistinct := hargs.imp fun v v' hv => hv.indistinct
    exact Eval.alike_of_run (run_call_of_builtin hname hb args span w)
      (run_call_of_builtin hname hb args' span w')
      (Heap.alike_of_keyed (b.keyed_call hindistinct span span) fun _ hv =>
        b.ne_list_of_call hv)

theorem alike_lookup (hlives : ctx.LivesIn h₀) (hw : h₀.Grown w.heap) (hw' : h₀.Grown w'.heap)
    {name : String} (hname : values.find? name = ctx.values.find? name) (span : Span) :
    SameResult (w.heap.Alike w'.heap) (ctx.lookup name span)
      (Context.lookup { ctx with values } name span) := by
  unfold lookup
  dsimp only
  rw [hname]
  cases hv : ctx.values.find? name with
  | none => exact .error rfl
  | some v => exact .ok (hlives.closed.alike hw hw' (hlives.values name v hv))

/-- The step of a node makes a list or leaves the heap as it is. -/
theorem HostFree.grows_visit {n : Expr} (hn : ctx.HostFree n) (operands : List Value) :
    (ctx.visit n operands).Grows := by
  cases n with
  | literal value span => exact Eval.grows_ofExcept (.ok value.value)
  | named name span => exact Eval.grows_ofExcept _
  | unary op e span => exact Eval.grows_ofExcept _
  | binary op l r => exact Operation.grows_perform _ _ _ _
  | call name arguments span =>
    intro w
    change w.heap.Grown ((ctx.call name operands span).run w).2.heap
    cases hb : Builtin.ofName? name with
    | none =>
      rw [run_call_of_unknown hn hb]
      exact .refl _
    | some b =>
      rw [run_call_of_builtin hn hb]
      exact .refl _
  | list items span => exact fun w => w.heap.grown_place (.newList operands)

/-- The step of a node looks neither at which lists its operands are nor at what is below it. -/
theorem alike_visit (hlives : ctx.LivesIn h₀) (hw : h₀.Grown w.heap) (hw' : h₀.Grown w'.heap)
    {n n' : Expr} (hkin : n.Kin n') (hfree : ctx.HostFree n) (hn : ctx.Unmoved values n)
    {operands operands' : List Value}
    (hoperands : List.Forall₂ (w.heap.Alike w'.heap) operands operands')
    (hends : n.EndsOn w.heap operands) :
    Eval.Alike Heap.Alike (ctx.visit n operands)
      (Context.visit { ctx with values } n' operands') w w' := by
  have hnull : w.heap.Alike w'.heap .null .null := Heap.alike_of_ne_list nofun
  have hfirst := forall₂_getD hoperands hnull 0
  have hsecond := forall₂_getD hoperands hnull 1
  rw [← List.headD_eq_getD, ← List.headD_eq_getD] at hfirst
  cases hkin with
  | literal value span =>
    have hvalue : value.value.kind ≠ .list := by
      cases value <;> nofun
    exact Eval.alike_of_run rfl rfl (.ok (Heap.alike_of_ne_list hvalue))
  | named name span => exact Eval.alike_of_run rfl rfl (alike_lookup hlives hw hw' hn span)
  | unary op e e' span =>
    exact Eval.alike_of_run rfl rfl (Heap.alike_of_keyed
      (op.keyed_apply _ _ _ _ hfirst.indistinct) fun _ hv => UnaryOp.ne_list_of_apply hv)
  | binary op l l' r r' =>
    have hop : (⟨op, l', r'⟩ : Operation).op = (⟨op, l, r⟩ : Operation).op := rfl
    exact Operation.alike_perform hop hlives.closed hw hw' hfirst hsecond hends ctx.pattern
  | call name arguments arguments' span => exact alike_call hfree hoperands span
  | list items items' span => exact Eval.alike_of_run rfl rfl (.ok (Heap.alike_newList hoperands))

end

/-! ## Evaluation side by side -/

mutual

/-- In a world the evaluation of an expression comes to an end: no node writes as a text a list that
holds itself. -/
inductive Ends (ctx : Context σ) : Expr → World σ → Prop
  | node {e w} : EndsAll ctx e.children w →
      (∀ operands w₁, (ctx.evalAll e.children).run w = (.ok operands, w₁) →
        e.EndsOn w₁.heap operands) → Ends ctx e w

/-- The same for expressions that are evaluated one after the other. -/
inductive EndsAll (ctx : Context σ) : List Expr → World σ → Prop
  | nil {w} : EndsAll ctx [] w
  | cons {e es w} : Ends ctx e w →
      (∀ v w₁, (ctx.eval e).run w = (.ok v, w₁) → EndsAll ctx es w₁) → EndsAll ctx (e :: es) w

end

theorem Sound.endsAll {held : σ → List Value} {ctx : Context σ} {w : World σ}
    (h : ctx.Sound held w) {es : List Expr}
    (hes : ∀ e ∈ es, ∀ {w : World σ}, ctx.Sound held w → ctx.Ends e w) : ctx.EndsAll es w := by
  induction es generalizing w with
  | nil => exact .nil
  | cons e es ih =>
    refine .cons (hes e List.mem_cons_self h) ?_
    intro v w₁ hv
    have hw₁ := h.after (h.buildsFrom_eval e)
    rw [hv] at hw₁
    exact ih hw₁ fun c hc _ hw => hes c (List.mem_cons_of_mem e hc) hw

/-- Where the functions of the host only build, every evaluation comes to an end. -/
theorem Sound.ends {held : σ → List Value} {ctx : Context σ} {w : World σ} (h : ctx.Sound held w)
    (e : Expr) : ctx.Ends e w := by
  induction e using Expr.of_children generalizing w with
  | step e ih =>
    refine .node (h.endsAll ih) ?_
    intro operands w₁ hoperands
    have hbuilds : (ctx.evalAll e.children).BuildsFrom held id w :=
      h.buildsFrom_evalAll fun c _ _ hw => hw.buildsFrom_eval c
    have hw₁ := h.after hbuilds
    rw [hoperands] at hw₁
    have hwf := hw₁.world.ordered.wellFounded
    cases e with
    | binary op l r => exact fun _ _ => ⟨hwf.apply _, hwf.apply _⟩
    | _ => trivial

/-- In all worlds that have grown out of two heaps, a second expression with other values of the
variables gives what the first one gives, or an error of the same variant; both make lists and do
nothing else to the heap. -/
structure Simulates (ctx : Context σ) (values : Bindings Value) (h₀ h₁ : Heap) (e e' : Expr) :
    Prop where
  left : (ctx.eval e).Grows
  right : (Context.eval { ctx with values } e').Grows
  result : ∀ w w' : World σ, h₀.Grown w.heap → h₁.Grown w'.heap → ctx.Ends e w →
    Eval.Alike Heap.Alike (ctx.eval e) (Context.eval { ctx with values } e') w w'

section

variable {ctx : Context σ} {values : Bindings Value} {h₀ h₁ : Heap} {w w' : World σ}

theorem grows_evalAll {es : List Expr} (hes : ∀ e ∈ es, (ctx.eval e).Grows) :
    (ctx.evalAll es).Grows := by
  induction es with
  | nil => exact Eval.grows_ofExcept (.ok [])
  | cons e es ih =>
    have hrest := ih fun c hc => hes c (List.mem_cons_of_mem e hc)
    rw [evalAll]
    exact (hes e List.mem_cons_self).bind fun v => hrest.bind fun vs =>
      Eval.grows_ofExcept (.ok (v :: vs))

theorem HostFree.grows_eval {e : Expr} (he : ctx.HostFree e)
    (hchildren : ∀ c ∈ e.children, (ctx.eval c).Grows) : (ctx.eval e).Grows := by
  rw [eval_eq_visit]
  exact (grows_evalAll hchildren).bind fun operands => he.grows_visit operands

theorem grows_left {es es' : List Expr}
    (hes : List.Forall₂ (ctx.Simulates values h₀ h₁) es es') : ∀ e ∈ es, (ctx.eval e).Grows := by
  intro e he
  obtain ⟨e', _, hsimulates⟩ := exists_of_forall₂ hes he
  exact hsimulates.left

theorem grows_right {es es' : List Expr}
    (hes : List.Forall₂ (ctx.Simulates values h₀ h₁) es es') :
    ∀ e ∈ es', (Context.eval { ctx with values } e).Grows := by
  intro e' he'
  obtain ⟨e, _, hsimulates⟩ := exists_of_forall₂ hes.flip he'
  exact hsimulates.right

theorem alike_evalAll {es es' : List Expr}
    (hes : List.Forall₂ (ctx.Simulates values h₀ h₁) es es') (hw : h₀.Grown w.heap)
    (hw' : h₁.Grown w'.heap) (hends : ctx.EndsAll es w) :
    Eval.Alike (fun h h' => List.Forall₂ (h.Alike h')) (ctx.evalAll es)
      (Context.evalAll { ctx with values } es') w w' := by
  induction hes generalizing w w' with
  | nil => exact Eval.alike_of_run rfl rfl (.ok .nil)
  | @cons e e' es es' he hes ih =>
    rcases hends with _ | ⟨hfirst, hrest⟩
    have hgrows := grows_evalAll (grows_left hes)
    have hgrows' := grows_evalAll (grows_right hes)
    rw [evalAll, evalAll]
    refine (he.result w w' hw hw' hfirst).bind ?_
    intro v v' w₁ w₁' hv hv' halike
    have hw₁ := hw.trans (he.left.of_run hv)
    have hw₁' := hw'.trans (he.right.of_run hv')
    refine (ih hw₁ hw₁' (hrest v w₁ hv)).bind ?_
    intro vs vs' w₂ w₂' hvs hvs' hall
    -- The rest only makes lists, so the first two values stay alike.
    have hfirst := halike.grown (hgrows.of_run hvs) (hgrows'.of_run hvs')
    exact Eval.alike_of_run rfl rfl (.ok (.cons hfirst hall))

/-- A node simulates another one if it is the same but for what is below it, and what is below it
simulates what is below the other. -/
theorem simulates_of_kin (hlives : ctx.LivesIn h₀) (hgrown : h₀.Grown h₁) {e e' : Expr}
    (hkin : e.Kin e') (hfree : ctx.HostFree e) (he : ctx.Unmoved values e)
    (hchildren : List.Forall₂ (ctx.Simulates values h₀ h₁) e.children e'.children) :
    ctx.Simulates values h₀ h₁ e e' := by
  have hfree' : HostFree { ctx with values } e' := by
    cases hkin <;> exact hfree
  refine ⟨hfree.grows_eval (grows_left hchildren), hfree'.grows_eval (grows_right hchildren), ?_⟩
  intro w w' hw hw' hends
  obtain ⟨hbelow, hhere⟩ := hends
  rw [eval_eq_visit, eval_eq_visit]
  refine (alike_evalAll hchildren hw hw' hbelow).bind ?_
  intro operands operands' w₁ w₁' hoperands hoperands' hall
  have hw₁ := hw.trans ((grows_evalAll (grows_left hchildren)).of_run hoperands)
  have hw₁' := hw'.trans ((grows_evalAll (grows_right hchildren)).of_run hoperands')
  exact alike_visit hlives hw₁ (hgrown.trans hw₁') hkin hfree he hall (hhere operands w₁ hoperands)

theorem simulates_self (hlives : ctx.LivesIn h₀) (hgrown : h₀.Grown h₁) {e : Expr}
    (hfree : ∀ n ∈ e.postorder, ctx.HostFree n) (he : ∀ n ∈ e.postorder, ctx.Unmoved values n) :
    ctx.Simulates values h₀ h₁ e e := by
  induction e using Expr.of_children with
  | step e ih =>
    have hself := e.mem_postorder_self
    refine simulates_of_kin hlives hgrown (.refl e) (hfree e hself) (he e hself) ?_
    refine List.forall₂_same.2 fun c hc => ih c hc ?_ ?_
    · exact fun n hn => hfree n (Expr.mem_postorder_of_child hc hn)
    · exact fun n hn => he n (Expr.mem_postorder_of_child hc hn)

end

end Context

end TemplateExpr
