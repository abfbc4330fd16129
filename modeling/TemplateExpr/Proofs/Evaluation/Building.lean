-- What evaluation builds. A node makes lists only of the values it is given, so if the
-- functions of the host do the same, the heap stays ordered and every value that comes up
-- can be had of it.
import TemplateExpr.Proofs.Heap.Order
import TemplateExpr.Proofs.Operation.Errors

namespace TemplateExpr

/-! ## Computations that build -/

section

variable {σ α β : Type} (held : σ → List Value)

/-- The heap is ordered, and what the host holds can be had of it. -/
structure World.Sound (w : World σ) : Prop where
  ordered : w.heap.Ordered
  held : ∀ v ∈ held w.state, v.In w.heap

/-- From a world a computation only builds, and what it gives can be had of what it leaves. -/
structure Eval.BuildsFrom (x : Eval σ α) (values : α → List Value) (w : World σ) : Prop where
  builds : w.heap.Builds (x.run w).2.heap
  held : ∀ v ∈ held (x.run w).2.state, v.In (x.run w).2.heap
  result : ∀ a, (x.run w).1 = .ok a → ∀ v ∈ values a, v.In (x.run w).2.heap

variable {held}

theorem Eval.BuildsFrom.sound {x : Eval σ α} {values : α → List Value} {w : World σ}
    (h : x.BuildsFrom held values w) (hw : w.Sound held) : (x.run w).2.Sound held :=
  ⟨h.builds.ordered hw.ordered, h.held⟩

theorem Eval.BuildsFrom.bind {x : Eval σ α} {f : α → Eval σ β} {first : α → List Value}
    {values : β → List Value} {w : World σ} (hx : x.BuildsFrom held first w)
    (hf : ∀ a w', x.run w = (.ok a, w') → (f a).BuildsFrom held values w') :
    (x >>= f).BuildsFrom held values w := by
  rcases hrun : x.run w with ⟨err | a, w₁⟩
  · obtain ⟨hbuilds, hheld, _⟩ := hx
    rw [hrun] at hbuilds hheld
    refine ⟨?_, ?_, ?_⟩
    · rwa [Eval.run_bind_error hrun]
    · rwa [Eval.run_bind_error hrun]
    · intro b hb
      rw [Eval.run_bind_error hrun] at hb
      cases hb
  · obtain ⟨hbuilds, hheld, hresult⟩ := hf a w₁ hrun
    have hfirst := hx.builds
    rw [hrun] at hfirst
    refine ⟨?_, ?_, ?_⟩
    · rw [Eval.run_bind_ok hrun]
      exact hfirst.trans hbuilds
    · rwa [Eval.run_bind_ok hrun]
    · rwa [Eval.run_bind_ok hrun]

/-- A computation that leaves the heap and the host alone. -/
theorem Eval.buildsFrom_of_run {x : Eval σ α} {values : α → List Value} {w : World σ}
    (hw : w.Sound held) (hheap : (x.run w).2.heap = w.heap) (hstate : (x.run w).2.state = w.state)
    (hresult : ∀ a, (x.run w).1 = .ok a → ∀ v ∈ values a, v.In w.heap) :
    x.BuildsFrom held values w := by
  refine ⟨?_, ?_, ?_⟩
  · rw [hheap]
    exact .refl
  · rw [hheap, hstate]
    exact hw.held
  · rwa [hheap]

end

/-! ## Steps that build -/

/-- A function that makes lists only of its arguments, of what the host holds and of what there is,
and changes none. -/
def BuildsOnly {σ : Type} (held : σ → List Value) (f : HostFunction σ) : Prop :=
  ∀ args span (h : Heap) s, h.Ordered → (∀ v ∈ args, v.In h) → (∀ v ∈ held s, v.In h) →
    h.Builds (f args span h s).2.1 ∧
      (∀ v ∈ held (f args span h s).2.2, v.In (f args span h s).2.1) ∧
      ∀ v, (f args span h s).1 = .ok v → v.In (f args span h s).2.1

theorem UnaryOp.ne_list_of_apply {op : UnaryOp} {e : Expr} {span : Span} {u v : Value}
    (h : op.apply e span u = .ok v) : v.kind ≠ .list := by
  unfold UnaryOp.apply at h
  split at h
  case h_6 =>
    split at h
    · cases h
      exact nofun
    · cases h
  case h_7 => cases h
  all_goals
    cases h
    exact nofun

/-- The outcome of an operation mentions only what can be had of the heap. -/
theorem Operation.in_of_apply {o : Operation} {c : Coercions} {h : Heap} {a b : Value}
    {outcome : Outcome} (hc : h.Closed) (ha : a.In h) (hb : b.In h)
    (happly : o.apply c h a b = .ok outcome) : ∀ v ∈ outcome.values, v.In h := by
  have of_value : ∀ {u : Value}, Outcome.value u = outcome → u.In h →
      ∀ v ∈ outcome.values, v.In h := by
    rintro u rfl hu v hv
    rwa [List.mem_singleton.1 hv]
  have hextended : ∀ items, extended? h o.op a b = some items → ∀ v ∈ items, v.In h := by
    intro items hitems
    unfold extended? at hitems
    split at hitems
    · obtain ⟨xs, hxs, rfl⟩ := Option.map_eq_some_iff.1 hitems
      exact List.forall_mem_append.2
        ⟨hc.of_sequence hxs, List.forall_mem_singleton.2 hb⟩
    · obtain ⟨xs, hxs, rfl⟩ := Option.map_eq_some_iff.1 hitems
      exact List.forall_mem_cons.2 ⟨ha, hc.of_sequence hxs⟩
    · cases hitems
  rw [apply_eq] at happly
  unfold steps at happly
  split at happly
  case h_1 =>
    refine of_value (Except.ok.inj happly) ?_
    split
    · exact hb
    · exact ha
  case h_2 | h_3 => exact of_value (Except.ok.inj happly) trivial
  case h_4 | h_5 =>
    split at happly
    · rename_i hop items hitems
      cases happly
      exact hextended items hitems
    · cases happly
  case h_6 =>
    rw [Reported.result_map, ← calculate] at happly
    cases hcalculate : o.calculate c h a b with
    | error err =>
      rw [hcalculate] at happly
      cases happly
    | ok u =>
      rw [hcalculate] at happly
      exact of_value (Except.ok.inj happly) (Value.in_of_ne_list (ne_list_of_calculate hcalculate))

namespace Context

variable {σ : Type} (held : σ → List Value)

/-- The values of a context can be had of the heap, and its functions only build. -/
structure Sound (ctx : Context σ) (w : World σ) : Prop where
  world : w.Sound held
  values : ∀ name v, ctx.values.find? name = some v → v.In w.heap
  functions : ∀ name f, ctx.functions.find? name = some f → BuildsOnly held f

section

variable {held} {ctx : Context σ} {w : World σ}

theorem buildsFrom_perform (hw : w.Sound held) (o : Operation) (coercions : Heap → Coercions)
    {a b : Value} (ha : a.In w.heap) (hb : b.In w.heap) :
    (o.perform coercions a b : Eval σ Value).BuildsFrom held (fun v => [v]) w := by
  cases happly : o.apply (coercions w.heap) w.heap a b with
  | error err =>
    have hrun := Operation.run_perform_of_error happly
    refine Eval.buildsFrom_of_run hw (by rw [hrun]) (by rw [hrun]) ?_
    intro v hv
    rw [hrun] at hv
    cases hv
  | ok outcome =>
    have hrun := Operation.run_perform_of_ok happly
    obtain ⟨hbuilds, hin⟩ :=
      Heap.builds_place (Operation.in_of_apply hw.ordered.closed ha hb happly)
    refine ⟨?_, ?_, ?_⟩
    · rwa [hrun]
    · rw [hrun]
      exact fun v hv => hbuilds.kept.mono (hw.held v hv)
    · rw [hrun]
      rintro v ⟨⟩
      exact List.forall_mem_singleton.2 hin

theorem Sound.buildsFrom_call (h : ctx.Sound held w) (name : String) {args : List Value}
    (hargs : ∀ v ∈ args, v.In w.heap) (span : Span) :
    (ctx.call name args span).BuildsFrom held (fun v => [v]) w := by
  cases hf : ctx.functions.find? name with
  | some f =>
    obtain ⟨hbuilds, hheld, hresult⟩ := h.functions name f hf args span w.heap w.state
      h.world.ordered hargs h.world.held
    have hrun := run_call_of_host hf args span w
    refine ⟨?_, ?_, ?_⟩
    · rwa [hrun]
    · rwa [hrun]
    · rw [hrun]
      exact fun v hv => List.forall_mem_singleton.2 (hresult v hv)
  | none =>
    cases hb : Builtin.ofName? name with
    | some b =>
      have hrun := run_call_of_builtin hf hb args span w
      refine Eval.buildsFrom_of_run h.world (by rw [hrun]) (by rw [hrun]) ?_
      intro v hv
      rw [hrun] at hv
      exact List.forall_mem_singleton.2 (Value.in_of_ne_list (Builtin.ne_list_of_call hv))
    | none =>
      have hrun := run_call_of_unknown hf hb args span w
      refine Eval.buildsFrom_of_run h.world (by rw [hrun]) (by rw [hrun]) ?_
      intro v hv
      rw [hrun] at hv
      cases hv

/-- The step of a node builds what it gives. -/
theorem Sound.buildsFrom_visit (h : ctx.Sound held w) (n : Expr) {operands : List Value}
    (hoperands : ∀ v ∈ operands, v.In w.heap) :
    (ctx.visit n operands).BuildsFrom held (fun v => [v]) w := by
  have hfirst : (operands.headD .null).In w.heap := by
    cases operands with
    | nil => trivial
    | cons a vs => exact hoperands a List.mem_cons_self
  have hsecond : (operands.getD 1 .null).In w.heap := by
    rcases operands with _ | ⟨a, _ | ⟨b, vs⟩⟩
    · trivial
    · trivial
    · exact hoperands b (by simp)
  cases n with
  | literal value span =>
    refine Eval.buildsFrom_of_run h.world rfl rfl ?_
    rintro v ⟨⟩
    exact List.forall_mem_singleton.2 (Value.in_of_ne_list (by cases value <;> nofun))
  | named name span =>
    refine Eval.buildsFrom_of_run h.world rfl rfl ?_
    intro v hv
    change ctx.lookup name span = .ok v at hv
    unfold lookup at hv
    split at hv
    · rename_i u hu
      cases hv
      exact List.forall_mem_singleton.2 (h.values name v hu)
    · cases hv
  | unary op e span =>
    refine Eval.buildsFrom_of_run h.world rfl rfl ?_
    intro v hv
    exact List.forall_mem_singleton.2 (Value.in_of_ne_list (UnaryOp.ne_list_of_apply hv))
  | binary op l r => exact buildsFrom_perform h.world _ _ hfirst hsecond
  | call name arguments span => exact h.buildsFrom_call name hoperands span
  | list items span =>
    refine ⟨.newList .refl hoperands, ?_, ?_⟩
    · exact fun v hv => (w.heap.kept_newList operands).mono (h.world.held v hv)
    · rintro v ⟨⟩
      exact List.forall_mem_singleton.2 (w.heap.in_newList operands)

/-! ## Evaluation builds -/

theorem Sound.after {α : Type} {x : Eval σ α} {values : α → List Value} (h : ctx.Sound held w)
    (hx : x.BuildsFrom held values w) : ctx.Sound held (x.run w).2 := by
  refine ⟨hx.sound h.world, ?_, h.functions⟩
  intro name v hv
  exact hx.builds.kept.mono (h.values name v hv)

theorem Sound.buildsFrom_evalAll {es : List Expr} (h : ctx.Sound held w)
    (hes : ∀ e ∈ es, ∀ w, ctx.Sound held w → (ctx.eval e).BuildsFrom held (fun v => [v]) w) :
    (ctx.evalAll es).BuildsFrom held id w := by
  induction es generalizing w with
  | nil =>
    refine Eval.buildsFrom_of_run h.world rfl rfl ?_
    rintro vs ⟨⟩
    exact List.forall_mem_nil _
  | cons e es ih =>
    rw [evalAll]
    have he := hes e List.mem_cons_self w h
    refine he.bind ?_
    intro v w₁ hv
    have hw₁ := h.after he
    have hfirst := he.result v (by rw [hv])
    rw [hv] at hw₁ hfirst
    have hmore := ih hw₁ fun c hc => hes c (List.mem_cons_of_mem e hc)
    refine hmore.bind ?_
    intro vs w₂ hvs
    have hw₂ := hw₁.after hmore
    have hrest := hmore.result vs (by rw [hvs])
    have hkept := hmore.builds.kept
    rw [hvs] at hw₂ hrest hkept
    refine Eval.buildsFrom_of_run hw₂.world rfl rfl ?_
    rintro us ⟨⟩
    exact List.forall_mem_cons.2 ⟨hkept.mono (hfirst v List.mem_cons_self), hrest⟩

/-- Evaluation builds, and what it gives can be had of what it leaves. -/
theorem Sound.buildsFrom_eval (h : ctx.Sound held w) (e : Expr) :
    (ctx.eval e).BuildsFrom held (fun v => [v]) w := by
  induction e using Expr.of_children generalizing w with
  | step e ih =>
    rw [eval_eq_visit]
    have hchildren := h.buildsFrom_evalAll fun c hc w hw => ih c hc hw
    refine hchildren.bind ?_
    intro operands w₁ hoperands
    have hw₁ := h.after hchildren
    have hresult := hchildren.result operands (by rw [hoperands])
    rw [hoperands] at hw₁ hresult
    exact hw₁.buildsFrom_visit e hresult

end

end Context

end TemplateExpr
