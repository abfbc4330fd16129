-- Which nodes an evaluation visits, with which operands and to what effect, and so
-- which host functions it calls: those of the call nodes in post-order, up to the
-- first node that fails. No operator spares its right operand.
import TemplateExpr.Proofs.Evaluation.Postorder
import TemplateExpr.Proofs.Operation.Reports

namespace TemplateExpr

/-! ## Visits -/

/-- A node with the values it was visited with, and what its own step gave. -/
structure Visit where
  node : Expr
  operands : List Value
  result : Except RuntimeError Value

def Visit.Succeeded (visit : Visit) : Prop := ∃ v, visit.result = .ok v

theorem Visit.succeeded_of_ok (n : Expr) (operands : List Value) (v : Value) :
    Succeeded ⟨n, operands, .ok v⟩ := ⟨v, rfl⟩

/-- The calls of host functions so far, each with its arguments. -/
def World.calls {σ : Type} (w : World σ) : List (String × List Value) :=
  w.log.toList.filterMap Event.call?

namespace Context

variable {σ : Type}

/-- The visits of a walk, of which only the last one can have failed. -/
def visits (ctx : Context σ) : List Expr → List Value → World σ → List Visit
  | [], _, _ => []
  | n :: ns, stack, w =>
    let operands := (stack.take n.children.length).reverse
    match (ctx.visit n operands).run w with
    | (.ok v, w) => ⟨n, operands, .ok v⟩ :: ctx.visits ns (v :: stack.drop n.children.length) w
    | (.error e, _) => [⟨n, operands, .error e⟩]

/-- The call of a host function that a visit is. -/
def hostCall? (ctx : Context σ) (visit : Visit) : Option (String × List Value) :=
  match visit.node with
  | .call name _ _ =>
    if (ctx.functions.find? name).isSome then some (name, visit.operands) else none
  | _ => none

/-- The operands of a visit are the values of the nodes right below it, found just before. -/
def Fed (ctx : Context σ) (visit : Visit) : Prop :=
  ∃ w₀ w₁ w₂, (ctx.evalAll visit.node.children).run w₀ = (.ok visit.operands, w₁) ∧
    (ctx.visit visit.node visit.operands).run w₁ = (visit.result, w₂)

/-- The host functions keep a list of their calls, each with its arguments, in their state. -/
def KeepsCalls (ctx : Context σ) (kept : σ → List (String × List Value)) : Prop :=
  ∀ name f, ctx.functions.find? name = some f → ∀ args span h s,
    kept (f args span h s).2.2 = kept s ++ [(name, args)]

/-- What an evaluation visits. -/
structure InPostorder (ctx : Context σ) (e : Expr) (w : World σ) (visits : List Visit) : Prop where
  /-- The value and the world are those of a walk over the nodes in post-order. -/
  walked : ctx.walk e.postorder [] = ctx.eval e >>= fun v => pure [v]
  /-- The host functions called are those of the call nodes visited, with their operands. -/
  called : ((ctx.eval e).run w).2.calls = w.calls ++ visits.filterMap ctx.hostCall?
  /-- If host functions keep a list of their calls, this is what they add to it. -/
  kept : ∀ kept, ctx.KeepsCalls kept →
    kept ((ctx.eval e).run w).2.state = kept w.state ++ visits.filterMap ctx.hostCall?
  /-- Every node gets the values of the nodes right below it. -/
  fed : ∀ visit ∈ visits, ctx.Fed visit
  /-- An evaluation with a value has visited every node once, and no node failed. -/
  succeeded : ∀ v w', (ctx.eval e).run w = (.ok v, w') →
    visits.map Visit.node = e.postorder ∧ ∀ visit ∈ visits, visit.Succeeded
  /-- An evaluation with an error ended at the first node that failed, with the error of it. -/
  failed : ∀ err w', (ctx.eval e).run w = (.error err, w') →
    ∃ before last after, visits = before ++ [last] ∧ (∀ visit ∈ before, visit.Succeeded) ∧
      last.result = .error err ∧ e.postorder = before.map Visit.node ++ last.node :: after

/-! ## Calls -/

theorem calls_perform (o : Operation) (coercions : Heap → Coercions) (l r : Value)
    (w : World σ) : ((o.perform coercions l r).run w).2.calls = w.calls := by
  have hevents : (o.run (coercions w.heap) w.heap l r).events.filterMap Event.call? = [] := by
    rw [List.filterMap_eq_nil_iff, Operation.run, Reported.events_after]
    refine List.forall_mem_cons.2 ⟨rfl, ?_⟩
    intro event hevent
    exact (o.within_steps _ _ l r event hevent).2
  simp only [Operation.perform, Eval.run, World.calls]
  cases (o.run (coercions w.heap) w.heap l r).result <;> simp [hevents]

/-- A list that grows by a call exactly if the node visited is a call that names a host function. -/
def Follows (ctx : Context σ) (calls : World σ → List (String × List Value)) : Prop :=
  ∀ n operands w result, calls ((ctx.visit n operands).run w).2 =
    calls w ++ (ctx.hostCall? ⟨n, operands, result⟩).toList

theorem follows_calls (ctx : Context σ) : ctx.Follows World.calls := by
  intro n operands w result
  cases n with
  | binary op l r =>
    rw [visit, calls_perform]
    simp [hostCall?]
  | call name arguments span =>
    simp only [visit, call, Eval.run, hostCall?, World.calls]
    cases ctx.functions.find? name with
    | none =>
      cases Builtin.ofName? name <;> simp
    | some f => simp [Event.call?]
  | _ => simp [visit, hostCall?, Eval.ofExcept, Eval.newList, Eval.run, pure, World.calls]

theorem state_perform (o : Operation) (coercions : Heap → Coercions) (l r : Value)
    (w : World σ) : ((o.perform coercions l r).run w).2.state = w.state := by
  simp only [Operation.perform, Eval.run]
  cases (o.run (coercions w.heap) w.heap l r).result <;> rfl

theorem follows_kept {ctx : Context σ} {kept : σ → List (String × List Value)}
    (h : ctx.KeepsCalls kept) : ctx.Follows fun w => kept w.state := by
  intro n operands w result
  cases n with
  | binary op l r =>
    simp [visit, state_perform, hostCall?]
  | call name arguments span =>
    simp only [visit, call, Eval.run, hostCall?]
    cases hf : ctx.functions.find? name with
    | none =>
      cases Builtin.ofName? name <;> simp
    | some f => simp [h name f hf]
  | _ => simp [visit, hostCall?, Eval.ofExcept, Eval.newList, Eval.run, pure]

/-! ## Walks -/

section

variable {ctx : Context σ} {n : Expr} {ns : List Expr} {stack : List Value} {w w₁ : World σ}

theorem run_walk_of_ok {v : Value}
    (h : (ctx.visit n (stack.take n.children.length).reverse).run w = (.ok v, w₁)) :
    (ctx.walk (n :: ns) stack).run w =
      (ctx.walk ns (v :: stack.drop n.children.length)).run w₁ := by
  rw [walk, Eval.run_bind_ok h]

theorem run_walk_of_error {err : RuntimeError}
    (h : (ctx.visit n (stack.take n.children.length).reverse).run w = (.error err, w₁)) :
    (ctx.walk (n :: ns) stack).run w = (.error err, w₁) := by
  rw [walk, Eval.run_bind_error h]

theorem visits_of_ok {v : Value}
    (h : (ctx.visit n (stack.take n.children.length).reverse).run w = (.ok v, w₁)) :
    ctx.visits (n :: ns) stack w = ⟨n, (stack.take n.children.length).reverse, .ok v⟩ ::
      ctx.visits ns (v :: stack.drop n.children.length) w₁ := by
  simp only [visits, h]

theorem visits_of_error {err : RuntimeError}
    (h : (ctx.visit n (stack.take n.children.length).reverse).run w = (.error err, w₁)) :
    ctx.visits (n :: ns) stack w = [⟨n, (stack.take n.children.length).reverse, .error err⟩] := by
  simp only [visits, h]

end

theorem Follows.walk {ctx : Context σ} {calls : World σ → List (String × List Value)}
    (hcalls : ctx.Follows calls) (ns : List Expr) (stack : List Value) (w : World σ) :
    calls ((ctx.walk ns stack).run w).2 =
      calls w ++ (ctx.visits ns stack w).filterMap ctx.hostCall? := by
  induction ns generalizing stack w with
  | nil => simp [Context.walk, visits]
  | cons n ns ih =>
    have hstep := hcalls n (stack.take n.children.length).reverse w
    rcases h : (ctx.visit n (stack.take n.children.length).reverse).run w with ⟨err | v, w₁⟩
    · rw [h] at hstep
      rw [run_walk_of_error h, visits_of_error h, hstep (.error err)]
      cases hcall : ctx.hostCall? ⟨n, (stack.take n.children.length).reverse, .error err⟩ <;>
        simp [hcall]
    · rw [h] at hstep
      rw [run_walk_of_ok h, visits_of_ok h, ih, hstep (.ok v)]
      cases hcall : ctx.hostCall? ⟨n, (stack.take n.children.length).reverse, .ok v⟩ <;>
        simp [hcall]

theorem walk_succeeded {ctx : Context σ} {ns : List Expr} {stack values : List Value}
    {w w' : World σ} (h : (ctx.walk ns stack).run w = (.ok values, w')) :
    (ctx.visits ns stack w).map Visit.node = ns ∧
      ∀ visit ∈ ctx.visits ns stack w, visit.Succeeded := by
  induction ns generalizing stack w with
  | nil => exact ⟨rfl, List.forall_mem_nil _⟩
  | cons n ns ih =>
    rcases hn : (ctx.visit n (stack.take n.children.length).reverse).run w with ⟨err | v, w₁⟩
    · rw [run_walk_of_error hn] at h
      cases h
    · rw [run_walk_of_ok hn] at h
      obtain ⟨hnodes, hall⟩ := ih h
      rw [visits_of_ok hn]
      refine ⟨congrArg (n :: ·) hnodes, ?_⟩
      intro visit hvisit
      rcases List.mem_cons.1 hvisit with rfl | hvisit
      · exact Visit.succeeded_of_ok _ _ v
      · exact hall visit hvisit

theorem walk_failed {ctx : Context σ} {ns : List Expr} {stack : List Value}
    {w w' : World σ} {err : RuntimeError} (h : (ctx.walk ns stack).run w = (.error err, w')) :
    ∃ before last after, ctx.visits ns stack w = before ++ [last] ∧
      (∀ visit ∈ before, visit.Succeeded) ∧ last.result = .error err ∧
      ns = before.map Visit.node ++ last.node :: after := by
  induction ns generalizing stack w with
  | nil => cases h
  | cons n ns ih =>
    rcases hn : (ctx.visit n (stack.take n.children.length).reverse).run w with ⟨err' | v, w₁⟩
    · rw [run_walk_of_error hn] at h
      cases h
      exact ⟨[], _, ns, visits_of_error hn, List.forall_mem_nil _, rfl, rfl⟩
    · rw [run_walk_of_ok hn] at h
      obtain ⟨before, last, after, hvisits, hbefore, hlast, hns⟩ := ih h
      refine ⟨⟨n, (stack.take n.children.length).reverse, .ok v⟩ :: before, last, after, ?_, ?_,
        hlast, congrArg (n :: ·) hns⟩
      · rw [visits_of_ok hn, hvisits, List.cons_append]
      · intro visit hvisit
        rcases List.mem_cons.1 hvisit with rfl | hvisit
        · exact Visit.succeeded_of_ok _ _ v
        · exact hbefore visit hvisit

theorem visits_append_of_ok {ctx : Context σ} {ns : List Expr} {stack values : List Value}
    {w w' : World σ} (h : (ctx.walk ns stack).run w = (.ok values, w')) (ms : List Expr) :
    ctx.visits (ns ++ ms) stack w = ctx.visits ns stack w ++ ctx.visits ms values w' := by
  induction ns generalizing stack w with
  | nil =>
    cases h
    rfl
  | cons n ns ih =>
    rcases hn : (ctx.visit n (stack.take n.children.length).reverse).run w with ⟨err | v, w₁⟩
    · rw [run_walk_of_error hn] at h
      cases h
    · rw [run_walk_of_ok hn] at h
      rw [List.cons_append, visits_of_ok hn, visits_of_ok hn, ih h, List.cons_append]

theorem visits_append_of_error {ctx : Context σ} {ns : List Expr} {stack : List Value}
    {w w' : World σ} {err : RuntimeError} (h : (ctx.walk ns stack).run w = (.error err, w'))
    (ms : List Expr) : ctx.visits (ns ++ ms) stack w = ctx.visits ns stack w := by
  induction ns generalizing stack w with
  | nil => cases h
  | cons n ns ih =>
    rcases hn : (ctx.visit n (stack.take n.children.length).reverse).run w with ⟨err' | v, w₁⟩
    · rw [List.cons_append, visits_of_error hn, visits_of_error hn]
    · rw [run_walk_of_ok hn] at h
      rw [List.cons_append, visits_of_ok hn, visits_of_ok hn, ih h]

/-! ## Operands -/

theorem fed_postorderAll {ctx : Context σ} {es : List Expr}
    (h : ∀ e ∈ es, ∀ stack w, ∀ visit ∈ ctx.visits e.postorder stack w, ctx.Fed visit)
    (stack : List Value) (w : World σ) :
    ∀ visit ∈ ctx.visits (Expr.postorderAll es) stack w, ctx.Fed visit := by
  induction es generalizing stack w with
  | nil => exact List.forall_mem_nil _
  | cons e es ih =>
    have he := h e List.mem_cons_self
    have hes := ih fun c hc => h c (List.mem_cons_of_mem e hc)
    rw [Expr.postorderAll]
    rcases hwalk : (ctx.walk e.postorder stack).run w with ⟨err | values, w₁⟩
    · rw [visits_append_of_error hwalk]
      exact he stack w
    · rw [visits_append_of_ok hwalk]
      intro visit hvisit
      rcases List.mem_append.1 hvisit with hvisit | hvisit
      · exact he stack w visit hvisit
      · exact hes values w₁ visit hvisit

theorem fed_of_evalAll {ctx : Context σ} {n : Expr} {vs stack : List Value} {w w₁ : World σ}
    (h : (ctx.evalAll n.children).run w = (.ok vs, w₁)) :
    ∀ visit ∈ ctx.visits [n] (vs.reverse ++ stack) w₁, ctx.Fed visit := by
  have hlength := ctx.length_of_evalAll h
  have htake : ((vs.reverse ++ stack).take n.children.length).reverse = vs := by
    rw [← hlength]
    exact (operands_on_stack vs stack).1
  rcases hn : (ctx.visit n vs).run w₁ with ⟨err | v, w₂⟩
  · rw [visits_of_error (by rw [htake]; exact hn), htake]
    intro visit hvisit
    rw [List.mem_singleton.1 hvisit]
    exact ⟨w, w₁, w₂, h, hn⟩
  · rw [visits_of_ok (by rw [htake]; exact hn), htake]
    intro visit hvisit
    rw [List.mem_singleton.1 hvisit]
    exact ⟨w, w₁, w₂, h, hn⟩

theorem fed_postorder (ctx : Context σ) (e : Expr) : ∀ stack w,
    ∀ visit ∈ ctx.visits e.postorder stack w, ctx.Fed visit := by
  induction e using Expr.of_children with
  | step e ih =>
    intro stack w
    rw [Expr.postorder_eq]
    rcases hvs : (ctx.evalAll e.children).run w with ⟨err | vs, w₁⟩
    · rw [visits_append_of_error (by rw [walk_postorderAll_nil, Eval.run_bind_error hvs])]
      exact fed_postorderAll ih stack w
    · rw [visits_append_of_ok (by rw [walk_postorderAll_nil, Eval.run_bind_ok hvs]; rfl)]
      intro visit hvisit
      rcases List.mem_append.1 hvisit with hvisit | hvisit
      · exact fed_postorderAll ih stack w visit hvisit
      · exact fed_of_evalAll hvs visit hvisit

/-! ## The law -/

theorem Follows.eval {ctx : Context σ} {calls : World σ → List (String × List Value)}
    (hcalls : ctx.Follows calls) (e : Expr) (w : World σ) : calls ((ctx.eval e).run w).2 =
      calls w ++ (ctx.visits e.postorder [] w).filterMap ctx.hostCall? := by
  rw [← hcalls.walk, ctx.walk_postorder_nil e []]
  rcases heval : (ctx.eval e).run w with ⟨err | v, w'⟩
  · rw [Eval.run_bind_error heval]
  · rw [Eval.run_bind_ok heval]
    rfl

/-- Evaluation visits the nodes in post-order and ends at the first one that fails, so the calls of
host functions are those of the call nodes in that order. -/
theorem evaluation_visits_the_nodes_in_postorder (ctx : Context σ) (e : Expr) (w : World σ) :
    ctx.InPostorder e w (ctx.visits e.postorder [] w) := by
  have hwalked := ctx.walk_postorder_nil e []
  refine ⟨hwalked, ctx.follows_calls.eval e w, ?_, ctx.fed_postorder e [] w, ?_, ?_⟩
  · intro kept hkept
    exact (follows_kept hkept).eval e w
  · intro v w' heval
    have hwalk : (ctx.walk e.postorder []).run w = (.ok [v], w') := by
      rw [hwalked, Eval.run_bind_ok heval]
      rfl
    exact walk_succeeded hwalk
  · intro err w' heval
    have hwalk : (ctx.walk e.postorder []).run w = (.error err, w') := by
      rw [hwalked, Eval.run_bind_error heval]
    exact walk_failed hwalk

end Context

end TemplateExpr
