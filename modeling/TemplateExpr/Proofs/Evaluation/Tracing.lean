-- What an evaluation reports. Each node adds its own events to the log in its own turn, so the
-- log is that of the nodes in post-order; a binary node is reported once its operands have
-- their values, and what it then reports tells by which row it was computed.
import Mathlib.Data.List.Basic
import TemplateExpr.CommandLine
import TemplateExpr.Proofs.Evaluation.Frame
import TemplateExpr.Proofs.Operation.Reports

namespace TemplateExpr

/-! ## Operations -/

namespace Operation

/-- What an operation reports of itself after its operands are known, by rows. -/
structure Details (o : Operation) (a b : Value) (after : Heap)
    (result : Except RuntimeError Value) (details : List Event) : Prop where
  within : ∀ event ∈ details, event.Within
  coalesce : o.op = .coalesce → details = [.coalescing a.isNull]
  logical : o.op = .and ∨ o.op = .or →
    ∃ x, result = .ok (.bool x) ∧ details = [.logical o.op a.truth b.truth x]
  /-- A new list is reported with its length, and a failure not at all. -/
  extended : o.op = .append ∨ o.op = .prepend →
    (∃ r, result = .ok (.list r) ∧ details = [.extended o.op (after.items r).length]) ∨
      ∃ err, result = .error err ∧ details = []
  text : o.op.isCalculation = true → HasText a b → details = [.onStrings o.op]
  null : ¬ HasText a b → o.AsksForNull a b → details = []
  off_ladder : o.Computes a b → a.kind.height = 0 → b.kind.height = 0 → details = []
  ladder : o.Computes a b → 0 < max a.kind.height b.kind.height →
    ∃ target, MeetAt target a b ∧ details = .promoting o.op target :: Event.ofResult result

section

variable {σ : Type} (ctx : Context σ) (o : Operation) (a b : Value) (w : World σ)

theorem steps_perform_of_extended (hop : o.op = .append ∨ o.op = .prepend) :
    (∃ r, ((o.perform ctx.coercions a b).run w).1 = .ok (.list r) ∧
      (o.steps (ctx.coercions w.heap) w.heap a b).events =
        [.extended o.op (((o.perform ctx.coercions a b).run w).2.heap.items r).length]) ∨
      ∃ err, ((o.perform ctx.coercions a b).run w).1 = .error err ∧
        (o.steps (ctx.coercions w.heap) w.heap a b).events = [] := by
  have hsteps := steps_of_extended hop (ctx.coercions w.heap) w.heap a b
  cases hitems : extended? w.heap o.op a b with
  | some items =>
    rw [hitems] at hsteps
    have happly : o.apply (ctx.coercions w.heap) w.heap a b = .ok (.newList items) := by
      rw [apply_eq, hsteps]
      rfl
    rw [run_perform_of_ok happly, hsteps]
    refine .inl ⟨_, rfl, ?_⟩
    dsimp only [Heap.place]
    rw [Heap.items_newList]
    rfl
  | none =>
    rw [hitems] at hsteps
    have happly : o.apply (ctx.coercions w.heap) w.heap a b =
        .error (o.unsupportedOperator a.kind b.kind) := by
      rw [apply_eq, hsteps]
      rfl
    rw [run_perform_of_error happly, hsteps]
    exact .inr ⟨_, rfl, rfl⟩

theorem steps_perform_of_target (hcomputes : o.Computes a b) {target : Kind}
    (htarget : Kind.target? a.kind b.kind = some target) :
    (o.steps (ctx.coercions w.heap) w.heap a b).events =
      .promoting o.op target :: Event.ofResult ((o.perform ctx.coercions a b).run w).1 := by
  rw [o.events_of_computes _ _ hcomputes, o.events_runPromotion_of_some _ _ htarget]
  have happly := o.apply_of_isCalculation (ctx.coercions w.heap) w.heap (l := a) (r := b)
    hcomputes.1
  rw [o.calculate_of_computes _ _ hcomputes] at happly
  cases hresult : o.promoted (ctx.coercions w.heap) w.heap a b with
  | error err =>
    rw [hresult] at happly
    rw [run_perform_of_error happly]
  | ok v =>
    rw [hresult] at happly
    rw [run_perform_of_ok happly]
    rfl

/-- What is reported when an operation is carried out fits its result, row by row. -/
theorem details_perform : o.Details a b ((o.perform ctx.coercions a b).run w).2.heap
    ((o.perform ctx.coercions a b).run w).1
    (o.steps (ctx.coercions w.heap) w.heap a b).events := by
  refine ⟨o.within_steps _ _ a b, ?_, ?_, o.steps_perform_of_extended ctx a b w,
    o.events_of_hasText _ _, o.events_of_asksForNull _ _, ?_, ?_⟩
  · intro hop
    simp only [steps, hop]
    rfl
  · rintro (hop | hop)
    · have happly : o.apply (ctx.coercions w.heap) w.heap a b =
          .ok (.value (.bool (a.truth && b.truth))) := by
        rw [apply_eq, steps, hop]
        rfl
      rw [run_perform_of_ok happly]
      refine ⟨_, rfl, ?_⟩
      simp only [steps, hop]
      rfl
    · have happly : o.apply (ctx.coercions w.heap) w.heap a b =
          .ok (.value (.bool (a.truth || b.truth))) := by
        rw [apply_eq, steps, hop]
        rfl
      rw [run_perform_of_ok happly]
      refine ⟨_, rfl, ?_⟩
      simp only [steps, hop]
      rfl
  · intro hcomputes ha hb
    rw [o.events_of_computes _ _ hcomputes,
      o.events_runPromotion_of_none _ _ (Kind.target?_eq_none ha hb)]
  · intro hcomputes hheight
    obtain ⟨target, hmem, hmax⟩ := Kind.exists_rung hheight
    exact ⟨target, ⟨hmem, hmax⟩,
      o.steps_perform_of_target ctx a b w hcomputes (Kind.target?_eq_some hmem hmax)⟩

end

end Operation

/-! ## Stages -/

namespace Stage

variable {σ : Type}

/-- What is in the log since the stage began. -/
def events (st : Stage σ) : List Event := st.after.log.toList.drop st.before.log.toList.length

/-- A stage adds its own events to the log, which are those of its node. -/
structure Reports (ctx : Context σ) (st : Stage σ) : Prop where
  ran : (ctx.visit st.node st.operands).run st.before = (st.result, st.after)
  log : st.after.log.toList = st.before.log.toList ++ st.events
  /-- The operation comes first and its details follow. -/
  binary : ∀ op l r, st.node = .binary op l r → ∃ a b details, st.operands = [a, b] ∧
    st.events = .evaluating op a.kind b.kind :: details ∧
    Operation.Details ⟨op, l, r⟩ a b st.after.heap st.result details
  call : ∀ name arguments span, st.node = .call name arguments span →
    st.events = if (ctx.functions.find? name).isSome then [.calling name st.operands] else []
  silent : st.node.isBinary = false → (∀ name arguments span, st.node ≠ .call name arguments span) →
    st.events = []

theorem events_eq {st : Stage σ} {events : List Event}
    (h : st.after.log.toList = st.before.log.toList ++ events) : st.events = events := by
  rw [Stage.events, h, List.drop_left]

end Stage

namespace Context

variable {σ : Type}

/-- What a node adds to the log when it is visited. -/
def reported (ctx : Context σ) : Expr → List Value → World σ → List Event
  | .binary op l r, operands, w =>
    (Operation.run ⟨op, l, r⟩ (ctx.coercions w.heap) w.heap (operands.headD .null)
      (operands.getD 1 .null)).events
  | .call name _ _, operands, _ =>
    if (ctx.functions.find? name).isSome then [.calling name operands] else []
  | _, _, _ => []

theorem log_perform (o : Operation) (coercions : Heap → Coercions) (a b : Value) (w : World σ) :
    ((o.perform coercions a b).run w).2.log.toList =
      w.log.toList ++ (o.run (coercions w.heap) w.heap a b).events := by
  simp only [Operation.perform, Eval.run]
  cases (o.run (coercions w.heap) w.heap a b).result <;> simp

theorem log_visit (ctx : Context σ) (n : Expr) (operands : List Value) (w : World σ) :
    ((ctx.visit n operands).run w).2.log.toList =
      w.log.toList ++ ctx.reported n operands w := by
  cases n with
  | binary op l r => exact log_perform _ _ _ _ w
  | call name arguments span =>
    cases hf : ctx.functions.find? name with
    | some f =>
      rw [visit, run_call_of_host hf]
      simp [reported, hf]
    | none =>
      have hsilent : ctx.reported (.call name arguments span) operands w = [] := by
        simp [reported, hf]
      rw [visit, hsilent, List.append_nil]
      cases hb : Builtin.ofName? name with
      | some b => rw [run_call_of_builtin hf hb]
      | none => rw [run_call_of_unknown hf hb]
  | literal | named | unary | list => exact (List.append_nil _).symm

theorem log_of_visit {ctx : Context σ} {n : Expr} {operands : List Value} {w w₁ : World σ}
    {result : Except RuntimeError Value}
    (h : (ctx.visit n operands).run w = (result, w₁)) :
    w₁.log.toList = w.log.toList ++ (Stage.mk ⟨n, operands, result⟩ w w₁).events := by
  have hlog := ctx.log_visit n operands w
  rw [h] at hlog
  rw [Stage.events_eq hlog]
  exact hlog

/-- One step of a node reports what it does. -/
theorem reports_of_ran {ctx : Context σ} {st : Stage σ}
    (hran : (ctx.visit st.node st.operands).run st.before = (st.result, st.after))
    (hlength : st.operands.length = st.node.children.length) : st.Reports ctx := by
  have hlog := ctx.log_visit st.node st.operands st.before
  rw [hran] at hlog
  have hevents := Stage.events_eq hlog
  refine ⟨hran, log_of_visit hran, ?_, ?_, ?_⟩
  · intro op l r hnode
    obtain ⟨a, b, hoperands⟩ := Stage.operands_of_binary hnode hlength
    rw [hnode, hoperands] at hran hevents
    have hdetails := Operation.details_perform ctx ⟨op, l, r⟩ a b st.before
    have hperform : (Operation.perform ⟨op, l, r⟩ ctx.coercions a b).run st.before =
        (st.result, st.after) := hran
    rw [hperform] at hdetails
    exact ⟨a, b, _, hoperands, hevents, hdetails⟩
  · intro name arguments span hnode
    rw [hevents, hnode]
    rfl
  · intro hbinary hcall
    rw [hevents]
    cases hnode : st.node with
    | binary op l r =>
      rw [hnode] at hbinary
      cases hbinary
    | call name arguments span => exact absurd hnode (hcall name arguments span)
    | _ => rfl

/-! ## Runs -/

theorem ran_of_mem_stages {ctx : Context σ} {ns : List Expr} {stack : List Value} {w : World σ} :
    ∀ st ∈ ctx.stages ns stack w,
      (ctx.visit st.node st.operands).run st.before = (st.result, st.after) := by
  induction ns generalizing stack w with
  | nil => exact List.forall_mem_nil _
  | cons n ns ih =>
    rcases hn : (ctx.visit n (stack.take n.children.length).reverse).run w with ⟨err | v, w₁⟩
    · rw [stages_of_error hn]
      exact List.forall_mem_cons.2 ⟨hn, List.forall_mem_nil _⟩
    · rw [stages_of_ok hn]
      exact List.forall_mem_cons.2 ⟨hn, ih⟩

/-- The stages are in the order of the nodes. -/
theorem stages_nodes (ctx : Context σ) (ns : List Expr) (stack : List Value) (w : World σ) :
    (ctx.stages ns stack w).map (fun st => st.node) <+: ns := by
  induction ns generalizing stack w with
  | nil => exact List.nil_prefix
  | cons n ns ih =>
    rcases hn : (ctx.visit n (stack.take n.children.length).reverse).run w with ⟨err | v, w₁⟩
    · rw [stages_of_error hn]
      exact List.prefix_append [n] ns
    · rw [stages_of_ok hn, List.map_cons]
      exact (List.prefix_cons_inj n).2 (ih _ w₁)

/-- The log of a walk is what its stages add, one after the other. -/
theorem log_walk (ctx : Context σ) (ns : List Expr) (stack : List Value) (w : World σ) :
    ((ctx.walk ns stack).run w).2.log.toList =
      w.log.toList ++ (ctx.stages ns stack w).flatMap Stage.events := by
  induction ns generalizing stack w with
  | nil => exact (List.append_nil _).symm
  | cons n ns ih =>
    rcases hn : (ctx.visit n (stack.take n.children.length).reverse).run w with ⟨err | v, w₁⟩
    · rw [stages_of_error hn, run_walk_of_error hn]
      rw [List.flatMap_singleton]
      exact log_of_visit hn
    · rw [stages_of_ok hn, run_walk_of_ok hn, ih, List.flatMap_cons, ← List.append_assoc,
        ← log_of_visit hn]

/-! ## Nodes with values for their operands -/

end Context

/-- The operation that a node is, with its operands. -/
def Expr.operation? : Expr → List Value → Option (Operation × Value × Value)
  | .binary op l r, operands => some (⟨op, l, r⟩, operands.headD .null, operands.getD 1 .null)
  | _, _ => none

def Visit.operation? (visit : Visit) : Option (Operation × Value × Value) :=
  visit.node.operation? visit.operands

namespace Context

variable {σ : Type}

mutual

/-- The operations both operands of which have values, with these, each after those below it. -/
def reached (ctx : Context σ) : Expr → World σ → List (Operation × Value × Value)
  | .literal _ _, _ => []
  | .named _ _, _ => []
  | .unary _ e _, w => ctx.reached e w
  | .binary op l r, w =>
    match (ctx.eval l).run w with
    | (.error _, _) => ctx.reached l w
    | (.ok a, w₁) =>
      match (ctx.eval r).run w₁ with
      | (.error _, _) => ctx.reached l w ++ ctx.reached r w₁
      | (.ok b, _) => ctx.reached l w ++ ctx.reached r w₁ ++ [(⟨op, l, r⟩, a, b)]
  | .call _ arguments _, w => ctx.reachedAll arguments w
  | .list items _, w => ctx.reachedAll items w

def reachedAll (ctx : Context σ) : List Expr → World σ → List (Operation × Value × Value)
  | [], _ => []
  | e :: es, w =>
    match (ctx.eval e).run w with
    | (.error _, _) => ctx.reached e w
    | (.ok _, w₁) => ctx.reached e w ++ ctx.reachedAll es w₁

end

theorem reachedAll_of_error {ctx : Context σ} {e : Expr} {w w₁ : World σ} {err : RuntimeError}
    (h : (ctx.eval e).run w = (.error err, w₁)) (es : List Expr) :
    ctx.reachedAll (e :: es) w = ctx.reached e w := by
  simp only [reachedAll, h]

theorem reachedAll_of_ok {ctx : Context σ} {e : Expr} {w w₁ : World σ} {v : Value}
    (h : (ctx.eval e).run w = (.ok v, w₁)) (es : List Expr) :
    ctx.reachedAll (e :: es) w = ctx.reached e w ++ ctx.reachedAll es w₁ := by
  simp only [reachedAll, h]

/-- Below every node the same happens, and a binary node comes after what is below it. -/
theorem reached_eq (ctx : Context σ) (e : Expr) (w : World σ) :
    ctx.reached e w = ctx.reachedAll e.children w ++
      match (ctx.evalAll e.children).run w with
      | (.ok vs, _) => (e.operation? vs).toList
      | (.error _, _) => [] := by
  cases e with
  | binary op l r =>
    have hpair : ctx.evalAll [l, r] =
        ctx.eval l >>= fun a => ctx.eval r >>= fun b => pure [a, b] := by
      simp [evalAll]
    rw [Expr.children, hpair]
    rcases hl : (ctx.eval l).run w with ⟨err | a, w₁⟩
    · rw [Eval.run_bind_error hl, reachedAll_of_error hl]
      simp [reached, hl]
    · rw [Eval.run_bind_ok hl, reachedAll_of_ok hl]
      rcases hr : (ctx.eval r).run w₁ with ⟨err | b, w₂⟩
      · rw [Eval.run_bind_error hr, reachedAll_of_error hr]
        simp [reached, hl, hr]
      · rw [Eval.run_bind_ok hr, reachedAll_of_ok hr]
        simp [reached, reachedAll, hl, hr, Expr.operation?]
  | unary op e span =>
    have hone : ctx.reachedAll [e] w = ctx.reached e w := by
      rcases he : (ctx.eval e).run w with ⟨err | v, w₁⟩ <;> simp [reachedAll, he]
    rw [Expr.children, hone, reached]
    split <;> simp [Expr.operation?]
  | literal | named | call | list =>
    rw [reached, Expr.children]
    split <;> simp [reachedAll, Expr.operation?]

theorem reached_postorderAll {ctx : Context σ} {es : List Expr}
    (h : ∀ e ∈ es, ∀ stack w,
      (ctx.visits e.postorder stack w).filterMap Visit.operation? = ctx.reached e w)
    (stack : List Value) (w : World σ) :
    (ctx.visits (Expr.postorderAll es) stack w).filterMap Visit.operation? =
      ctx.reachedAll es w := by
  induction es generalizing stack w with
  | nil => rfl
  | cons e es ih =>
    have he := h e List.mem_cons_self
    have hes := ih fun c hc => h c (List.mem_cons_of_mem e hc)
    rw [Expr.postorderAll]
    rcases heval : (ctx.eval e).run w with ⟨err | v, w₁⟩
    · rw [visits_append_of_error (by rw [walk_postorder_nil, Eval.run_bind_error heval]), he,
        reachedAll_of_error heval]
    · rw [visits_append_of_ok (by rw [walk_postorder_nil, Eval.run_bind_ok heval]; rfl),
        List.filterMap_append, he, hes, reachedAll_of_ok heval]

theorem operation?_of_evalAll {ctx : Context σ} {n : Expr} {vs stack : List Value}
    {w w₁ : World σ} (h : (ctx.evalAll n.children).run w = (.ok vs, w₁)) :
    (ctx.visits [n] (vs.reverse ++ stack) w₁).filterMap Visit.operation? =
      (n.operation? vs).toList := by
  have htake : ((vs.reverse ++ stack).take n.children.length).reverse = vs := by
    rw [← ctx.length_of_evalAll h]
    exact (operands_on_stack vs stack).1
  rcases hn : (ctx.visit n vs).run w₁ with ⟨err | v, w₂⟩
  · rw [visits_of_error (by rw [htake]; exact hn), htake]
    cases hop : n.operation? vs <;> simp [Visit.operation?, hop]
  · rw [visits_of_ok (by rw [htake]; exact hn), htake]
    cases hop : n.operation? vs <;> simp [Visit.operation?, hop, visits]

/-- The binary nodes that are visited are those both operands of which have values. -/
theorem operations_of_visits (ctx : Context σ) (e : Expr) : ∀ stack w,
    (ctx.visits e.postorder stack w).filterMap Visit.operation? = ctx.reached e w := by
  induction e using Expr.of_children with
  | step e ih =>
    intro stack w
    rw [Expr.postorder_eq, reached_eq]
    rcases hvs : (ctx.evalAll e.children).run w with ⟨err | vs, w₁⟩
    · rw [visits_append_of_error (by rw [walk_postorderAll_nil, Eval.run_bind_error hvs]),
        reached_postorderAll ih, List.append_nil]
    · rw [visits_append_of_ok (by rw [walk_postorderAll_nil, Eval.run_bind_ok hvs]; rfl),
        List.filterMap_append, reached_postorderAll ih, operation?_of_evalAll hvs]

end Context

/-- The event that reports an operation with its operands. -/
def Event.ofOperation (x : Operation × Value × Value) : Event :=
  .evaluating x.1.op x.2.1.kind x.2.2.kind

/-- Of what a stage reports only the operation is shown if no more detail is asked for. -/
theorem Stage.Reports.shown {σ : Type} {ctx : Context σ} {st : Stage σ} (h : st.Reports ctx) :
    st.events.filter (fun event => event.detail ≤ 1) =
      st.toVisit.operation?.toList.map Event.ofOperation := by
  have hwithin : ∀ {details : List Event}, (∀ event ∈ details, event.Within) →
      details.filter (fun event => event.detail ≤ 1) = [] := by
    intro details hdetails
    rw [List.filter_eq_nil_iff]
    intro event hevent
    rw [(hdetails event hevent).1]
    decide
  cases hnode : st.node with
  | binary op l r =>
    obtain ⟨a, b, details, hoperands, hevents, hdetails⟩ := h.binary op l r hnode
    rw [hevents, Visit.operation?, hnode, hoperands, List.filter_cons_of_pos (by rfl),
      hwithin hdetails.within]
    rfl
  | call name arguments span =>
    rw [h.call name arguments span hnode, Visit.operation?, hnode]
    split <;> rfl
  | _ =>
    rw [h.silent (by rw [hnode]; rfl) (by rw [hnode]; nofun), Visit.operation?, hnode]
    rfl

theorem Visit.filter_isBinary (visits : List Visit) :
    (visits.filterMap operation?).map (fun x => x.1.expr) =
      (visits.map Visit.node).filter Expr.isBinary := by
  induction visits with
  | nil => rfl
  | cons visit visits ih =>
    rw [List.map_cons]
    cases hnode : visit.node with
    | binary op l r =>
      have hoperation : visit.operation? =
          some (⟨op, l, r⟩, visit.operands.headD .null, visit.operands.getD 1 .null) := by
        rw [operation?, hnode]
        rfl
      rw [List.filterMap_cons_some hoperation, List.filter_cons_of_pos rfl, List.map_cons, ih]
      rfl
    | _ =>
      have hoperation : visit.operation? = none := by
        rw [operation?, hnode]
        rfl
      rw [List.filterMap_cons_none hoperation,
        List.filter_cons_of_neg (by simp [Expr.isBinary]), ih]

/-! ## Lines -/

theorem Event.startsWith_text (e : Event) : e.text.startsWith "TRACE" = decide (e.detail = 2) := by
  rw [Bool.eq_iff_iff, String.startsWith_string_iff, decide_eq_true_iff]
  cases e <;> unfold text <;> simp [toString, detail]

theorem Event.detail_cases (e : Event) : e.detail = 1 ∨ e.detail = 2 := by
  cases e with
  | evaluating => exact .inl rfl
  | _ => exact .inr rfl

theorem Event.lines_zero (events : List Event) : lines 0 events = [] := by
  unfold lines
  rw [List.map_eq_nil_iff, List.filter_eq_nil_iff]
  intro event _
  rcases event.detail_cases with h | h <;> rw [h] <;> decide

/-- Less detail is more detail without the lines that are traces. -/
theorem Event.lines_one (events : List Event) :
    lines 1 events = (lines 2 events).filter fun line => !line.startsWith "TRACE" := by
  unfold lines
  rw [List.filter_map, List.filter_filter]
  congr 1
  apply List.filter_congr
  intro event _
  rw [Function.comp_apply, startsWith_text]
  rcases event.detail_cases with h | h <;> rw [h] <;> rfl

theorem Event.lines_of_two_le {n : Nat} (hn : 2 ≤ n) (events : List Event) :
    lines n events = lines 2 events := by
  unfold lines
  congr 1
  apply List.filter_congr
  intro event _
  rcases event.detail_cases with h | h <;> simp only [h, decide_eq_decide] <;> omega

namespace CommandLine

/-- The reply at a level of detail, to a request that is else the same. -/
def replyAt (o : Options) (file : Option String) (n : Nat) : Reply :=
  (Request.evaluate { o with detail := n }).reply file

/-- The level of detail decides which lines of one log are shown, and nothing else. -/
structure ShowsDetail (o : Options) (file : Option String) : Prop where
  same : ∀ n, replyAt o file n = { replyAt o file 0 with log := (replyAt o file n).log }
  silent : (replyAt o file 0).log = []
  one : (replyAt o file 1).log =
    (replyAt o file 2).log.filter fun line => !line.startsWith "TRACE"
  more : ∀ n, 2 ≤ n → (replyAt o file n).log = (replyAt o file 2).log

theorem evaluate_at (o : Options) (source : String) :
    ∃ (reply : Reply) (events : List Event), ∀ n,
      evaluate { o with detail := n } source = { reply with log := Event.lines n events } := by
  unfold evaluate
  dsimp only
  split
  · exact ⟨{ code := 0, stdout := _ }, _, fun n => rfl⟩
  · exact ⟨{ code := 1, stderr := _ }, _, fun n => rfl⟩

/-- All replies to a request show the same events, each by its level of detail. -/
theorem exists_events (o : Options) (file : Option String) :
    ∃ (reply : Reply) (events : List Event), ∀ n,
      replyAt o file n = { reply with log := Event.lines n events } := by
  cases hfile : o.fromFile with
  | false =>
    obtain ⟨reply, events, hreply⟩ := evaluate_at o (o.contents.getD "")
    refine ⟨reply, events, fun n => ?_⟩
    rw [← hreply n]
    exact if_neg (by simp [hfile])
  | true =>
    cases file with
    | none =>
      refine ⟨replyAt o none 0, [], fun n => ?_⟩
      simp only [replyAt, Request.reply, hfile, if_true]
      rfl
    | some source =>
      obtain ⟨reply, events, hreply⟩ := evaluate_at o source
      refine ⟨reply, events, fun n => ?_⟩
      rw [← hreply n]
      exact if_pos hfile

theorem showsDetail (o : Options) (file : Option String) : ShowsDetail o file := by
  obtain ⟨reply, events, hreply⟩ := exists_events o file
  refine ⟨?_, ?_, ?_, ?_⟩
  · intro n
    rw [hreply n, hreply 0]
  · rw [hreply]
    exact Event.lines_zero events
  · rw [hreply, hreply]
    exact Event.lines_one events
  · intro n hn
    rw [hreply, hreply]
    exact Event.lines_of_two_le hn events

end CommandLine

/-! ## The law -/

namespace Context

variable {σ : Type}

/-- What the log tells of an evaluation. -/
structure Traced (ctx : Context σ) (e : Expr) (w : World σ) : Prop where
  /-- The stages are the nodes in post-order, up to the first that fails. -/
  order : (ctx.stages e.postorder [] w).map (fun st => st.node) <+: e.postorder
  /-- The log gets the events of the stages, one stage after the other. -/
  log : ((ctx.eval e).run w).2.log.toList =
    w.log.toList ++ (ctx.stages e.postorder [] w).flatMap Stage.events
  reports : ∀ st ∈ ctx.stages e.postorder [] w, st.Reports ctx
  /-- One event for each operation both operands of which have values, each after those below. -/
  shown : ((ctx.stages e.postorder [] w).flatMap Stage.events).filter (fun event =>
    event.detail ≤ 1) = (ctx.reached e w).map Event.ofOperation
  /-- An evaluation with a value has come to all operations. -/
  every : ∀ v w', (ctx.eval e).run w = (.ok v, w') →
    (ctx.reached e w).map (fun x => x.1.expr) = e.postorder.filter Expr.isBinary

theorem traced (ctx : Context σ) (e : Expr) (w : World σ) : ctx.Traced e w := by
  have hreports : ∀ st ∈ ctx.stages e.postorder [] w, st.Reports ctx := fun st hst =>
    reports_of_ran (ran_of_mem_stages st hst) (ctx.length_operands e w st hst)
  refine ⟨ctx.stages_nodes _ [] w, ?_, hreports, ?_, ?_⟩
  · rw [← ctx.run_walk_postorder_world e w]
    exact ctx.log_walk e.postorder [] w
  · rw [List.filter_flatMap, ← ctx.operations_of_visits e [] w, ← ctx.stages_toVisit,
      List.filterMap_map, List.filterMap_eq_flatMap_toList, List.map_flatMap]
    exact List.flatMap_congr fun st hst => (hreports st hst).shown
  · intro v w' heval
    have hwalk : (ctx.walk e.postorder []).run w = (.ok [v], w') := by
      rw [walk_postorder_nil, Eval.run_bind_ok heval]
      rfl
    rw [← ctx.operations_of_visits e [] w, Visit.filter_isBinary, (walk_succeeded hwalk).1]

/-- The log of an evaluation mirrors it, and how much of it is shown changes nothing else. -/
theorem traces_mirror_the_evaluation :
    (∀ (ctx : Context σ) (e : Expr) (w : World σ), ctx.Traced e w) ∧
      ∀ (o : CommandLine.Options) (file : Option String), CommandLine.ShowsDetail o file :=
  ⟨traced, CommandLine.showsDetail⟩

end Context

end TemplateExpr
