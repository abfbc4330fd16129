-- What an evaluation leaves as it was, and what it adds. Evaluation itself changes no
-- list, so if the host functions change none either, every list there was holds what it
-- held, and each new list gets a reference that no list had before.
import TemplateExpr.Proofs.Evaluation.CallOrder
import TemplateExpr.Session

namespace TemplateExpr

/-! ## Heaps that only grow -/

namespace Heap

/-- Every list of the first heap is a list of the second and holds the same items there. -/
structure Kept (h h' : Heap) : Prop where
  size_le : h.lists.size ≤ h'.lists.size
  items_eq : ∀ r : ListRef, r.index < h.lists.size → h'.items r = h.items r

theorem Kept.refl (h : Heap) : Kept h h := ⟨Nat.le_refl _, fun _ _ => rfl⟩

theorem Kept.trans {h h' h'' : Heap} (first : Kept h h') (second : Kept h' h'') : Kept h h'' := by
  refine ⟨Nat.le_trans first.size_le second.size_le, ?_⟩
  intro r hr
  have hr' : r.index < h'.lists.size := Nat.lt_of_lt_of_le hr first.size_le
  rw [second.items_eq r hr', first.items_eq r hr]

@[simp] theorem size_newList (h : Heap) (xs : List Value) :
    (h.newList xs).2.lists.size = h.lists.size + 1 := by
  simp [newList]

@[simp] theorem index_newList (h : Heap) (xs : List Value) :
    (h.newList xs).1.index = h.lists.size := rfl

theorem kept_newList (h : Heap) (xs : List Value) : Kept h (h.newList xs).2 := by
  refine ⟨by rw [size_newList]; omega, ?_⟩
  intro r hr
  exact items_newList_of_lt xs hr

theorem kept_place (h : Heap) (outcome : Outcome) : Kept h (h.place outcome).2 := by
  cases outcome with
  | value v => exact Kept.refl h
  | newList items => exact h.kept_newList items

end Heap

/-! ## Stages -/

/-- A visit with the worlds before and after it. -/
structure Stage (σ : Type) extends Visit where
  before : World σ
  after : World σ

namespace Context

variable {σ : Type}

/-- The visits of a walk with their worlds; each begins where the one before it ended. -/
def stages (ctx : Context σ) : List Expr → List Value → World σ → List (Stage σ)
  | [], _, _ => []
  | n :: ns, stack, w =>
    let operands := (stack.take n.children.length).reverse
    match (ctx.visit n operands).run w with
    | (.ok v, w') =>
      ⟨⟨n, operands, .ok v⟩, w, w'⟩ :: ctx.stages ns (v :: stack.drop n.children.length) w'
    | (.error e, w') => [⟨⟨n, operands, .error e⟩, w, w'⟩]

section

variable {ctx : Context σ} {n : Expr} {ns : List Expr} {stack : List Value} {w w₁ : World σ}

theorem stages_of_ok {v : Value}
    (h : (ctx.visit n (stack.take n.children.length).reverse).run w = (.ok v, w₁)) :
    ctx.stages (n :: ns) stack w =
      ⟨⟨n, (stack.take n.children.length).reverse, .ok v⟩, w, w₁⟩ ::
        ctx.stages ns (v :: stack.drop n.children.length) w₁ := by
  simp only [stages, h]

theorem stages_of_error {err : RuntimeError}
    (h : (ctx.visit n (stack.take n.children.length).reverse).run w = (.error err, w₁)) :
    ctx.stages (n :: ns) stack w =
      [⟨⟨n, (stack.take n.children.length).reverse, .error err⟩, w, w₁⟩] := by
  simp only [stages, h]

end

theorem stages_toVisit (ctx : Context σ) (ns : List Expr) (stack : List Value) (w : World σ) :
    (ctx.stages ns stack w).map Stage.toVisit = ctx.visits ns stack w := by
  induction ns generalizing stack w with
  | nil => rfl
  | cons n ns ih =>
    rcases hn : (ctx.visit n (stack.take n.children.length).reverse).run w with ⟨err | v, w₁⟩
    · rw [stages_of_error hn, visits_of_error hn]
      rfl
    · rw [stages_of_ok hn, visits_of_ok hn, List.map_cons, ih]

/-! ## Hosts that change no list -/

/-- The host functions change no list that is there. They may make new ones. -/
def SparesLists (ctx : Context σ) : Prop :=
  ∀ name f, ctx.functions.find? name = some f → ∀ args span (h : Heap) s,
    h.Kept (f args span h s).2.1

theorem kept_perform (o : Operation) (coercions : Heap → Coercions) (a b : Value) (w : World σ) :
    w.heap.Kept ((o.perform coercions a b).run w).2.heap := by
  simp only [Operation.perform, Eval.run]
  cases (o.run (coercions w.heap) w.heap a b).result with
  | ok outcome => exact w.heap.kept_place outcome
  | error e => exact Heap.Kept.refl w.heap

/-- One step of a node changes no list. -/
theorem SparesLists.visit {ctx : Context σ} (h : ctx.SparesLists) (n : Expr)
    (operands : List Value) (w : World σ) :
    w.heap.Kept ((ctx.visit n operands).run w).2.heap := by
  cases n with
  | binary op l r => exact kept_perform _ _ _ _ w
  | list items span => exact w.heap.kept_newList operands
  | call name arguments span =>
    simp only [Context.visit, call, Eval.run]
    cases hf : ctx.functions.find? name with
    | some f => exact h name f hf operands span w.heap w.state
    | none => cases Builtin.ofName? name <;> exact Heap.Kept.refl w.heap
  | literal | named | unary => exact Heap.Kept.refl w.heap

end Context

/-! ## What a stage gives -/

namespace Stage

variable {σ : Type}

/-- A stage of a walk that began with the one heap and ended with the other. -/
structure Within (ctx : Context σ) (first last : Heap) (st : Stage σ) : Prop where
  ran : (ctx.visit st.node st.operands).run st.before = (st.result, st.after)
  since : first.Kept st.before.heap
  step : st.before.heap.Kept st.after.heap
  until_end : st.after.heap.Kept last

/-- The stage makes one list of these items, at a reference that no list had before, and the list
holds them still in the last heap. -/
def Makes (st : Stage σ) (last : Heap) (items : List Value) : Prop :=
  ∃ r : ListRef, st.result = .ok (.list r) ∧ st.before.heap.lists.size ≤ r.index ∧
    r.index < st.after.heap.lists.size ∧ last.items r = items

/-- The new list of a stage, if its node is one that makes lists. -/
def made? (st : Stage σ) : Option ListRef :=
  match st.node, st.result with
  | .list _ _, .ok (.list r) => some r
  | .binary .append _ _, .ok (.list r) => some r
  | .binary .prepend _ _, .ok (.list r) => some r
  | _, _ => none

/-- What a stage gives by its node: new lists of the very operands and items, or a value that was
there before. -/
structure Shares (ctx : Context σ) (st : Stage σ) (last : Heap) : Prop where
  list : ∀ items span, st.node = .list items span → st.Makes last st.operands
  append : ∀ l r, st.node = .binary .append l r → ∃ a b, st.operands = [a, b] ∧
    match st.before.heap.sequence? a with
    | some items => st.Makes last (items ++ [b])
    | none => ∃ err, st.result = .error err
  prepend : ∀ l r, st.node = .binary .prepend l r → ∃ a b, st.operands = [a, b] ∧
    match st.before.heap.sequence? b with
    | some items => st.Makes last (a :: items)
    | none => ∃ err, st.result = .error err
  coalesce : ∀ l r, st.node = .binary .coalesce l r → ∃ a b, st.operands = [a, b] ∧
    st.result = .ok (if a.isNull then b else a)
  named : ∀ name span, st.node = .named name span → ∀ v,
    st.result = .ok v ↔ ctx.values.find? name = some v

/-- The step of a stage made a list of these items and nothing else in the heap. -/
def Adds (st : Stage σ) (items : List Value) : Prop :=
  st.result = .ok (.list (st.before.heap.newList items).1) ∧
    st.after.heap = (st.before.heap.newList items).2

theorem Adds.makes {st : Stage σ} {last : Heap} {items : List Value} (h : st.Adds items)
    (hlast : st.after.heap.Kept last) : st.Makes last items := by
  obtain ⟨hresult, hafter⟩ := h
  have hlt : (st.before.heap.newList items).1.index < st.after.heap.lists.size := by
    rw [hafter]
    simp
  refine ⟨_, hresult, ?_, hlt, ?_⟩
  · simp
  · rw [hlast.items_eq _ hlt, hafter, Heap.items_newList]

theorem adds_of_list {ctx : Context σ} {st : Stage σ} {items : List Expr} {span : Span}
    (hran : (ctx.visit st.node st.operands).run st.before = (st.result, st.after))
    (hnode : st.node = .list items span) : st.Adds st.operands := by
  rw [hnode] at hran
  have hresult := congrArg Prod.fst hran
  have hafter := congrArg Prod.snd hran
  exact ⟨hresult.symm, congrArg World.heap hafter.symm⟩

/-- The operators on sequences make a new list, or fail where there is no sequence. -/
theorem adds_of_extended {ctx : Context σ} {st : Stage σ} {op : BinaryOp} {l r : Expr}
    (hran : (ctx.visit st.node st.operands).run st.before = (st.result, st.after))
    (hnode : st.node = .binary op l r) (hop : op = .append ∨ op = .prepend) :
    match Operation.extended? st.before.heap op (st.operands.headD .null)
      (st.operands.getD 1 .null) with
    | some items => st.Adds items
    | none => ∃ err, st.result = .error err := by
  rw [hnode] at hran
  have hsteps := Operation.steps_of_extended (o := ⟨op, l, r⟩) hop (ctx.coercions st.before.heap)
    st.before.heap (st.operands.headD .null) (st.operands.getD 1 .null)
  simp only [Context.visit, Operation.perform, Eval.run, Operation.run, hsteps] at hran
  cases hitems : Operation.extended? st.before.heap op (st.operands.headD .null)
    (st.operands.getD 1 .null) with
  | some items =>
    simp only [hitems] at hran
    have hresult := congrArg Prod.fst hran
    have hafter := congrArg Prod.snd hran
    exact ⟨hresult.symm, congrArg World.heap hafter.symm⟩
  | none =>
    simp only [hitems] at hran
    exact ⟨_, (congrArg Prod.fst hran).symm⟩

/-- The operands of a binary node are two. -/
theorem operands_of_binary {st : Stage σ} {op : BinaryOp} {l r : Expr}
    (hnode : st.node = .binary op l r) (hlength : st.operands.length = st.node.children.length) :
    ∃ a b, st.operands = [a, b] := by
  rw [hnode] at hlength
  rcases hoperands : st.operands with _ | ⟨a, _ | ⟨b, _ | ⟨c, cs⟩⟩⟩
  case cons.cons.nil => exact ⟨a, b, rfl⟩
  all_goals
    rw [hoperands] at hlength
    simp [Expr.children] at hlength

theorem Within.shares {ctx : Context σ} {first last : Heap} {st : Stage σ}
    (h : st.Within ctx first last) (hlength : st.operands.length = st.node.children.length) :
    st.Shares ctx last := by
  obtain ⟨hran, _, _, hend⟩ := h
  refine ⟨?_, ?_, ?_, ?_, ?_⟩
  · intro items span hnode
    exact (adds_of_list hran hnode).makes hend
  · intro l r hnode
    obtain ⟨a, b, hoperands⟩ := operands_of_binary hnode hlength
    have hadds := adds_of_extended hran hnode (.inl rfl)
    refine ⟨a, b, hoperands, ?_⟩
    rw [hoperands] at hadds
    simp only [Operation.extended?, List.headD_cons] at hadds
    cases hitems : st.before.heap.sequence? a with
    | some items =>
      rw [hitems] at hadds
      exact Adds.makes hadds hend
    | none =>
      rw [hitems] at hadds
      exact hadds
  · intro l r hnode
    obtain ⟨a, b, hoperands⟩ := operands_of_binary hnode hlength
    have hadds := adds_of_extended hran hnode (.inr rfl)
    refine ⟨a, b, hoperands, ?_⟩
    rw [hoperands] at hadds
    simp only [Operation.extended?, List.getD_cons_succ, List.getD_cons_zero,
      List.headD_cons] at hadds
    cases hitems : st.before.heap.sequence? b with
    | some items =>
      rw [hitems] at hadds
      exact Adds.makes hadds hend
    | none =>
      rw [hitems] at hadds
      exact hadds
  · intro l r hnode
    obtain ⟨a, b, hoperands⟩ := operands_of_binary hnode hlength
    refine ⟨a, b, hoperands, ?_⟩
    rw [hnode, hoperands] at hran
    exact (congrArg Prod.fst hran).symm
  · intro name span hnode v
    rw [hnode] at hran
    have hresult : ctx.lookup name span = st.result := congrArg Prod.fst hran
    rw [← hresult, Context.lookup]
    cases ctx.values.find? name <;> simp

/-- A new list has a reference that no list had before. -/
theorem Within.index_of_made? {ctx : Context σ} {first last : Heap} {st : Stage σ} {r : ListRef}
    (h : st.Within ctx first last) (hmade : st.made? = some r) :
    st.before.heap.lists.size ≤ r.index ∧ r.index < st.after.heap.lists.size := by
  have of_adds : ∀ items, st.Adds items → st.result = .ok (.list r) →
      st.before.heap.lists.size ≤ r.index ∧ r.index < st.after.heap.lists.size := by
    intro items hadds hr
    obtain ⟨r', hresult, hge, hlt, _⟩ := hadds.makes h.until_end
    rw [hr] at hresult
    cases hresult
    exact ⟨hge, hlt⟩
  have of_extended : ∀ op left right, st.node = .binary op left right →
      (op = .append ∨ op = .prepend) → st.result = .ok (.list r) →
      st.before.heap.lists.size ≤ r.index ∧ r.index < st.after.heap.lists.size := by
    intro op left right hnode hop hr
    have hadds := adds_of_extended h.ran hnode hop
    split at hadds
    · exact of_adds _ hadds hr
    · obtain ⟨err, herr⟩ := hadds
      rw [herr] at hr
      cases hr
  unfold made? at hmade
  split at hmade
  · rename_i hnode hr
    cases hmade
    exact of_adds _ (adds_of_list h.ran hnode) hr
  · rename_i hnode hr
    cases hmade
    exact of_extended _ _ _ hnode (.inl rfl) hr
  · rename_i hnode hr
    cases hmade
    exact of_extended _ _ _ hnode (.inr rfl) hr
  · cases hmade

end Stage

/-! ## All stages -/

namespace Context

variable {σ : Type}

theorem SparesLists.walk {ctx : Context σ} (h : ctx.SparesLists) (ns : List Expr)
    (stack : List Value) (w : World σ) :
    w.heap.Kept ((ctx.walk ns stack).run w).2.heap := by
  induction ns generalizing stack w with
  | nil => exact Heap.Kept.refl w.heap
  | cons n ns ih =>
    have hstep := h.visit n (stack.take n.children.length).reverse w
    rcases hn : (ctx.visit n (stack.take n.children.length).reverse).run w with ⟨err | v, w₁⟩
    · rw [run_walk_of_error hn]
      rw [hn] at hstep
      exact hstep
    · rw [run_walk_of_ok hn]
      rw [hn] at hstep
      exact hstep.trans (ih _ w₁)

theorem SparesLists.within {ctx : Context σ} (h : ctx.SparesLists) (ns : List Expr)
    (stack : List Value) (w : World σ) : ∀ st ∈ ctx.stages ns stack w,
      st.Within ctx w.heap ((ctx.walk ns stack).run w).2.heap := by
  induction ns generalizing stack w with
  | nil => exact List.forall_mem_nil _
  | cons n ns ih =>
    have hstep := h.visit n (stack.take n.children.length).reverse w
    rcases hn : (ctx.visit n (stack.take n.children.length).reverse).run w with ⟨err | v, w₁⟩
    · rw [hn] at hstep
      rw [stages_of_error hn, run_walk_of_error hn]
      intro st hst
      rw [List.mem_singleton.1 hst]
      exact ⟨hn, Heap.Kept.refl _, hstep, Heap.Kept.refl _⟩
    · rw [hn] at hstep
      rw [stages_of_ok hn, run_walk_of_ok hn]
      intro st hst
      rcases List.mem_cons.1 hst with rfl | hst
      · exact ⟨hn, Heap.Kept.refl _, hstep, h.walk ns _ w₁⟩
      · obtain ⟨hran, hsince, hst, hend⟩ := ih _ w₁ st hst
        exact ⟨hran, hstep.trans hsince, hst, hend⟩

/-- New lists are later than all lists before the walk, and each later than those made before it. -/
theorem SparesLists.made {ctx : Context σ} (h : ctx.SparesLists) (ns : List Expr)
    (stack : List Value) (w : World σ) :
    (∀ r ∈ (ctx.stages ns stack w).filterMap Stage.made?, w.heap.lists.size ≤ r.index) ∧
      ((ctx.stages ns stack w).filterMap Stage.made?).Pairwise fun r s => r.index < s.index := by
  induction ns generalizing stack w with
  | nil => exact ⟨List.forall_mem_nil _, List.Pairwise.nil⟩
  | cons n ns ih =>
    have hwithin := h.within (n :: ns) stack w
    rcases hn : (ctx.visit n (stack.take n.children.length).reverse).run w with ⟨err | v, w₁⟩
    · rw [stages_of_error hn] at hwithin ⊢
      let st : Stage σ := ⟨⟨n, (stack.take n.children.length).reverse, .error err⟩, w, w₁⟩
      have hmade : st.made? = none := by
        simp [st, Stage.made?]
      rw [List.filterMap_cons_none hmade]
      exact ⟨List.forall_mem_nil _, List.Pairwise.nil⟩
    · rw [stages_of_ok hn] at hwithin ⊢
      obtain ⟨hlater, hpairwise⟩ := ih (v :: stack.drop n.children.length) w₁
      have hhead := hwithin _ List.mem_cons_self
      have hsize : w.heap.lists.size ≤ w₁.heap.lists.size := hhead.step.size_le
      have hrest : ∀ r ∈ (ctx.stages ns (v :: stack.drop n.children.length) w₁).filterMap
          Stage.made?, w.heap.lists.size ≤ r.index := by
        intro r hr
        have := hlater r hr
        omega
      let st : Stage σ := ⟨⟨n, (stack.take n.children.length).reverse, .ok v⟩, w, w₁⟩
      cases hmade : st.made? with
      | none =>
        rw [List.filterMap_cons_none hmade]
        exact ⟨hrest, hpairwise⟩
      | some r =>
        obtain ⟨hge, hlt⟩ := hhead.index_of_made? hmade
        rw [List.filterMap_cons_some hmade]
        refine ⟨List.forall_mem_cons.2 ⟨hge, hrest⟩, List.pairwise_cons.2 ⟨?_, hpairwise⟩⟩
        intro s hs
        have := hlater s hs
        dsimp only at hlt
        omega

/-- The last stage gives what the whole walk gives. -/
theorem stages_getLast? (ctx : Context σ) {ns : List Expr} (hns : ns ≠ []) (stack : List Value)
    (w : World σ) : ∃ st rest, (ctx.stages ns stack w).getLast? = some st ∧
      (ctx.walk ns stack).run w = (st.result.map (· :: rest), st.after) := by
  induction ns generalizing stack w with
  | nil => exact absurd rfl hns
  | cons n ns ih =>
    rcases hn : (ctx.visit n (stack.take n.children.length).reverse).run w with ⟨err | v, w₁⟩
    · rw [stages_of_error hn, run_walk_of_error hn]
      exact ⟨_, stack, rfl, rfl⟩
    · rw [stages_of_ok hn, run_walk_of_ok hn]
      rcases ns with _ | ⟨m, ms⟩
      · exact ⟨_, stack.drop n.children.length, rfl, rfl⟩
      · obtain ⟨st, rest, hlast, hrun⟩ := ih (by simp) (v :: stack.drop n.children.length) w₁
        exact ⟨st, rest, by simp [List.getLast?_cons, hlast], hrun⟩

theorem stages_postorder_getLast? (ctx : Context σ) (e : Expr) (w : World σ) :
    ((ctx.stages e.postorder [] w).getLast?.map fun st => (st.result, st.after)) =
      some ((ctx.eval e).run w) := by
  have hne : e.postorder ≠ [] := by
    rw [Expr.postorder_eq]
    simp
  obtain ⟨st, rest, hlast, hrun⟩ := ctx.stages_getLast? hne [] w
  rw [hlast, Option.map_some, Option.some.injEq]
  rw [walk_postorder_nil] at hrun
  rcases heval : (ctx.eval e).run w with ⟨err | v, w'⟩
  · rw [Eval.run_bind_error heval] at hrun
    cases hresult : st.result with
    | ok u => simp [hresult, Except.map] at hrun
    | error err' => simpa [hresult, Except.map, eq_comm] using hrun
  · rw [Eval.run_bind_ok heval] at hrun
    cases hresult : st.result with
    | error err => simp [hresult, Except.map] at hrun
    | ok u => simp_all [Except.map]

/-! ## The law -/

/-- What an evaluation leaves as it was, and where its new lists come from. -/
structure LeavesWhatWas (ctx : Context σ) (e : Expr) (w : World σ) : Prop where
  /-- Every list there was holds what it held, whether the evaluation has a value or fails. -/
  kept : w.heap.Kept ((ctx.eval e).run w).2.heap
  /-- The stages are the visits of the nodes in post-order, and the last one ends as the evaluation
  does. -/
  visited : (ctx.stages e.postorder [] w).map Stage.toVisit = ctx.visits e.postorder [] w
  ended : ((ctx.stages e.postorder [] w).getLast?.map fun st => (st.result, st.after)) =
    some ((ctx.eval e).run w)
  /-- No stage changes a list that was there before it, and none after it changes one that it
  made. -/
  within : ∀ st ∈ ctx.stages e.postorder [] w, st.Within ctx w.heap ((ctx.eval e).run w).2.heap
  /-- New lists hold the very values they were made of, and variables and `??` make none. -/
  shares : ∀ st ∈ ctx.stages e.postorder [] w, st.Shares ctx ((ctx.eval e).run w).2.heap
  /-- Each new list is none of those before the evaluation and none of those made earlier. -/
  later : ∀ r ∈ (ctx.stages e.postorder [] w).filterMap Stage.made?, w.heap.lists.size ≤ r.index
  distinct : ((ctx.stages e.postorder [] w).filterMap Stage.made?).Pairwise
    fun r s => r.index < s.index

/-- Every node of an evaluation gets as many operands as there are nodes right below it. -/
theorem length_operands (ctx : Context σ) (e : Expr) (w : World σ) :
    ∀ st ∈ ctx.stages e.postorder [] w, st.operands.length = st.node.children.length := by
  intro st hst
  have hmem : st.toVisit ∈ ctx.visits e.postorder [] w := by
    rw [← stages_toVisit]
    exact List.mem_map_of_mem hst
  obtain ⟨w₀, w₁, _, hoperands, _⟩ := ctx.fed_postorder e [] w st.toVisit hmem
  exact ctx.length_of_evalAll hoperands

theorem run_walk_postorder_world (ctx : Context σ) (e : Expr) (w : World σ) :
    ((ctx.walk e.postorder []).run w).2 = ((ctx.eval e).run w).2 := by
  rw [walk_postorder_nil]
  rcases heval : (ctx.eval e).run w with ⟨err | v, w'⟩
  · rw [Eval.run_bind_error heval]
  · rw [Eval.run_bind_ok heval]
    rfl

theorem SparesLists.eval {ctx : Context σ} (h : ctx.SparesLists) (e : Expr) (w : World σ) :
    w.heap.Kept ((ctx.eval e).run w).2.heap := by
  rw [← ctx.run_walk_postorder_world e w]
  exact h.walk e.postorder [] w

/-- If the host functions change no list, neither does an evaluation: lists are only added, each at
a new reference, and share the values they were made of. What names are bound to, the functions and
the pattern stay what they are from one evaluation of a session to the next. -/
theorem evaluation_leaves_what_was (ctx : Context σ) (h : ctx.SparesLists) (e : Expr)
    (w : World σ) : ctx.LeavesWhatWas e w ∧
      ∀ (s : Session) (source : String), (s.eval source).2.context = s.context ∧
        (s.context.SparesLists → s.world.heap.Kept (s.eval source).2.world.heap) := by
  have hworld := ctx.run_walk_postorder_world e w
  have hwithin := h.within e.postorder [] w
  rw [hworld] at hwithin
  obtain ⟨hlater, hdistinct⟩ := h.made e.postorder [] w
  refine ⟨⟨?_, ctx.stages_toVisit _ [] w, ctx.stages_postorder_getLast? e w, hwithin, ?_, hlater,
    hdistinct⟩, ?_⟩
  · rw [← hworld]
    exact h.walk e.postorder [] w
  · intro st hst
    exact (hwithin st hst).shares (ctx.length_operands e w st hst)
  · intro s source
    refine ⟨rfl, fun hs => ?_⟩
    simp only [Session.eval, evalSource]
    cases Expr.ofSource source with
    | error err => exact Heap.Kept.refl s.world.heap
    | ok e' =>
      dsimp only
      rw [← s.context.run_walk_postorder_world e' s.world]
      exact hs.walk e'.postorder [] s.world

/-- A host that makes new lists, with a name for a list. -/
def listMaker : Context Journal :=
  { values := ⟨[("xs", .list ⟨0⟩)]⟩
    functions := ⟨[("pair", Sample.function .list "pair" 0)]⟩ }

theorem sparesLists_listMaker : listMaker.SparesLists := by
  intro name f hf args span h s
  have hlookup : List.lookup name [("pair", Sample.function .list "pair" 0)] = some f := hf
  rw [List.lookup_cons] at hlookup
  split at hlookup
  · cases hlookup
    exact h.kept_newList args
  · cases hlookup

/-- Two lists made of one that a name is bound to, in a call, and then the bound list itself. -/
theorem evaluation_with_a_list_maker_leaves_what_was :
    listMaker.SparesLists ∧ listMaker.LeavesWhatWas
      (.list [.call "pair" [.binary .append (.named "xs" default) (.literal (.int 1) default),
        .binary .prepend (.named "xs" default) (.named "xs" default)] default,
        .binary .coalesce (.literal .null default) (.named "xs" default)] default)
      ⟨{ lists := #[[.int 7]] }, {}, #[]⟩ :=
  ⟨sparesLists_listMaker, (evaluation_leaves_what_was listMaker sparesLists_listMaker _ _).1⟩

end Context

end TemplateExpr
