-- Texts put together with `+`. Once the left operand is a text so is every sum after it, so a
-- chain that begins with a text appends the texts of its other operands, whatever they are.
-- Each is written as it is when it comes up; where no list is changed later, it could as
-- well be written at the end.
import TemplateExpr.Proofs.Evaluation.Regrouping
import TemplateExpr.Proofs.Heap.Order
import TemplateExpr.Proofs.Operation.Outcome

namespace TemplateExpr

/-! ## Values that are written the same later -/

namespace Heap

/-- The lists of the value are there and do not hold themselves, and its objects have the type names
in the second heap that they have in the first. -/
inductive Steady (h h' : Heap) : Value → Prop
  | leaf {v} : v.kind ≠ .list → v.kind ≠ .object → Steady h h' v
  | object {r} : (h'.object? r).map HostObject.typeName = (h.object? r).map HostObject.typeName →
      Steady h h' (.object r)
  | list {r} : (Value.list r).In h → (∀ u ∈ h.items r, Steady h h' u) → Steady h h' (.list r)

namespace Steady

variable {h h' : Heap} {v : Value}

theorem of_holds {u : Value} (hv : h.Steady h' v) (hu : h.Holds u v) : h.Steady h' u := by
  obtain ⟨r, rfl, hmem⟩ := hu
  cases hv with
  | leaf hlist _ => exact absurd rfl hlist
  | list _ hitems => exact hitems u hmem

theorem grounded (hv : h.Steady h' v) : h.Grounded v := by
  induction hv with
  | leaf hlist _ => exact grounded_of_ne_list hlist
  | object _ => exact grounded_of_ne_list nofun
  | list _ _ ih =>
    refine Acc.intro _ ?_
    rintro u ⟨r, hr, hu⟩
    cases hr
    exact ih u hu

theorem isIn (hv : h.Steady h' v) : v.In h := by
  cases hv with
  | list hr _ => exact hr
  | leaf hlist _ => exact Value.in_of_ne_list hlist
  | object _ => trivial

theorem nestedWithin_depth (hv : h.Steady h' v) : h.NestedWithin h.depth v :=
  Heap.nestedWithin_depth (fun _ _ hv hu => hv.of_holds hu) (fun _ hv => hv.isIn) hv hv.grounded

theorem leafText (hv : h.Steady h' v) (pattern : String) (hlist : v.kind ≠ .list) :
    h'.leafText pattern v = h.leafText pattern v := by
  cases hv with
  | leaf _ hobject => cases v <;> first | rfl | exact absurd rfl hobject
  | object hname => simp only [Heap.leafText, hname]
  | list => exact absurd rfl hlist

theorem textWithin (hk : h.Kept h') (hv : h.Steady h' v) (pattern : String) (d : Nat) :
    h'.textWithin pattern d v = h.textWithin pattern d v := by
  induction d generalizing v with
  | zero =>
    by_cases hlist : v.kind = .list
    · cases v <;> first | rfl | cases hlist
    · rw [textWithin_of_ne_list _ _ _ hlist, textWithin_of_ne_list _ _ _ hlist,
        hv.leafText pattern hlist]
  | succ d ih =>
    by_cases hlist : v.kind = .list
    · cases hv with
      | leaf hleaf _ => exact absurd hlist hleaf
      | object => cases hlist
      | @list r hr hitems =>
        rw [Heap.textWithin, Heap.textWithin, hk.items_eq r hr]
        congr 1
        exact List.map_congr_left fun u hu => ih (hitems u hu)
    · rw [textWithin_of_ne_list _ _ _ hlist, textWithin_of_ne_list _ _ _ hlist,
        hv.leafText pattern hlist]

/-- A heap that keeps its lists writes them as before. -/
theorem text (hk : h.Kept h') (hv : h.Steady h' v) (pattern : String) :
    h'.text pattern v = h.text pattern v := by
  calc h'.text pattern v
    _ = h.textWithin pattern h'.depth v := hv.textWithin hk pattern h'.depth
    _ = h.text pattern v := hv.nestedWithin_depth.textWithin_eq pattern hk.size_le

end Steady

end Heap

/-! ## Chains -/

/-- `first + e₁ + … + eₙ`, grouped from the left. -/
def Expr.sum (first : Expr) (es : List Expr) : Expr := es.foldl (.binary .add) first

namespace Context

variable {σ : Type} {ctx : Context σ}

/-- Expressions are evaluated one after the other, each to a value in the heap that it leaves. -/
inductive Evaluates (ctx : Context σ) : World σ → List Expr → List (Value × Heap) → World σ → Prop
  | nil {w} : Evaluates ctx w [] [] w
  | cons {w w₁ w' e es v seen} : (ctx.eval e).run w = (.ok v, w₁) → Evaluates ctx w₁ es seen w' →
      Evaluates ctx w (e :: es) ((v, w₁.heap) :: seen) w'

theorem evaluates_iff {es : List Expr} {w w' : World σ} {vs : List Value} :
    (ctx.evalAll es).run w = (.ok vs, w') ↔
      ∃ seen, ctx.Evaluates w es seen w' ∧ seen.map Prod.fst = vs := by
  induction es generalizing w vs with
  | nil =>
    rw [evalAll]
    constructor
    · intro h
      cases h
      exact ⟨[], .nil, rfl⟩
    · rintro ⟨seen, hseen, rfl⟩
      cases hseen
      rfl
  | cons e es ih =>
    rw [evalAll]
    constructor
    · intro h
      obtain ⟨v, w₁, he, hrest⟩ := Eval.run_bind_eq_ok h
      obtain ⟨us, w₂, hes, hpure⟩ := Eval.run_bind_eq_ok hrest
      cases hpure
      obtain ⟨seen, hseen, rfl⟩ := ih.1 hes
      exact ⟨_, .cons he hseen, rfl⟩
    · rintro ⟨seen, hseen, rfl⟩
      cases hseen with
      | cons he hseen =>
        rw [Eval.run_bind_ok he, Eval.run_bind_ok (ih.2 ⟨_, hseen, rfl⟩)]
        rfl

/-- One more operand appends its text. -/
theorem eval_add_text {first e : Expr} {s : String} {v : Value} {w w₁ w₂ : World σ}
    (hfirst : (ctx.eval first).run w = (.ok (.string s), w₁))
    (he : (ctx.eval e).run w₁ = (.ok v, w₂)) :
    ∃ w₃, (ctx.eval (.binary .add first e)).run w =
      (.ok (.string (s ++ w₂.heap.text ctx.pattern v)), w₃) ∧ w₂.Same w₃ := by
  have htext : Operation.HasText (.string s) v := .inl rfl
  have hyields := Operation.yields_texts w₂.heap ctx.pattern htext ⟨.add, first, e⟩ rfl
  rw [Operation.text_string] at hyields
  obtain ⟨w₃, hperform, hsame⟩ := run_perform_of_value ctx.coercions hyields
  refine ⟨w₃, ?_, hsame⟩
  rw [eval, Eval.run_bind_ok hfirst, Eval.run_bind_ok he, hperform]

/-- A chain that begins with a text appends the texts of its operands as they come up. -/
theorem eval_sum {es : List Expr} {first : Expr} {s : String} {w v₁ w₁ w₂ : World σ}
    {seen : List (Value × Heap)} (hfirst : (ctx.eval first).run w = (.ok (.string s), v₁))
    (hsame : w₁.Same v₁) (hes : ctx.Evaluates w₁ es seen w₂) :
    ∃ w₃, (ctx.eval (first.sum es)).run w = (.ok (.string (s ++ String.join
      (seen.map fun seen => seen.2.text ctx.pattern seen.1))), w₃) ∧ w₂.Same w₃ := by
  induction es generalizing first s v₁ w₁ seen with
  | nil =>
    cases hes
    refine ⟨v₁, ?_, hsame⟩
    simpa [Expr.sum] using hfirst
  | cons e es ih =>
    cases hes with
    | @cons _ w₂' _ _ _ v seen he hes =>
      -- The reports of the sum so far do not matter to the operand.
      obtain ⟨hvalue, hafter⟩ := ctx.equivalent_eval e w₁ v₁ hsame
      rcases hrun : (ctx.eval e).run v₁ with ⟨result, v₂⟩
      rw [he, hrun] at hvalue hafter
      cases hvalue
      obtain ⟨v₃, hsum, hsame'⟩ := eval_add_text hfirst hrun
      obtain ⟨w₃, hall, hend⟩ := ih hsum (hafter.trans hsame') hes
      refine ⟨w₃, ?_, hend⟩
      rw [hafter.heap] at hall
      simpa [Expr.sum, String.append_assoc] using hall

theorem Evaluates.kept (hspares : ctx.SparesLists) {es : List Expr} {w w' : World σ}
    {seen : List (Value × Heap)} (h : ctx.Evaluates w es seen w') :
    w.heap.Kept w'.heap ∧ ∀ st ∈ seen, st.2.Kept w'.heap := by
  induction h with
  | nil => exact ⟨.refl _, List.forall_mem_nil _⟩
  | @cons w w₁ w' e es v seen he _ ih =>
    have hstep := hspares.eval e w
    rw [he] at hstep
    exact ⟨hstep.trans ih.1, List.forall_mem_cons.2 ih⟩

/-! ## The law -/

/-- How texts are put together. -/
structure JoinsTexts (ctx : Context σ) : Prop where
  /-- After the text come the texts of the other operands, each as it is when it comes up. -/
  chain : ∀ (first : Expr) (es : List Expr) (s : String) (seen : List (Value × Heap))
    (w w₁ w₂ : World σ), (ctx.eval first).run w = (.ok (.string s), w₁) →
      ctx.Evaluates w₁ es seen w₂ → ∃ w₃, (ctx.eval (first.sum es)).run w = (.ok (.string
        (s ++ String.join (seen.map fun st => st.2.text ctx.pattern st.1))), w₃) ∧ w₂.Same w₃
  /-- The values are those that the operands have when they are evaluated on their own. -/
  in_order : ∀ (es : List Expr) (w w' : World σ) (vs : List Value),
    (ctx.evalAll es).run w = (.ok vs, w') ↔
      ∃ seen, ctx.Evaluates w es seen w' ∧ seen.map Prod.fst = vs
  /-- Where no list is changed, the texts are those that the values have in the end. -/
  in_the_end : ctx.SparesLists → ∀ (first : Expr) (es : List Expr) (s : String)
    (seen : List (Value × Heap)) (w w₁ w₂ : World σ),
      (ctx.eval first).run w = (.ok (.string s), w₁) → ctx.Evaluates w₁ es seen w₂ →
        (∀ st ∈ seen, st.2.Steady w₂.heap st.1) →
          ∃ w₃, (ctx.eval (first.sum es)).run w = (.ok (.string (s ++ String.join
            ((seen.map Prod.fst).map (w₃.heap.text ctx.pattern)))), w₃) ∧ w₂.Same w₃
  null : ∀ (h : Heap) (pattern : String), h.text pattern .null = ""
  range : ∀ (h : Heap) (pattern : String) (r : Range), h.text pattern (.range r) =
    Text.bracketed (r.toList.map fun n => h.text pattern (.int n))
  list : ∀ (h : Heap) (pattern : String) (r : ListRef), h.Steady h (.list r) →
    h.text pattern (.list r) = Text.bracketed ((h.items r).map (h.text pattern))
  /-- With a text in the middle the two groupings give the same. -/
  regrouped : ∀ (h : Heap) (pattern s : String) (x y : Value), ∃ left right whole : String,
    Operation.Yields (.standard h pattern) h .add x (.string s) (.string left) ∧
      Operation.Yields (.standard h pattern) h .add (.string s) y (.string right) ∧
      Operation.Yields (.standard h pattern) h .add (.string left) y (.string whole) ∧
      Operation.Yields (.standard h pattern) h .add x (.string right) (.string whole)

theorem regroup_texts (h : Heap) (pattern s : String) (x y : Value) :
    ∃ left right whole : String,
      Operation.Yields (.standard h pattern) h .add x (.string s) (.string left) ∧
        Operation.Yields (.standard h pattern) h .add (.string s) y (.string right) ∧
        Operation.Yields (.standard h pattern) h .add (.string left) y (.string whole) ∧
        Operation.Yields (.standard h pattern) h .add x (.string right) (.string whole) := by
  have before : ∀ t, Operation.Yields (.standard h pattern) h .add x (.string t)
      (.string (h.text pattern x ++ t)) := by
    intro t
    have htext : Operation.HasText x (.string t) := .inr rfl
    have hyields := Operation.yields_texts h pattern htext
    rwa [Operation.text_string] at hyields
  have after : ∀ t, Operation.Yields (.standard h pattern) h .add (.string t) y
      (.string (t ++ h.text pattern y)) := by
    intro t
    have htext : Operation.HasText (.string t) y := .inl rfl
    have hyields := Operation.yields_texts h pattern htext
    rwa [Operation.text_string] at hyields
  have hwhole := before (s ++ h.text pattern y)
  rw [← String.append_assoc] at hwhole
  exact ⟨_, _, _, before s, after s, after _, hwhole⟩

/-- A sum that begins with a text is that text followed by the texts of all other operands. -/
theorem a_sum_of_texts_is_their_concatenation (ctx : Context σ) : ctx.JoinsTexts where
  chain := fun _ _ _ _ _ w₁ _ hfirst hes => eval_sum hfirst (.refl w₁) hes
  in_order := fun _ _ _ _ => evaluates_iff
  in_the_end := by
    intro hspares first es s seen w w₁ w₂ hfirst hes hsteady
    obtain ⟨w₃, hsum, hsame⟩ := eval_sum hfirst (.refl w₁) hes
    refine ⟨w₃, ?_, hsame⟩
    have htexts : (seen.map Prod.fst).map (w₃.heap.text ctx.pattern) =
        seen.map fun st => st.2.text ctx.pattern st.1 := by
      rw [List.map_map, hsame.heap]
      refine List.map_congr_left ?_
      intro st hst
      exact (hsteady st hst).text ((hes.kept hspares).2 st hst) ctx.pattern
    rw [htexts, hsum]
  null := fun h pattern => h.text_of_ne_list pattern nofun
  range := by
    intro h pattern r
    have hint : ∀ n, h.text pattern (.int n) = Decimal.intText n.toInt :=
      fun n => h.text_of_ne_list pattern nofun
    simp only [hint]
    exact h.text_of_ne_list pattern nofun
  list := fun h pattern r hr => Heap.text_list hr.isIn hr.nestedWithin_depth pattern
  regrouped := regroup_texts

example : ((({} : Context Unit).eval (Expr.sum (.literal (.string "a") default)
    [.literal (.int 1) default, .literal .null default,
      .list [.literal (.int 2) default, .literal (.bool true) default] default])).run
      ⟨{}, (), #[]⟩).1 = .ok (.string "a1[2, true]") := by
  decide +kernel

end Context

end TemplateExpr
