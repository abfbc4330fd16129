-- Substitution. An occurrence of an expression without functions of the host may be replaced
-- by a variable bound to its value: the whole gives a value of the same structure and content
-- or an error of the same variant.
import TemplateExpr.Proofs.Evaluation.Acyclic
import TemplateExpr.Proofs.Evaluation.Simulation

namespace TemplateExpr

/-! ## Occurrences -/

/-- An expression with a hole in it, in the place of one occurrence of another one. -/
inductive Hole where
  | here
  | unary (op : UnaryOp) (hole : Hole) (span : Span)
  | left (op : BinaryOp) (hole : Hole) (r : Expr)
  | right (op : BinaryOp) (l : Expr) (hole : Hole)
  | argument (name : String) (before : List Expr) (hole : Hole) (after : List Expr) (span : Span)
  | item (before : List Expr) (hole : Hole) (after : List Expr) (span : Span)

/-- The expression with this one in the place of the hole. -/
def Hole.fill (e : Expr) : Hole → Expr
  | here => e
  | unary op hole span => .unary op (hole.fill e) span
  | left op hole r => .binary op (hole.fill e) r
  | right op l hole => .binary op l (hole.fill e)
  | argument name before hole after span => .call name (before ++ hole.fill e :: after) span
  | item before hole after span => .list (before ++ hole.fill e :: after) span

/-- All nodes below the hole are nodes of the whole. -/
theorem Hole.postorder_subset (hole : Hole) (e : Expr) :
    e.postorder ⊆ (hole.fill e).postorder := by
  intro n hn
  induction hole with
  | here => exact hn
  | unary op hole span ih =>
    exact Expr.mem_postorder_of_child (e := .unary op (hole.fill e) span) List.mem_cons_self ih
  | left op hole r ih =>
    exact Expr.mem_postorder_of_child (e := .binary op (hole.fill e) r) List.mem_cons_self ih
  | right op l hole ih =>
    exact Expr.mem_postorder_of_child (e := .binary op l (hole.fill e))
      (List.mem_cons_of_mem l List.mem_cons_self) ih
  | argument name before hole after span ih =>
    exact Expr.mem_postorder_of_child (e := .call name (before ++ hole.fill e :: after) span)
      (List.mem_append_right before List.mem_cons_self) ih
  | item before hole after span ih =>
    exact Expr.mem_postorder_of_child (e := .list (before ++ hole.fill e :: after) span)
      (List.mem_append_right before List.mem_cons_self) ih

namespace Context

variable {σ : Type}

section

variable {ctx : Context σ} {values : Bindings Value} {h₀ h₁ : Heap}

/-- One of the expressions below a node may be replaced by one that it simulates. -/
theorem simulates_around (hlives : ctx.LivesIn h₀) (hgrown : h₀.Grown h₁) {e e' s t : Expr}
    (before after : List Expr) (hkin : e.Kin e') (hs : e.children = before ++ s :: after)
    (ht : e'.children = before ++ t :: after) (hfree : ∀ n ∈ e.postorder, ctx.HostFree n)
    (he : ∀ n ∈ e.postorder, ctx.Unmoved values n)
    (hst : (∀ n ∈ s.postorder, ctx.HostFree n) → (∀ n ∈ s.postorder, ctx.Unmoved values n) →
      ctx.Simulates values h₀ h₁ s t) : ctx.Simulates values h₀ h₁ e e' := by
  have hbelow : ∀ c ∈ before ++ s :: after, c.postorder ⊆ e.postorder := by
    intro c hc n hn
    rw [← hs] at hc
    exact Expr.mem_postorder_of_child hc hn
  have hsame : ∀ cs : List Expr, cs ⊆ before ++ s :: after →
      List.Forall₂ (ctx.Simulates values h₀ h₁) cs cs := by
    intro cs hcs
    refine List.forall₂_same.2 fun c hc => simulates_self hlives hgrown ?_ ?_
    · exact fun n hn => hfree n (hbelow c (hcs hc) hn)
    · exact fun n hn => he n (hbelow c (hcs hc) hn)
  have hself := e.mem_postorder_self
  have hmem : s ∈ before ++ s :: after := List.mem_append_right _ List.mem_cons_self
  refine simulates_of_kin hlives hgrown hkin (hfree e hself) (he e hself) ?_
  rw [hs, ht]
  refine List.rel_append (hsame before (List.subset_append_left _ _)) (.cons (hst ?_ ?_) ?_)
  · exact fun n hn => hfree n (hbelow s hmem hn)
  · exact fun n hn => he n (hbelow s hmem hn)
  · exact hsame after fun c hc => List.mem_append_right _ (List.mem_cons_of_mem s hc)

/-- An expression with a hole simulates itself if what is in the hole simulates the other. -/
theorem simulates_fill (hlives : ctx.LivesIn h₀) (hgrown : h₀.Grown h₁) {s t : Expr}
    (hst : ctx.Simulates values h₀ h₁ s t) (hole : Hole)
    (hfree : ∀ n ∈ (hole.fill s).postorder, ctx.HostFree n)
    (hnodes : ∀ n ∈ (hole.fill s).postorder, ctx.Unmoved values n) :
    ctx.Simulates values h₀ h₁ (hole.fill s) (hole.fill t) := by
  induction hole with
  | here => exact hst
  | unary op hole span ih =>
    exact simulates_around hlives hgrown [] [] (.unary op _ _ span) rfl rfl hfree hnodes ih
  | left op hole r ih =>
    exact simulates_around hlives hgrown [] [r] (.binary op _ _ r r) rfl rfl hfree hnodes ih
  | right op l hole ih =>
    exact simulates_around hlives hgrown [l] [] (.binary op l l _ _) rfl rfl hfree hnodes ih
  | argument name before hole after span ih =>
    exact simulates_around hlives hgrown before after (.call name _ _ span) rfl rfl hfree hnodes ih
  | item before hole after span ih =>
    exact simulates_around hlives hgrown before after (.list _ _ span) rfl rfl hfree hnodes ih

/-- A variable simulates the expression whose value it is bound to. -/
theorem simulates_name {w w₁ : World σ} (hlives : ctx.LivesIn w.heap) {s : Expr} {v : Value}
    (hs : (ctx.eval s).run w = (.ok v, w₁)) (hfree : ∀ n ∈ s.postorder, ctx.HostFree n)
    (x : String) (span : Span) :
    ctx.Simulates (ctx.values.set x v) w.heap w₁.heap s (.named x span) := by
  have hself : ctx.Simulates ctx.values w.heap w.heap s s := by
    refine simulates_self hlives (.refl _) hfree ?_
    intro n _
    cases n <;> first | rfl | trivial
  have hname : ∀ u : World σ,
      (Context.eval { ctx with values := ctx.values.set x v } (.named x span)).run u =
        (.ok v, u) := by
    intro u
    simp only [eval, Eval.ofExcept, Eval.run, lookup, Bindings.find?_set_self]
  refine ⟨hself.left, ?_, ?_⟩
  · intro u
    rw [hname]
    exact .refl _
  · intro u u' hu hu' hends
    -- Evaluated once more, the expression has a value alike to the one that the name is bound to.
    have hagain := hself.result u w hu (.refl _) hends
    have hs' : (Context.eval { ctx with values := ctx.values } s).run w = (.ok v, w₁) := hs
    unfold Eval.Alike at hagain ⊢
    rw [hs'] at hagain
    rw [hname]
    exact hagain.imp fun a b _ hab => hab.grown (.refl _) hu'

theorem unmoved_set {x : String} {n : Expr} (v : Value) (hx : ∀ place, n ≠ .named x place) :
    ctx.Unmoved (ctx.values.set x v) n := by
  cases n with
  | named name span =>
    refine Bindings.find?_set_of_ne _ _ ?_
    rintro rfl
    exact hx span rfl
  | _ => trivial

end

/-! ## The law -/

/-- Instead of an occurrence of an expression there may be a variable that is bound to its value. In
an expression that calls no function of the host and does not name the variable, this gives a value
of the same structure and content or an error of the same variant, also in worlds in which lists
have been made since. -/
theorem a_name_stands_for_its_value (ctx : Context σ) (hole : Hole) (s : Expr) (x : String)
    (span : Span) (v : Value) (w w₁ u u' : World σ) (hlives : ctx.LivesIn w.heap)
    (hs : (ctx.eval s).run w = (.ok v, w₁))
    (hfree : ∀ n ∈ (hole.fill s).postorder, ctx.HostFree n)
    (hx : ∀ place, .named x place ∉ (hole.fill s).postorder)
    (hu : w.heap.Grown u.heap) (hu' : w₁.heap.Grown u'.heap) (hends : ctx.Ends (hole.fill s) u) :
    Eval.Alike Heap.Alike (ctx.eval (hole.fill s))
      (Context.eval { ctx with values := ctx.values.set x v } (hole.fill (.named x span)))
      u u' := by
  have hsfree : ∀ n ∈ s.postorder, ctx.HostFree n := fun n hn =>
    hfree n (hole.postorder_subset s hn)
  have hname := simulates_name hlives hs hsfree x span
  have hunmoved : ∀ n ∈ (hole.fill s).postorder, ctx.Unmoved (ctx.values.set x v) n := by
    intro n hn
    refine unmoved_set v ?_
    rintro place rfl
    exact hx place hn
  have hfill := simulates_fill hlives (hname.left.of_run hs) hname hole hfree hunmoved
  exact hfill.result u u' hu hu' hends

theorem Sound.livesIn {held : σ → List Value} {ctx : Context σ} {w : World σ}
    (h : ctx.Sound held w) : ctx.LivesIn w.heap := ⟨h.world.ordered.closed, h.values⟩

/-- A session with a list. -/
def listing : Session := .run [.set "xs" (.list [.leaf (.int 1)])]

/-- The list with one item more. -/
def longer : Expr := .binary .append (.named "xs" default) (.literal (.int 2) default)

/-- A text that shows what is in the hole among the items of a list. -/
def shown : Hole :=
  .left .add (.item [.named "xs" default] .here [.literal .null default] default)
    (.literal (.string "!") default)

theorem a_name_stands_for_a_longer_list :
    listing.context.LivesIn listing.world.heap ∧
      ((listing.context.eval longer).run listing.world).1 = .ok (.list ⟨1⟩) ∧
      ((listing.context.eval (shown.fill longer)).run listing.world).1 =
        .ok (.string "[[1], [1, 2], ]!") ∧
      listing.context.Ends (shown.fill longer) listing.world ∧
      Eval.Alike Heap.Alike (listing.context.eval (shown.fill longer))
        (Context.eval
          { listing.context with values := listing.context.values.set "ys" (.list ⟨1⟩) }
          (shown.fill (.named "ys" default)))
        listing.world ((listing.context.eval longer).run listing.world).2 := by
  have hsound : listing.context.Sound (fun _ => []) listing.world := by
    refine (Session.reaches_run ?_).sound
    simp [Session.Step.SparesLists, Datum.Free, Datum.FreeAll, Value.kind]
  have hlonger : ((listing.context.eval longer).run listing.world).1 = .ok (.list ⟨1⟩) := by
    decide +kernel
  refine ⟨hsound.livesIn, hlonger, by decide +kernel, hsound.ends _, ?_⟩
  refine a_name_stands_for_its_value listing.context shown longer "ys" default (.list ⟨1⟩)
    listing.world _ listing.world _ hsound.livesIn (Prod.ext hlonger rfl) ?_ ?_ (.refl _) (.refl _)
    (hsound.ends _)
  · simp [shown, longer, Hole.fill, Expr.postorder, Expr.postorderAll, HostFree]
  · simp [shown, longer, Hole.fill, Expr.postorder, Expr.postorderAll]

end Context

end TemplateExpr
