-- What a host can do to an operation, and what it cannot. It is asked for an operand only
-- if that has another kind than the one where the operands meet, the left before the right,
-- and whatever it answers, an operation on two operands of that kind gets just these.
import TemplateExpr.Coercions.Policy
import TemplateExpr.Proofs.Evaluation.Postorder
import TemplateExpr.Proofs.Operation.Errors
import TemplateExpr.Proofs.Operation.Outcome

namespace TemplateExpr

/-! ## Hosts that change the world -/

/-- A computation that only looks at the heap. -/
def Eval.ofHeap {σ α : Type} (f : Heap → Except RuntimeError α) : Eval σ α := fun w => (f w.heap, w)

@[simp] theorem Eval.run_ofHeap {σ α : Type} (f : Heap → Except RuntimeError α) (w : World σ) :
    (ofHeap f).run w = (f w.heap, w) := rfl

@[simp] theorem Eval.run_ofExcept {σ α : Type} (x : Except RuntimeError α) (w : World σ) :
    (ofExcept x).run w = (x, w) := rfl

/-- How a host brings a value to a kind. What it did and was asked before may decide its answer. -/
abbrev Converter (σ : Type) := Span → Value → Kind → Eval σ Value

/-- The converter of a host whose answers follow from what it is asked. -/
def Coercions.converter {σ : Type} (c : Coercions) : Converter σ :=
  fun span v kind => .ofExcept (c.convert span v kind)

namespace Operation

section

variable {σ : Type} (o : Operation) (convert : Converter σ)

/-- An operand as a value of the target kind, in a world that the host may change. -/
def promoteIn (v : Value) (target : Kind) : Eval σ Value :=
  if v.kind = target then pure v
  else do
    let u ← convert o.span v target
    if u.kind = target then pure u
    else .ofHeap fun h =>
      .error ⟨.conversionFailure (h.describe v) v.kind target (some o.text), o.span⟩

/-- Promotion in a world that the host may change. -/
def promotedIn (left right : Value) : Eval σ Value :=
  match Kind.target? left.kind right.kind with
  | none => .ofHeap fun h => o.offLadder h left right
  | some target => do
    let a ← o.promoteIn convert left target
    let b ← o.promoteIn convert right target
    .ofHeap fun h => o.onPromoted h left right a b

end

section

variable {σ : Type} (o : Operation)

theorem promoteIn_converter (c : Coercions) (v : Value) (target : Kind) (w : World σ) :
    (o.promoteIn c.converter v target).run w = (o.promote c w.heap v target, w) := by
  unfold promoteIn promote
  split
  · rfl
  · rw [Eval.run_bind, Coercions.converter, Eval.run_ofExcept]
    cases c.convert o.span v target with
    | error err => rfl
    | ok u =>
      simp only [bind, Except.bind]
      split <;> rfl

/-- A host that changes nothing makes of promotion what it is. -/
theorem promotedIn_converter (c : Coercions) (left right : Value) (w : World σ) :
    (o.promotedIn c.converter left right).run w = (o.promoted c w.heap left right, w) := by
  unfold promotedIn
  cases htarget : Kind.target? left.kind right.kind with
  | none =>
    rw [o.promoted_of_none c w.heap htarget]
    rfl
  | some target =>
    have hleft := o.promoteIn_converter c left target w
    rw [o.promoted_of_some c w.heap htarget]
    dsimp only
    cases hl : o.promote c w.heap left target with
    | error err =>
      rw [hl] at hleft
      rw [Eval.run_bind_error hleft]
      rfl
    | ok a =>
      have hright := o.promoteIn_converter c right target w
      rw [hl] at hleft
      rw [Eval.run_bind_ok hleft]
      cases hr : o.promote c w.heap right target with
      | error err =>
        rw [hr] at hright
        rw [Eval.run_bind_error hright]
        rfl
      | ok b =>
        rw [hr] at hright
        rw [Eval.run_bind_ok hright]
        rfl

end

/-! ## The course of a promotion -/

section

variable {σ : Type} (o : Operation) (convert : Converter σ) (target : Kind)

/-- How an operand is brought to a kind: what comes of it, and the world after it. Only an operand
of another kind is converted, and the host is believed only if it gives a value of that kind. -/
inductive Brings (v : Value) (w : World σ) : Except RuntimeError Value → World σ → Prop
  | kept : v.kind = target → Brings v w (.ok v) w
  | refused {err w'} : v.kind ≠ target → (convert o.span v target).run w = (.error err, w') →
      Brings v w (.error err) w'
  | mistaken {u w'} : v.kind ≠ target → (convert o.span v target).run w = (.ok u, w') →
      u.kind ≠ target → Brings v w
        (.error ⟨.conversionFailure (w'.heap.describe v) v.kind target (some o.text), o.span⟩) w'
  | converted {u w'} : v.kind ≠ target → (convert o.span v target).run w = (.ok u, w') →
      u.kind = target → Brings v w (.ok u) w'

/-- What becomes of two operands of a kind on the ladder: the rule of that kind is applied. -/
inductive Handles : Kind → Value → Value → Except RuntimeError Value → Prop
  | double {a b} : Handles .double (.double a) (.double b) (o.onDoubles a b)
  | float {a b} : Handles .float (.float a) (.float b) (o.onFloats a b)
  | long {a b} : Handles .long (.long a) (.long b) (o.onLongs a b)
  | int {a b} : Handles .int (.int a) (.int b) (o.onInts a b)
  | bool {a b} : Handles .bool (.bool a) (.bool b) (o.onBools a b)

/-- The course of a promotion: the left operand is brought to the target, then the right one in the
world after that, and then the rule of the target applies. The first failure ends it. -/
inductive Course (left right : Value) (w : World σ) : Except RuntimeError Value → World σ → Prop
  | left_fails {err w₁} : o.Brings convert target left w (.error err) w₁ →
      Course left right w (.error err) w₁
  | right_fails {a err w₁ w₂} : o.Brings convert target left w (.ok a) w₁ →
      o.Brings convert target right w₁ (.error err) w₂ → Course left right w (.error err) w₂
  | meets {a b result w₁ w₂} : o.Brings convert target left w (.ok a) w₁ →
      o.Brings convert target right w₁ (.ok b) w₂ → o.Handles target a b result →
      Course left right w result w₂

theorem brings_promoteIn (v : Value) (w : World σ) : o.Brings convert target v w
    ((o.promoteIn convert v target).run w).1 ((o.promoteIn convert v target).run w).2 := by
  unfold promoteIn
  split
  · rename_i hkind
    exact .kept hkind
  · rename_i hkind
    rcases hconvert : (convert o.span v target).run w with ⟨err | u, w₁⟩
    · rw [Eval.run_bind_error hconvert]
      exact .refused hkind hconvert
    · rw [Eval.run_bind_ok hconvert]
      split
      · rename_i hu
        exact .converted hkind hconvert hu
      · rename_i hu
        exact .mistaken hkind hconvert hu

variable {o convert target}

/-- Nothing but a value of the target kind counts as brought. -/
theorem Brings.kind_eq {v a : Value} {w w' : World σ}
    (h : o.Brings convert target v w (.ok a) w') : a.kind = target := by
  cases h with
  | kept hkind => exact hkind
  | converted _ _ hkind => exact hkind

theorem handles_onPromoted (h : Heap) (left right : Value) {a b : Value}
    (ht : target ∈ Kind.ladder) (ha : a.kind = target) (hb : b.kind = target) :
    o.Handles target a b (o.onPromoted h left right a b) := by
  subst ha
  cases a with
  | double | float | long | int | bool =>
    cases b <;> cases hb
    constructor
  | _ => simp [Kind.ladder, Value.kind] at ht

variable (o convert) in
/-- Every promotion to a kind runs its course, whatever the host does. -/
theorem course_promotedIn {left right : Value} (w : World σ)
    (htarget : Kind.target? left.kind right.kind = some target) :
    o.Course convert target left right w ((o.promotedIn convert left right).run w).1
      ((o.promotedIn convert left right).run w).2 := by
  have ht : target ∈ Kind.ladder := List.mem_of_find?_eq_some htarget
  have hleft := o.brings_promoteIn convert target left w
  simp only [promotedIn, htarget]
  rcases hl : (o.promoteIn convert left target).run w with ⟨err | a, w₁⟩
  · rw [hl] at hleft
    rw [Eval.run_bind_error hl]
    exact .left_fails hleft
  · have hright := o.brings_promoteIn convert target right w₁
    rw [hl] at hleft
    rw [Eval.run_bind_ok hl]
    rcases hr : (o.promoteIn convert right target).run w₁ with ⟨err | b, w₂⟩
    · rw [hr] at hright
      rw [Eval.run_bind_error hr]
      exact .right_fails hleft hright
    · rw [hr] at hright
      rw [Eval.run_bind_ok hr]
      exact .meets hleft hright (handles_onPromoted _ left right ht hleft.kind_eq hright.kind_eq)

/-- The errors of the rule of a kind say nothing of its operands. -/
theorem Handles.settles {a b : Value} {result : Except RuntimeError Value}
    (h : o.Handles target a b result) : o.Settles result := by
  cases h with
  | double => exact o.settles_onDoubles _ _
  | float => exact o.settles_onFloats _ _
  | long => exact o.settles_onLongs _ _
  | int => exact o.settles_onInts _ _
  | bool => exact o.settles_onBools _ _

theorem Handles.unique {a b : Value} {x y : Except RuntimeError Value}
    (hx : o.Handles target a b x) (hy : o.Handles target a b y) : x = y := by
  cases hx <;> cases hy <;> rfl

/-- An error of a promotion for the types of the operands is the answer of the host, unless neither
operand is on the ladder. -/
theorem unsupportedTypes_of_promotedIn {left right : Value} {w w' : World σ} {err : RuntimeError}
    (h : (o.promotedIn convert left right).run w = (.error err, w'))
    (hvariant : err.cause.variant = .unsupportedTypes) :
    Kind.target? left.kind right.kind = none ∨ ∃ v ∈ [left, right], ∃ target w₁ w₂,
      v.kind ≠ target ∧ (convert o.span v target).run w₁ = (.error err, w₂) := by
  cases htarget : Kind.target? left.kind right.kind with
  | none => exact .inl rfl
  | some target =>
    have of_brings : ∀ v ∈ [left, right], ∀ {w w'}, o.Brings convert target v w (.error err) w' →
        ∃ v ∈ [left, right], ∃ target w₁ w₂,
          v.kind ≠ target ∧ (convert o.span v target).run w₁ = (.error err, w₂) := by
      intro v hv w w' hbrings
      cases hbrings with
      | refused hkind hconvert => exact ⟨v, hv, target, _, _, hkind, hconvert⟩
      | mistaken => cases hvariant
    have hcourse := o.course_promotedIn convert w htarget
    rw [h] at hcourse
    cases hcourse with
    | left_fails hleft => exact .inr (of_brings left (by simp) hleft)
    | right_fails _ hright => exact .inr (of_brings right (by simp) hright)
    | meets _ _ hhandles => exact absurd hvariant hhandles.settles.refuses.variant_ne

end

/-! ## Operands of one kind -/

section

variable {o : Operation} {target : Kind} {left right : Value}

/-- No host is asked anything about two operands of one kind on the ladder. -/
theorem promotedIn_of_kind (ht : target ∈ Kind.ladder) (hleft : left.kind = target)
    (hright : right.kind = target) : ∃ result, o.Handles target left right result ∧
      ∀ (σ : Type) (convert : Converter σ) (w : World σ),
        (o.promotedIn convert left right).run w = (result, w) := by
  have htarget : Kind.target? left.kind right.kind = some target := by
    rw [hleft, hright]
    exact Kind.target?_eq_some ht (by simp)
  have hresult := handles_onPromoted (o := o) {} left right ht hleft hright
  refine ⟨_, hresult, ?_⟩
  intro σ convert w
  have hhere := handles_onPromoted (o := o) w.heap left right ht hleft hright
  rw [hresult.unique hhere]
  simp only [promotedIn, htarget, promoteIn, if_pos hleft, if_pos hright]
  rfl

theorem computes_of_kind (hop : o.op.isCalculation = true) (ht : target ∈ Kind.ladder)
    (hleft : left.kind = target) (hright : right.kind = target) : o.Computes left right := by
  refine ⟨hop, ?_, ?_⟩
  · unfold HasText
    rw [hleft, hright]
    rintro (rfl | rfl) <;> exact absurd ht (by decide)
  · rintro ⟨_, hnull⟩
    rw [hleft, hright] at hnull
    rcases hnull with rfl | rfl <;> exact absurd ht (by decide)

end

/-! ## The law -/

theorem target?_eq_none_iff (k l : Kind) :
    Kind.target? k l = none ↔ k.rung ∉ Kind.ladder ∧ l.rung ∉ Kind.ladder := by
  cases k <;> cases l <;> decide

/-- An error for the types of operands is an error of promotion. -/
theorem promoted_of_unsupportedTypes {o : Operation} {c : Coercions} {h : Heap} {left right : Value}
    {err : RuntimeError} (happly : o.apply c h left right = .error err)
    (hvariant : err.cause.variant = .unsupportedTypes) :
    o.promoted c h left right = .error err := by
  have of_calculate : o.calculate c h left right = .error err →
      o.promoted c h left right = .error err := by
    intro hcalculate
    unfold calculate runCalculation at hcalculate
    split at hcalculate
    · have hsettles := o.settles_onStrings c left right
      rw [Reported.result_after, Reported.result_silent] at hcalculate
      rw [hcalculate] at hsettles
      exact absurd hvariant hsettles.refuses.variant_ne
    · split at hcalculate
      · cases hcalculate
      · exact hcalculate
  rw [apply_eq] at happly
  unfold steps at happly
  split at happly
  case h_4 | h_5 =>
    split at happly
    · cases happly
    · cases happly
      cases hvariant
  case h_6 =>
    apply of_calculate
    rw [Reported.result_map, ← calculate] at happly
    cases hcalculate : o.calculate c h left right with
    | error err' =>
      rw [hcalculate] at happly
      cases happly
      rfl
    | ok v =>
      rw [hcalculate] at happly
      cases happly
  all_goals cases happly

/-- What an operation does with two operands, whatever the host does. -/
structure Withstands (o : Operation) (left right : Value) : Prop where
  /-- Neither texts nor nulls that are compared: what is left is promoted. -/
  promotes : o.Computes left right → ∀ c h,
    o.apply c h left right = (o.promoted c h left right).map .value
  /-- Promotion is the same whether or not the host may change the world. -/
  same : ∀ (σ : Type) (c : Coercions) (w : World σ),
    (o.promotedIn c.converter left right).run w = (o.promoted c w.heap left right, w)
  course : ∀ target, Kind.target? left.kind right.kind = some target →
    ∀ (σ : Type) (convert : Converter σ) (w : World σ), o.Course convert target left right w
      ((o.promotedIn convert left right).run w).1 ((o.promotedIn convert left right).run w).2
  /-- Only what the host answers for an operand is an error for the types of operands that have a
  kind to meet at. -/
  unsupportedTypes : ∀ c h err, o.apply c h left right = .error err →
    err.cause.variant = .unsupportedTypes →
      left.kind.rung ∉ Kind.ladder ∧ right.kind.rung ∉ Kind.ladder ∨
        ∃ v ∈ [left, right], ∃ target, v.kind ≠ target ∧ c.convert o.span v target = .error err
  /-- Two operands of one kind on the ladder have a result that no host influences. -/
  one_kind : ∀ target ∈ Kind.ladder, left.kind = target → right.kind = target →
    ∃ result, o.Handles target left right result ∧
      (o.op.isCalculation = true → ∀ c h, o.apply c h left right = result.map .value) ∧
      ∀ (σ : Type) (convert : Converter σ) (w : World σ),
        (o.promotedIn convert left right).run w = (result, w)

theorem no_host_misleads_an_operation (o : Operation) (left right : Value) :
    o.Withstands left right := by
  have hpromotes : o.Computes left right → ∀ c h,
      o.apply c h left right = (o.promoted c h left right).map .value := by
    intro hcomputes c h
    rw [o.apply_of_isCalculation c h hcomputes.1, o.calculate_of_computes c h hcomputes]
  refine ⟨hpromotes, fun σ c w => o.promotedIn_converter c left right w,
    fun target htarget σ convert w => o.course_promotedIn convert w htarget, ?_, ?_⟩
  · intro c h err happly hvariant
    have hrun := o.promotedIn_converter c left right (⟨h, (), #[]⟩ : World Unit)
    rw [promoted_of_unsupportedTypes happly hvariant] at hrun
    rcases unsupportedTypes_of_promotedIn hrun hvariant with
      htarget | ⟨v, hv, target, w₁, w₂, hkind, hconvert⟩
    · exact .inl ((target?_eq_none_iff _ _).1 htarget)
    · exact .inr ⟨v, hv, target, hkind, congrArg Prod.fst hconvert⟩
  · intro target ht hleft hright
    obtain ⟨result, hhandles, hrun⟩ := promotedIn_of_kind ht hleft hright
    refine ⟨result, hhandles, ?_, hrun⟩
    intro hop c h
    have hsame := o.promotedIn_converter c left right (⟨h, (), #[]⟩ : World Unit)
    rw [hrun] at hsame
    have hresult : result = o.promoted c h left right := congrArg Prod.fst hsame
    rw [hpromotes (computes_of_kind hop ht hleft hright) c h, hresult]

/-- A host that answers with a text is not believed. -/
example : Operation.apply ⟨.add, .literal (.int 1) default, .literal (.long 2) default⟩
    (Policy.broken.coercions Calendar.usualPattern {}) {} (.int 1) (.long 2) =
      .error ⟨.conversionFailure "1" .int .long (some "1 + 2L"), default⟩ := rfl

end Operation

end TemplateExpr
