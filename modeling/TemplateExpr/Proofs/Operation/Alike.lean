-- Operations on values that are alike. They give values that are alike or errors of one
-- variant, because operators look at what lists hold and not at which lists they are.
import TemplateExpr.Proofs.Heap.Alike
import TemplateExpr.Proofs.Operation.Errors
import TemplateExpr.Proofs.Operation.Likeness

namespace TemplateExpr

/-! ## Results side by side -/

section

variable {α β γ δ : Type}

/-- Two successes that are related, or two errors of one variant. -/
inductive SameResult (R : α → β → Prop) : Except RuntimeError α → Except RuntimeError β → Prop
  | ok {a b} : R a b → SameResult R (.ok a) (.ok b)
  | error {e e' : RuntimeError} : e'.cause.variant = e.cause.variant →
      SameResult R (.error e) (.error e')

theorem SameResult.imp {R S : α → β → Prop} {x : Except RuntimeError α}
    {y : Except RuntimeError β} (h : SameResult R x y)
    (hRS : ∀ a b, x = .ok a → R a b → S a b) : SameResult S x y := by
  cases h with
  | ok hR => exact .ok (hRS _ _ rfl hR)
  | error he => exact .error he

theorem SameResult.map {R : α → β → Prop} {S : γ → δ → Prop} {x : Except RuntimeError α}
    {y : Except RuntimeError β} {f : α → γ} {g : β → δ} (h : SameResult R x y)
    (hRS : ∀ a b, R a b → S (f a) (g b)) : SameResult S (x.map f) (y.map g) := by
  cases h with
  | ok hR => exact .ok (hRS _ _ hR)
  | error he => exact .error he

theorem sameResult_of_keyed {x x' : Except RuntimeError α}
    (h : keyed RuntimeError.Cause.variant x' = keyed RuntimeError.Cause.variant x) :
    SameResult (fun a b => b = a) x x' := by
  cases x with
  | error e =>
    cases x' with
    | error e' => exact .error (Except.error.inj h)
    | ok a' => cases h
  | ok a =>
    cases x' with
    | error e' => cases h
    | ok a' => exact .ok (Except.ok.inj h)

end

/-! ## Operations side by side -/

theorem Heap.Alike.indistinct {h h' : Heap} {v v' : Value} (hv : h.Alike h' v v') :
    Indistinct RuntimeError.Cause.variant h h' v v' := by
  rcases hv.cases_list with ⟨rfl, _⟩ | ⟨r, r', rfl, rfl, _⟩
  · exact ⟨rfl, fun _ => rfl, fun _ _ => rfl, fun _ _ _ _ => rfl, fun _ _ _ _ => rfl⟩
  · exact ⟨rfl, fun hlist => absurd rfl hlist, fun _ _ => rfl, fun _ _ _ _ => rfl,
      fun _ _ _ _ => rfl⟩

/-- Values that are no lists are alike if they are the same. -/
theorem Heap.alike_of_keyed {h h' : Heap} {x x' : Except RuntimeError Value}
    (hkeyed : keyed RuntimeError.Cause.variant x' = keyed RuntimeError.Cause.variant x)
    (hx : ∀ v, x = .ok v → v.kind ≠ .list) : SameResult (h.Alike h') x x' := by
  refine (sameResult_of_keyed hkeyed).imp ?_
  rintro v _ hv rfl
  exact alike_of_ne_list (hx _ hv)

/-- Two outcomes of values that are alike. -/
inductive Outcome.Alike (h h' : Heap) : Outcome → Outcome → Prop
  | value {v v'} : h.Alike h' v v' → Outcome.Alike h h' (.value v) (.value v')
  | newList {items items'} : List.Forall₂ (h.Alike h') items items' →
      Outcome.Alike h h' (.newList items) (.newList items')

theorem Outcome.Alike.place {h h' : Heap} {x x' : Outcome} (hx : Outcome.Alike h h' x x') :
    (h.place x).2.Alike (h'.place x').2 (h.place x).1 (h'.place x').1 := by
  cases hx with
  | value hv => exact hv
  | newList hitems => exact Heap.alike_newList hitems

/-- The items of two sequences that are alike are alike, and only both or none of them is one. -/
theorem Heap.Alike.sequence {h₀ h h' : Heap} {v v' : Value} (hv : h.Alike h' v v')
    (hc : h₀.Closed) (hg : h₀.Grown h) (hg' : h₀.Grown h') :
    Option.Rel (List.Forall₂ (h.Alike h')) (h.sequence? v) (h'.sequence? v') := by
  rcases hv.cases_list with ⟨rfl, hlist⟩ | ⟨r, r', rfl, rfl, hitems⟩
  · cases v' with
    | list r => exact absurd rfl hlist
    | object r =>
      have hsame : h'.sequence? (.object r) = h.sequence? (.object r) := by
        simp only [sequence?, object?, hg.objects, hg'.objects]
      rw [hsame]
      cases hxs : h.sequence? (.object r) with
      | none => exact .none
      | some xs =>
        obtain ⟨object, hobject, hitems⟩ := Option.bind_eq_some_iff.1 hxs
        have hmem : object ∈ h₀.objects := by
          rw [← hg.objects]
          exact Array.mem_of_getElem? hobject
        exact .some (List.forall₂_same.2 fun x hx =>
          hc.alike hg hg' (hc.objects object hmem xs hitems x hx))
    | _ => exact .none
  · exact .some hitems

namespace Operation

/-- The operation comes to an end: none of the values that it writes as texts holds itself. Such a
text would have no end. -/
def Ends (op : BinaryOp) (h : Heap) (a b : Value) : Prop :=
  op = .add ∨ op.isComparison = true → (a.isString || b.isString) = true →
    h.Grounded a ∧ h.Grounded b

theorem like_of_op {o o' : Operation} (hop : o'.op = o.op) :
    Like RuntimeError.Cause.variant o o' := by
  refine ⟨hop, fun _ _ => rfl, fun _ _ _ _ => rfl, rfl, rfl, rfl⟩

section

variable {o o' : Operation} {h₀ h h' : Heap} {a a' b b' : Value} (hop : o'.op = o.op)
  (hc : h₀.Closed) (hg : h₀.Grown h) (hg' : h₀.Grown h') (ha : h.Alike h' a a')
  (hb : h.Alike h' b b')

include hc hg hg' ha hb in
theorem alike_extended (op : BinaryOp) :
    Option.Rel (List.Forall₂ (h.Alike h')) (extended? h op a b) (extended? h' op a' b') := by
  cases op with
  | append =>
    have hleft := ha.sequence hc hg hg'
    dsimp only [extended?]
    generalize h.sequence? a = x, h'.sequence? a' = x' at hleft ⊢
    cases hleft with
    | none => exact .none
    | some hitems => exact .some (List.rel_append hitems (.cons hb .nil))
  | prepend =>
    have hright := hb.sequence hc hg hg'
    dsimp only [extended?]
    generalize h.sequence? b = x, h'.sequence? b' = x' at hright ⊢
    cases hright with
    | none => exact .none
    | some hitems => exact .some (.cons ha hitems)
  | _ => exact .none

include hg hg' ha hb in
theorem sameTexts (hends : Ends o.op h a b) : SameTexts o h h' a a' b b' := by
  intro hwrites hstring pattern
  obtain ⟨hleft, hright⟩ := hends hwrites hstring
  have hobjects : h'.objects = h.objects := hg'.objects.trans hg.objects.symm
  exact ⟨ha.text hobjects pattern hleft, hb.text hobjects pattern hright⟩

include hop hg hg' ha hb in
theorem alike_calculate (hends : Ends o.op h a b) (pattern : String) :
    SameResult (h.Alike h') (o.calculate (.standard h pattern) h a b)
      (o'.calculate (.standard h' pattern) h' a' b') :=
  Heap.alike_of_keyed ((like_of_op hop).calculate ha.indistinct hb.indistinct
    (sameTexts hg hg' ha hb hends) pattern) fun _ hv => ne_list_of_calculate hv

include hop hc hg hg' ha hb

theorem alike_apply (hends : Ends o.op h a b) (pattern : String) :
    SameResult (Outcome.Alike h h') (o.apply (.standard h pattern) h a b)
      (o'.apply (.standard h' pattern) h' a' b') := by
  have htruth : ∀ t : Bool, h.Alike h' (.bool t) (.bool t) :=
    fun t => Heap.alike_of_ne_list nofun
  have hextended := alike_extended hc hg hg' ha hb o.op
  have hcalculate := alike_calculate hop hg hg' ha hb hends pattern
  rw [apply_eq, apply_eq]
  unfold steps
  rw [hop]
  generalize o.op = op at hextended ⊢
  cases op with
  | coalesce =>
    dsimp only
    rw [ha.indistinct.isNull]
    split
    · exact .ok (.value hb)
    · exact .ok (.value ha)
  | and | or =>
    simp only [Coercions.standard, ha.indistinct.truth, hb.indistinct.truth]
    exact .ok (.value (htruth _))
  | append | prepend =>
    dsimp only
    generalize extended? h _ a b = x, extended? h' _ a' b' = x' at hextended ⊢
    cases hextended with
    | none => exact .error rfl
    | some hitems => exact .ok (.newList hitems)
  | _ =>
    rw [Reported.result_map, Reported.result_map, ← calculate, ← calculate]
    exact hcalculate.map fun _ _ => .value

end

end Operation

end TemplateExpr
