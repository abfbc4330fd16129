-- What the steps of an operation report. Which row of the table an operation is computed by shows
-- in its events, and below the choice of a kind nothing is reported but a new range.
import TemplateExpr.Proofs.Operation.Outcome

namespace TemplateExpr

namespace Event

/-- The call that an event reports. -/
def call? : Event → Option (String × List Value)
  | calling name arguments => some (name, arguments)
  | _ => none

/-- An event that follows the one of its node. -/
def Within (e : Event) : Prop := e.detail = 2 ∧ e.call? = none

/-- What is reported of a result if it is a range. -/
def ofResult : Except RuntimeError Value → List Event
  | .ok (.range r) => [.rangeMade r]
  | _ => []

end Event

/-! ## Steps put together -/

namespace Reported

variable {α β : Type} {x : Reported α} {f : α → Reported β} {event : Event}

/-- Every event of the step follows the one of its node. -/
def Within (x : Reported α) : Prop := ∀ event ∈ x.events, event.Within

theorem within_silent (result : Except RuntimeError α) : (silent result).Within :=
  List.forall_mem_nil _

theorem Within.after (h : x.Within) (hevent : event.Within) : (after event x).Within :=
  List.forall_mem_cons.2 ⟨hevent, h⟩

theorem Within.bind_silent {result : Except RuntimeError α} (hf : ∀ a, (f a).Within) :
    (silent result >>= f).Within := by
  cases result with
  | error err => exact within_silent _
  | ok a => exact hf a

end Reported

namespace Operation

section

variable (o : Operation)

theorem within_runInts (a b : Int32) : (o.runInts a b).Within := by
  have hmade : ∀ r, (madeRange r).Within := by
    intro r
    exact (Reported.within_silent (.ok (Value.range r))).after ⟨rfl, rfl⟩
  unfold runInts
  split
  case h_7 | h_8 => exact hmade _
  all_goals exact Reported.within_silent _

theorem within_runOnKind (h : Heap) (left right a b : Value) :
    (o.runOnKind h left right a b).Within := by
  unfold runOnKind
  split
  case h_4 => exact o.within_runInts _ _
  all_goals exact Reported.within_silent _

theorem within_runPromotion (c : Coercions) (h : Heap) (left right : Value) :
    (o.runPromotion c h left right).Within := by
  unfold runPromotion
  split
  · exact Reported.within_silent _
  · refine Reported.Within.after ?_ ⟨rfl, rfl⟩
    exact .bind_silent fun a => .bind_silent fun b => o.within_runOnKind h left right a b

theorem within_runCalculation (c : Coercions) (h : Heap) (left right : Value) :
    (o.runCalculation c h left right).Within := by
  unfold runCalculation
  split
  · exact (Reported.within_silent _).after ⟨rfl, rfl⟩
  · split
    · exact Reported.within_silent _
    · exact o.within_runPromotion c h left right

/-- Whatever an operation reports after its operands are known is a detail of it and no call. -/
theorem within_steps (c : Coercions) (h : Heap) (left right : Value) :
    (o.steps c h left right).Within := by
  unfold steps
  split
  case h_4 | h_5 =>
    split
    · exact (Reported.within_silent _).after ⟨rfl, rfl⟩
    · exact Reported.within_silent _
  case h_6 => exact o.within_runCalculation c h left right
  all_goals exact (Reported.within_silent _).after ⟨rfl, rfl⟩

/-! ## Ranges -/

theorem ofResult_divided (byZero overflows : Bool) {answer : Value}
    (hanswer : answer.kind ≠ .range) :
    Event.ofResult (o.divided byZero overflows answer) = [] := by
  unfold divided
  split
  · rfl
  · split
    · rfl
    · cases answer <;> first | rfl | exact absurd rfl hanswer

theorem ofResult_unless (compared answer : Bool) (left right : Kind) :
    Event.ofResult (if compared then .ok (.bool answer)
      else .error (o.unsupportedOperator left right)) = [] := by
  cases compared <;> rfl

/-- Only integers make a range, and only a new range is reported. -/
theorem events_runInts (a b : Int32) :
    (o.runInts a b).events = Event.ofResult (o.onInts a b) := by
  unfold onInts runInts
  split
  case h_5 | h_6 =>
    refine (o.ofResult_divided _ _ ?_).symm
    exact nofun
  case h_9 => exact (o.ofResult_unless _ _ _ _).symm
  all_goals rfl

theorem ofResult_onLongs (a b : Int64) : Event.ofResult (o.onLongs a b) = [] := by
  unfold onLongs
  split
  case h_5 | h_6 => exact o.ofResult_divided _ _ nofun
  case h_7 => exact o.ofResult_unless _ _ _ _
  all_goals rfl

theorem ofResult_onFloats (a b : Single) : Event.ofResult (o.onFloats a b) = [] := by
  unfold onFloats
  split
  case h_7 => exact o.ofResult_unless _ _ _ _
  all_goals rfl

theorem ofResult_onDoubles (a b : Double) : Event.ofResult (o.onDoubles a b) = [] := by
  unfold onDoubles
  split
  case h_7 => exact o.ofResult_unless _ _ _ _
  all_goals rfl

theorem ofResult_onBools (a b : Bool) : Event.ofResult (o.onBools a b) = [] := by
  unfold onBools
  split <;> rfl

theorem events_runOnKind (h : Heap) (left right a b : Value) :
    (o.runOnKind h left right a b).events =
      Event.ofResult (o.onPromoted h left right a b) := by
  unfold onPromoted runOnKind
  split
  · exact (o.ofResult_onDoubles _ _).symm
  · exact (o.ofResult_onFloats _ _).symm
  · exact (o.ofResult_onLongs _ _).symm
  · exact o.events_runInts _ _
  · exact (o.ofResult_onBools _ _).symm
  · rfl

end

/-! ## Rows -/

section

variable (o : Operation) (c : Coercions) (h : Heap) {left right : Value}

theorem events_steps_of_isCalculation (hop : o.op.isCalculation = true) :
    (o.steps c h left right).events = (o.runCalculation c h left right).events := by
  unfold steps
  split <;> simp_all [BinaryOp.isCalculation]

theorem events_of_hasText (hop : o.op.isCalculation = true) (htext : HasText left right) :
    (o.steps c h left right).events = [.onStrings o.op] := by
  rw [o.events_steps_of_isCalculation c h hop, runCalculation,
    if_pos ((hasText_iff left right).2 htext)]
  rfl

theorem events_of_asksForNull (htext : ¬ HasText left right) (hnull : o.AsksForNull left right) :
    (o.steps c h left right).events = [] := by
  have hop : o.op.isCalculation = true := by
    rcases hnull.1 with hop | hop <;> rw [hop] <;> rfl
  rw [o.events_steps_of_isCalculation c h hop, runCalculation,
    if_neg (mt (hasText_iff left right).1 htext), if_pos ((asksForNull_iff o left right).2 hnull)]
  rfl

theorem events_of_computes (hcomputes : o.Computes left right) :
    (o.steps c h left right).events = (o.runPromotion c h left right).events := by
  obtain ⟨hop, htext, hnull⟩ := hcomputes
  rw [o.events_steps_of_isCalculation c h hop, runCalculation,
    if_neg (mt (hasText_iff left right).1 htext),
    if_neg (mt (asksForNull_iff o left right).1 hnull)]

theorem events_runPromotion_of_none (ht : Kind.target? left.kind right.kind = none) :
    (o.runPromotion c h left right).events = [] := by
  simp only [runPromotion, ht, Reported.events_silent]

/-- A promotion that fails reports its target and no more. -/
theorem events_runPromotion_of_some {target : Kind}
    (ht : Kind.target? left.kind right.kind = some target) :
    (o.runPromotion c h left right).events =
      .promoting o.op target :: Event.ofResult (o.promoted c h left right) := by
  rw [o.promoted_of_some c h ht]
  simp only [runPromotion, ht, Reported.events_after]
  congr 1
  cases o.promote c h left target with
  | error err => rfl
  | ok a =>
    rw [Reported.silent_ok_bind]
    cases o.promote c h right target with
    | error err => rfl
    | ok b =>
      rw [Reported.silent_ok_bind, events_runOnKind]
      rfl

end

end Operation

end TemplateExpr
