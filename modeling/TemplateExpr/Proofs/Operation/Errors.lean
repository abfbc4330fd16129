-- Which errors a single step of evaluation can give. Whatever an operator refuses, the
-- error carries the operator, the text and the place of its own node; a builtin function
-- names itself and the place of the call.
import TemplateExpr.Builtin
import TemplateExpr.Operation.Apply

namespace TemplateExpr

/-- A computation in two parts fails with its first part, or after it with its second. -/
theorem error_of_bind {ε α β : Type} {x : Except ε α} {f : α → Except ε β} {e : ε}
    (h : x >>= f = .error e) : x = .error e ∨ ∃ a, x = .ok a ∧ f a = .error e := by
  cases x with
  | error e' =>
    cases h
    exact .inl rfl
  | ok a => exact .inr ⟨a, rfl, h⟩

theorem ok_of_bind {ε α β : Type} {x : Except ε α} {f : α → Except ε β} {b : β}
    (h : x >>= f = .ok b) : ∃ a, x = .ok a ∧ f a = .ok b := by
  cases x with
  | error e => cases h
  | ok a => exact ⟨a, rfl, h⟩

/-! ## Variants -/

/-- Which error it is, whatever it says. -/
inductive RuntimeError.Variant where
  | unsupportedOperator | unsupportedTypes | conversionFailure | notRepeatable | divisionByZero
  | overflow | unsupportedUnary | unknownVariable | unknownFunction | argumentCount
  | invalidArgument
deriving DecidableEq

def RuntimeError.Cause.variant : Cause → Variant
  | unsupportedOperator .. => .unsupportedOperator
  | unsupportedTypes .. => .unsupportedTypes
  | conversionFailure .. => .conversionFailure
  | notRepeatable .. => .notRepeatable
  | divisionByZero .. => .divisionByZero
  | overflow .. => .overflow
  | unsupportedUnary .. => .unsupportedUnary
  | unknownVariable .. => .unknownVariable
  | unknownFunction .. => .unknownFunction
  | argumentCount .. => .argumentCount
  | invalidArgument .. => .invalidArgument

namespace Operation

/-! ## Operators -/

/-- The errors that an operation may give, all at its own place. -/
inductive Raises (o : Operation) : RuntimeError → Prop
  | unsupportedOperator {left leftKind right rightKind} :
      Raises o ⟨.unsupportedOperator o.op o.text left leftKind right rightKind, o.span⟩
  | unsupportedTypes {left leftKind right rightKind} :
      Raises o ⟨.unsupportedTypes o.op o.text left leftKind right rightKind, o.span⟩
  | notRepeatable : Raises o ⟨.notRepeatable o.op o.text, o.span⟩
  | divisionByZero : Raises o ⟨.divisionByZero o.text, o.span⟩
  | overflow : Raises o ⟨.overflow o.text, o.span⟩
  | conversionFailure {value source target expression} :
      Raises o ⟨.conversionFailure value source target expression, o.span⟩

/-- Those of them that say nothing of the values of the operands. -/
inductive Refuses (o : Operation) : RuntimeError → Prop
  | unsupportedOperator {left leftKind right rightKind} :
      Refuses o ⟨.unsupportedOperator o.op o.text left leftKind right rightKind, o.span⟩
  | notRepeatable : Refuses o ⟨.notRepeatable o.op o.text, o.span⟩
  | divisionByZero : Refuses o ⟨.divisionByZero o.text, o.span⟩
  | overflow : Refuses o ⟨.overflow o.text, o.span⟩

/-- A value that is no list, or an error that says nothing of the operands. -/
inductive Settles (o : Operation) : Except RuntimeError Value → Prop
  | value {v} : v.kind ≠ .list → Settles o (.ok v)
  | error {err} : o.Refuses err → Settles o (.error err)

section

variable {o : Operation} {err : RuntimeError}

theorem Refuses.raises (h : o.Refuses err) : o.Raises err := by
  cases h with
  | unsupportedOperator => exact .unsupportedOperator
  | notRepeatable => exact .notRepeatable
  | divisionByZero => exact .divisionByZero
  | overflow => exact .overflow

theorem Refuses.variant_ne (h : o.Refuses err) : err.cause.variant ≠ .unsupportedTypes := by
  cases h <;> simp [RuntimeError.Cause.variant]

theorem Settles.refuses (h : o.Settles (.error err)) : o.Refuses err := by
  cases h
  assumption

theorem Settles.ne_list {v : Value} (h : o.Settles (.ok v)) : v.kind ≠ .list := by
  cases h
  assumption

section

variable (o)

theorem settles_divided {answer : Value} (hanswer : answer.kind ≠ .list)
    (byZero overflows : Bool) : o.Settles (o.divided byZero overflows answer) := by
  unfold divided
  split
  · exact .error .divisionByZero
  · split
    · exact .error .overflow
    · exact .value hanswer

/-- The answer of a comparison, or the error of an operator that is none. -/
theorem settles_unless (compared answer : Bool) (left right : Kind) :
    o.Settles (if compared then .ok (.bool answer)
      else .error (o.unsupportedOperator left right)) := by
  split
  · exact .value nofun
  · exact .error .unsupportedOperator

theorem settles_onInts (a b : Int32) : o.Settles (o.onInts a b) := by
  unfold onInts runInts
  split
  case h_5 | h_6 =>
    refine o.settles_divided ?_ _ _
    exact nofun
  case h_9 => exact o.settles_unless _ _ _ _
  all_goals exact .value nofun

theorem settles_onLongs (a b : Int64) : o.Settles (o.onLongs a b) := by
  unfold onLongs
  split
  case h_5 | h_6 =>
    refine o.settles_divided ?_ _ _
    exact nofun
  case h_7 => exact o.settles_unless _ _ _ _
  all_goals exact .value nofun

theorem settles_onFloats (a b : Single) : o.Settles (o.onFloats a b) := by
  unfold onFloats
  split
  case h_7 => exact o.settles_unless _ _ _ _
  all_goals exact .value nofun

theorem settles_onDoubles (a b : Double) : o.Settles (o.onDoubles a b) := by
  unfold onDoubles
  split
  case h_7 => exact o.settles_unless _ _ _ _
  all_goals exact .value nofun

theorem settles_onBools (a b : Bool) : o.Settles (o.onBools a b) := by
  unfold onBools
  split
  · exact .value nofun
  · exact .value nofun
  · exact .error .unsupportedOperator

theorem settles_onDates (a b : Calendar.Moment) : o.Settles (o.onDates a b) := by
  unfold onDates
  split
  · exact .value nofun
  · exact o.settles_unless _ _ _ _

theorem settles_onDateAndTimeSpan (a : Calendar.Moment) (d : Calendar.TimeSpan) :
    o.Settles (o.onDateAndTimeSpan a d) := by
  unfold onDateAndTimeSpan
  split
  · split
    · exact .value nofun
    · exact .error .overflow
  · exact .error .unsupportedOperator

theorem settles_offLadder (heap : Heap) (left right : Value) :
    o.Settles (o.offLadder heap left right) ∨
      o.offLadder heap left right = .error (o.unsupportedTypes heap left right) := by
  unfold offLadder
  split
  · exact .inl (o.settles_onDates _ _)
  · exact .inl (o.settles_onDateAndTimeSpan _ _)
  · exact .inr rfl

theorem settles_onPromoted (heap : Heap) (left right a b : Value) :
    o.Settles (o.onPromoted heap left right a b) ∨
      o.onPromoted heap left right a b = .error (o.unsupportedTypes heap left right) := by
  unfold onPromoted runOnKind
  split
  · exact .inl (o.settles_onDoubles _ _)
  · exact .inl (o.settles_onFloats _ _)
  · exact .inl (o.settles_onLongs _ _)
  · exact .inl (o.settles_onInts _ _)
  · exact .inl (o.settles_onBools _ _)
  · exact .inr rfl

theorem settles_repeated (c : Coercions) (left right : Value) :
    o.Settles (o.repeated c left right) := by
  unfold repeated
  split
  · exact .error .notRepeatable
  · dsimp only
    split
    · exact .value nofun
    · exact .error .overflow

theorem settles_onStrings (c : Coercions) (left right : Value) :
    o.Settles (o.onStrings c left right) := by
  unfold onStrings
  split
  · exact .value nofun
  · exact o.settles_repeated c left right
  · exact o.settles_unless _ _ _ _

end

theorem raises_of_settles {heap : Heap} {left right : Value} {x : Except RuntimeError Value}
    (h : o.Settles x ∨ x = .error (o.unsupportedTypes heap left right)) (hx : x = .error err) :
    o.Raises err := by
  rcases h with h | h
  · rw [hx] at h
    exact h.refuses.raises
  · rw [hx] at h
    cases h
    exact .unsupportedTypes

theorem ne_list_of_settles {heap : Heap} {left right v : Value} {x : Except RuntimeError Value}
    (h : o.Settles x ∨ x = .error (o.unsupportedTypes heap left right)) (hx : x = .ok v) :
    v.kind ≠ .list := by
  rcases h with h | h
  · rw [hx] at h
    exact h.ne_list
  · rw [hx] at h
    cases h

/-- No calculation gives a list. -/
theorem ne_list_of_calculate {c : Coercions} {heap : Heap} {left right v : Value}
    (h : o.calculate c heap left right = .ok v) : v.kind ≠ .list := by
  unfold calculate runCalculation at h
  split at h
  · have hsettles := o.settles_onStrings c left right
    rw [Reported.result_after, Reported.result_silent] at h
    rw [h] at hsettles
    exact hsettles.ne_list
  · split at h
    · cases h
      exact nofun
    · rw [← promoted] at h
      cases htarget : Kind.target? left.kind right.kind with
      | none =>
        rw [o.promoted_of_none c heap htarget] at h
        exact ne_list_of_settles (o.settles_offLadder _ _ _) h
      | some target =>
        rw [o.promoted_of_some c heap htarget] at h
        obtain ⟨a, _, h⟩ := ok_of_bind h
        obtain ⟨b, _, h⟩ := ok_of_bind h
        exact ne_list_of_settles (o.settles_onPromoted _ _ _ _ _) h

/-- A host converts at the place that it is asked for, and otherwise fails with a conversion. -/
def Converts (c : Coercions) : Prop :=
  ∀ span v target err, c.convert span v target = .error err →
    ∃ value source kind expression, err = ⟨.conversionFailure value source kind expression, span⟩

theorem converts_standard (heap : Heap) (pattern : String) : Converts (.standard heap pattern) := by
  intro span v target err h
  change heap.convert span v target = .error err at h
  unfold Heap.convert at h
  split at h
  · cases h
  · cases h
    exact ⟨_, _, _, _, rfl⟩

variable {c : Coercions} (hc : Converts c)

include hc

theorem raises_promote {heap : Heap} {v : Value} {target : Kind}
    (h : o.promote c heap v target = .error err) : o.Raises err := by
  unfold promote at h
  split at h
  · cases h
  · rcases error_of_bind h with hconvert | ⟨w, _, hkind⟩
    · obtain ⟨_, _, _, _, rfl⟩ := hc _ _ _ _ hconvert
      exact .conversionFailure
    · split at hkind
      · cases hkind
      · cases hkind
        exact .conversionFailure

theorem raises_promoted {heap : Heap} {left right : Value}
    (h : o.promoted c heap left right = .error err) : o.Raises err := by
  cases htarget : Kind.target? left.kind right.kind with
  | none =>
    rw [o.promoted_of_none c heap htarget] at h
    exact raises_of_settles (o.settles_offLadder _ _ _) h
  | some target =>
    rw [o.promoted_of_some c heap htarget] at h
    rcases error_of_bind h with hleft | ⟨a, _, h⟩
    · exact raises_promote hc hleft
    · rcases error_of_bind h with hright | ⟨b, _, h⟩
      · exact raises_promote hc hright
      · exact raises_of_settles (o.settles_onPromoted _ _ _ _ _) h

theorem raises_calculate {heap : Heap} {left right : Value}
    (h : o.calculate c heap left right = .error err) : o.Raises err := by
  unfold calculate runCalculation at h
  split at h
  · have hsettles := o.settles_onStrings c left right
    rw [Reported.result_after, Reported.result_silent] at h
    rw [h] at hsettles
    exact hsettles.refuses.raises
  · split at h
    · cases h
    · exact raises_promoted hc h

/-- Every error of an operation is one of its own. -/
theorem raises_apply {heap : Heap} {left right : Value}
    (h : o.apply c heap left right = .error err) : o.Raises err := by
  rw [apply_eq] at h
  unfold steps at h
  split at h
  case h_4 | h_5 =>
    split at h
    · cases h
    · cases h
      exact .unsupportedOperator
  case h_6 =>
    rw [Reported.result_map, ← calculate] at h
    cases hcalculate : o.calculate c heap left right with
    | error err' =>
      rw [hcalculate] at h
      cases h
      exact raises_calculate hc hcalculate
    | ok v =>
      rw [hcalculate] at h
      cases h
  all_goals cases h

end

end Operation

namespace Builtin

/-! ## Builtin functions -/

/-- The errors that a builtin function may give, all at the place of the call. -/
inductive Raises (b : Builtin) (span : Span) : RuntimeError → Prop
  | argumentCount {expected found} : Raises b span ⟨.argumentCount b.name expected found, span⟩
  | conversionFailure {value source target expression} :
      Raises b span ⟨.conversionFailure value source target expression, span⟩
  | invalidArgument {details} : Raises b span ⟨.invalidArgument details, span⟩

variable {b : Builtin} {heap : Heap} {args : List Value} {span : Span} {err : RuntimeError}

theorem raises_checkCount {least most : Nat}
    (h : checkCount b.name args.length least most span = .error err) : b.Raises span err := by
  unfold checkCount at h
  split at h
  · cases h
  · cases h
    exact .argumentCount

theorem raises_intArguments (h : args.mapM (intArgument heap span) = .error err) :
    b.Raises span err := by
  induction args with
  | nil => cases h
  | cons v args ih =>
    rw [List.mapM_cons] at h
    rcases error_of_bind h with hfirst | ⟨n, _, h⟩
    · unfold intArgument at hfirst
      split at hfirst
      · cases hfirst
      · cases hfirst
        exact .conversionFailure
    · rcases error_of_bind h with hmore | ⟨ns, _, h⟩
      · exact ih hmore
      · cases h

theorem raises_checkPart {part : String} {n : Int} (h : checkPart part n span = .error err) :
    b.Raises span err := by
  unfold checkPart at h
  split at h
  · cases h
    exact .invalidArgument
  · cases h

theorem raises_makeDate (h : makeDate heap args span = .error err) : date.Raises span err := by
  rcases error_of_bind h with hcount | ⟨_, _, h⟩
  · exact raises_checkCount hcount
  · rcases error_of_bind h with hparts | ⟨parts, _, h⟩
    · exact raises_intArguments hparts
    · rcases error_of_bind h with hmonth | ⟨_, _, h⟩
      · exact raises_checkPart hmonth
      · rcases error_of_bind h with hday | ⟨_, _, h⟩
        · exact raises_checkPart hday
        · split at h
          · cases h
          · cases h
            exact .invalidArgument

theorem raises_makeTimeSpan {unit : Int}
    (h : makeTimeSpan b.name unit heap args span = .error err) : b.Raises span err := by
  rcases error_of_bind h with hcount | ⟨_, _, h⟩
  · exact raises_checkCount hcount
  · rcases error_of_bind h with hlong | ⟨n, _, h⟩
    · unfold longArgument at hlong
      split at hlong
      · cases hlong
      · cases hlong
        exact .conversionFailure
    · split at h
      · cases h
      · cases h
        exact .invalidArgument

/-- A builtin function gives a date or a span of time. -/
theorem ne_list_of_call {v : Value} (h : b.call heap args span = .ok v) : v.kind ≠ .list := by
  have of_makeTimeSpan : ∀ {name unit}, makeTimeSpan name unit heap args span = .ok v →
      v.kind ≠ .list := by
    intro name unit h
    obtain ⟨_, _, h⟩ := ok_of_bind h
    obtain ⟨_, _, h⟩ := ok_of_bind h
    split at h
    · cases h
      exact nofun
    · cases h
  cases b with
  | date =>
    obtain ⟨_, _, h⟩ := ok_of_bind h
    obtain ⟨_, _, h⟩ := ok_of_bind h
    obtain ⟨_, _, h⟩ := ok_of_bind h
    obtain ⟨_, _, h⟩ := ok_of_bind h
    split at h
    · cases h
      exact nofun
    · cases h
  | days | hours | minutes | seconds => exact of_makeTimeSpan h

/-- Every error of a builtin function is one of its own. -/
theorem raises_call (h : b.call heap args span = .error err) : b.Raises span err := by
  cases b with
  | date => exact raises_makeDate h
  | days | hours | minutes | seconds => exact raises_makeTimeSpan h

end Builtin

end TemplateExpr
