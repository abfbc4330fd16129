-- Operations that give the same results. What an operation gives depends on the values of
-- its operands as far as operators can tell them apart; the expressions it stands between
-- and their places are in its errors only.
import TemplateExpr.Builtin
import TemplateExpr.Evaluation
import TemplateExpr.Proofs.Heap.Nesting
import TemplateExpr.Proofs.Operation.Outcome

namespace TemplateExpr

/-! ## Results up to their errors -/

section

variable {κ α β : Type} (key : RuntimeError.Cause → κ)

/-- A result with what a key keeps of the cause of its error. -/
def keyed (x : Except RuntimeError α) : Except κ α := x.mapError fun e => key e.cause

@[simp] theorem keyed_ok (a : α) : keyed key (.ok a) = .ok a := rfl

@[simp] theorem keyed_error (e : RuntimeError) :
    keyed key (.error e : Except RuntimeError α) = .error (key e.cause) := rfl

variable {key}

theorem keyed_cases {x x' : Except RuntimeError α} (hx : keyed key x' = keyed key x) :
    (∃ a, x = .ok a ∧ x' = .ok a) ∨
      ∃ e e', x = .error e ∧ x' = .error e' ∧ key e'.cause = key e.cause := by
  cases x with
  | error e =>
    cases x' with
    | error e' => exact .inr ⟨e, e', rfl, rfl, Except.error.inj hx⟩
    | ok a' => cases hx
  | ok a =>
    cases x' with
    | error e' => cases hx
    | ok a' =>
      cases hx
      exact .inl ⟨a, rfl, rfl⟩

theorem keyed_bind {x x' : Except RuntimeError α} {f f' : α → Except RuntimeError β}
    (hx : keyed key x' = keyed key x) (hf : ∀ a, keyed key (f' a) = keyed key (f a)) :
    keyed key (x' >>= f') = keyed key (x >>= f) := by
  rcases keyed_cases hx with ⟨a, rfl, rfl⟩ | ⟨e, e', rfl, rfl, hkey⟩
  · exact hf a
  · exact congrArg Except.error hkey

theorem keyed_map {x x' : Except RuntimeError α} (f : α → β)
    (hx : keyed key x' = keyed key x) : keyed key (x'.map f) = keyed key (x.map f) := by
  rcases keyed_cases hx with ⟨a, rfl, rfl⟩ | ⟨e, e', rfl, rfl, hkey⟩
  · rfl
  · exact congrArg Except.error hkey

namespace Reported

variable (key) in
/-- The result of a step with what a key keeps of the cause of its error, and all that the step
reports. -/
def keyed (x : Reported α) : Except κ α × List Event := (TemplateExpr.keyed key x.result, x.events)

theorem keyed_silent {x x' : Except RuntimeError α}
    (hx : TemplateExpr.keyed key x' = TemplateExpr.keyed key x) :
    (silent x').keyed key = (silent x).keyed key := by
  simp only [keyed, result_silent, events_silent, hx]

theorem keyed_silent_bind {x x' : Except RuntimeError α} {f f' : α → Reported β}
    (hx : TemplateExpr.keyed key x' = TemplateExpr.keyed key x)
    (hf : ∀ a, (f' a).keyed key = (f a).keyed key) :
    (silent x' >>= f').keyed key = (silent x >>= f).keyed key := by
  rcases keyed_cases hx with ⟨a, rfl, rfl⟩ | ⟨e, e', rfl, rfl, hkey⟩
  · exact hf a
  · exact keyed_silent (congrArg Except.error hkey)

theorem keyed_after {x x' : Reported α} (event : Event) (hx : x'.keyed key = x.keyed key) :
    (after event x').keyed key = (after event x).keyed key := by
  obtain ⟨hresult, hevents⟩ := Prod.mk.inj hx
  simp only [keyed, result_after, events_after, hresult, hevents]

theorem keyed_map {x x' : Reported α} (f : α → β) (hx : x'.keyed key = x.keyed key) :
    (x'.map f).keyed key = (x.map f).keyed key := by
  obtain ⟨hresult, hevents⟩ := Prod.mk.inj hx
  simp only [keyed, result_map, events_map, TemplateExpr.keyed_map f hresult, hevents]

end Reported

end

/-! ## Values that operators cannot tell apart -/

section

variable {κ : Type} (key : RuntimeError.Cause → κ)

/-- Two values, each in its heap, of one kind, and one value unless they are lists. What errors say
of them a key does not tell apart. -/
structure Indistinct (h h' : Heap) (v v' : Value) : Prop where
  kind : v'.kind = v.kind
  leaf : v.kind ≠ .list → v' = v
  conversion : ∀ target expression,
    key (.conversionFailure (h'.describe v') v.kind target expression) =
      key (.conversionFailure (h.describe v) v.kind target expression)
  left : ∀ op expression other kind,
    key (.unsupportedTypes op expression (h'.describe v') v.kind other kind) =
      key (.unsupportedTypes op expression (h.describe v) v.kind other kind)
  right : ∀ op expression other kind,
    key (.unsupportedTypes op expression other kind (h'.describe v') v.kind) =
      key (.unsupportedTypes op expression other kind (h.describe v) v.kind)

end

namespace Indistinct

variable {κ : Type} {key : RuntimeError.Cause → κ} {h h' : Heap} {v v' : Value}

theorem refl (h : Heap) (v : Value) : Indistinct key h h v v :=
  ⟨rfl, fun _ => rfl, fun _ _ => rfl, fun _ _ _ _ => rfl, fun _ _ _ _ => rfl⟩

theorem null : Indistinct key h h' .null .null := by
  have hdescribe : h'.describe .null = h.describe .null := by
    have hnull : Value.null.kind ≠ .list := nofun
    rw [Heap.describe, Heap.describe, h.describeWithin_of_ne_list _ hnull,
      h'.describeWithin_of_ne_list _ hnull]
    rfl
  refine ⟨rfl, fun _ => rfl, ?_, ?_, ?_⟩ <;>
    (intros; rw [hdescribe])

theorem cases_list (hv : Indistinct key h h' v v') :
    v' = v ∨ ∃ r r', v = .list r ∧ v' = .list r' := by
  by_cases hlist : v.kind = .list
  · have hlist' : v'.kind = .list := hv.kind.trans hlist
    cases v with
    | list r =>
      cases v' with
      | list r' => exact .inr ⟨r, r', rfl, rfl⟩
      | _ => cases hlist'
    | _ => cases hlist
  · exact .inl (hv.leaf hlist)

theorem isNull (hv : Indistinct key h h' v v') : v'.isNull = v.isNull := by
  rcases hv.cases_list with rfl | ⟨r, r', rfl, rfl⟩ <;> rfl

theorem isString (hv : Indistinct key h h' v v') : v'.isString = v.isString := by
  rcases hv.cases_list with rfl | ⟨r, r', rfl, rfl⟩ <;> rfl

theorem truth (hv : Indistinct key h h' v v') : v'.truth = v.truth := by
  rcases hv.cases_list with rfl | ⟨r, r', rfl, rfl⟩ <;> rfl

theorem toInt32? (hv : Indistinct key h h' v v') : v'.toInt32? = v.toInt32? := by
  rcases hv.cases_list with rfl | ⟨r, r', rfl, rfl⟩ <;> rfl

theorem toInt64? (hv : Indistinct key h h' v v') : v'.toInt64? = v.toInt64? := by
  rcases hv.cases_list with rfl | ⟨r, r', rfl, rfl⟩ <;> rfl

theorem count? (hv : Indistinct key h h' v v') : Operation.count? v' = Operation.count? v := by
  rcases hv.cases_list with rfl | ⟨r, r', rfl, rfl⟩ <;> rfl

/-- No list converts to a kind on the ladder. -/
theorem convert? (hv : Indistinct key h h' v v') {target : Kind} (ht : target ∈ Kind.ladder) :
    v'.convert? target = v.convert? target := by
  rcases hv.cases_list with rfl | ⟨r, r', rfl, rfl⟩
  · rfl
  · rw [Value.convert?_off_ladder ht rfl (by simp [Value.kind]),
      Value.convert?_off_ladder ht rfl (by simp [Value.kind])]

end Indistinct

namespace Operation

/-! ## Operations with the same errors -/

variable {κ : Type} {key : RuntimeError.Cause → κ} {o o' : Operation} {h h' : Heap}

/-- If one of the operands is a text and the one that counts does count, the other is the text. -/
theorem countAndText_of_count {a b : Value} {n : Int64}
    (hstring : (a.isString || b.isString) = true) (hn : count? (countAndText a b).1 = some n) :
    ∃ s, (countAndText a b).2 = .string s := by
  have of_isString : ∀ {v : Value}, v.isString = true → ∃ s, v = .string s := by
    intro v hv
    cases v with
    | string s => exact ⟨s, rfl⟩
    | _ => cases hv
  unfold countAndText at hn ⊢
  split at hn
  · exact of_isString (by simpa [Value.isString] using hstring)
  · exact of_isString (by simpa [Value.isString] using hstring)
  · cases a with
    | int | long => exact of_isString (by simpa [Value.isString] using hstring)
    | _ => cases hn

/-- Two operations of one operator, whose errors a key does not tell apart. -/
structure Like (key : RuntimeError.Cause → κ) (o o' : Operation) : Prop where
  op : o'.op = o.op
  unsupportedOperator : ∀ k l, key (o'.unsupportedOperator k l).cause =
    key (o.unsupportedOperator k l).cause
  unsupportedTypes : ∀ s k t l, key (.unsupportedTypes o'.op o'.text s k t l) =
    key (.unsupportedTypes o.op o.text s k t l)
  notRepeatable : key o'.notRepeatable.cause = key o.notRepeatable.cause
  divisionByZero : key o'.divisionByZero.cause = key o.divisionByZero.cause
  overflow : key o'.overflow.cause = key o.overflow.cause

/-- An operation that writes its operands as texts, both of any kind, writes the ones as the
others. -/
def SameTexts (o : Operation) (h h' : Heap) (a a' b b' : Value) : Prop :=
  o.op = .add ∨ o.op.isComparison = true → (a.isString || b.isString) = true →
    ∀ pattern, h'.text pattern a' = h.text pattern a ∧ h'.text pattern b' = h.text pattern b

namespace Like

theorem divided (ho : Like key o o') (byZero overflows : Bool) (answer : Value) :
    keyed key (o'.divided byZero overflows answer) =
      keyed key (o.divided byZero overflows answer) := by
  unfold Operation.divided
  split
  · exact congrArg Except.error ho.divisionByZero
  · split
    · exact congrArg Except.error ho.overflow
    · rfl

/-- The answer of a comparison, or the error of an operator that is none. -/
theorem compared (ho : Like key o o') (isComparison : Bool) (answer : Value) (k l : Kind) :
    keyed key (if isComparison then .ok answer else .error (o'.unsupportedOperator k l)) =
      keyed key (if isComparison then .ok answer else .error (o.unsupportedOperator k l)) := by
  cases isComparison with
  | true => rfl
  | false => exact congrArg Except.error (ho.unsupportedOperator k l)

theorem runInts (ho : Like key o o') (a b : Int32) :
    (o'.runInts a b).keyed key = (o.runInts a b).keyed key := by
  unfold Operation.runInts
  rw [ho.op]
  cases o.op with
  | quotient | remainder => exact Reported.keyed_silent (ho.divided _ _ _)
  | add | subtract | multiply | divide | through | below => rfl
  | _ => exact Reported.keyed_silent (ho.compared _ _ _ _)

theorem onLongs (ho : Like key o o') (a b : Int64) :
    keyed key (o'.onLongs a b) = keyed key (o.onLongs a b) := by
  unfold Operation.onLongs
  rw [ho.op]
  cases o.op with
  | quotient | remainder => exact ho.divided _ _ _
  | add | subtract | multiply | divide => rfl
  | _ => exact ho.compared _ _ _ _

theorem onFloats (ho : Like key o o') (a b : Single) :
    keyed key (o'.onFloats a b) = keyed key (o.onFloats a b) := by
  unfold Operation.onFloats
  rw [ho.op]
  cases o.op with
  | add | subtract | multiply | divide | quotient | remainder => rfl
  | _ => exact ho.compared _ _ _ _

theorem onDoubles (ho : Like key o o') (a b : Double) :
    keyed key (o'.onDoubles a b) = keyed key (o.onDoubles a b) := by
  unfold Operation.onDoubles
  rw [ho.op]
  cases o.op with
  | add | subtract | multiply | divide | quotient | remainder => rfl
  | _ => exact ho.compared _ _ _ _

theorem onBools (ho : Like key o o') (a b : Bool) :
    keyed key (o'.onBools a b) = keyed key (o.onBools a b) := by
  unfold Operation.onBools
  rw [ho.op]
  cases o.op with
  | equal | notEqual => rfl
  | _ => exact congrArg Except.error (ho.unsupportedOperator _ _)

theorem onDates (ho : Like key o o') (a b : Calendar.Moment) :
    keyed key (o'.onDates a b) = keyed key (o.onDates a b) := by
  unfold Operation.onDates
  rw [ho.op]
  cases o.op with
  | subtract => rfl
  | _ => exact ho.compared _ _ _ _

theorem onDateAndTimeSpan (ho : Like key o o') (a : Calendar.Moment) (d : Calendar.TimeSpan) :
    keyed key (o'.onDateAndTimeSpan a d) = keyed key (o.onDateAndTimeSpan a d) := by
  unfold Operation.onDateAndTimeSpan
  rw [ho.op]
  cases o.op with
  | add =>
    cases a.add? d with
    | some m => rfl
    | none => exact congrArg Except.error ho.overflow
  | _ => exact congrArg Except.error (ho.unsupportedOperator _ _)

/-! ## Operands that operators cannot tell apart -/

section

variable {a a' b b' : Value} (ho : Like key o o') (ha : Indistinct key h h' a a')
  (hb : Indistinct key h h' b b')

include ho ha hb

theorem typesError : key (o'.unsupportedTypes h' a' b').cause =
    key (o.unsupportedTypes h a b).cause := by
  simp only [Operation.unsupportedTypes, ha.kind, hb.kind]
  rw [ho.unsupportedTypes, ha.left, hb.right]

theorem runOnKind (x y : Value) :
    (o'.runOnKind h' a' b' x y).keyed key = (o.runOnKind h a b x y).keyed key := by
  unfold Operation.runOnKind
  split
  · exact Reported.keyed_silent (ho.onDoubles _ _)
  · exact Reported.keyed_silent (ho.onFloats _ _)
  · exact Reported.keyed_silent (ho.onLongs _ _)
  · exact ho.runInts _ _
  · exact Reported.keyed_silent (ho.onBools _ _)
  · exact Reported.keyed_silent (congrArg Except.error (ho.typesError ha hb))

theorem offLadder : keyed key (o'.offLadder h' a' b') = keyed key (o.offLadder h a b) := by
  have herror : keyed key (.error (o'.unsupportedTypes h' a' b') : Except RuntimeError Value) =
      keyed key (.error (o.unsupportedTypes h a b)) := congrArg Except.error (ho.typesError ha hb)
  rcases ha.cases_list with rfl | ⟨r, r', rfl, rfl⟩
  · rcases hb.cases_list with rfl | ⟨s, s', rfl, rfl⟩
    · unfold Operation.offLadder
      split
      · exact ho.onDates _ _
      · exact ho.onDateAndTimeSpan _ _
      · exact herror
    · cases a' <;> exact herror
  · exact herror

omit ho hb in
theorem promote (pattern : String) {target : Kind} (ht : target ∈ Kind.ladder) :
    keyed key (o'.promote (.standard h' pattern) h' a' target) =
      keyed key (o.promote (.standard h pattern) h a target) := by
  cases hconvert : a.convert? target with
  | some v =>
    have hkind := Value.kind_of_convert? hconvert
    rw [promote_standard _ _ _ _ _ hconvert hkind,
      promote_standard _ _ _ _ _ ((ha.convert? ht).trans hconvert) hkind]
  | none =>
    rw [promote_standard_error _ _ _ hconvert,
      promote_standard_error _ _ _ ((ha.convert? ht).trans hconvert)]
    simp only [keyed_error, Heap.conversionFailure, ha.kind, ha.conversion]

theorem runPromotion (pattern : String) :
    (o'.runPromotion (.standard h' pattern) h' a' b').keyed key =
      (o.runPromotion (.standard h pattern) h a b).keyed key := by
  unfold Operation.runPromotion
  rw [ha.kind, hb.kind, ho.op]
  cases htarget : Kind.target? a.kind b.kind with
  | none => exact Reported.keyed_silent (ho.offLadder ha hb)
  | some target =>
    have ht : target ∈ Kind.ladder := List.mem_of_find?_eq_some htarget
    exact Reported.keyed_after _ (Reported.keyed_silent_bind (promote ha pattern ht) fun x =>
      Reported.keyed_silent_bind (promote hb pattern ht) fun y => ho.runOnKind ha hb x y)

omit ho in
/-- Which of the operands counts copies can be told by their kinds. -/
theorem countAndText :
    Indistinct key h h' (Operation.countAndText a b).1 (Operation.countAndText a' b').1 ∧
      Indistinct key h h' (Operation.countAndText a b).2 (Operation.countAndText a' b').2 := by
  rcases hb.cases_list with rfl | ⟨s, s', rfl, rfl⟩
  · unfold Operation.countAndText
    split
    · exact ⟨hb, ha⟩
    · exact ⟨hb, ha⟩
    · exact ⟨ha, hb⟩
  · exact ⟨ha, hb⟩

/-- Where copies are made, it is of a text. -/
theorem repeated (hstring : (a.isString || b.isString) = true) (pattern : String) :
    keyed key (o'.repeated (.standard h' pattern) a' b') =
      keyed key (o.repeated (.standard h pattern) a b) := by
  obtain ⟨hcount, htext⟩ := countAndText ha hb
  simp only [Operation.repeated, hcount.count?]
  cases hn : Operation.count? (Operation.countAndText a b).1 with
  | none => exact congrArg Except.error ho.notRepeatable
  | some n =>
    obtain ⟨s, hs⟩ := countAndText_of_count hstring hn
    have hs' := htext.leaf (by rw [hs]; exact nofun)
    rw [hs] at hs'
    simp only [Coercions.standard, hs, hs', text_string]
    split
    · rfl
    · exact congrArg Except.error ho.overflow

theorem onStrings (hstring : (a.isString || b.isString) = true)
    (htexts : SameTexts o h h' a a' b b') (pattern : String) :
    keyed key (o'.onStrings (.standard h' pattern) a' b') =
      keyed key (o.onStrings (.standard h pattern) a b) := by
  have hcompared : o.op.isComparison = true → h'.text pattern a' = h.text pattern a ∧
      h'.text pattern b' = h.text pattern b := fun hop => htexts (.inr hop) hstring pattern
  have hadded : o.op = .add → h'.text pattern a' = h.text pattern a ∧
      h'.text pattern b' = h.text pattern b := fun hop => htexts (.inl hop) hstring pattern
  have hrepeated := ho.repeated ha hb hstring pattern
  unfold Operation.onStrings
  rw [ho.op, ha.kind, hb.kind]
  simp only [Coercions.standard]
  cases hop : o.op with
  | add =>
    obtain ⟨hleft, hright⟩ := hadded hop
    simp only [hleft, hright]
  | multiply => exact hrepeated
  | equal | notEqual | greater | less | greaterEqual | lessEqual =>
    obtain ⟨hleft, hright⟩ := hcompared (by rw [hop]; rfl)
    simp only [hleft, hright]
    exact ho.compared _ _ _ _
  | _ => exact congrArg Except.error (ho.unsupportedOperator _ _)

theorem runCalculation (htexts : SameTexts o h h' a a' b b') (pattern : String) :
    (o'.runCalculation (.standard h' pattern) h' a' b').keyed key =
      (o.runCalculation (.standard h pattern) h a b).keyed key := by
  unfold Operation.runCalculation
  rw [ha.isString, hb.isString, ha.isNull, hb.isNull, ho.op]
  split
  · rename_i hstring
    exact Reported.keyed_after _
      (Reported.keyed_silent (ho.onStrings ha hb hstring htexts pattern))
  · split
    · rfl
    · exact ho.runPromotion ha hb pattern

theorem calculate (htexts : SameTexts o h h' a a' b b') (pattern : String) :
    keyed key (o'.calculate (.standard h' pattern) h' a' b') =
      keyed key (o.calculate (.standard h pattern) h a b) :=
  congrArg Prod.fst (ho.runCalculation ha hb htexts pattern)

end

/-- Two such operations on the same operands report the same, and differ in their errors only. -/
theorem run (ho : Like key o o') (h : Heap) (pattern : String) (a b : Value) :
    (o'.run (.standard h pattern) h a b).keyed key =
      (o.run (.standard h pattern) h a b).keyed key := by
  have hcalculation :=
    ho.runCalculation (.refl h a) (.refl h b) (fun _ _ _ => ⟨rfl, rfl⟩) pattern
  unfold Operation.run Operation.steps
  rw [ho.op]
  apply Reported.keyed_after
  cases o.op with
  | coalesce | and | or => rfl
  | append | prepend =>
    dsimp only
    split
    · rfl
    · exact Reported.keyed_silent (congrArg Except.error (ho.unsupportedOperator _ _))
  | _ => exact Reported.keyed_map _ hcalculation

end Like

end Operation

/-! ## Signs and builtin functions -/

section

variable {κ : Type} {key : RuntimeError.Cause → κ} {h h' : Heap}

/-- The operand of a sign is in the error of an overflow only, and no span of time overflows. -/
theorem UnaryOp.keyed_apply (op : UnaryOp) (operand operand' : Expr) (span span' : Span)
    {v v' : Value} (hv : Indistinct key h h' v v') :
    keyed key (op.apply operand' span' v') = keyed key (op.apply operand span v) := by
  rcases hv.cases_list with rfl | ⟨r, r', rfl, rfl⟩
  · cases op with
    | not => rfl
    | negate =>
      cases v' with
      | timeSpan d =>
        obtain ⟨d', hd⟩ := d.exists_neg?
        simp only [UnaryOp.apply, hd]
      | _ => rfl
  · cases op <;> rfl

namespace Builtin

theorem keyed_checkCount (name : String) (found least most : Nat) (span span' : Span) :
    keyed key (checkCount name found least most span') =
      keyed key (checkCount name found least most span) := by
  unfold checkCount
  split <;> rfl

theorem keyed_checkPart (part : String) (n : Int) (span span' : Span) :
    keyed key (checkPart part n span') = keyed key (checkPart part n span) := by
  unfold checkPart
  split <;> rfl

variable {args args' : List Value}

theorem keyed_intArguments (hargs : List.Forall₂ (Indistinct key h h') args args')
    (span span' : Span) : keyed key (args'.mapM (intArgument h' span')) =
      keyed key (args.mapM (intArgument h span)) := by
  induction hargs with
  | nil => rfl
  | cons hv _ ih =>
    rw [List.mapM_cons, List.mapM_cons]
    refine keyed_bind ?_ fun n => keyed_bind ih fun ns => rfl
    simp only [intArgument, hv.toInt32?, Heap.conversionFailure, hv.kind]
    split
    · rfl
    · exact congrArg Except.error (hv.conversion _ _)

theorem keyed_makeDate (hargs : List.Forall₂ (Indistinct key h h') args args') (span span' : Span) :
    keyed key (makeDate h' args' span') = keyed key (makeDate h args span) := by
  unfold makeDate
  rw [hargs.length_eq]
  refine keyed_bind (keyed_checkCount _ _ _ _ _ _) fun _ => ?_
  refine keyed_bind (keyed_intArguments hargs _ _) fun parts => ?_
  refine keyed_bind (keyed_checkPart _ _ _ _) fun _ => ?_
  refine keyed_bind (keyed_checkPart _ _ _ _) fun _ => ?_
  split <;> rfl

theorem keyed_makeTimeSpan (name : String) (unit : Int)
    (hargs : List.Forall₂ (Indistinct key h h') args args') (span span' : Span) :
    keyed key (makeTimeSpan name unit h' args' span') =
      keyed key (makeTimeSpan name unit h args span) := by
  have hfirst : Indistinct key h h' (args.headD .null) (args'.headD .null) := by
    cases hargs with
    | nil => exact .null
    | cons hv _ => exact hv
  unfold makeTimeSpan
  rw [hargs.length_eq]
  refine keyed_bind (keyed_checkCount _ _ _ _ _ _) fun _ => keyed_bind ?_ fun count => ?_
  · simp only [longArgument, hfirst.toInt64?, Heap.conversionFailure, hfirst.kind]
    split
    · rfl
    · exact congrArg Except.error (hfirst.conversion _ _)
  · split <;> rfl

/-- A builtin function gets the place of the call for its errors only. -/
theorem keyed_call (b : Builtin) (hargs : List.Forall₂ (Indistinct key h h') args args')
    (span span' : Span) : keyed key (b.call h' args' span') = keyed key (b.call h args span) := by
  cases b with
  | date => exact keyed_makeDate hargs span span'
  | days | hours | minutes | seconds => exact keyed_makeTimeSpan _ _ hargs span span'

end Builtin

end

end TemplateExpr
