-- What every operator gives on every two values under a standard host: the kind of
-- the value, or the very error. The rows are tried in their order: texts, then
-- equality with null, then operands off the ladder, then operands that meet on it.
import TemplateExpr.Operation.Apply
import TemplateExpr.Proofs.Operation.Ladder

namespace TemplateExpr

/-! ## The table -/

/-- The kind of what an operator gives for operands brought to a kind on the ladder, unless it
takes no operands of that kind. -/
def BinaryOp.answer? (op : BinaryOp) (target : Kind) : Option Kind :=
  match op with
  | .equal | .notEqual => some .bool
  | .greater | .less | .greaterEqual | .lessEqual => if target = .bool then none else some .bool
  | .through | .below => if target = .int then some .range else none
  | .add | .subtract | .multiply | .remainder => if target = .bool then none else some target
  | .divide =>
    if target = .bool then none else if target = .double then some .double else some .float
  | .quotient =>
    if target = .bool then none else if target = .float then some .double else some target
  | .and | .or | .coalesce | .append | .prepend => none

/-- The least whole number of a kind of whole numbers. -/
def Kind.least : Kind → Int
  | .int => -2147483648
  | _ => -9223372036854775808

namespace Operation

/-- The operation succeeds, with a value of this kind once the list it may need is made. -/
def Gives (h : Heap) (result : Except RuntimeError Outcome) (kind : Kind) : Prop :=
  ∃ outcome, result = .ok outcome ∧ (h.place outcome).1.kind = kind

/-- One of the operands is a text. -/
def HasText (l r : Value) : Prop := l.kind = .string ∨ r.kind = .string

/-- The operator asks for equality, and one of the operands is null. -/
def AsksForNull (o : Operation) (l r : Value) : Prop :=
  (o.op = .equal ∨ o.op = .notEqual) ∧ (l.kind = .null ∨ r.kind = .null)

/-- Neither the rows about texts nor the one about null apply. -/
def Computes (o : Operation) (l r : Value) : Prop :=
  o.op.isCalculation = true ∧ ¬ HasText l r ∧ ¬ o.AsksForNull l r

/-- The rung at which the operands meet, the higher one of theirs. -/
def MeetAt (target : Kind) (l r : Value) : Prop :=
  target ∈ Kind.ladder ∧ target.height = max l.kind.height r.kind.height

/-- A division of whole numbers that gives a whole number. -/
def DividesWhole (o : Operation) (target : Kind) : Prop :=
  (o.op = .quotient ∨ o.op = .remainder) ∧ (target = .int ∨ target = .long)

/-- The rows about texts. -/
structure TextRows (o : Operation) (h : Heap) (l r : Value)
    (result : Except RuntimeError Outcome) : Prop where
  joined : o.op = .add → Gives h result .string
  compared : o.op.isComparison = true → Gives h result .bool
  /-- A text times an integer, in any order, may be too long. -/
  repeated : o.op = .multiply → ∀ s n,
    (l = .string s ∧ count? r = some n) ∨ (count? l = some n ∧ r = .string s) →
    if (2147483647 : Int) < s.utf8ByteSize * max n.toInt 0 then result = .error o.overflow
    else Gives h result .string
  not_repeatable : o.op = .multiply → count? l = none → count? r = none →
    result = .error o.notRepeatable
  unsupported : o.op ≠ .add → o.op ≠ .multiply → o.op.isComparison = false →
    result = .error (o.unsupportedOperator l.kind r.kind)

/-- The rows about operands off the ladder. -/
structure OffLadderRows (o : Operation) (h : Heap) (l r : Value)
    (result : Except RuntimeError Outcome) : Prop where
  dates : ∀ a b, l = .date a → r = .date b →
    if o.op = .subtract then Gives h result .timeSpan
    else if o.op.isComparison then Gives h result .bool
    else result = .error (o.unsupportedOperator .date .date)
  /-- Only a sum of a date and a span of time makes sense, and it may be no date. -/
  date_and_span : ∀ a d, l = .date a → r = .timeSpan d →
    if o.op = .add then
      if (a.add? d).isSome then Gives h result .date else result = .error o.overflow
    else result = .error (o.unsupportedOperator .date .timeSpan)
  unsupported : (l.kind, r.kind) ≠ (.date, .date) → (l.kind, r.kind) ≠ (.date, .timeSpan) →
    result = .error (o.unsupportedTypes h l r)

/-- The rows about operands that meet at a rung. -/
structure LadderRows (o : Operation) (h : Heap) (target : Kind) (l r : Value)
    (result : Except RuntimeError Outcome) : Prop where
  left_off : l.kind.height = 0 → result = .error (h.conversionFailure l target o.span)
  right_off : 0 < l.kind.height → r.kind.height = 0 →
    result = .error (h.conversionFailure r target o.span)
  /-- Division of whole numbers fails for a divisor of zero, and for the least number divided
  by minus one, and for nothing else. -/
  divided : 0 < l.kind.height → 0 < r.kind.height → o.DividesWhole target →
    ∃ x y, l.integer? = some x ∧ r.integer? = some y ∧
      if y = 0 then result = .error o.divisionByZero
      else if x = target.least ∧ y = -1 then result = .error o.overflow
      else Gives h result target
  computed : 0 < l.kind.height → 0 < r.kind.height → ¬ o.DividesWhole target →
    match o.op.answer? target with
    | some kind => Gives h result kind
    | none => result = .error (o.unsupportedOperator target target)

/-- The outcome of every operator on every two values. -/
structure OutcomeTable (o : Operation) (h : Heap) (l r : Value)
    (result : Except RuntimeError Outcome) : Prop where
  coalesce : o.op = .coalesce → result = .ok (.value (if l.isNull then r else l))
  logical : o.op = .and ∨ o.op = .or → Gives h result .bool
  appended : o.op = .append →
    if (h.sequence? l).isSome then Gives h result .list
    else result = .error (o.unsupportedOperator l.kind r.kind)
  prepended : o.op = .prepend →
    if (h.sequence? r).isSome then Gives h result .list
    else result = .error (o.unsupportedOperator l.kind r.kind)
  text : o.op.isCalculation = true → HasText l r → o.TextRows h l r result
  null : ¬ HasText l r → o.AsksForNull l r → Gives h result .bool
  off_ladder : o.Computes l r → l.kind.height = 0 → r.kind.height = 0 →
    o.OffLadderRows h l r result
  ladder : o.Computes l r → 0 < max l.kind.height r.kind.height →
    ∃ target, MeetAt target l r ∧ o.LadderRows h target l r result

/-! ## What an operator gives wherever it stands -/

section

variable (c : Coercions) (h : Heap) (op : BinaryOp) (left right : Value)

/-- Every operation with this operator gives this value for these operands. -/
def Yields (v : Value) : Prop :=
  ∀ o : Operation, o.op = op → o.apply c h left right = .ok (.value v)

/-- Every operation with this operator is an overflow for these operands. -/
def Overflows : Prop := ∀ o : Operation, o.op = op → o.apply c h left right = .error o.overflow

end

theorem Yields.unique {c : Coercions} {h : Heap} {op : BinaryOp} {left right v w : Value}
    (hv : Yields c h op left right v) (hw : Yields c h op left right w) : v = w := by
  have heq := (hv ⟨op, default, default⟩ rfl).symm.trans (hw ⟨op, default, default⟩ rfl)
  cases heq
  rfl

theorem Yields.not_overflows {c : Coercions} {h : Heap} {op : BinaryOp} {left right v : Value}
    (hv : Yields c h op left right v) : ¬ Overflows c h op left right := by
  intro hover
  have heq := (hv ⟨op, default, default⟩ rfl).symm.trans (hover ⟨op, default, default⟩ rfl)
  cases heq

/-! ## Which row applies -/

section

variable (o : Operation) (c : Coercions) (h : Heap) {l r : Value}

theorem gives_value (h : Heap) (v : Value) : Gives h (.ok (.value v)) v.kind := ⟨.value v, rfl, rfl⟩

theorem apply_of_isCalculation (hop : o.op.isCalculation = true) :
    o.apply c h l r = (o.calculate c h l r).map .value := by
  rw [apply_eq]
  unfold steps
  split <;> simp_all [BinaryOp.isCalculation, calculate]

theorem hasText_iff (l r : Value) : (l.isString || r.isString) = true ↔ HasText l r := by
  unfold HasText
  cases l <;> cases r <;> simp [Value.isString, Value.kind]

theorem isNull_iff (v : Value) : v.isNull = true ↔ v.kind = .null := by
  cases v <;> simp [Value.isNull, Value.kind]

theorem asksForNull_iff (o : Operation) (l r : Value) :
    ((o.op = .equal || o.op = .notEqual) && (l.isNull || r.isNull)) = true ↔
      o.AsksForNull l r := by
  unfold AsksForNull
  simp only [Bool.and_eq_true, Bool.or_eq_true, decide_eq_true_eq, isNull_iff]

theorem calculate_of_hasText (htext : HasText l r) :
    o.calculate c h l r = o.onStrings c l r := by
  unfold calculate runCalculation
  rw [if_pos ((hasText_iff l r).2 htext), Reported.result_after, Reported.result_silent]

theorem calculate_of_asksForNull (htext : ¬ HasText l r) (hnull : o.AsksForNull l r) :
    ∃ b, o.calculate c h l r = .ok (.bool b) := by
  unfold calculate runCalculation
  rw [if_neg (mt (hasText_iff l r).1 htext), if_pos ((asksForNull_iff o l r).2 hnull)]
  exact ⟨_, rfl⟩

theorem calculate_of_computes (hcomp : o.Computes l r) :
    o.calculate c h l r = o.promoted c h l r := by
  obtain ⟨_, htext, hnull⟩ := hcomp
  unfold calculate runCalculation
  rw [if_neg (mt (hasText_iff l r).1 htext), if_neg (mt (asksForNull_iff o l r).1 hnull), promoted]

end

/-! ## Texts -/

theorem text_string (h : Heap) (pattern s : String) : h.text pattern (.string s) = s := by
  unfold Heap.text
  cases h.depth <;> rfl

/-- Beside a text every operand is taken as its text. -/
theorem yields_texts (h : Heap) (pattern : String) {l r : Value} (htext : HasText l r) :
    Yields (.standard h pattern) h .add l r (.string (h.text pattern l ++ h.text pattern r)) := by
  intro o hop
  rw [o.apply_of_isCalculation _ h (by rw [hop]; rfl), o.calculate_of_hasText _ h htext]
  simp only [onStrings, hop, Coercions.standard]
  rfl

theorem countAndText_of_count_right {l r : Value} {n : Int64} (hr : count? r = some n) :
    countAndText l r = (r, l) := by
  cases r <;> first | rfl | simp [count?] at hr

theorem countAndText_of_no_count_right {l r : Value} (hr : count? r = none) :
    countAndText l r = (l, r) := by
  cases r <;> first | rfl | simp [count?] at hr

/-- Copies of a text are made exactly if they stay below the greatest length. -/
theorem repeated_of_pair (o : Operation) (h : Heap) (pattern : String) {s : String} {n : Int64}
    {l r counter : Value} (hpair : countAndText l r = (counter, .string s))
    (hcount : count? counter = some n) :
    if (2147483647 : Int) < s.utf8ByteSize * max n.toInt 0 then
      o.repeated (.standard h pattern) l r = .error o.overflow
    else o.repeated (.standard h pattern) l r =
      .ok (.string (Text.copies s (Text.repeatCount n))) := by
  have hlength : ((s.utf8ByteSize * Text.repeatCount n : Nat) : Int) =
      s.utf8ByteSize * max n.toInt 0 := by
    rw [Text.repeatCount, Int.natCast_mul, Int.ofNat_toNat]
  unfold repeated
  simp only [hpair, hcount, Coercions.standard, text_string, Text.repeatedLength?,
    Text.maxRepeatedLength]
  split
  · rw [if_neg (by omega)]
  · rw [if_pos (by omega)]

theorem repeated_outcome (o : Operation) (h : Heap) (pattern : String) {s : String} {n : Int64}
    {l r : Value}
    (hlr : (l = .string s ∧ count? r = some n) ∨ (count? l = some n ∧ r = .string s)) :
    if (2147483647 : Int) < s.utf8ByteSize * max n.toInt 0 then
      o.repeated (.standard h pattern) l r = .error o.overflow
    else o.repeated (.standard h pattern) l r =
      .ok (.string (Text.copies s (Text.repeatCount n))) := by
  rcases hlr with ⟨rfl, hr⟩ | ⟨hl, rfl⟩
  · exact repeated_of_pair o h pattern (countAndText_of_count_right hr) hr
  · exact repeated_of_pair o h pattern (countAndText_of_no_count_right rfl) hl

theorem repeated_of_no_count (o : Operation) (c : Coercions) {l r : Value} (hl : count? l = none)
    (hr : count? r = none) : o.repeated c l r = .error o.notRepeatable := by
  unfold repeated
  rw [countAndText_of_no_count_right hr, hl]

theorem onStrings_textRows (o : Operation) (h : Heap) (pattern : String) (l r : Value) :
    o.TextRows h l r ((o.onStrings (.standard h pattern) l r).map .value) := by
  refine ⟨?_, ?_, ?_, ?_, ?_⟩
  · intro hop
    simp only [onStrings, hop]
    exact gives_value h _
  · intro hop
    unfold onStrings
    split
    · simp_all [BinaryOp.isComparison]
    · simp_all [BinaryOp.isComparison]
    · rw [if_pos hop]
      exact gives_value h _
  · intro hop s n hlr
    have hrepeated := o.repeated_outcome h pattern hlr
    simp only [onStrings, hop]
    by_cases hlong : (2147483647 : Int) < s.utf8ByteSize * max n.toInt 0
    · rw [if_pos hlong] at hrepeated ⊢
      rw [hrepeated]
      rfl
    · rw [if_neg hlong] at hrepeated ⊢
      rw [hrepeated]
      exact gives_value h _
  · intro hop hl hr
    simp only [onStrings, hop, repeated_of_no_count o _ hl hr]
    rfl
  · intro hadd hmultiply hcompares
    unfold onStrings
    split
    · contradiction
    · contradiction
    · rw [if_neg (by simp [hcompares])]
      rfl

/-! ## Off the ladder -/

theorem offLadder_rows (o : Operation) (h : Heap) (l r : Value) :
    o.OffLadderRows h l r ((o.offLadder h l r).map .value) := by
  refine ⟨?_, ?_, ?_⟩
  · rintro a b rfl rfl
    simp only [offLadder]
    by_cases hsub : o.op = .subtract
    · rw [if_pos hsub]
      simp only [onDates, hsub]
      exact gives_value h _
    · rw [if_neg hsub]
      unfold onDates
      by_cases hcompares : o.op.isComparison = true
      · rw [if_pos hcompares]
        split
        · contradiction
        · rw [if_pos hcompares]
          exact gives_value h _
      · rw [if_neg hcompares]
        split
        · contradiction
        · rw [if_neg hcompares]
          rfl
  · rintro a d rfl rfl
    simp only [offLadder]
    by_cases hadd : o.op = .add
    · rw [if_pos hadd]
      simp only [onDateAndTimeSpan, hadd]
      cases a.add? d with
      | none => rfl
      | some m => exact gives_value h _
    · rw [if_neg hadd]
      unfold onDateAndTimeSpan
      split
      · contradiction
      · rfl
  · intro hdates hspan
    unfold offLadder
    split
    · exact absurd rfl hdates
    · exact absurd rfl hspan
    · rfl

/-! ## On the ladder -/

/-- What an operator answers for operands of one kind. -/
def Answers (o : Operation) (target : Kind) (result : Except RuntimeError Value) : Prop :=
  match o.op.answer? target with
  | some kind => ∃ v, result = .ok v ∧ v.kind = kind
  | none => result = .error (o.unsupportedOperator target target)

theorem onDoubles_answers (o : Operation) (a b : Double) (hop : o.op.isCalculation = true) :
    o.Answers .double (o.onDoubles a b) := by
  unfold Answers onDoubles
  cases hcase : o.op <;> simp_all [BinaryOp.answer?, BinaryOp.isCalculation, BinaryOp.isComparison,
    Value.kind]

theorem onFloats_answers (o : Operation) (a b : Single) (hop : o.op.isCalculation = true) :
    o.Answers .float (o.onFloats a b) := by
  unfold Answers onFloats
  cases hcase : o.op <;> simp_all [BinaryOp.answer?, BinaryOp.isCalculation, BinaryOp.isComparison,
    Value.kind]

theorem onBools_answers (o : Operation) (a b : Bool) (hop : o.op.isCalculation = true) :
    o.Answers .bool (o.onBools a b) := by
  unfold Answers onBools
  cases hcase : o.op <;> simp_all [BinaryOp.answer?, BinaryOp.isCalculation, Value.kind]

theorem onLongs_answers (o : Operation) (a b : Int64) (hop : o.op.isCalculation = true)
    (hdiv : ¬ o.DividesWhole .long) : o.Answers .long (o.onLongs a b) := by
  unfold DividesWhole at hdiv
  unfold Answers onLongs
  cases hcase : o.op <;> simp_all [BinaryOp.answer?, BinaryOp.isCalculation, BinaryOp.isComparison,
    Value.kind]

theorem onInts_answers (o : Operation) (a b : Int32) (hop : o.op.isCalculation = true)
    (hdiv : ¬ o.DividesWhole .int) : o.Answers .int (o.onInts a b) := by
  unfold DividesWhole at hdiv
  unfold Answers onInts runInts
  cases hcase : o.op <;> simp_all [BinaryOp.answer?, BinaryOp.isCalculation, BinaryOp.isComparison,
    Value.kind, madeRange]

/-- What a division of whole numbers gives. -/
def Divides (o : Operation) (target : Kind) (x y : Int) (result : Except RuntimeError Value) :
    Prop :=
  if y = 0 then result = .error o.divisionByZero
  else if x = target.least ∧ y = -1 then result = .error o.overflow
  else ∃ v, result = .ok v ∧ v.kind = target

theorem divided_divides (o : Operation) {target : Kind} {x y : Int} {byZero overflows : Bool}
    {answer : Value} (hzero : byZero = true ↔ y = 0)
    (hover : overflows = true ↔ x = target.least ∧ y = -1) (hkind : answer.kind = target) :
    o.Divides target x y (o.divided byZero overflows answer) := by
  unfold Divides divided
  by_cases hy : y = 0
  · rw [if_pos hy, if_pos (hzero.2 hy)]
  · rw [if_neg hy, if_neg (mt hzero.1 hy)]
    by_cases hx : x = target.least ∧ y = -1
    · rw [if_pos hx, if_pos (hover.2 hx)]
    · rw [if_neg hx, if_neg (mt hover.1 hx)]
      exact ⟨answer, rfl, hkind⟩

theorem isZero_int (b : Int32) : (b == 0) = true ↔ b.toInt = 0 := by
  rw [beq_iff_eq, ← Int32.toInt_inj, Int32.toInt_zero]

theorem overflows_int (a b : Int32) : (a == Int32.minValue && b == -1) = true ↔
    a.toInt = Kind.least .int ∧ b.toInt = -1 := by
  rw [Bool.and_eq_true, beq_iff_eq, beq_iff_eq, ← Int32.toInt_inj, ← Int32.toInt_inj]
  rfl

theorem isZero_long (b : Int64) : (b == 0) = true ↔ b.toInt = 0 := by
  rw [beq_iff_eq, ← Int64.toInt_inj, Int64.toInt_zero]

theorem overflows_long (a b : Int64) : (a == Int64.minValue && b == -1) = true ↔
    a.toInt = Kind.least .long ∧ b.toInt = -1 := by
  rw [Bool.and_eq_true, beq_iff_eq, beq_iff_eq, ← Int64.toInt_inj, ← Int64.toInt_inj]
  rfl

theorem onInts_divides (o : Operation) (a b : Int32) (hop : o.op = .quotient ∨ o.op = .remainder) :
    o.Divides .int a.toInt b.toInt (o.onInts a b) := by
  unfold onInts runInts
  rcases hop with hop | hop
  · simp only [hop]
    exact divided_divides o (isZero_int b) (overflows_int a b) rfl
  · simp only [hop]
    exact divided_divides o (isZero_int b) (overflows_int a b) rfl

theorem onLongs_divides (o : Operation) (a b : Int64)
    (hop : o.op = .quotient ∨ o.op = .remainder) :
    o.Divides .long a.toInt b.toInt (o.onLongs a b) := by
  unfold onLongs
  rcases hop with hop | hop
  · simp only [hop]
    exact divided_divides o (isZero_long b) (overflows_long a b) rfl
  · simp only [hop]
    exact divided_divides o (isZero_long b) (overflows_long a b) rfl

/-! ## Promotion -/

theorem promoted_of_target (o : Operation) (h : Heap) (pattern : String) {l r a b : Value}
    {target : Kind} (hmeet : MeetAt target l r) (ha : l.convert? target = some a)
    (hakind : a.kind = target) (hb : r.convert? target = some b) (hbkind : b.kind = target) :
    o.promoted (.standard h pattern) h l r = o.onPromoted h l r a b := by
  rw [o.promoted_of_some _ h (Kind.target?_eq_some hmeet.1 hmeet.2)]
  simp only [o.promote_standard h pattern l target ha hakind,
    o.promote_standard h pattern r target hb hbkind, bind, Except.bind]

theorem MeetAt.height_le {target : Kind} {l r : Value} (hmeet : MeetAt target l r) :
    l.kind.height ≤ target.height ∧ r.kind.height ≤ target.height := by
  have hmax := hmeet.2
  omega

/-- Operands that meet on the ladder are brought to one kind, and its handler answers. -/
theorem promoted_answers (o : Operation) (h : Heap) (pattern : String) {l r : Value} {target : Kind}
    (hop : o.op.isCalculation = true) (hmeet : MeetAt target l r) (hl : 0 < l.kind.height)
    (hr : 0 < r.kind.height) (hdiv : ¬ o.DividesWhole target) :
    o.Answers target (o.promoted (.standard h pattern) h l r) := by
  obtain ⟨hlle, hrle⟩ := hmeet.height_le
  have ht := hmeet.1
  simp only [Kind.ladder, List.mem_cons, List.not_mem_nil, or_false] at ht
  rcases ht with rfl | rfl | rfl | rfl | rfl
  · obtain ⟨a, ha⟩ := Value.convert?_double hl
    obtain ⟨b, hb⟩ := Value.convert?_double hr
    rw [o.promoted_of_target h pattern hmeet ha rfl hb rfl]
    exact o.onDoubles_answers a b hop
  · obtain ⟨a, ha⟩ := Value.convert?_float hl hlle
    obtain ⟨b, hb⟩ := Value.convert?_float hr hrle
    rw [o.promoted_of_target h pattern hmeet ha rfl hb rfl]
    exact o.onFloats_answers a b hop
  · obtain ⟨a, ha, _⟩ := Value.convert?_long hl hlle
    obtain ⟨b, hb, _⟩ := Value.convert?_long hr hrle
    rw [o.promoted_of_target h pattern hmeet ha rfl hb rfl]
    exact o.onLongs_answers a b hop hdiv
  · obtain ⟨a, ha, _⟩ := Value.convert?_int hl hlle
    obtain ⟨b, hb, _⟩ := Value.convert?_int hr hrle
    rw [o.promoted_of_target h pattern hmeet ha rfl hb rfl]
    exact o.onInts_answers a b hop hdiv
  · obtain ⟨a, ha⟩ := Value.convert?_bool (Nat.le_antisymm hlle hl)
    obtain ⟨b, hb⟩ := Value.convert?_bool (Nat.le_antisymm hrle hr)
    rw [o.promoted_of_target h pattern hmeet ha rfl hb rfl]
    exact o.onBools_answers a b hop

theorem promoted_divides (o : Operation) (h : Heap) (pattern : String) {l r : Value} {target : Kind}
    (hmeet : MeetAt target l r) (hl : 0 < l.kind.height) (hr : 0 < r.kind.height)
    (hdiv : o.DividesWhole target) :
    ∃ x y, l.integer? = some x ∧ r.integer? = some y ∧
      o.Divides target x y (o.promoted (.standard h pattern) h l r) := by
  obtain ⟨hlle, hrle⟩ := hmeet.height_le
  obtain ⟨hop, rfl | rfl⟩ := hdiv
  · obtain ⟨a, ha, hx⟩ := Value.convert?_int hl hlle
    obtain ⟨b, hb, hy⟩ := Value.convert?_int hr hrle
    refine ⟨a.toInt, b.toInt, hx, hy, ?_⟩
    rw [o.promoted_of_target h pattern hmeet ha rfl hb rfl]
    exact o.onInts_divides a b hop
  · obtain ⟨a, ha, hx⟩ := Value.convert?_long hl hlle
    obtain ⟨b, hb, hy⟩ := Value.convert?_long hr hrle
    refine ⟨a.toInt, b.toInt, hx, hy, ?_⟩
    rw [o.promoted_of_target h pattern hmeet ha rfl hb rfl]
    exact o.onLongs_divides a b hop

/-- The left operand is converted first, so if it does not convert nothing else matters. -/
theorem promoted_left_off (o : Operation) (h : Heap) (pattern : String) {l r : Value}
    {target : Kind} (hmeet : MeetAt target l r) (htext : l.kind ≠ .string)
    (hl : l.kind.height = 0) :
    o.promoted (.standard h pattern) h l r = .error (h.conversionFailure l target o.span) := by
  have hnone := Value.convert?_off_ladder hmeet.1 hl htext
  rw [o.promoted_of_some _ h (Kind.target?_eq_some hmeet.1 hmeet.2)]
  simp only [o.promote_standard_error h pattern hnone, bind, Except.bind]

theorem promoted_right_off (o : Operation) (h : Heap) (pattern : String) {l r : Value}
    {target : Kind} (hmeet : MeetAt target l r) (htext : r.kind ≠ .string)
    (hl : 0 < l.kind.height) (hr : r.kind.height = 0) :
    o.promoted (.standard h pattern) h l r = .error (h.conversionFailure r target o.span) := by
  have hnone := Value.convert?_off_ladder hmeet.1 hr htext
  obtain ⟨w, hw, hkind⟩ := Value.convert?_up hmeet.1 hl hmeet.height_le.1
  rw [o.promoted_of_some _ h (Kind.target?_eq_some hmeet.1 hmeet.2)]
  simp only [o.promote_standard h pattern l target hw hkind,
    o.promote_standard_error h pattern hnone, bind, Except.bind]

theorem Answers.rows {o : Operation} {h : Heap} {target : Kind} {result : Except RuntimeError Value}
    (hanswers : o.Answers target result) :
    match o.op.answer? target with
    | some kind => Gives h (result.map Outcome.value) kind
    | none => result.map Outcome.value = .error (o.unsupportedOperator target target) := by
  unfold Answers at hanswers
  cases hanswer : o.op.answer? target with
  | some kind =>
    rw [hanswer] at hanswers
    obtain ⟨v, rfl, rfl⟩ := hanswers
    exact gives_value h v
  | none =>
    rw [hanswer] at hanswers
    simp only [hanswers, Except.map]

theorem Divides.rows {o : Operation} {h : Heap} {target : Kind} {x y : Int}
    {result : Except RuntimeError Value} (hdivides : o.Divides target x y result) :
    if y = 0 then result.map Outcome.value = .error o.divisionByZero
    else if x = target.least ∧ y = -1 then result.map Outcome.value = .error o.overflow
    else Gives h (result.map Outcome.value) target := by
  unfold Divides at hdivides
  by_cases hy : y = 0
  · rw [if_pos hy] at hdivides ⊢
    rw [hdivides]
    rfl
  · rw [if_neg hy] at hdivides ⊢
    by_cases hx : x = target.least ∧ y = -1
    · rw [if_pos hx] at hdivides ⊢
      rw [hdivides]
      rfl
    · rw [if_neg hx] at hdivides ⊢
      obtain ⟨v, rfl, rfl⟩ := hdivides
      exact gives_value h v

theorem promoted_ladderRows (o : Operation) (h : Heap) (pattern : String) {l r : Value}
    {target : Kind} (hcomp : o.Computes l r) (hmeet : MeetAt target l r) :
    o.LadderRows h target l r ((o.promoted (.standard h pattern) h l r).map .value) := by
  obtain ⟨hop, htext, _⟩ := hcomp
  refine ⟨?_, ?_, ?_, ?_⟩
  · intro hl
    rw [o.promoted_left_off h pattern hmeet (fun heq => htext (.inl heq)) hl]
    rfl
  · intro hl hr
    rw [o.promoted_right_off h pattern hmeet (fun heq => htext (.inr heq)) hl hr]
    rfl
  · intro hl hr hdiv
    obtain ⟨x, y, hx, hy, hdivides⟩ := o.promoted_divides h pattern hmeet hl hr hdiv
    exact ⟨x, y, hx, hy, hdivides.rows⟩
  · intro hl hr hdiv
    exact (o.promoted_answers h pattern hop hmeet hl hr hdiv).rows

/-! ## The law -/

theorem apply_append (o : Operation) (c : Coercions) (h : Heap) (l r : Value)
    (hop : o.op = .append) : if (h.sequence? l).isSome then Gives h (o.apply c h l r) .list
      else o.apply c h l r = .error (o.unsupportedOperator l.kind r.kind) := by
  rw [apply_eq, steps_of_extended (.inl hop)]
  simp only [hop, extended?]
  cases h.sequence? l with
  | none => rfl
  | some items => exact ⟨.newList (items ++ [r]), rfl, rfl⟩

theorem apply_prepend (o : Operation) (c : Coercions) (h : Heap) (l r : Value)
    (hop : o.op = .prepend) : if (h.sequence? r).isSome then Gives h (o.apply c h l r) .list
      else o.apply c h l r = .error (o.unsupportedOperator l.kind r.kind) := by
  rw [apply_eq, steps_of_extended (.inr hop)]
  simp only [hop, extended?]
  cases h.sequence? r with
  | none => rfl
  | some items => exact ⟨.newList (l :: items), rfl, rfl⟩

/-- Under a standard host every operator does on every two values what the table says. -/
theorem every_operation_keeps_to_its_table (o : Operation) (h : Heap) (pattern : String)
    (l r : Value) : o.OutcomeTable h l r (o.apply (.standard h pattern) h l r) := by
  refine ⟨?_, ?_, o.apply_append _ h l r, o.apply_prepend _ h l r, ?_, ?_, ?_, ?_⟩
  · intro hop
    simp only [apply_eq, steps, hop, Reported.result_after, Reported.result_pure]
  · rintro (hop | hop)
    · simp only [apply_eq, steps, hop]
      exact gives_value h _
    · simp only [apply_eq, steps, hop]
      exact gives_value h _
  · intro hop htext
    rw [o.apply_of_isCalculation _ h hop, o.calculate_of_hasText _ h htext]
    exact o.onStrings_textRows h pattern l r
  · intro htext hnull
    have hop : o.op.isCalculation = true := by
      rcases hnull.1 with hop | hop <;> rw [hop] <;> rfl
    obtain ⟨b, hb⟩ := o.calculate_of_asksForNull (.standard h pattern) h htext hnull
    rw [o.apply_of_isCalculation _ h hop, hb]
    exact gives_value h _
  · intro hcomp hl hr
    rw [o.apply_of_isCalculation _ h hcomp.1, o.calculate_of_computes _ h hcomp,
      o.promoted_of_none _ h (Kind.target?_eq_none hl hr)]
    exact o.offLadder_rows h l r
  · intro hcomp hpos
    obtain ⟨target, ht, hmax⟩ := Kind.exists_rung hpos
    refine ⟨target, ⟨ht, hmax⟩, ?_⟩
    rw [o.apply_of_isCalculation _ h hcomp.1, o.calculate_of_computes _ h hcomp]
    exact o.promoted_ladderRows h pattern hcomp ⟨ht, hmax⟩

end Operation

end TemplateExpr
