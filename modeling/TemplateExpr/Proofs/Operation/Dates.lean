-- Sums and differences of dates. Dates are moments and spans of time are what lies between
-- them, so everything follows from the sums of their nanoseconds, and a sum fails exactly
-- where no calendar shows the moment that it would be.
import TemplateExpr.Proofs.Calendar.Moment
import TemplateExpr.Proofs.Operation.Comparison

namespace TemplateExpr

open Calendar (Moment TimeSpan Shown)

namespace Operation

variable (c : Coercions) (h : Heap)

/-! ## Dates -/

/-- Dates and spans of time are off the ladder, so no host has a say in what is done to them. -/
theorem apply_date (o : Operation) (hop : o.op.isCalculation = true) (a : Moment) {right : Value}
    (hright : right.kind = .date ∨ right.kind = .timeSpan) :
    o.apply c h (.date a) right = (o.offLadder h (.date a) right).map .value := by
  have hleft : (Value.date a).kind = .date := rfl
  have hcomputes : o.Computes (.date a) right := by
    refine ⟨hop, ?_, ?_⟩ <;> rcases hright with hright | hright <;>
      simp [HasText, AsksForNull, hleft, hright]
  have hheight : right.kind.height = 0 := by
    rcases hright with hright | hright <;> rw [hright] <;> rfl
  rw [o.apply_of_isCalculation c h hop, o.calculate_of_computes c h hcomputes,
    o.promoted_of_none c h (Kind.target?_eq_none rfl hheight)]

theorem yields_subtract (a b : Moment) :
    Yields c h .subtract (.date a) (.date b) (.timeSpan (a.sub b)) := by
  intro o hop
  rw [o.apply_date c h (by rw [hop]; rfl) a (.inl rfl), offLadder, onDates, hop]
  rfl

theorem yields_comparison {op : BinaryOp} (hop : op.isComparison = true) (a b : Moment) :
    Yields c h op (.date a) (.date b) (.bool (op.relates a.nanos b.nanos)) := by
  rintro o rfl
  have htells := o.offLadder_tells h (.date a) (.date b) hop
  rw [o.apply_date c h (BinaryOp.isCalculation_of_isComparison hop) a (.inl rfl)]
  rwa [Value.dates, Comparison.answer?_of_compare hop] at htells

theorem yields_add {a m : Moment} {d : TimeSpan} (hm : m.nanos = a.nanos + d.nanos) :
    Yields c h .add (.date a) (.timeSpan d) (.date m) := by
  intro o hop
  rw [o.apply_date c h (by rw [hop]; rfl) a (.inr rfl), offLadder, onDateAndTimeSpan, hop]
  simp only [Moment.add?, Moment.ofNanos?_eq_some_iff.2 hm]
  rfl

theorem overflows_add {a : Moment} {d : TimeSpan} (hout : ¬ Shown (a.nanos + d.nanos)) :
    Overflows c h .add (.date a) (.timeSpan d) := by
  intro o hop
  rw [o.apply_date c h (by rw [hop]; rfl) a (.inr rfl), offLadder, onDateAndTimeSpan, hop]
  simp only [Moment.add?, Moment.ofNanos?_eq_none hout]
  rfl

/-- A sum of a date and a span of time is the one exact moment. -/
theorem nanos_of_yields_add {a m : Moment} {d : TimeSpan}
    (hyields : Yields c h .add (.date a) (.timeSpan d) (.date m)) :
    m.nanos = a.nanos + d.nanos := by
  by_cases hshown : Shown (a.nanos + d.nanos)
  · obtain ⟨m', hm'⟩ := Moment.exists_ofNanos? hshown
    have hnanos := Moment.ofNanos?_eq_some_iff.1 hm'
    have hsame := hyields.unique (yields_add c h hnanos)
    cases hsame
    exact hnanos
  · exact absurd (overflows_add c h hshown) hyields.not_overflows

theorem nanos_sub (a b : Moment) : (a.sub b).nanos = a.nanos - b.nanos := rfl

theorem timeSpan_eq_sub {a m : Moment} {d : TimeSpan} (h : m.nanos = a.nanos + d.nanos) :
    m.sub a = d := by
  cases d
  simp only [Moment.sub, TimeSpan.mk.injEq] at h ⊢
  omega

/-! ## The law -/

/-- The laws of sums and differences of dates. -/
structure DateArithmetic : Prop where
  /-- The time between two dates leads from the one to the other, and its sign tells which of them
  comes first. -/
  difference : ∀ a b : Moment, ∃ d : TimeSpan,
    Yields c h .subtract (.date a) (.date b) (.timeSpan d) ∧
    Yields c h .add (.date b) (.timeSpan d) (.date a) ∧
    Yields c h .less (.date a) (.date b) (.bool (d.nanos < 0)) ∧
    Yields c h .equal (.date a) (.date b) (.bool (d.nanos = 0)) ∧
    Yields c h .greater (.date a) (.date b) (.bool (0 < d.nanos))
  /-- A sum is the exact moment, and fails only if no calendar shows that. -/
  sum : ∀ (a : Moment) (d : TimeSpan),
    if Shown (a.nanos + d.nanos) then
      ∃ m : Moment, m.nanos = a.nanos + d.nanos ∧
        Yields c h .add (.date a) (.timeSpan d) (.date m) ∧
        Yields c h .subtract (.date m) (.date a) (.timeSpan d)
    else Overflows c h .add (.date a) (.timeSpan d)
  /-- Two spans of time may be added in either order, as long as each of them may be added first. -/
  regrouped : ∀ (a m n : Moment) (d e : TimeSpan),
    Yields c h .add (.date a) (.timeSpan d) (.date m) →
    Yields c h .add (.date a) (.timeSpan e) (.date n) →
    (∃ r : Moment, Yields c h .add (.date m) (.timeSpan e) (.date r) ∧
        Yields c h .add (.date n) (.timeSpan d) (.date r)) ∨
      (Overflows c h .add (.date m) (.timeSpan e) ∧ Overflows c h .add (.date n) (.timeSpan d))

/-- Dates and spans of time add up, for every host: differences lead back, sums are exact where
there is a date for them, and spans of time may be added in any order. -/
theorem dates_and_spans_of_time_add_up : DateArithmetic c h := by
  refine ⟨?_, ?_, ?_⟩
  · intro a b
    have hless : a.nanos < b.nanos ↔ (a.sub b).nanos < 0 := by
      rw [nanos_sub]
      omega
    have hequal : a.nanos = b.nanos ↔ (a.sub b).nanos = 0 := by
      rw [nanos_sub]
      omega
    have hgreater : a.nanos > b.nanos ↔ 0 < (a.sub b).nanos := by
      rw [nanos_sub]
      omega
    refine ⟨a.sub b, yields_subtract c h a b, yields_add c h ?_, ?_, ?_, ?_⟩
    · rw [nanos_sub]
      omega
    · rw [← decide_eq_decide.2 hless]
      exact yields_comparison c h rfl a b
    · rw [← decide_eq_decide.2 hequal]
      exact yields_comparison c h rfl a b
    · rw [← decide_eq_decide.2 hgreater]
      exact yields_comparison c h rfl a b
  · intro a d
    split
    · rename_i hshown
      obtain ⟨m, hm⟩ := Moment.exists_ofNanos? hshown
      have hnanos := Moment.ofNanos?_eq_some_iff.1 hm
      refine ⟨m, hnanos, yields_add c h hnanos, ?_⟩
      rw [← timeSpan_eq_sub hnanos]
      exact yields_subtract c h m a
    · rename_i hshown
      exact overflows_add c h hshown
  · intro a m n d e hm hn
    have hmnanos := nanos_of_yields_add c h hm
    have hnnanos := nanos_of_yields_add c h hn
    have hsum : m.nanos + e.nanos = n.nanos + d.nanos := by omega
    by_cases hshown : Shown (m.nanos + e.nanos)
    · obtain ⟨r, hr⟩ := Moment.exists_ofNanos? hshown
      have hnanos := Moment.ofNanos?_eq_some_iff.1 hr
      exact .inl ⟨r, yields_add c h hnanos, yields_add c h (hnanos.trans hsum)⟩
    · refine .inr ⟨overflows_add c h hshown, overflows_add c h ?_⟩
      rwa [← hsum]

end Operation

end TemplateExpr
