-- Moments and what a calendar and a clock show at them. The two tell each other, the
-- order of moments is that of what is shown, part by part, and the bounds of moments are
-- exactly the first and the last moment of the years that there are.
import TemplateExpr.Calendar.Moment
import TemplateExpr.Proofs.Calendar.Date

namespace TemplateExpr

namespace Calendar

/-! ## Calendars and clocks -/

namespace Civil

/-- Nanoseconds since the start of the day. -/
def clock (c : Civil) : Nat := ((c.hour * 60 + c.minute) * 60 + c.second) * 1000000000 + c.nano

theorem nanos_eq (c : Civil) : c.nanos = c.date.number * 86400000000000 + c.clock := rfl

theorem clock_lt {c : Civil} (h : c.Valid) : c.clock < 86400000000000 := by
  obtain ⟨_, hhour, hminute, hsecond, hnano⟩ := h
  unfold clock
  omega

theorem ofNanos_nanos {c : Civil} (h : c.Valid) : ofNanos c.nanos = c := by
  have hclock := clock_lt h
  obtain ⟨hdate, hhour, hminute, hsecond, hnano⟩ := h
  have hday : c.nanos / 86400000000000 = c.date.number := by
    rw [nanos_eq]
    omega
  have hinDay : (c.nanos % 86400000000000).toNat = c.clock := by
    rw [nanos_eq]
    omega
  unfold ofNanos
  simp only [hday, hinDay, Date.ofNumber_number hdate]
  obtain ⟨date, hour, minute, second, nano⟩ := c
  simp only [clock, mk.injEq, true_and] at *
  omega

theorem valid_ofNanos (n : Int) : (ofNanos n).Valid := by
  refine ⟨Date.valid_ofNumber _, ?_, ?_, ?_, ?_⟩ <;> (simp only [ofNanos]; omega)

theorem nanos_ofNanos (n : Int) : (ofNanos n).nanos = n := by
  simp only [nanos_eq, clock, ofNanos, Date.number_ofNumber]
  omega

/-! ## Part by part -/

/-- What is shown, from the year down to the nanosecond. -/
def parts (c : Civil) : List Int :=
  [c.date.year, c.date.month, c.date.day, c.hour, c.minute, c.second, c.nano]

theorem clock_lt_iff {c d : Civil} (hc : c.Valid) (hd : d.Valid) : c.clock < d.clock ↔
    c.hour < d.hour ∨ c.hour = d.hour ∧ (c.minute < d.minute ∨ c.minute = d.minute ∧
      (c.second < d.second ∨ c.second = d.second ∧ c.nano < d.nano)) := by
  obtain ⟨_, _, hcminute, hcsecond, hcnano⟩ := hc
  obtain ⟨_, _, hdminute, hdsecond, hdnano⟩ := hd
  unfold clock
  omega

/-- Moments come in the order of what is shown, the greater parts first. -/
theorem nanos_lt_iff {c d : Civil} (hc : c.Valid) (hd : d.Valid) :
    c.nanos < d.nanos ↔ c.parts < d.parts := by
  have hcday := clock_lt hc
  have hdday := clock_lt hd
  have hsplit : c.nanos < d.nanos ↔ c.date.number < d.date.number ∨
      c.date.number = d.date.number ∧ c.clock < d.clock := by
    rw [nanos_eq, nanos_eq]
    omega
  have hsame : c.date = d.date ↔
      c.date.year = d.date.year ∧ c.date.month = d.date.month ∧ c.date.day = d.date.day := by
    cases c.date
    cases d.date
    simp
  rw [hsplit, Date.number_lt_iff hc.1 hd.1, Date.number_inj hc.1 hd.1, hsame,
    clock_lt_iff hc hd]
  simp only [parts, List.cons_lt_cons_iff, List.lt_irrefl, Int.ofNat_lt, Int.ofNat_inj]
  grind

/-! ## The years that there are -/

def InYears (c : Civil) : Prop := -262143 ≤ c.date.year ∧ c.date.year ≤ 262142

theorem inRange_iff {c : Civil} (h : c.Valid) :
    (-8272465632000000000000 ≤ c.nanos ∧ c.nanos ≤ 8272402473599999999999) ↔ c.InYears := by
  have hfirst := Date.number_lt_daysBefore_iff h.1 (-262143)
  have hlast := Date.number_lt_daysBefore_iff h.1 262143
  have hstart : daysBefore (-262143) = -95746130 := rfl
  have hstop : daysBefore 262143 = 95745399 := rfl
  have hclock := clock_lt h
  rw [hstart] at hfirst
  rw [hstop] at hlast
  rw [nanos_eq, InYears]
  omega

end Civil

/-- A number of nanoseconds with which a calendar shows one of the years that there are. -/
def Shown (nanos : Int) : Prop := ∃ c : Civil, c.Valid ∧ c.InYears ∧ c.nanos = nanos

theorem shown_iff {n : Int} :
    Shown n ↔ -8272465632000000000000 ≤ n ∧ n ≤ 8272402473599999999999 := by
  constructor
  · rintro ⟨c, hvalid, hyears, rfl⟩
    exact (Civil.inRange_iff hvalid).2 hyears
  · intro h
    have hvalid := Civil.valid_ofNanos n
    rw [← Civil.nanos_ofNanos n] at h
    exact ⟨_, hvalid, (Civil.inRange_iff hvalid).1 h, Civil.nanos_ofNanos n⟩

instance (n : Int) : Decidable (Shown n) := decidable_of_iff _ shown_iff.symm

example : Shown 8272402473599999999999 ∧ ¬ Shown 8272402473600000000000 := by decide

/-! ## Moments -/

namespace Moment

theorem nanos_inj {a b : Moment} : a.nanos = b.nanos ↔ a = b := by
  cases a
  cases b
  simp

theorem nanos_civil (m : Moment) : m.civil.nanos = m.nanos := Civil.nanos_ofNanos m.nanos

theorem ofNanos?_eq_some_iff {n : Int} {m : Moment} : ofNanos? n = some m ↔ m.nanos = n := by
  constructor
  · intro h
    unfold ofNanos? at h
    split at h
    · cases h
      rfl
    · cases h
  · rintro rfl
    exact ofNanos?_nanos m

/-- There is a moment exactly where a calendar shows one. -/
theorem exists_ofNanos? {n : Int} (h : Shown n) : ∃ m, ofNanos? n = some m :=
  ⟨_, dif_pos (shown_iff.1 h)⟩

theorem ofNanos?_eq_none {n : Int} (h : ¬ Shown n) : ofNanos? n = none :=
  dif_neg (mt shown_iff.2 h)

theorem civil_of_nanos {c : Civil} (h : c.Valid) {m : Moment} (hm : m.nanos = c.nanos) :
    m.civil = c := by
  rw [civil, hm, Civil.ofNanos_nanos h]

/-- What a calendar can show in the years that there are is shown at a moment, and nothing else
is. -/
theorem ofCivil?_eq_some_iff {c : Civil} {m : Moment} :
    ofCivil? c = some m ↔ c.Valid ∧ c.InYears ∧ m.civil = c := by
  unfold ofCivil?
  by_cases hvalid : c.Valid
  · rw [if_pos hvalid, ofNanos?_eq_some_iff]
    constructor
    · intro hm
      refine ⟨hvalid, (Civil.inRange_iff hvalid).1 ?_, civil_of_nanos hvalid hm⟩
      rw [← hm]
      exact m.inRange
    · rintro ⟨_, _, rfl⟩
      exact m.nanos_civil.symm
  · rw [if_neg hvalid]
    constructor
    · intro h
      cases h
    · rintro ⟨h, _⟩
      exact absurd h hvalid

theorem exists_ofCivil? {c : Civil} (hvalid : c.Valid) (hyears : c.InYears) :
    ∃ m, ofCivil? c = some m := by
  rw [ofCivil?, if_pos hvalid]
  exact exists_ofNanos? ⟨c, hvalid, hyears, rfl⟩

end Moment

end Calendar

end TemplateExpr
