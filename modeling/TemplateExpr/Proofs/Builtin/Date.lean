-- The builtin function that makes a date of its parts. It takes exactly the parts that a
-- calendar and a clock show in the years that there are; its dates come in the order of
-- their parts and are as far apart as the days and the seconds between them say.
import TemplateExpr.Builtin
import TemplateExpr.Proofs.Operation.Dates

namespace TemplateExpr

open Calendar (Civil Moment TimeSpan)

/-! ## Months -/

namespace Calendar

/-- The days of a month: 30 in four of them, in February 28 or, in a leap year, 29, and 31 in the
others. A year is a leap year if four divides it, and a hundred does not unless four hundred does
too. -/
def daysIn (year month : Int) : Int :=
  if month = 2 then if 4 ∣ year ∧ (¬ 100 ∣ year ∨ 400 ∣ year) then 29 else 28
  else if month = 4 ∨ month = 6 ∨ month = 9 ∨ month = 11 then 30
  else 31

theorem monthLength_eq_daysIn (year : Int) {month : Nat} (hfirst : 1 ≤ month)
    (hlast : month ≤ 12) : (monthLength year month : Int) = daysIn year month := by
  have hleap : (if leap year then 29 else 28 : Nat) =
      (if 4 ∣ year ∧ (¬ 100 ∣ year ∨ 400 ∣ year) then 29 else 28 : Nat) := by
    simp only [leap_iff, Int.dvd_iff_emod_eq_zero, ne_eq]
  rw [monthLength, if_neg (by omega), monthLengths, hleap, daysIn]
  obtain ⟨m, rfl⟩ : ∃ m, month = m + 1 := ⟨month - 1, by omega⟩
  have hm : m < 12 := by omega
  interval_cases m <;> simp

example : daysIn 1900 2 = 28 ∧ daysIn 2000 2 = 29 ∧ daysIn (-4) 2 = 29 := by decide

end Calendar

namespace Builtin

/-! ## Parts -/

/-- What a date is made of. -/
structure Parts where
  year : Int
  month : Int
  day : Int
  hour : Int
  minute : Int
  second : Int

namespace Parts

/-- These integers as the parts of a date, with zero for those that are missing. -/
def ofInts (ns : List Int32) : Parts :=
  ⟨(ns.getD 0 0).toInt, (ns.getD 1 0).toInt, (ns.getD 2 0).toInt, (ns.getD 3 0).toInt,
    (ns.getD 4 0).toInt, (ns.getD 5 0).toInt⟩

/-- A calendar and a clock can show the parts. -/
structure Valid (p : Parts) : Prop where
  year : -262143 ≤ p.year ∧ p.year ≤ 262142
  month : 1 ≤ p.month ∧ p.month ≤ 12
  day : 1 ≤ p.day ∧ p.day ≤ Calendar.daysIn p.year p.month
  hour : 0 ≤ p.hour ∧ p.hour ≤ 23
  minute : 0 ≤ p.minute ∧ p.minute ≤ 59
  second : 0 ≤ p.second ∧ p.second ≤ 59

def toList (p : Parts) : List Int := [p.year, p.month, p.day, p.hour, p.minute, p.second]

/-- The day, where there is one. -/
def date (p : Parts) : Calendar.Date := ⟨p.year, p.month.toNat, p.day.toNat⟩

/-- Seconds since the start of the day. -/
def clock (p : Parts) : Int := (p.hour * 60 + p.minute) * 60 + p.second

def civil (p : Parts) : Civil := ⟨p.date, p.hour.toNat, p.minute.toNat, p.second.toNat, 0⟩

theorem valid_iff (p : Parts) : p.Valid ↔
    (0 ≤ p.month ∧ 0 ≤ p.day ∧ 0 ≤ p.hour ∧ 0 ≤ p.minute ∧ 0 ≤ p.second) ∧ p.civil.Valid ∧
      p.civil.InYears := by
  constructor
  · rintro ⟨hyear, hmonth, hday, hhour, hminute, hsecond⟩
    have hlength := Calendar.monthLength_eq_daysIn p.year (show 1 ≤ p.month.toNat by omega)
      (by omega)
    rw [Int.toNat_of_nonneg (by omega)] at hlength
    refine ⟨by omega, ⟨⟨?_, ?_⟩, ?_, ?_, ?_, ?_⟩, hyear⟩
    all_goals simp only [civil, date]; omega
  · rintro ⟨hsigns, ⟨hdate, hhour, hminute, hsecond, _⟩, hyears⟩
    obtain ⟨year, m, r, heq, hr⟩ := hdate.exists_mk
    have hm := Calendar.lt_twelve hr
    simp only [civil, date, Calendar.Date.mk.injEq] at heq hhour hminute hsecond
    obtain ⟨hday, hlength⟩ := hdate
    simp only [civil, date] at hday hlength
    rw [← Int.ofNat_le, Calendar.monthLength_eq_daysIn p.year (by omega) (by omega),
      Int.toNat_of_nonneg hsigns.1] at hlength
    exact ⟨hyears, by omega, by omega, by omega, by omega, by omega⟩

theorem Valid.parts_civil {p : Parts} (h : p.Valid) : p.civil.parts = p.toList ++ [0] := by
  obtain ⟨_, hmonth, hday, hhour, hminute, hsecond⟩ := h
  simp only [Civil.parts, civil, date, toList, List.cons_append, List.nil_append]
  rw [Int.toNat_of_nonneg (by omega), Int.toNat_of_nonneg (by omega),
    Int.toNat_of_nonneg (by omega), Int.toNat_of_nonneg (by omega),
    Int.toNat_of_nonneg (by omega)]
  rfl

theorem Valid.toList_lt_iff {p q : Parts} (hp : p.Valid) (hq : q.Valid) :
    p.civil.nanos < q.civil.nanos ↔ p.toList < q.toList := by
  rw [Civil.nanos_lt_iff (p.valid_iff.1 hp).2.1 (q.valid_iff.1 hq).2.1, hp.parts_civil,
    hq.parts_civil]
  simp [toList, List.cons_lt_cons_iff]

theorem Valid.nanos_eq {p : Parts} (h : p.Valid) :
    p.civil.nanos = (p.date.number * 86400 + p.clock) * 1000000000 := by
  obtain ⟨_, _, _, hhour, hminute, hsecond⟩ := h
  simp only [Civil.nanos_eq, Civil.clock, civil, clock]
  omega

/-- The moment with these parts, if there is one. -/
def moment? (p : Parts) : Option Moment :=
  Builtin.moment? p.year p.month p.day p.hour p.minute p.second

theorem moment?_eq_some_iff {p : Parts} {m : Moment} :
    p.moment? = some m ↔ p.Valid ∧ m.civil = p.civil := by
  rw [valid_iff, moment?, Builtin.moment?]
  split
  · rename_i hsigns
    change Moment.ofCivil? p.civil = some m ↔ _
    rw [Moment.ofCivil?_eq_some_iff]
    tauto
  · rename_i hsigns
    simp [hsigns]

theorem Valid.exists_moment? {p : Parts} (h : p.Valid) :
    ∃ m, p.moment? = some m ∧ m.civil = p.civil := by
  obtain ⟨_, hvalid, hyears⟩ := p.valid_iff.1 h
  obtain ⟨m, hm⟩ := Moment.exists_ofCivil? hvalid hyears
  have hcivil := (Moment.ofCivil?_eq_some_iff.1 hm).2.2
  exact ⟨m, moment?_eq_some_iff.2 ⟨h, hcivil⟩, hcivil⟩

theorem moment?_eq_none {p : Parts} (h : ¬ p.Valid) : p.moment? = none := by
  cases hm : p.moment? with
  | none => rfl
  | some m => exact absurd (moment?_eq_some_iff.1 hm).1 h

end Parts

/-! ## Arguments -/

/-- The arguments convert to these integers, one by one. -/
def Reads : List Value → List Int32 → Prop :=
  List.Forall₂ fun v n => v.convert? .int = some (.int n)

theorem convert?_int_eq (v : Value) : v.convert? .int = v.toInt32?.map .int := by
  cases v with
  | int n => simp [Value.convert?, Value.kind, Value.toInt32?, Value.word?, Value.integer?,
      int32?_toInt]
  | _ => rfl

variable (h : Heap) (span : Span)

theorem intArgument_of_some {v : Value} {n : Int32} (hv : v.convert? .int = some (.int n)) :
    intArgument h span v = .ok n := by
  rw [convert?_int_eq, Option.map_eq_some_iff] at hv
  obtain ⟨n', hn', heq⟩ := hv
  cases heq
  rw [intArgument, hn']

theorem intArgument_of_none {v : Value} (hv : v.convert? .int = none) :
    intArgument h span v = .error (h.conversionFailure v .int span) := by
  rw [convert?_int_eq, Option.map_eq_none_iff] at hv
  rw [intArgument, hv]

theorem mapM_of_reads {args : List Value} {ns : List Int32} (hreads : Reads args ns) :
    args.mapM (intArgument h span) = .ok ns := by
  induction hreads with
  | nil => rfl
  | cons hv _ ih =>
    rw [List.mapM_cons, intArgument_of_some h span hv, ih]
    rfl

/-- The first argument that does not convert decides. -/
theorem mapM_of_none {before after : List Value} {v : Value} {ns : List Int32}
    (hbefore : Reads before ns) (hv : v.convert? .int = none) :
    (before ++ v :: after).mapM (intArgument h span) =
      .error (h.conversionFailure v .int span) := by
  induction hbefore with
  | nil =>
    rw [List.nil_append, List.mapM_cons, intArgument_of_none h span hv]
    rfl
  | cons hu _ ih =>
    rw [List.cons_append, List.mapM_cons, intArgument_of_some h span hu, ih]
    rfl

/-! ## Calls -/

/-- As many arguments as a date may have. -/
def Counted (args : List Value) : Prop := 3 ≤ args.length ∧ args.length ≤ 6

theorem makeDate_of_not_counted {args : List Value} (hcount : ¬ Counted args) :
    makeDate h args span = .error ⟨.argumentCount "date" "3 to 6" args.length, span⟩ := by
  have hrefused : checkCount "date" args.length 3 6 span =
    .error ⟨.argumentCount "date" "3 to 6" args.length, span⟩ := if_neg hcount
  rw [makeDate, hrefused]
  rfl

theorem makeDate_of_none {before after : List Value} {v : Value} {ns : List Int32}
    (hcount : Counted (before ++ v :: after)) (hbefore : Reads before ns)
    (hv : v.convert? .int = none) :
    makeDate h (before ++ v :: after) span = .error (h.conversionFailure v .int span) := by
  have htaken : checkCount "date" (before ++ v :: after).length 3 6 span = .ok () := if_pos hcount
  rw [makeDate, htaken, mapM_of_none h span hbefore hv]
  rfl

section

variable {args : List Value} {ns : List Int32}

theorem makeDate_of_valid (hcount : Counted args) (hreads : Reads args ns)
    (hvalid : (Parts.ofInts ns).Valid) :
    ∃ m : Moment, makeDate h args span = .ok (.date m) ∧ m.civil = (Parts.ofInts ns).civil := by
  have htaken : checkCount "date" args.length 3 6 span = .ok () := if_pos hcount
  have hmonth : checkPart "month" (Parts.ofInts ns).month span = .ok () :=
    if_neg (by have := hvalid.month; omega)
  have hday : checkPart "day" (Parts.ofInts ns).day span = .ok () :=
    if_neg (by have := hvalid.day; omega)
  obtain ⟨m, hm, hcivil⟩ := hvalid.exists_moment?
  refine ⟨m, ?_, hcivil⟩
  unfold Parts.moment? at hm
  simp only [Parts.ofInts] at hmonth hday hm
  rw [makeDate, htaken, mapM_of_reads h span hreads]
  simp only [bind, Except.bind, hmonth, hday, hm]

/-- Parts that no calendar shows are refused at a sign, or in the end. -/
theorem makeDate_of_not_valid (hcount : Counted args) (hreads : Reads args ns)
    (hvalid : ¬ (Parts.ofInts ns).Valid) :
    ∃ details, makeDate h args span = .error ⟨.invalidArgument details, span⟩ := by
  have htaken : checkCount "date" args.length 3 6 span = .ok () := if_pos hcount
  have hnone := Parts.moment?_eq_none hvalid
  simp only [Parts.moment?, Parts.ofInts] at hnone
  rw [makeDate, htaken, mapM_of_reads h span hreads]
  simp only [bind, Except.bind, checkPart, hnone]
  by_cases hmonth : (ns.getD 1 0).toInt < 0
  · rw [if_pos hmonth]
    exact ⟨_, rfl⟩
  · rw [if_neg hmonth]
    by_cases hday : (ns.getD 2 0).toInt < 0
    · rw [if_pos hday]
      exact ⟨_, rfl⟩
    · rw [if_neg hday]
      exact ⟨_, rfl⟩

end

/-! ## The law -/

/-- Some call with these arguments gives the date, and these are its parts. -/
def Makes (args : List Value) (p : Parts) (m : Moment) : Prop :=
  ∃ ns h span, Reads args ns ∧ Parts.ofInts ns = p ∧ date.call h args span = .ok (.date m)

theorem Makes.spec {args : List Value} {p : Parts} {m : Moment} (hmakes : Makes args p m) :
    p.Valid ∧ m.civil = p.civil := by
  obtain ⟨ns, h, span, hreads, rfl, hcall⟩ := hmakes
  change makeDate h args span = .ok (.date m) at hcall
  by_cases hcount : Counted args
  · by_cases hvalid : (Parts.ofInts ns).Valid
    · obtain ⟨m', hmade, hcivil⟩ := makeDate_of_valid h span hcount hreads hvalid
      rw [hcall] at hmade
      cases hmade
      exact ⟨hvalid, hcivil⟩
    · obtain ⟨_, hrefused⟩ := makeDate_of_not_valid h span hcount hreads hvalid
      rw [hcall] at hrefused
      cases hrefused
  · rw [makeDate_of_not_counted h span hcount] at hcall
    cases hcall

/-- What the builtin function for dates does with its arguments. -/
structure MakesDates : Prop where
  count : ∀ h span args, ¬ Counted args →
    date.call h args span = .error ⟨.argumentCount "date" "3 to 6" args.length, span⟩
  /-- The first argument that does not convert is the one that is reported. -/
  conversion : ∀ h span before v after ns, Counted (before ++ v :: after) → Reads before ns →
    v.convert? .int = none →
      date.call h (before ++ v :: after) span = .error (h.conversionFailure v .int span)
  made : ∀ h span args ns, Counted args → Reads args ns → (Parts.ofInts ns).Valid →
    ∃ m, date.call h args span = .ok (.date m) ∧ m.civil.parts = (Parts.ofInts ns).toList ++ [0]
  refused : ∀ h span args ns, Counted args → Reads args ns → ¬ (Parts.ofInts ns).Valid →
    ∃ details, date.call h args span = .error ⟨.invalidArgument details, span⟩
  /-- The first parts that differ decide which date is the earlier one. -/
  order : ∀ args args' p q m n, Makes args p m → Makes args' q n →
    ∀ c h, Operation.Yields c h .less (.date m) (.date n) (.bool (p.toList < q.toList))
  /-- Between two dates there are so many days, each of 86400 seconds. -/
  difference : ∀ args args' p q m n, Makes args p m → Makes args' q n →
    ∃ (days : Int) (d : TimeSpan), (∀ k, q.date.Leads p.date k ↔ k = days) ∧
      d.nanos = (days * 86400 + (p.clock - q.clock)) * 1000000000 ∧
      ∀ c h, Operation.Yields c h .subtract (.date m) (.date n) (.timeSpan d)

/-- The builtin function for dates takes exactly the parts of a day and a time of day in the years
that there are. What it makes has these parts, comes in their order, and is as far from another date
as the calendar says. -/
theorem dates_are_made_of_what_a_calendar_shows : MakesDates := by
  refine ⟨?_, ?_, ?_, ?_, ?_, ?_⟩
  · intro h span args hcount
    exact makeDate_of_not_counted h span hcount
  · intro h span before v after ns hcount hbefore hv
    exact makeDate_of_none h span hcount hbefore hv
  · intro h span args ns hcount hreads hvalid
    obtain ⟨m, hmade, hcivil⟩ := makeDate_of_valid h span hcount hreads hvalid
    exact ⟨m, hmade, by rw [hcivil, hvalid.parts_civil]⟩
  · intro h span args ns hcount hreads hvalid
    exact makeDate_of_not_valid h span hcount hreads hvalid
  · intro args args' p q m n hm hn c h
    obtain ⟨hp, hmcivil⟩ := hm.spec
    obtain ⟨hq, hncivil⟩ := hn.spec
    have hlt : m.nanos < n.nanos ↔ p.toList < q.toList := by
      rw [← m.nanos_civil, ← n.nanos_civil, hmcivil, hncivil, hp.toList_lt_iff hq]
    rw [← decide_eq_decide.2 hlt]
    exact Operation.yields_comparison c h rfl m n
  · intro args args' p q m n hm hn
    obtain ⟨hp, hmcivil⟩ := hm.spec
    obtain ⟨hq, hncivil⟩ := hn.spec
    have hpdate : p.date.Valid := (p.valid_iff.1 hp).2.1.1
    have hqdate : q.date.Valid := (q.valid_iff.1 hq).2.1.1
    refine ⟨p.date.number - q.date.number, m.sub n, Calendar.Date.leads_iff hqdate hpdate, ?_,
      fun c h => Operation.yields_subtract c h m n⟩
    rw [Operation.nanos_sub, ← m.nanos_civil, ← n.nanos_civil, hmcivil, hncivil, hp.nanos_eq,
      hq.nanos_eq]
    omega

end Builtin

end TemplateExpr
