-- Days and their numbers. Years and months are blocks of days laid end to end, so each
-- number falls into one block of either; a day and its number tell each other, and the
-- numbers follow the calendar: the next day has the next number.
import Mathlib
import TemplateExpr.Calendar.Date

namespace TemplateExpr

namespace Calendar

/-! ## Blocks -/

theorem sum_take_succ (ns : List Nat) (i : Nat) :
    (ns.take (i + 1)).sum = (ns.take i).sum + ns.getD i 0 := by
  rw [List.take_add_one, List.sum_append, List.getD_eq_getElem?_getD]
  cases ns[i]? <;> simp

theorem sum_take_add_le {ns : List Nat} {i j : Nat} (h : i < j) :
    (ns.take i).sum + ns.getD i 0 ≤ (ns.take j).sum := by
  rw [← sum_take_succ]
  exact List.monotone_sum_take ns h

theorem sum_take_add_le_sum (ns : List Nat) (i : Nat) :
    (ns.take i).sum + ns.getD i 0 ≤ ns.sum := by
  have hle := List.monotone_sum_take ns (Nat.le_max_left (i + 1) ns.length)
  dsimp only at hle
  rwa [sum_take_succ, List.take_of_length_le (Nat.le_max_right _ _)] at hle

theorem locate_eq {ns : List Nat} {i r : Nat} (h : r < ns.getD i 0) :
    locate ns ((ns.take i).sum + r) = (i, r) := by
  induction ns generalizing i with
  | nil => simp at h
  | cons n ns ih =>
    cases i with
    | zero => simp_all [locate]
    | succ i =>
      have hrest : n + (ns.take i).sum + r - n = (ns.take i).sum + r := by omega
      rw [List.take_succ_cons, List.sum_cons, locate, if_neg (by omega), hrest,
        ih (by simpa using h)]

theorem exists_block {ns : List Nat} {d : Nat} (h : d < ns.sum) :
    ∃ i r, r < ns.getD i 0 ∧ (ns.take i).sum + r = d := by
  induction ns generalizing d with
  | nil => simp at h
  | cons n ns ih =>
    by_cases hd : d < n
    · exact ⟨0, d, hd, by simp⟩
    · rw [List.sum_cons] at h
      obtain ⟨i, r, hr, heq⟩ := ih (d := d - n) (by omega)
      refine ⟨i + 1, r, hr, ?_⟩
      rw [List.take_succ_cons, List.sum_cons]
      omega

/-! ## Years -/

def yearLength (year : Int) : Nat := if leap year then 366 else 365

theorem leap_iff (year : Int) :
    leap year = true ↔ year % 4 = 0 ∧ (year % 100 ≠ 0 ∨ year % 400 = 0) := by
  simp [leap]

theorem daysBefore_succ (year : Int) :
    daysBefore (year + 1) = daysBefore year + yearLength year := by
  unfold daysBefore yearLength
  by_cases h : leap year = true
  · rw [if_pos h]
    have := (leap_iff year).1 h
    omega
  · rw [if_neg h]
    have := mt (leap_iff year).2 h
    omega

theorem daysBefore_strictMono : StrictMono daysBefore := by
  apply strictMono_int_of_lt_succ
  intro year
  have hpos : 0 < yearLength year := by
    unfold yearLength
    split <;> omega
  rw [daysBefore_succ]
  omega

theorem daysBefore_add_le {year year' : Int} (h : year < year') :
    daysBefore year + yearLength year ≤ daysBefore year' := by
  rw [← daysBefore_succ]
  exact daysBefore_strictMono.monotone h

section

variable {century four one : Nat}

theorem daysBefore_cycles (q : Int) (hcentury : century ≤ 3) (hfour : four ≤ 24) (hone : one ≤ 3) :
    daysBefore (400 * q + (100 * century + 4 * four + one + 1 : Nat)) =
      146097 * q + (36524 * century + 1461 * four + 365 * one : Nat) := by
  unfold daysBefore
  omega

/-- The last year of four is a leap year, but that of a century only at the end of four. -/
theorem yearLength_cycles (q : Int) (hcentury : century ≤ 3) (hfour : four ≤ 24) (hone : one ≤ 3) :
    yearLength (400 * q + (100 * century + 4 * four + one + 1 : Nat)) =
      if one = 3 ∧ (four ≠ 24 ∨ century = 3) then 366 else 365 := by
  unfold yearLength
  simp only [leap_iff]
  split <;> split <;> omega

/-- The cycles that are taken off leave a day of the year that they lead to. -/
theorem yearAndDay_spec (number : Int) :
    daysBefore (yearAndDay number).1 + (yearAndDay number).2 = number ∧
      (yearAndDay number).2 < yearLength (yearAndDay number).1 := by
  have hcycle : (number % 146097).toNat < 146097 := by omega
  have hnumber : 146097 * (number / 146097) + ((number % 146097).toNat : Int) = number := by omega
  unfold yearAndDay
  dsimp only
  -- The cycles become variables, each with its bound, so that what is left is linear.
  generalize number / 146097 = q at *
  generalize (number % 146097).toNat = inCycle at *
  generalize hcentury : min (inCycle / 36524) 3 = century
  generalize hfour : (inCycle - 36524 * century) / 1461 = four
  generalize hinFour : (inCycle - 36524 * century) % 1461 = inFour
  generalize hone : min (inFour / 365) 3 = one
  have hcentury3 : century ≤ 3 := by omega
  have hfour24 : four ≤ 24 := by omega
  have hone3 : one ≤ 3 := by omega
  rw [daysBefore_cycles q hcentury3 hfour24 hone3, yearLength_cycles q hcentury3 hfour24 hone3]
  constructor
  · omega
  · split <;> omega

end

/-- A day within a year is found again. -/
theorem yearAndDay_eq {year : Int} {day : Nat} (h : day < yearLength year) :
    yearAndDay (daysBefore year + day) = (year, day) := by
  obtain ⟨hnumber, hlt⟩ := yearAndDay_spec (daysBefore year + day)
  generalize yearAndDay (daysBefore year + day) = found at *
  -- The days of any other year end before this year starts, or start after it ends.
  have hyear : found.1 = year := by
    rcases Int.lt_trichotomy found.1 year with hless | heq | hgreater
    · have := daysBefore_add_le hless
      omega
    · exact heq
    · have := daysBefore_add_le hgreater
      omega
  refine Prod.ext hyear ?_
  rw [hyear] at hnumber
  change found.2 = day
  omega

/-! ## Months -/

theorem sum_monthLengths (year : Int) : (monthLengths year).sum = yearLength year := by
  unfold monthLengths yearLength
  split <;> rfl

theorem sum_take_lt {year : Int} {m r : Nat} (hr : r < (monthLengths year).getD m 0) :
    ((monthLengths year).take m).sum + r < yearLength year := by
  have hle := sum_take_add_le_sum (monthLengths year) m
  rw [sum_monthLengths] at hle
  omega

theorem lt_twelve {year : Int} {m r : Nat} (hr : r < (monthLengths year).getD m 0) : m < 12 := by
  by_contra hm
  have hlength : (monthLengths year).length = 12 := rfl
  rw [List.getD_eq_getElem?_getD, List.getElem?_eq_none (by omega)] at hr
  cases hr

/-! ## Days -/

namespace Date

theorem valid_mk {year : Int} {m r : Nat} :
    (⟨year, m + 1, r + 1⟩ : Date).Valid ↔ r < (monthLengths year).getD m 0 := by
  have hlength : monthLength year (m + 1) = (monthLengths year).getD m 0 := rfl
  simp only [Valid, hlength]
  omega

theorem number_mk (year : Int) (m r : Nat) : (⟨year, m + 1, r + 1⟩ : Date).number =
    daysBefore year + (((monthLengths year).take m).sum + r : Nat) := by
  have hsum : daysBeforeMonth year (m + 1) = ((monthLengths year).take m).sum := rfl
  simp only [number, hsum]
  omega

/-- A day that exists, with its month and its place there counted from zero. -/
theorem Valid.exists_mk {d : Date} (h : d.Valid) : ∃ year m r, d = ⟨year, m + 1, r + 1⟩ ∧
    r < (monthLengths year).getD m 0 := by
  obtain ⟨year, month, day⟩ := d
  obtain ⟨hday, hlength⟩ := h
  dsimp only at hday hlength
  obtain ⟨r, rfl⟩ : ∃ r, day = r + 1 := ⟨day - 1, by omega⟩
  obtain ⟨m, rfl⟩ : ∃ m, month = m + 1 := by
    refine ⟨month - 1, ?_⟩
    have : month ≠ 0 := by
      rintro rfl
      simp [monthLength] at hlength
    omega
  exact ⟨year, m, r, rfl, valid_mk.1 ⟨hday, hlength⟩⟩

theorem ofNumber_mk {year : Int} {m r : Nat} (hr : r < (monthLengths year).getD m 0) :
    ofNumber (⟨year, m + 1, r + 1⟩ : Date).number = ⟨year, m + 1, r + 1⟩ := by
  rw [number_mk, ofNumber, yearAndDay_eq (sum_take_lt hr), locate_eq hr]

/-- Every number is the number of a day that exists. -/
theorem exists_number (n : Int) : ∃ d : Date, d.Valid ∧ d.number = n := by
  obtain ⟨hnumber, hlt⟩ := yearAndDay_spec n
  rw [← sum_monthLengths] at hlt
  obtain ⟨m, r, hr, hplace⟩ := exists_block hlt
  refine ⟨⟨(yearAndDay n).1, m + 1, r + 1⟩, valid_mk.2 hr, ?_⟩
  rw [number_mk, hplace, hnumber]

theorem ofNumber_number {d : Date} (h : d.Valid) : ofNumber d.number = d := by
  obtain ⟨year, m, r, rfl, hr⟩ := h.exists_mk
  exact ofNumber_mk hr

theorem valid_ofNumber (n : Int) : (ofNumber n).Valid := by
  obtain ⟨d, hd, rfl⟩ := exists_number n
  rwa [ofNumber_number hd]

theorem number_ofNumber (n : Int) : (ofNumber n).number = n := by
  obtain ⟨d, hd, rfl⟩ := exists_number n
  rw [ofNumber_number hd]

/-! ## The order of days -/

theorem number_lt_daysBefore_iff {d : Date} (h : d.Valid) (year : Int) :
    d.number < daysBefore year ↔ d.year < year := by
  obtain ⟨year', m, r, rfl, hr⟩ := h.exists_mk
  have hlt := sum_take_lt hr
  rw [number_mk]
  dsimp only
  constructor
  · intro hnumber
    by_contra hle
    have := daysBefore_strictMono.monotone (not_lt.1 hle)
    omega
  · intro hyear
    have := daysBefore_add_le hyear
    omega

/-- Years decide first, then months, then days. -/
theorem number_lt_iff {d e : Date} (hd : d.Valid) (he : e.Valid) : d.number < e.number ↔
    d.year < e.year ∨ d.year = e.year ∧
      (d.month < e.month ∨ d.month = e.month ∧ d.day < e.day) := by
  have of_before : ∀ {d e : Date}, d.Valid → e.Valid →
      (d.year < e.year ∨ d.year = e.year ∧ d.month < e.month) → d.number < e.number := by
    rintro d e hd he (hyear | ⟨hyear, hmonth⟩)
    · have hnext := (number_lt_daysBefore_iff hd e.year).2 hyear
      have hstart := mt (number_lt_daysBefore_iff he e.year).1 (lt_irrefl _)
      omega
    · obtain ⟨year, m, r, rfl, hr⟩ := hd.exists_mk
      obtain ⟨year', m', r', rfl, hr'⟩ := he.exists_mk
      dsimp only at hyear hmonth
      subst hyear
      have hblock : ((monthLengths year).take m).sum + (monthLengths year).getD m 0 ≤
          ((monthLengths year).take m').sum := sum_take_add_le (by omega)
      rw [number_mk, number_mk]
      omega
  have of_same : d.year = e.year → d.month = e.month →
      (d.number < e.number ↔ d.day < e.day) := by
    intro hyear hmonth
    simp only [number, hyear, hmonth]
    omega
  have hforth := of_before hd he
  have hback := of_before he hd
  have hcases : (d.year = e.year ∧ d.month = e.month) ∨ ¬ (d.year = e.year ∧ d.month = e.month) :=
    Classical.em _
  omega

/-! ## From one day to the next -/

/-- The day after a day. -/
def next (d : Date) : Date :=
  if d.day < monthLength d.year d.month then { d with day := d.day + 1 }
  else if d.month < 12 then ⟨d.year, d.month + 1, 1⟩
  else ⟨d.year + 1, 1, 1⟩

theorem monthLength_pos (year : Int) {m : Nat} (hm : m < 12) :
    0 < (monthLengths year).getD m 0 := by
  unfold monthLengths
  cases leap year <;> (revert m; decide)

theorem next_spec {d : Date} (h : d.Valid) : d.next.Valid ∧ d.next.number = d.number + 1 := by
  obtain ⟨year, m, r, rfl, hr⟩ := h.exists_mk
  have hsucc := sum_take_succ (monthLengths year) m
  unfold next
  dsimp only
  by_cases hday : r + 1 < monthLength year (m + 1)
  · rw [if_pos hday]
    refine ⟨⟨by simp, hday⟩, ?_⟩
    rw [number_mk, number_mk]
    omega
  · rw [if_neg hday]
    have hlast : r + 1 = (monthLengths year).getD m 0 := by
      have hlength : monthLength year (m + 1) = (monthLengths year).getD m 0 := rfl
      omega
    by_cases hmonth : m + 1 < 12
    · rw [if_pos hmonth]
      refine ⟨valid_mk.2 (monthLength_pos year hmonth), ?_⟩
      rw [number_mk, number_mk]
      omega
    · rw [if_neg hmonth]
      have hm : m + 1 = 12 := by
        have := lt_twelve hr
        omega
      have htotal : ((monthLengths year).take (m + 1)).sum = yearLength year := by
        rw [hm, ← sum_monthLengths]
        rfl
      have hyear := daysBefore_succ year
      refine ⟨valid_mk.2 (monthLength_pos (year + 1) (by omega)), ?_⟩
      rw [number_mk (year + 1) 0 0, number_mk]
      simp only [List.take_zero, List.sum_nil]
      omega

theorem iterate_next {d : Date} (h : d.Valid) (n : Nat) :
    (next^[n] d).Valid ∧ (next^[n] d).number = d.number + n := by
  induction n with
  | zero => exact ⟨h, by simp⟩
  | succ n ih =>
    obtain ⟨hvalid, hnumber⟩ := ih
    obtain ⟨hvalid', hnumber'⟩ := next_spec hvalid
    rw [Function.iterate_succ_apply']
    exact ⟨hvalid', by rw [hnumber', hnumber]; push_cast; omega⟩

/-- So many days lead from the first day to the second, or back if there are fewer than none. -/
def Leads (d e : Date) (days : Int) : Prop := next^[days.toNat] d = next^[(-days).toNat] e

theorem number_inj {d e : Date} (hd : d.Valid) (he : e.Valid) : d.number = e.number ↔ d = e := by
  constructor
  · intro h
    rw [← ofNumber_number hd, h, ofNumber_number he]
  · rintro rfl
    rfl

theorem leads_iff {d e : Date} (hd : d.Valid) (he : e.Valid) (days : Int) :
    Leads d e days ↔ days = e.number - d.number := by
  obtain ⟨hdvalid, hdnumber⟩ := iterate_next hd days.toNat
  obtain ⟨hevalid, henumber⟩ := iterate_next he (-days).toNat
  rw [Leads, ← number_inj hdvalid hevalid, hdnumber, henumber]
  omega

end Date

end Calendar

end TemplateExpr
