-- Spans of time as text. The fields of a text are the digits of the span in a mixed radix, and
-- they can be read in one way only, so the text tells the sign and the length of the span, the
-- latter in whole units of 100 nanoseconds.
import TemplateExpr.Evaluation
import TemplateExpr.Proofs.Decimal.Nearest
import TemplateExpr.Proofs.Decimal.Numeral
import TemplateExpr.Proofs.Heap.Nesting

namespace TemplateExpr

namespace Calendar

namespace TimeSpan

open Decimal

/-! ## Fields -/

/-- What stands in a text: days, a time of day, and what is left in units of 100 nanoseconds. -/
structure Fields where
  days : Nat
  hours : Nat
  minutes : Nat
  seconds : Nat
  fraction : Nat
deriving DecidableEq

/-- The clock can show the time. -/
structure Fields.Valid (p : Fields) : Prop where
  hours : p.hours < 24
  minutes : p.minutes < 60
  seconds : p.seconds < 60
  fraction : p.fraction < 10000000

/-- The units of 100 nanoseconds that the fields amount to. -/
def Fields.ticks (p : Fields) : Nat :=
  (((p.days * 24 + p.hours) * 60 + p.minutes) * 60 + p.seconds) * 10000000 + p.fraction

def fields (d : TimeSpan) : Fields where
  days := d.ticks / 10000000 / 86400
  hours := d.ticks / 10000000 / 3600 % 24
  minutes := d.ticks / 10000000 / 60 % 60
  seconds := d.ticks / 10000000 % 60
  fraction := d.ticks % 10000000

theorem valid_fields (d : TimeSpan) : d.fields.Valid := by
  constructor <;> exact Nat.mod_lt _ (by decide)

theorem ticks_fields (d : TimeSpan) : d.fields.ticks = d.ticks := by
  simp only [Fields.ticks, fields]
  omega

theorem days_fields_iff (d : TimeSpan) : d.fields.days ≠ 0 ↔ 86400000000000 ≤ d.nanos.natAbs := by
  simp only [fields, ticks]
  omega

theorem fraction_fields_iff (d : TimeSpan) : d.fields.fraction ≠ 0 ↔ ¬ 10000000 ∣ d.ticks := by
  simp only [fields]
  omega

/-! ## Texts of fields -/

/-- A number in so many digits. -/
structure Fixed (width n : Nat) (cs : List Char) : Prop where
  length : cs.length = width
  isDigit : ∀ c ∈ cs, c.isDigit = true
  value : ofDigits cs = n

/-- A count of days and a point, unless there are none. -/
inductive Days : Nat → List Char → Prop
  | none : Days 0 []
  | some {n} : n ≠ 0 → Days n (digits n ++ ['.'])

/-- A point and seven digits, unless nothing is left. -/
inductive Fraction : Nat → List Char → Prop
  | none : Fraction 0 []
  | some {n fs} : Fixed 7 n fs → n ≠ 0 → Fraction n ('.' :: fs)

/-- The text shows these fields, with a minus sign or without one. -/
inductive Shows (negative : Bool) (p : Fields) : List Char → Prop
  | fields {days hours minutes seconds fraction} : Days p.days days → Fixed 2 p.hours hours →
      Fixed 2 p.minutes minutes → Fixed 2 p.seconds seconds → Fraction p.fraction fraction →
      Shows negative p ((if negative then ['-'] else []) ++
        (days ++ (hours ++ ':' :: (minutes ++ ':' :: (seconds ++ fraction)))))

theorem fixed_zeroPadded {width n : Nat} (hwidth : 0 < width) (hn : n < 10 ^ width) :
    Fixed width n (zeroPadded width n) := by
  have hle := (length_digits_le_iff hwidth).2 hn
  refine ⟨?_, fun c hc => isDigit_of_mem_padLeft hc, ?_⟩
  · rw [zeroPadded, padLeft, List.length_append, List.length_replicate]
    omega
  · rw [zeroPadded, padLeft, ofDigits_zeros_append, Scanner.ofDigits_digits]

theorem chars_eq (d : TimeSpan) : d.chars = (if decide (d.nanos < 0) then ['-'] else []) ++
    ((if d.fields.days = 0 then [] else digits d.fields.days ++ ['.']) ++
      (zeroPadded 2 d.fields.hours ++ ':' :: (zeroPadded 2 d.fields.minutes ++
        ':' :: (zeroPadded 2 d.fields.seconds ++
          (if d.fields.fraction = 0 then [] else '.' :: zeroPadded 7 d.fields.fraction))))) := by
  simp only [chars, decide_eq_true_eq, List.append_assoc, List.cons_append]
  rfl

theorem shows_chars (d : TimeSpan) : Shows (decide (d.nanos < 0)) d.fields d.chars := by
  obtain ⟨hhours, hminutes, hseconds, hfraction⟩ := d.valid_fields
  have hdays : Days d.fields.days
      (if d.fields.days = 0 then [] else digits d.fields.days ++ ['.']) := by
    split
    · rename_i hzero
      rw [hzero]
      exact .none
    · exact .some ‹_›
  have hrest : Fraction d.fields.fraction
      (if d.fields.fraction = 0 then [] else '.' :: zeroPadded 7 d.fields.fraction) := by
    split
    · rename_i hzero
      rw [hzero]
      exact .none
    · rename_i hne
      exact .some (fixed_zeroPadded (by decide) (by omega)) hne
  rw [chars_eq]
  exact .fields hdays (fixed_zeroPadded (by decide) (by omega))
    (fixed_zeroPadded (by decide) (by omega)) (fixed_zeroPadded (by decide) (by omega)) hrest

/-! ## Reading a text -/

/-- Digits end where the first character stands that is none. -/
theorem digits_inj {ds ds' rest rest' : List Char} {c c' : Char}
    (hds : ∀ c ∈ ds, c.isDigit = true) (hds' : ∀ c ∈ ds', c.isDigit = true)
    (hc : c.isDigit = false) (hc' : c'.isDigit = false) (h : ds ++ c :: rest = ds' ++ c' :: rest') :
    ds = ds' ∧ c = c' ∧ rest = rest' := by
  obtain ⟨htake, hdrop⟩ := Numeral.takeWhile_digits hds (Scanner.noDigit_cons rest hc)
  obtain ⟨htake', hdrop'⟩ := Numeral.takeWhile_digits hds' (Scanner.noDigit_cons rest' hc')
  rw [h] at htake hdrop
  have hsame := hdrop.symm.trans hdrop'
  rw [List.cons.injEq] at hsame
  exact ⟨htake.symm.trans htake', hsame⟩

theorem Fixed.unique {width n n' : Nat} {cs : List Char} (h : Fixed width n cs)
    (h' : Fixed width n' cs) : n = n' :=
  h.value.symm.trans h'.value

theorem days_unique {n n' m m' : Nat} {days days' hours hours' rest rest' : List Char}
    (hdays : Days n days) (hdays' : Days n' days') (hhours : Fixed 2 m hours)
    (hhours' : Fixed 2 m' hours')
    (h : days ++ (hours ++ ':' :: rest) = days' ++ (hours' ++ ':' :: rest')) :
    n = n' ∧ m = m' ∧ rest = rest' := by
  have of_hours : hours ++ ':' :: rest = hours' ++ ':' :: rest' → m = m' ∧ rest = rest' := by
    intro h
    obtain ⟨rfl, _, hrest⟩ := digits_inj hhours.isDigit hhours'.isDigit rfl rfl h
    exact ⟨hhours.unique hhours', hrest⟩
  have hdigits : ∀ n, ∀ c ∈ digits n, c.isDigit = true := fun _ _ => Scanner.isDigit_of_mem_digits
  cases hdays with
  | none =>
    cases hdays' with
    | none => exact ⟨rfl, of_hours h⟩
    | some _ =>
      rw [List.append_assoc] at h
      have hpoint := (digits_inj hhours.isDigit (hdigits n') rfl rfl h).2.1
      exact absurd hpoint (by decide)
  | some _ =>
    cases hdays' with
    | none =>
      rw [List.append_assoc] at h
      have hpoint := (digits_inj (hdigits n) hhours'.isDigit rfl rfl h).2.1
      exact absurd hpoint (by decide)
    | some _ =>
      rw [List.append_assoc, List.append_assoc] at h
      obtain ⟨hsame, _, hrest⟩ := digits_inj (hdigits n) (hdigits n') rfl rfl h
      have hcount := congrArg ofDigits hsame
      rw [Scanner.ofDigits_digits, Scanner.ofDigits_digits] at hcount
      exact ⟨hcount, of_hours hrest⟩

theorem fraction_unique {n n' : Nat} {fs : List Char} (h : Fraction n fs) (h' : Fraction n' fs) :
    n = n' := by
  cases h with
  | none =>
    cases h'
    rfl
  | some h _ =>
    cases h' with
    | some h' _ => exact h.unique h'

/-- Days and hours begin with a digit, so a sign cannot be taken for one of them. -/
theorem head_of_days {n m : Nat} {days hours : List Char} (hdays : Days n days)
    (hhours : Fixed 2 m hours) (rest : List Char) :
    ∃ c tail, days ++ (hours ++ rest) = c :: tail ∧ c.isDigit = true := by
  cases hdays with
  | none =>
    cases hours with
    | nil => cases hhours.length
    | cons c tail => exact ⟨c, _, rfl, hhours.isDigit c List.mem_cons_self⟩
  | some _ =>
    obtain ⟨c, ds, heq, hc, _⟩ := Scanner.digits_eq_cons n
    rw [heq]
    exact ⟨c, _, rfl, hc⟩

theorem sign_unique {negative negative' : Bool} {c c' : Char} {cs cs' : List Char}
    (hc : c.isDigit = true) (hc' : c'.isDigit = true)
    (h : (if negative then ['-'] else []) ++ c :: cs =
      (if negative' then ['-'] else []) ++ c' :: cs') :
    negative = negative' ∧ c :: cs = c' :: cs' := by
  have hminus : ('-').isDigit = false := rfl
  cases negative <;> cases negative' <;> simp only [Bool.false_eq_true, if_true, if_false,
    List.nil_append, List.singleton_append] at h
  · exact ⟨rfl, h⟩
  · cases h
    rw [hminus] at hc
    cases hc
  · cases h
    rw [hminus] at hc'
    cases hc'
  · exact ⟨rfl, List.cons.inj h |>.2⟩

/-- A text can be read in one way only. -/
theorem Shows.unique {negative negative' : Bool} {p p' : Fields} {cs : List Char}
    (h : Shows negative p cs) (h' : Shows negative' p' cs) : negative = negative' ∧ p = p' := by
  cases h with
  | @fields days hours minutes seconds fraction hdays hhours hminutes hseconds hfraction =>
    generalize htext : _ ++ (days ++ _) = text at h'
    cases h' with
    | @fields days' hours' minutes' seconds' fraction' hdays' hhours' hminutes' hseconds'
        hfraction' =>
      obtain ⟨c, tail, hbegin, hc⟩ := head_of_days hdays hhours
        (':' :: (minutes ++ ':' :: (seconds ++ fraction)))
      obtain ⟨c', tail', hbegin', hc'⟩ := head_of_days hdays' hhours'
        (':' :: (minutes' ++ ':' :: (seconds' ++ fraction')))
      rw [hbegin, hbegin'] at htext
      obtain ⟨hsign, hbody⟩ := sign_unique hc hc' htext
      rw [← hbegin, ← hbegin'] at hbody
      obtain ⟨hday, hhour, hclock⟩ := days_unique hdays hdays' hhours hhours' hbody
      obtain ⟨rfl, _, hend⟩ := digits_inj hminutes.isDigit hminutes'.isDigit rfl rfl hclock
      obtain ⟨rfl, rfl⟩ := List.append_inj hend (hseconds.length.trans hseconds'.length.symm)
      refine ⟨hsign, ?_⟩
      cases p
      cases p'
      rw [Fields.mk.injEq]
      exact ⟨hday, hhour, hminutes.unique hminutes', hseconds.unique hseconds',
        fraction_unique hfraction hfraction'⟩

/-! ## Signs -/

theorem nanos_of_neg? {d d' : TimeSpan} (h : d.neg? = some d') : d'.nanos = -d.nanos := by
  unfold neg? ofNanos? at h
  split at h
  · cases h
    exact Int.zero_sub d.nanos
  · cases h

theorem chars_of_ticks {d d' : TimeSpan} (hticks : d.ticks = d'.ticks)
    (hsign : d.nanos < 0 ↔ d'.nanos < 0) : d.chars = d'.chars := by
  simp only [chars, hticks, hsign]

/-! ## What a text tells -/

/-- The text of a span of time shows its fields and can be read in one way only. -/
structure Tells (d : TimeSpan) : Prop where
  rendered : ∀ (h : Heap) (pattern : String), h.text pattern (.timeSpan d) = d.text
  shows : ∃ p, Shows (decide (d.nanos < 0)) p d.text.toList ∧ p.Valid ∧ p.ticks = d.ticks ∧
    (p.days ≠ 0 ↔ 86400000000000 ≤ d.nanos.natAbs) ∧ (p.fraction ≠ 0 ↔ ¬ 10000000 ∣ d.ticks)
  reads : ∀ negative p, Shows negative p d.text.toList →
    negative = decide (d.nanos < 0) ∧ p.ticks = d.ticks
  same_text_iff : ∀ d' : TimeSpan, d.text = d'.text ↔
    d.ticks = d'.ticks ∧ (d.nanos < 0 ↔ d'.nanos < 0)
  negated : 0 < d.nanos → ∀ (e : Expr) (span : Span), ∃ d',
    UnaryOp.negate.apply e span (.timeSpan d) = .ok (.timeSpan d') ∧ d'.nanos = -d.nanos ∧
      d'.text = "-" ++ d.text

theorem toList_text (d : TimeSpan) : d.text.toList = d.chars := String.toList_ofList

theorem reads_text (d : TimeSpan) {negative : Bool} {p : Fields}
    (h : Shows negative p d.text.toList) :
    negative = decide (d.nanos < 0) ∧ p.ticks = d.ticks := by
  rw [toList_text] at h
  obtain ⟨hsign, hfields⟩ := h.unique d.shows_chars
  rw [hfields]
  exact ⟨hsign, d.ticks_fields⟩

theorem same_text_iff (d d' : TimeSpan) : d.text = d'.text ↔
    d.ticks = d'.ticks ∧ (d.nanos < 0 ↔ d'.nanos < 0) := by
  constructor
  · intro h
    have hshows := d.shows_chars
    rw [← toList_text, h] at hshows
    obtain ⟨hsign, hticks⟩ := d'.reads_text hshows
    rw [ticks_fields] at hticks
    exact ⟨hticks, decide_eq_decide.1 hsign⟩
  · rintro ⟨hticks, hsign⟩
    rw [text, text, chars_of_ticks hticks hsign]

theorem text_of_neg? {d d' : TimeSpan} (h : d.neg? = some d') (hpos : 0 < d.nanos) :
    d'.text = "-" ++ d.text := by
  have hnanos := nanos_of_neg? h
  have hticks : d'.ticks = d.ticks := by rw [ticks, ticks, hnanos, Int.natAbs_neg]
  have hsign : d'.nanos < 0 := by omega
  have hnone : ¬ d.nanos < 0 := by omega
  apply String.toList_inj.1
  rw [String.toList_append, toList_text, toList_text]
  simp [chars, hticks, hsign, hnone]

/-- The text of a span of time tells its sign and how many whole units it has, and nothing else. -/
theorem a_text_tells_sign_and_ticks (d : TimeSpan) : d.Tells where
  rendered := fun h pattern => h.text_of_ne_list pattern nofun
  shows := by
    refine ⟨d.fields, ?_, d.valid_fields, d.ticks_fields, d.days_fields_iff, d.fraction_fields_iff⟩
    rw [toList_text]
    exact d.shows_chars
  reads := fun _ _ => d.reads_text
  same_text_iff := d.same_text_iff
  negated := by
    intro hpos e span
    obtain ⟨d', hd⟩ := d.exists_neg?
    refine ⟨d', ?_, nanos_of_neg? hd, text_of_neg? hd hpos⟩
    simp only [UnaryOp.apply, hd]

end TimeSpan

end Calendar

end TemplateExpr
