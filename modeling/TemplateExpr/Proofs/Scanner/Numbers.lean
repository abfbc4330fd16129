-- Numbers in a source. The scanner takes the digits, then the fraction, then the exponent,
-- then the letter, each where there is one; what it takes is a number of the declared
-- form, no text of that form is longer, and it is read as the number that it says.
import TemplateExpr.Proofs.Scanner.Patterns
import TemplateExpr.Proofs.Scanner.Pieces

namespace TemplateExpr

namespace Scanner

open Pattern

/-! ## Digits -/

/-- The text does not go on with a digit. -/
def NoDigit (cs : List Char) : Prop := ∀ c ∈ cs.head?, c.isDigit = false

theorem NoDigit.run {cs : List Char} (h : NoDigit cs) : run Char.isDigit cs = 0 := by
  have hrun := run_append_of_all (p := Char.isDigit) (List.forall_mem_nil _) h
  exact hrun

theorem run_digits {ds rest : List Char} (hds : ds ∈ digits) (hrest : NoDigit rest) :
    run Char.isDigit (ds ++ rest) = ds.length :=
  run_append_of_all (isDigit_of_mem hds) hrest

theorem length_le_run {p : Char → Bool} {ds : List Char} (rest : List Char)
    (hds : ∀ c ∈ ds, p c = true) : ds.length ≤ run p (ds ++ rest) := by
  rw [run, List.takeWhile_append_of_pos hds, List.length_append]
  omega

theorem noDigit_dropWhile (cs : List Char) : NoDigit (cs.dropWhile Char.isDigit) := by
  intro c hc
  have h := List.head?_dropWhile_not Char.isDigit cs
  rw [hc] at h
  simpa using h

/-- Where a run is not empty it is a text of digits, and no digit follows it. -/
theorem digits_of_run {cs : List Char} (h : 0 < run Char.isDigit cs) :
    ∃ ds rest, cs = ds ++ rest ∧ ds ∈ digits ∧ NoDigit rest ∧ run Char.isDigit cs = ds.length := by
  refine ⟨cs.takeWhile Char.isDigit, cs.dropWhile Char.isDigit,
    (List.takeWhile_append_dropWhile).symm, ?_, noDigit_dropWhile cs, rfl⟩
  exact mem_digits_of_ne_nil (List.ne_nil_of_length_pos h) (List.all_eq_true.1 List.all_takeWhile)

theorem noDigit_cons {c : Char} (rest : List Char) (hc : c.isDigit = false) :
    NoDigit (c :: rest) := by
  intro d hd
  cases hd
  exact hc

/-! ## Fractions and exponents -/

theorem length_le_fractionRun {fs : List Char} (rest : List Char) (hfs : fs ∈ digits) :
    1 + fs.length ≤ fractionRun ('.' :: (fs ++ rest)) := by
  have hle := length_le_run rest (isDigit_of_mem hfs)
  obtain ⟨c, ds, rfl, _⟩ := mem_digits.1 hfs
  rw [List.length_cons] at hle ⊢
  simp only [fractionRun]
  rw [if_pos (by omega)]
  omega

theorem fractionRun_of_digits {fs rest : List Char} (hfs : fs ∈ digits) (hrest : NoDigit rest) :
    fractionRun ('.' :: (fs ++ rest)) = 1 + fs.length := by
  have hrun := run_digits hfs hrest
  obtain ⟨c, ds, rfl, _⟩ := mem_digits.1 hfs
  rw [List.length_cons] at hrun ⊢
  simp only [fractionRun, hrun]
  rw [if_pos (by omega)]

theorem fractionRun_cases (cs : List Char) : fractionRun cs = 0 ∨
    ∃ fs rest, cs = '.' :: (fs ++ rest) ∧ fs ∈ digits ∧ NoDigit rest ∧
      fractionRun cs = 1 + fs.length := by
  unfold fractionRun
  split
  · rename_i cs
    by_cases hrun : 0 < run Char.isDigit cs
    · obtain ⟨fs, rest, rfl, hfs, hrest, hlength⟩ := digits_of_run hrun
      exact .inr ⟨fs, rest, rfl, hfs, hrest, by rw [if_pos hrun, hlength]⟩
    · exact .inl (if_neg hrun)
  · exact .inl rfl

/-- A sign or none, then digits: the run of the sign and of the digits after it. -/
theorem exponentRun_of_whole {e : Char} {es : List Char} {k : Int} (rest : List Char)
    (he : e = 'e' ∨ e = 'E') (hes : Whole es k) :
    1 + es.length ≤ exponentRun (e :: (es ++ rest)) ∧
      (NoDigit rest → exponentRun (e :: (es ++ rest)) = 1 + es.length) := by
  have hletter : (e == 'e' || e == 'E') = true := by simpa using he
  have of_sign : ∀ s ds : List Char, es = s ++ ds → ds ∈ digits →
      signRun (es ++ rest) = s.length → 1 + es.length ≤ exponentRun (e :: (es ++ rest)) ∧
        (NoDigit rest → exponentRun (e :: (es ++ rest)) = 1 + es.length) := by
    intro s ds hes hds hsign
    have hdrop : (es ++ rest).drop (signRun (es ++ rest)) = ds ++ rest := by
      rw [hsign, hes, List.append_assoc, List.drop_left]
    have hle := length_le_run rest (isDigit_of_mem hds)
    have hpos : 0 < ds.length := by
      obtain ⟨c, ds', rfl, _⟩ := mem_digits.1 hds
      simp
    have hlength : es.length = s.length + ds.length := by rw [hes, List.length_append]
    have hrun : exponentRun (e :: (es ++ rest)) = 1 + s.length + run Char.isDigit (ds ++ rest) := by
      simp only [exponentRun, hdrop, hletter, Bool.true_and]
      rw [if_pos (by simp only [decide_eq_true_eq]; omega), hsign]
    refine ⟨by omega, ?_⟩
    intro hrest
    rw [hrun, run_digits hds hrest]
    omega
  cases hes with
  | plain hds =>
    refine of_sign [] es rfl hds ?_
    obtain ⟨c, ds, rfl, hc, _⟩ := mem_digits.1 hds
    rw [List.cons_append]
    unfold signRun
    split
    · rename_i heq
      cases heq
      exact absurd hc (by decide)
    · rename_i heq
      cases heq
      exact absurd hc (by decide)
    · rfl
  | positive hds => exact of_sign ['+'] _ rfl hds rfl
  | negative hds => exact of_sign ['-'] _ rfl hds rfl

theorem exponentRun_cases (cs : List Char) : exponentRun cs = 0 ∨
    ∃ e es k rest, cs = e :: (es ++ rest) ∧ (e = 'e' ∨ e = 'E') ∧ Whole es k ∧ NoDigit rest ∧
      exponentRun cs = 1 + es.length := by
  cases cs with
  | nil => exact .inl rfl
  | cons c cs =>
    by_cases h : (c == 'e' || c == 'E') = true ∧ 0 < run Char.isDigit (cs.drop (signRun cs))
    · obtain ⟨hletter, hrun⟩ := h
      have he : c = 'e' ∨ c = 'E' := by simpa using hletter
      obtain ⟨ds, rest, hdrop, hds, hrest, _⟩ := digits_of_run hrun
      have of_whole : ∀ es k, cs = es ++ rest → Whole es k → ∃ e es k rest,
          c :: cs = e :: (es ++ rest) ∧ (e = 'e' ∨ e = 'E') ∧ Whole es k ∧ NoDigit rest ∧
            exponentRun (c :: cs) = 1 + es.length := by
        intro es k hcs hes
        refine ⟨c, es, k, rest, by rw [hcs], he, hes, hrest, ?_⟩
        rw [hcs]
        exact (exponentRun_of_whole rest he hes).2 hrest
      refine .inr ?_
      unfold signRun at hdrop
      split at hdrop
      · exact of_whole ('+' :: ds) _ (congrArg (List.cons '+') hdrop) (.positive hds)
      · exact of_whole ('-' :: ds) _ (congrArg (List.cons '-') hdrop) (.negative hds)
      · exact of_whole ds _ hdrop (.plain hds)
    · refine .inl ?_
      simp only [exponentRun]
      rw [if_neg]
      simpa using h

/-! ## The parts of a number -/

/-- What a number is after its whole part, and how long what follows that part is, by the lengths of
its fraction and exponent and by the text after them. -/
def ending (fraction exponent : Nat) (rest : List Char) : Form × Nat :=
  let isWhole := fraction == 0 && exponent == 0
  if (isWhole || 0 < fraction) && rest.head?.any ['f', 'F'].contains then
    (.float, fraction + exponent + 1)
  else if isWhole && rest.head?.any ['l', 'L'].contains then (.long, fraction + exponent + 1)
  else (if isWhole then .integer else .double, fraction + exponent)

/-- The digits before anything else only add to the length. -/
theorem number_append {ds more : List Char} (hds : ∀ c ∈ ds, c.isDigit = true)
    (hmore : NoDigit more) :
    number (ds ++ more) = ((number more).1, ds.length + (number more).2) := by
  have hrun : run Char.isDigit (ds ++ more) = ds.length := run_append_of_all hds hmore
  simp only [number, hrun, hmore.run, List.drop_left, Nat.add_assoc, List.drop_length_add_append,
    List.drop_zero, Nat.zero_add]
  split
  · rfl
  · split <;> rfl

theorem number_of_parts {more rest : List Char} {fraction exponent : Nat} (hmore : NoDigit more)
    (hfraction : fractionRun more = fraction)
    (hexponent : exponentRun (more.drop fraction) = exponent)
    (hrest : more.drop (fraction + exponent) = rest) :
    number more = ending fraction exponent rest := by
  simp only [number, hmore.run, List.drop_zero, Nat.zero_add, hfraction, hexponent, hrest, ending]

theorem run_le_number (cs : List Char) : run Char.isDigit cs ≤ (number cs).2 := by
  simp only [number]
  split
  · dsimp only
    omega
  · split <;> (dsimp only; omega)

theorem le_ending (fraction exponent : Nat) (rest : List Char) :
    fraction + exponent ≤ (ending fraction exponent rest).2 := by
  simp only [ending]
  split
  · exact Nat.le_succ _
  · split
    · exact Nat.le_succ _
    · exact Nat.le_refl _

theorem le_number {more : List Char} (hmore : NoDigit more) :
    fractionRun more + exponentRun (more.drop (fractionRun more)) ≤ (number more).2 := by
  rw [number_of_parts hmore rfl rfl rfl]
  exact le_ending _ _ _

/-! ## What is taken is a number -/

/-- A number of some form. -/
inductive NumberText : List Char → Form → Prop
  | integer {ds} : ds ∈ digits → NumberText ds .integer
  | long {ds c} : ds ∈ digits → c = 'l' ∨ c = 'L' → NumberText (ds ++ [c]) .long
  | double {cs d} : cs ∈ Pattern.double → Says cs d → NumberText cs .double
  | float {cs c d} : cs ++ [c] ∈ Pattern.float → Says cs d → NumberText (cs ++ [c]) .float

/-- The letter of a float or a long, if the text goes on with one of these. -/
theorem head?_any_contains {rest letters : List Char}
    (h : rest.head?.any letters.contains = true) : ∃ c cs, rest = c :: cs ∧ c ∈ letters := by
  cases rest with
  | nil => cases h
  | cons c cs => exact ⟨c, cs, rfl, by simpa using h⟩

theorem mem_floatLetter {c : Char} (hc : c ∈ ['f', 'F']) : [c] ∈ floatLetter :=
  ⟨c, by simpa using hc, rfl⟩

theorem mem_longLetter {c : Char} (hc : c ∈ ['l', 'L']) : [c] ∈ longLetter :=
  ⟨c, by simpa using hc, rfl⟩

/-- Digits alone are an integer, or with a letter a float or a long. -/
theorem numberText_whole {ds : List Char} (rest : List Char) (hds : ds ∈ digits) :
    NumberText (ds ++ rest.take (ending 0 0 rest).2) (ending 0 0 rest).1 := by
  simp only [ending, Nat.lt_irrefl, decide_false, Bool.or_false, beq_self_eq_true, Bool.and_self,
    Bool.true_and, Nat.add_zero, Nat.zero_add, if_true]
  split
  · rename_i hfloat
    obtain ⟨c, cs, rfl, hc⟩ := head?_any_contains hfloat
    exact .float (.inr (Language.append_mem_mul hds (mem_floatLetter hc)))
      (.positional (.whole hds))
  · split
    · rename_i hlong
      obtain ⟨c, cs, rfl, hc⟩ := head?_any_contains hlong
      exact .long hds (by simpa using hc)
    · simpa using NumberText.integer hds

/-- Digits with an exponent are a double, whatever letter follows. -/
theorem numberText_scaled {ds es rest : List Char} {e : Char} {k : Int} (hds : ds ∈ digits)
    (he : e = 'e' ∨ e = 'E') (hes : Whole es k) :
    NumberText (ds ++ (e :: (es ++ rest)).take (ending 0 (1 + es.length) rest).2)
      (ending 0 (1 + es.length) rest).1 := by
  have hending : ending 0 (1 + es.length) rest = (.double, 1 + es.length) := by
    have hne : (1 + es.length == 0) = false := by simp
    simp [ending, hne]
  have htake : (e :: (es ++ rest)).take (1 + es.length) = e :: es := by
    rw [Nat.add_comm, List.take_succ_cons, List.take_left]
  have hexponent : e :: es ∈ Pattern.exponent := mem_exponent.2 ⟨e, es, k, rfl, he, hes⟩
  rw [hending, htake]
  exact .double (.inr (Language.append_mem_mul hds hexponent)) (.scaled (.whole hds) he hes)

/-- Digits with a fraction, and an exponent or none, are a double, or with a letter a float. -/
theorem numberText_fraction {ds fs es : List Char} {d : Decimal} (rest : List Char)
    (hds : ds ∈ digits) (hfs : fs ∈ digits) (hes : es = [] ∨ es ∈ Pattern.exponent)
    (hvalue : Says (ds ++ '.' :: (fs ++ es)) d) :
    NumberText (ds ++ ('.' :: (fs ++ (es ++ rest))).take (ending (1 + fs.length) es.length rest).2)
      (ending (1 + fs.length) es.length rest).1 := by
  have hnumber : ds ++ '.' :: (fs ++ es) ∈ digits * exactly "." * digits * (1 + Pattern.exponent) :=
    mem_fraction.2 ⟨ds, fs, es, rfl, hds, hfs, hes⟩
  have htake : ∀ n, ('.' :: (fs ++ (es ++ rest))).take (1 + fs.length + es.length + n) =
      '.' :: (fs ++ es) ++ rest.take n := by
    intro n
    have hlength : 1 + fs.length + es.length + n = ('.' :: (fs ++ es)).length + n := by
      simp only [List.length_cons, List.length_append]
      omega
    rw [hlength, ← List.take_length_add_append]
    simp
  have hne : (1 + fs.length == 0) = false := by simp
  simp only [ending, hne, Bool.false_and, Bool.false_or, Bool.false_eq_true, if_false,
    decide_eq_true (by omega : 0 < 1 + fs.length), Bool.true_and]
  split
  · rename_i hfloat
    obtain ⟨c, cs, rfl, hc⟩ := head?_any_contains hfloat
    dsimp only
    rw [htake 1]
    have hfloat := Language.append_mem_mul hnumber (mem_floatLetter hc)
    rw [← List.append_assoc]
    exact .float (.inl hfloat) hvalue
  · have htake₀ := htake 0
    rw [Nat.add_zero, List.take_zero, List.append_nil] at htake₀
    dsimp only
    rw [htake₀]
    exact .double (.inl hnumber) hvalue

theorem drop_cons_append (c : Char) (cs rest : List Char) :
    (c :: (cs ++ rest)).drop (1 + cs.length) = rest := by
  rw [Nat.add_comm, List.drop_succ_cons, List.drop_left]

theorem numberText_of_parts {ds more : List Char} (hds : ds ∈ digits) (hmore : NoDigit more) :
    NumberText (ds ++ more.take (number more).2) (number more).1 := by
  rcases fractionRun_cases more with hfraction | ⟨fs, rest, rfl, hfs, hrest, hfraction⟩
  · rcases exponentRun_cases more with hexponent | ⟨e, es, k, rest, rfl, he, hes, _, hexponent⟩
    · rw [number_of_parts hmore hfraction hexponent rfl]
      exact numberText_whole more hds
    · have hend : (e :: (es ++ rest)).drop (0 + (1 + es.length)) = rest := by
        rw [Nat.zero_add, drop_cons_append]
      rw [number_of_parts hmore hfraction hexponent hend]
      exact numberText_scaled hds he hes
  · have hpoint := drop_cons_append '.' fs rest
    have hpositional := Positional.fraction hds hfs
    rcases exponentRun_cases rest with hexponent | ⟨e, es, k, rest, rfl, he, hes, _, hexponent⟩
    · have hend : ('.' :: (fs ++ rest)).drop (1 + fs.length + 0) = rest := hpoint
      rw [number_of_parts hmore hfraction (by rw [hpoint, hexponent]) hend]
      have hvalue := Says.positional hpositional
      rw [show ds ++ '.' :: fs = ds ++ '.' :: (fs ++ []) by rw [List.append_nil]] at hvalue
      exact numberText_fraction rest hds hfs (.inl rfl) hvalue
    · have hend : ('.' :: (fs ++ e :: (es ++ rest))).drop (1 + fs.length + (1 + es.length)) =
          rest := by
        rw [← List.drop_drop, hpoint, drop_cons_append]
      rw [number_of_parts hmore hfraction (by rw [hpoint, hexponent]) hend]
      have hexp : e :: es ∈ Pattern.exponent := mem_exponent.2 ⟨e, es, k, rfl, he, hes⟩
      have hvalue := Says.scaled hpositional he hes
      rw [List.append_assoc, List.cons_append] at hvalue
      have htext := numberText_fraction rest hds hfs (.inr hexp) hvalue
      rw [List.length_cons, Nat.add_comm es.length] at htext
      exact htext

/-- The text that the scanner takes from a digit on is a number of the form it says. -/
theorem numberText_number {c : Char} (cs : List Char) (hc : c.isDigit = true) :
    NumberText (c :: cs.take (number cs).2) (number cs).1 := by
  have hall : ∀ d ∈ cs.takeWhile Char.isDigit, d.isDigit = true :=
    List.all_eq_true.1 List.all_takeWhile
  have hmore := noDigit_dropWhile cs
  have hdigits : c :: cs.takeWhile Char.isDigit ∈ digits := mem_digits.2 ⟨c, _, rfl, hc, hall⟩
  have hnumber := number_append hall hmore
  have htext := numberText_of_parts hdigits hmore
  rw [List.takeWhile_append_dropWhile] at hnumber
  rw [hnumber]
  dsimp only
  have htake : cs.take
      ((cs.takeWhile Char.isDigit).length + (number (cs.dropWhile Char.isDigit)).2) =
      cs.takeWhile Char.isDigit ++
        (cs.dropWhile Char.isDigit).take (number (cs.dropWhile Char.isDigit)).2 := by
    rw [← List.take_length_add_append, List.takeWhile_append_dropWhile]
  rw [htake]
  exact htext

/-! ## No number is longer -/

/-- What may follow the whole part of a number, and is not longer than what the scanner takes. -/
def Taken (u rest : List Char) : Prop := NoDigit (u ++ rest) ∧ u.length ≤ (number (u ++ rest)).2

theorem Taken.length_le {ds u rest cs : List Char} {c : Char} (hu : Taken u rest)
    (hds : ds ∈ digits) (h : ds ++ u ++ rest = c :: cs) :
    (ds ++ u).length ≤ (number cs).2 + 1 := by
  obtain ⟨hmore, hle⟩ := hu
  obtain ⟨c, ds, rfl, _, hall⟩ := mem_digits.1 hds
  rw [List.append_assoc, List.cons_append, List.cons.injEq] at h
  obtain ⟨rfl, rfl⟩ := h
  rw [number_append hall hmore]
  simp only [List.cons_append, List.length_cons, List.length_append]
  omega

theorem noDigit_exponent {e : Char} (rest : List Char) (he : e = 'e' ∨ e = 'E') :
    NoDigit (e :: rest) := by
  rcases he with rfl | rfl <;> exact noDigit_cons rest rfl

theorem noDigit_floatLetter {c : Char} (rest : List Char) (hc : c = 'f' ∨ c = 'F') :
    NoDigit (c :: rest) := by
  rcases hc with rfl | rfl <;> exact noDigit_cons rest rfl

theorem exponentRun_floatLetter {c : Char} (rest : List Char) (hc : c = 'f' ∨ c = 'F') :
    exponentRun (c :: rest) = 0 := by
  rcases hc with rfl | rfl <;> rfl

theorem ending_floatLetter {c : Char} {fraction exponent : Nat} (rest : List Char)
    (hc : c = 'f' ∨ c = 'F') (hparts : fraction = 0 → exponent = 0) :
    ending fraction exponent (c :: rest) = (.float, fraction + exponent + 1) := by
  have hletter : (c :: rest).head?.any ['f', 'F'].contains = true := by
    rcases hc with rfl | rfl <;> rfl
  have hfraction : (fraction == 0 && exponent == 0 || decide (0 < fraction)) = true := by
    rcases Nat.eq_zero_or_pos fraction with h | h
    · simp [h, hparts h]
    · simp [h]
  simp only [ending, hletter, hfraction, Bool.and_self, if_true]

theorem taken_longLetter {c : Char} (rest : List Char) (hc : c = 'l' ∨ c = 'L') :
    Taken [c] rest := by
  rcases hc with rfl | rfl <;>
  · refine ⟨noDigit_cons rest rfl, ?_⟩
    rw [List.singleton_append, number_of_parts (noDigit_cons rest rfl)
      rfl rfl rfl]
    exact Nat.le_refl 1

theorem taken_floatLetter {c : Char} (rest : List Char) (hc : c = 'f' ∨ c = 'F') :
    Taken [c] rest := by
  have hno := noDigit_floatLetter rest hc
  have hfraction : fractionRun (c :: rest) = 0 := by rcases hc with rfl | rfl <;> rfl
  refine ⟨hno, ?_⟩
  rw [List.singleton_append, number_of_parts hno hfraction (exponentRun_floatLetter rest hc) rfl,
    List.drop_zero, ending_floatLetter rest hc (fun _ => rfl)]
  exact Nat.le_refl 1

theorem taken_exponent {es : List Char} (rest : List Char) (hes : es ∈ Pattern.exponent) :
    Taken es rest := by
  obtain ⟨e, es, k, rfl, he, hwhole⟩ := mem_exponent.1 hes
  have hno := noDigit_exponent (es ++ rest) he
  have hfraction : fractionRun (e :: (es ++ rest)) = 0 := by rcases he with rfl | rfl <;> rfl
  have hle := le_number hno
  have hexponent := (exponentRun_of_whole rest he hwhole).1
  rw [hfraction, List.drop_zero] at hle
  refine ⟨hno, ?_⟩
  rw [List.cons_append, List.length_cons]
  omega

theorem taken_fraction {fs es : List Char} (rest : List Char) (hfs : fs ∈ digits)
    (hes : es = [] ∨ es ∈ Pattern.exponent) : Taken ('.' :: (fs ++ es)) rest := by
  have hno := noDigit_cons (c := '.') (fs ++ (es ++ rest)) rfl
  have hle := le_number hno
  refine ⟨by simpa using hno, ?_⟩
  rw [List.cons_append, List.append_assoc, List.length_cons, List.length_append]
  rcases hes with rfl | hes
  · have hfraction := length_le_fractionRun rest hfs
    simp only [List.nil_append] at hle ⊢
    rw [List.length_nil]
    omega
  · obtain ⟨e, es, k, rfl, he, hwhole⟩ := mem_exponent.1 hes
    have hfraction := fractionRun_of_digits hfs (noDigit_exponent (es ++ rest) he)
    have hexponent := (exponentRun_of_whole rest he hwhole).1
    rw [List.cons_append, hfraction, drop_cons_append] at hle
    rw [List.cons_append, List.length_cons]
    omega

/-- A fraction, and an exponent or none, in front of what goes on neither. -/
theorem number_of_fraction {fs es rest : List Char} (hfs : fs ∈ digits)
    (hes : es = [] ∨ es ∈ Pattern.exponent) (hrest : NoDigit rest) (hnone : exponentRun rest = 0) :
    number ('.' :: (fs ++ (es ++ rest))) = ending (1 + fs.length) es.length rest := by
  have hno := noDigit_cons (c := '.') (fs ++ (es ++ rest)) rfl
  rcases hes with rfl | hes
  · have hfraction := fractionRun_of_digits hfs hrest
    have hpoint := drop_cons_append '.' fs rest
    rw [List.nil_append] at hno ⊢
    exact number_of_parts hno hfraction (by rw [hpoint, hnone, List.length_nil]) hpoint
  · obtain ⟨e, es, k, rfl, he, hwhole⟩ := mem_exponent.1 hes
    have hfraction := fractionRun_of_digits hfs (noDigit_exponent (es ++ rest) he)
    have hexponent := (exponentRun_of_whole rest he hwhole).2 hrest
    have hpoint := drop_cons_append '.' fs (e :: (es ++ rest))
    have hend : ('.' :: (fs ++ e :: (es ++ rest))).drop (1 + fs.length + (1 + es.length)) =
        rest := by
      rw [← List.drop_drop, hpoint, drop_cons_append]
    rw [List.cons_append] at hno ⊢
    rw [number_of_parts hno hfraction (by rw [hpoint, hexponent]) hend, List.length_cons,
      Nat.add_comm es.length]

theorem number_of_exponent {es rest : List Char} (hes : es ∈ Pattern.exponent)
    (hrest : NoDigit rest) : number (es ++ rest) = ending 0 es.length rest := by
  obtain ⟨e, es, k, rfl, he, hwhole⟩ := mem_exponent.1 hes
  have hfraction : fractionRun (e :: (es ++ rest)) = 0 := by rcases he with rfl | rfl <;> rfl
  have hexponent := (exponentRun_of_whole rest he hwhole).2 hrest
  have hend : (e :: (es ++ rest)).drop (0 + (1 + es.length)) = rest := by
    rw [Nat.zero_add, drop_cons_append]
  rw [List.cons_append, number_of_parts (noDigit_exponent _ he) hfraction hexponent hend,
    List.length_cons, Nat.add_comm es.length]

theorem taken_fraction_floatLetter {fs es : List Char} {c : Char} (rest : List Char)
    (hfs : fs ∈ digits) (hes : es = [] ∨ es ∈ Pattern.exponent) (hc : c = 'f' ∨ c = 'F') :
    Taken ('.' :: (fs ++ es) ++ [c]) rest := by
  have htext : '.' :: (fs ++ es) ++ [c] ++ rest = '.' :: (fs ++ (es ++ c :: rest)) := by simp
  have hnumber := number_of_fraction hfs hes (noDigit_floatLetter rest hc)
    (exponentRun_floatLetter rest hc)
  rw [ending_floatLetter rest hc (by omega)] at hnumber
  refine ⟨by rw [htext]; exact noDigit_cons _ rfl, ?_⟩
  rw [htext, hnumber]
  simp only [List.length_append, List.length_cons, List.length_nil]
  omega

/-- No number that begins where the scanner takes one is longer than the one it takes. -/
theorem length_le_number {text rest cs : List Char} {c : Char}
    (htext : text ∈ Pattern.double + Pattern.float + Pattern.long + digits)
    (h : text ++ rest = c :: cs) : text.length ≤ (number cs).2 + 1 := by
  rcases htext with ((hdouble | hfloat) | hlong) | hdigits
  · rcases hdouble with hfraction | hscaled
    · obtain ⟨ds, fs, es, rfl, hds, hfs, hes⟩ := mem_fraction.1 hfraction
      exact (taken_fraction rest hfs hes).length_le hds h
    · obtain ⟨ds, hds, es, hes, rfl⟩ := Language.mem_mul.1 hscaled
      exact (taken_exponent rest hes).length_le hds h
  · rcases hfloat with hfraction | hwhole
    · obtain ⟨_, hnumber, _, ⟨letter, hletter, rfl⟩, rfl⟩ := Language.mem_mul.1 hfraction
      obtain ⟨ds, fs, es, rfl, hds, hfs, hes⟩ := mem_fraction.1 hnumber
      rw [List.append_assoc ds] at h ⊢
      exact (taken_fraction_floatLetter rest hfs hes (by simpa using hletter)).length_le hds h
    · obtain ⟨ds, hds, _, ⟨letter, hletter, rfl⟩, rfl⟩ := Language.mem_mul.1 hwhole
      exact (taken_floatLetter rest (by simpa using hletter)).length_le hds h
  · obtain ⟨ds, hds, _, ⟨letter, hletter, rfl⟩, rfl⟩ := Language.mem_mul.1 hlong
    exact (taken_longLetter rest (by simpa using hletter)).length_le hds h
  · obtain ⟨d, ds, rfl, _, hall⟩ := mem_digits.1 hdigits
    rw [List.cons_append, List.cons.injEq] at h
    obtain ⟨rfl, rfl⟩ := h
    have hrun := length_le_run rest hall
    have hnumber := run_le_number (ds ++ rest)
    rw [List.length_cons]
    omega

end Scanner

end TemplateExpr
