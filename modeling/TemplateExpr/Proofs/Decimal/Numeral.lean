-- Texts that are numbers. A grammar says which ones there are and what each stands for, and the
-- reader takes these and no others: digits with a point before, between or after them, and
-- words in letters of either case for the numbers that have no digits.
import TemplateExpr.Decimal.Numeral
import TemplateExpr.Proofs.Scanner.Numbers
import TemplateExpr.Text.Blank

namespace TemplateExpr

open Pattern Scanner

/-! ## Blanks at the ends -/

namespace Text

/-- What is left of a text without the blanks at its two ends. -/
structure Trimmed (cs ds : List Char) : Prop where
  within : ∃ before after, cs = before ++ ds ++ after ∧ (∀ c ∈ before, blank c = true) ∧
    ∀ c ∈ after, blank c = true
  head : ∀ c ∈ ds.head?, blank c = false
  last : ∀ c ∈ ds.getLast?, blank c = false

/-- Blanks around a text that has none are what is taken away. -/
theorem trimmed_append {before ds after : List Char} (hbefore : ∀ c ∈ before, blank c = true)
    (hafter : ∀ c ∈ after, blank c = true) (hds : ∀ c ∈ ds, blank c = false) :
    Trimmed (before ++ ds ++ after) ds where
  within := ⟨before, after, rfl, hbefore, hafter⟩
  head := fun c hc => hds c (List.mem_of_mem_head? hc)
  last := fun c hc => hds c (List.mem_of_mem_getLast? hc)

theorem not_blank_of_isDigit {c : Char} (hc : c.isDigit = true) : blank c = false := by
  obtain ⟨hle, hge⟩ := Bool.and_eq_true_iff.1 hc
  have hlower : 48 ≤ c.toNat := UInt32.le_iff_toNat_le.1 (of_decide_eq_true hle)
  have hupper : c.toNat ≤ 57 := UInt32.le_iff_toNat_le.1 (of_decide_eq_true hge)
  simp only [blank, Bool.or_eq_false_iff, Bool.and_eq_false_iff, beq_eq_false_iff_ne, ne_eq,
    decide_eq_false_iff_not]
  omega

theorem dropWhile_append {p : Char → Bool} {before rest : List Char}
    (hbefore : ∀ c ∈ before, p c = true) (hrest : ∀ c ∈ rest.head?, p c = false) :
    (before ++ rest).dropWhile p = rest := by
  rw [List.dropWhile_append_of_pos hbefore]
  cases rest with
  | nil => rfl
  | cons c rest => simp [hrest c rfl]

theorem not_blank_dropWhile (cs : List Char) :
    ∀ c ∈ (cs.dropWhile blank).head?, blank c = false := by
  intro c hc
  have h := List.head?_dropWhile_not blank cs
  rw [hc] at h
  simpa using h

theorem trimmed_trim (cs : List Char) : Trimmed cs (trim cs) := by
  have hfront := List.takeWhile_append_dropWhile (p := blank) (l := cs)
  have hback : trim cs ++ ((cs.dropWhile blank).reverse.takeWhile blank).reverse =
      cs.dropWhile blank := by
    rw [trim, ← List.reverse_append, List.takeWhile_append_dropWhile, List.reverse_reverse]
  refine ⟨⟨cs.takeWhile blank, ((cs.dropWhile blank).reverse.takeWhile blank).reverse, ?_,
    List.all_eq_true.1 List.all_takeWhile, ?_⟩, ?_, ?_⟩
  · rw [List.append_assoc, hback, hfront]
  · intro c hc
    exact List.all_eq_true.1 List.all_takeWhile c (List.mem_reverse.1 hc)
  · intro c hc
    apply not_blank_dropWhile cs
    rw [← hback, List.head?_append, hc]
    rfl
  · intro c hc
    rw [trim, List.getLast?_reverse] at hc
    exact not_blank_dropWhile _ c hc

theorem trim_of_trimmed {cs ds : List Char} (h : Trimmed cs ds) : trim cs = ds := by
  obtain ⟨⟨before, after, rfl, hbefore, hafter⟩, hhead, hlast⟩ := h
  rw [List.append_assoc, trim]
  by_cases hds : ds = []
  · subst hds
    have hblank : ∀ c ∈ before ++ after, blank c = true :=
      List.forall_mem_append.2 ⟨hbefore, hafter⟩
    have hnone : (before ++ after ++ []).dropWhile blank = [] := dropWhile_append hblank (by simp)
    rw [List.append_nil] at hnone
    simp [hnone]
  · have hfirst : (ds ++ after).head? = ds.head? := List.head?_append_of_ne_nil _ hds
    rw [dropWhile_append hbefore (hfirst ▸ hhead), List.reverse_append, dropWhile_append,
      List.reverse_reverse]
    · intro c hc
      exact hafter c (List.mem_reverse.1 hc)
    · rwa [List.head?_reverse]

end Text

/-! ## Whole numbers -/

theorem ne_nil_of_mem_digits {ds : List Char} (hds : ds ∈ digits) : ds ≠ [] := by
  obtain ⟨c, cs, rfl, _⟩ := mem_digits.1 hds
  exact List.cons_ne_nil c cs

namespace Decimal

theorem digits_mem (n : Nat) : digits n ∈ Pattern.digits :=
  mem_digits_of_ne_nil Nat.toDigits_ne_nil fun _ hc => isDigit_of_mem_digits hc

theorem digit_mem {c : Char} (hc : c.isDigit = true) : [c] ∈ Pattern.digits :=
  mem_digits_of_ne_nil (List.cons_ne_nil c []) (by simp [hc])

theorem append_zeros_mem {cs : List Char} (h : cs ∈ Pattern.digits) (n : Nat) :
    cs ++ List.replicate n '0' ∈ Pattern.digits := by
  apply mem_digits_of_ne_nil
  · simp [ne_nil_of_mem_digits h]
  · intro c hc
    rcases List.mem_append.1 hc with hc | hc
    · exact isDigit_of_mem h c hc
    · simp [List.eq_of_mem_replicate hc]

theorem whole_intDigits (k : Int) : Whole (intDigits k) k := by
  have hdigits := digits_mem k.natAbs
  unfold intDigits
  split
  · have hwhole := Whole.negative hdigits
    rw [ofDigits_digits] at hwhole
    rwa [show -(k.natAbs : Int) = k by omega] at hwhole
  · have hwhole := Whole.plain hdigits
    rw [ofDigits_digits] at hwhole
    rwa [show (k.natAbs : Int) = k by omega] at hwhole

theorem not_blank_of_mem_intDigits {k : Int} {c : Char} (hc : c ∈ intDigits k) :
    Text.blank c = false := by
  have of_digits : c ∈ digits k.natAbs → Text.blank c = false := fun hc =>
    Text.not_blank_of_isDigit (isDigit_of_mem_digits hc)
  unfold intDigits at hc
  split at hc
  · rcases List.mem_cons.1 hc with rfl | hc
    · decide
    · exact of_digits hc
  · exact of_digits hc

theorem ofDigits_zeros_append (n : Nat) (cs : List Char) :
    ofDigits (List.replicate n '0' ++ cs) = ofDigits cs := by
  induction n with
  | zero => rfl
  | succ n ih =>
    rw [List.replicate_succ, List.cons_append]
    exact ih

theorem ofDigits_append_zeros (cs : List Char) (n : Nat) :
    ofDigits (cs ++ List.replicate n '0') = ofDigits cs * 10 ^ n := by
  induction n with
  | zero => simp
  | succ n ih =>
    rw [List.replicate_succ', ← List.append_assoc, ofDigits, List.foldl_append, ← ofDigits, ih,
      Nat.pow_succ]
    simp only [List.foldl_cons, List.foldl_nil]
    rw [show '0'.toNat - 48 = 0 from rfl, Nat.add_zero, Nat.mul_comm, Nat.mul_assoc]

theorem le_length_padLeft (width n : Nat) : width ≤ (padLeft '0' width (digits n)).length := by
  rw [padLeft, List.length_append, List.length_replicate]
  omega

theorem isDigit_of_mem_padLeft {width n : Nat} {c : Char}
    (hc : c ∈ padLeft '0' width (digits n)) : c.isDigit = true := by
  rcases List.mem_append.1 hc with hc | hc
  · rw [List.eq_of_mem_replicate hc]
    rfl
  · exact isDigit_of_mem_digits hc

theorem readNat?_eq_some_iff {cs : List Char} {n : Nat} :
    readNat? cs = some n ↔ cs ∈ Pattern.digits ∧ ofDigits cs = n := by
  unfold readNat?
  split
  · rename_i h
    have hcs := mem_digits_of_ne_nil h.1 (List.all_eq_true.1 h.2)
    simp [hcs]
  · rename_i h
    have hcs : cs ∉ Pattern.digits := by
      intro hcs
      exact h ⟨ne_nil_of_mem_digits hcs, List.all_eq_true.2 (isDigit_of_mem hcs)⟩
    simp [hcs]

theorem readInt?_of_whole {cs : List Char} {k : Int} (h : Whole cs k) : readInt? cs = some k := by
  cases h with
  | plain hds =>
    have hread := readNat?_eq_some_iff.2 ⟨hds, rfl⟩
    obtain ⟨c, ds, rfl, hc, _⟩ := mem_digits.1 hds
    have hminus : c ≠ '-' := ne_of_class hc rfl
    have hplus : c ≠ '+' := ne_of_class hc rfl
    rw [readInt?.eq_3 _ (by simp [hminus]) (by simp [hplus]), hread]
    rfl
  | positive hds =>
    rw [readInt?, readNat?_eq_some_iff.2 ⟨hds, rfl⟩]
    rfl
  | negative hds =>
    rw [readInt?, readNat?_eq_some_iff.2 ⟨hds, rfl⟩]
    rfl

theorem readInt?_eq_some_iff {cs : List Char} {k : Int} : readInt? cs = some k ↔ Whole cs k := by
  refine ⟨?_, readInt?_of_whole⟩
  intro h
  unfold readInt? at h
  split at h
  all_goals
    obtain ⟨_, hread, rfl⟩ := Option.map_eq_some_iff.1 h
    obtain ⟨n, hn, hcast⟩ := Option.bind_eq_some_iff.1 hread
    obtain ⟨hds, rfl⟩ := readNat?_eq_some_iff.1 hn
    cases hcast
  · exact .negative hds
  · exact .positive hds
  · exact .plain hds

end Decimal

/-! ## Words -/

/-- A word in letters of either case. -/
def Spelled (cs : List Char) (word : String) : Prop := cs.map Char.toLower = word.toList

theorem sameLetters_iff {cs : List Char} {word : String}
    (hword : word.toList.map Char.toLower = word.toList) :
    Numeral.sameLetters cs word.toList = true ↔ Spelled cs word := by
  rw [Numeral.sameLetters, beq_iff_eq, hword, Spelled]

theorem toLower_of_isDigit {c : Char} (hc : c.isDigit = true) : c.toLower = c := by
  have hle : c.val ≤ '9'.val := of_decide_eq_true (Bool.and_eq_true_iff.1 hc).2
  have hupper : ¬(c.val ≥ 'A'.val ∧ c.val ≤ 'Z'.val) := by
    intro h
    exact absurd (UInt32.le_trans h.1 hle) (by decide)
  exact dif_neg hupper

/-! ## Numbers with a point or an exponent -/

namespace Numeral

/-- Digits, with a point among them or not, at either end as well. -/
inductive Pointed : List Char → Decimal → Prop
  | whole {ds} : ds ∈ digits → Pointed ds ⟨Decimal.ofDigits ds, 0⟩
  | point {ds fs} : (∀ c ∈ ds, c.isDigit = true) → (∀ c ∈ fs, c.isDigit = true) →
      ds ++ fs ≠ [] → Pointed (ds ++ '.' :: fs) ⟨Decimal.ofDigits (ds ++ fs), -(fs.length : Int)⟩

/-- A decimal, with a power of ten or not. -/
inductive Number : List Char → Decimal → Prop
  | plain {cs d} : Pointed cs d → Number cs d
  | scaled {cs d e es k} : Pointed cs d → e = 'e' ∨ e = 'E' → Whole es k →
      Number (cs ++ e :: es) ⟨d.coefficient, d.exponent + k⟩

/-- What a text says that has its sign already taken off. -/
inductive Unsigned (negative : Bool) : List Char → Numeral → Prop
  | infinite {cs} : Spelled cs "inf" ∨ Spelled cs "infinity" →
      Unsigned negative cs (.infinite negative)
  | nan {cs} : Spelled cs "nan" → Unsigned negative cs .nan
  | decimal {cs d} : Number cs d → Unsigned negative cs (.decimal negative d)

/-- What a text says that has at most one sign. -/
inductive Written : List Char → Numeral → Prop
  | plain {cs n} : Unsigned false cs n → Written cs n
  | positive {cs n} : Unsigned false cs n → Written ('+' :: cs) n
  | negative {cs n} : Unsigned true cs n → Written ('-' :: cs) n

theorem takeWhile_digits {ds rest : List Char} (hds : ∀ c ∈ ds, c.isDigit = true)
    (hrest : NoDigit rest) : (ds ++ rest).takeWhile Char.isDigit = ds ∧
      (ds ++ rest).dropWhile Char.isDigit = rest := by
  have hnone : rest.takeWhile Char.isDigit = [] := List.eq_nil_of_length_eq_zero hrest.run
  refine ⟨?_, Text.dropWhile_append hds hrest⟩
  rw [List.takeWhile_append_of_pos hds, hnone, List.append_nil]

theorem readDecimal?_of_pointed {cs rest : List Char} {d : Decimal} {k : Int}
    (h : Pointed cs d) (hdigit : NoDigit rest) (hpoint : rest.head? ≠ some '.')
    (hexponent : readExponent? rest = some k) :
    readDecimal? (cs ++ rest) = some ⟨d.coefficient, d.exponent + k⟩ := by
  cases h with
  | whole hds =>
    obtain ⟨htake, hdrop⟩ := takeWhile_digits (isDigit_of_mem hds) hdigit
    simp [readDecimal?, htake, hdrop, hpoint, hexponent, ne_nil_of_mem_digits hds]
  | @point ds fs hds hfs hne =>
    have hrest : NoDigit ('.' :: (fs ++ rest)) := noDigit_cons _ rfl
    obtain ⟨htake, hdrop⟩ := takeWhile_digits hds hrest
    obtain ⟨hfraction, hend⟩ := takeWhile_digits hfs hdigit
    have hsum : k - (fs.length : Int) = -(fs.length : Int) + k := by omega
    have hsome : ¬ (ds = [] ∧ fs = []) := by simpa using hne
    simp [readDecimal?, htake, hdrop, hfraction, hend, hexponent, hsum, hsome]

theorem readDecimal?_of_number {cs : List Char} {d : Decimal} (h : Number cs d) :
    readDecimal? cs = some d := by
  cases h with
  | plain h =>
    have hread := readDecimal?_of_pointed h (show NoDigit [] by simp [NoDigit]) (by simp) rfl
    rw [List.append_nil, Int.add_zero] at hread
    exact hread
  | scaled h he hes =>
    have hexponent := Decimal.readInt?_of_whole hes
    refine readDecimal?_of_pointed h (noDigit_exponent _ he) ?_ ?_
    · rcases he with rfl | rfl <;> simp
    · rw [readExponent?, if_pos he, hexponent]

theorem number_of_pointed {cs rest : List Char} {d : Decimal} {k : Int} (h : Pointed cs d)
    (hexponent : readExponent? rest = some k) :
    Number (cs ++ rest) ⟨d.coefficient, d.exponent + k⟩ := by
  cases rest with
  | nil =>
    cases hexponent
    rw [List.append_nil, Int.add_zero]
    exact .plain h
  | cons e es =>
    rw [readExponent?] at hexponent
    split at hexponent
    · rename_i he
      exact .scaled h he (Decimal.readInt?_eq_some_iff.1 hexponent)
    · cases hexponent

/-- The digits that a text begins with, and what comes after them. -/
theorem exists_digits (cs : List Char) :
    ∃ ds rest, cs = ds ++ rest ∧ (∀ c ∈ ds, c.isDigit = true) ∧
      cs.takeWhile Char.isDigit = ds ∧ cs.dropWhile Char.isDigit = rest :=
  ⟨_, _, List.takeWhile_append_dropWhile.symm, List.all_eq_true.1 List.all_takeWhile, rfl, rfl⟩

theorem number_of_readDecimal? {cs : List Char} {d : Decimal} (h : readDecimal? cs = some d) :
    Number cs d := by
  obtain ⟨ds, rest, rfl, hwhole, htake, hdrop⟩ := exists_digits cs
  simp only [readDecimal?, htake, hdrop] at h
  by_cases hpoint : rest.head? = some '.'
  · obtain ⟨rest, rfl⟩ := List.head?_eq_some_iff.1 hpoint
    obtain ⟨fs, ending, rfl, hfraction, htake, hdrop⟩ := exists_digits rest
    simp only [hpoint, if_true, List.tail_cons, htake, hdrop] at h
    obtain ⟨k, hk, h⟩ := Option.bind_eq_some_iff.1 h
    split at h
    · cases h
    · rename_i hne
      cases h
      have hnumber := number_of_pointed (.point hwhole hfraction (by simpa using hne)) hk
      simpa [Int.sub_eq_add_neg, Int.add_comm] using hnumber
  · simp only [hpoint, if_false] at h
    obtain ⟨k, hk, h⟩ := Option.bind_eq_some_iff.1 h
    split at h
    · cases h
    · rename_i hne
      cases h
      have hdigits := mem_digits_of_ne_nil (by simpa using hne) hwhole
      have hnumber := number_of_pointed (.whole hdigits) hk
      simpa using hnumber

theorem readDecimal?_eq_some_iff {cs : List Char} {d : Decimal} :
    readDecimal? cs = some d ↔ Number cs d := ⟨number_of_readDecimal?, readDecimal?_of_number⟩

theorem Number.begins {cs : List Char} {d : Decimal} (h : Number cs d) :
    ∃ c rest, cs = c :: rest ∧ (c.isDigit = true ∨ c = '.') := by
  have of_pointed : ∀ {cs d}, Pointed cs d → ∃ c rest, cs = c :: rest ∧
      (c.isDigit = true ∨ c = '.') := by
    intro cs d h
    cases h with
    | whole hds =>
      obtain ⟨c, ds, rfl, hc, _⟩ := mem_digits.1 hds
      exact ⟨c, ds, rfl, .inl hc⟩
    | @point ds fs hds _ _ =>
      cases ds with
      | nil => exact ⟨'.', fs, rfl, .inr rfl⟩
      | cons c ds => exact ⟨c, _, rfl, .inl (hds c List.mem_cons_self)⟩
  cases h with
  | plain h => exact of_pointed h
  | scaled h _ _ =>
    obtain ⟨c, rest, rfl, hc⟩ := of_pointed h
    exact ⟨c, _, rfl, hc⟩

/-- What begins with a digit or a point is no word. -/
theorem Number.not_spelled {cs : List Char} {d : Decimal} (h : Number cs d) {word : String}
    (hword : ∀ c ∈ word.toList.head?, c.isDigit = false ∧ c ≠ '.') : ¬ Spelled cs word := by
  obtain ⟨c, rest, rfl, hc⟩ := h.begins
  intro hspelled
  rw [Spelled, List.map_cons] at hspelled
  obtain ⟨hdigit, hpoint⟩ := hword c.toLower (by rw [← hspelled]; rfl)
  rcases hc with hc | rfl
  · rw [toLower_of_isDigit hc, hc] at hdigit
    cases hdigit
  · exact hpoint rfl

theorem readUnsigned?_eq_some_iff {negative : Bool} {cs : List Char} {n : Numeral} :
    readUnsigned? negative cs = some n ↔ Unsigned negative cs n := by
  have hinf : (sameLetters cs "inf".toList || sameLetters cs "infinity".toList) = true ↔
      Spelled cs "inf" ∨ Spelled cs "infinity" := by
    rw [Bool.or_eq_true, sameLetters_iff rfl, sameLetters_iff rfl]
  have hnan : sameLetters cs "nan".toList = true ↔ Spelled cs "nan" := sameLetters_iff rfl
  unfold readUnsigned?
  constructor
  · intro h
    split at h
    · cases h
      exact .infinite (hinf.1 ‹_›)
    · split at h
      · cases h
        exact .nan (hnan.1 ‹_›)
      · obtain ⟨d, hd, rfl⟩ := Option.map_eq_some_iff.1 h
        exact .decimal (readDecimal?_eq_some_iff.1 hd)
  · intro h
    cases h with
    | infinite h => rw [if_pos (hinf.2 h)]
    | nan h =>
      have hother : ¬ (Spelled cs "inf" ∨ Spelled cs "infinity") := by
        rintro (hother | hother) <;> exact absurd (h.symm.trans hother) (by decide)
      rw [if_neg (mt hinf.1 hother), if_pos (hnan.2 h)]
    | decimal h =>
      have hother : ¬ (Spelled cs "inf" ∨ Spelled cs "infinity") :=
        not_or.2 ⟨h.not_spelled (by simp), h.not_spelled (by simp)⟩
      rw [if_neg (mt hinf.1 hother), if_neg (mt hnan.1 (h.not_spelled (by simp))),
        readDecimal?_of_number h]
      rfl

/-- No word and no number begins with a sign. -/
theorem Unsigned.ne_sign {negative : Bool} {c : Char} {cs : List Char} {n : Numeral}
    (h : Unsigned negative (c :: cs) n) : c ≠ '-' ∧ c ≠ '+' := by
  have of_spelled : ∀ {word}, Spelled (c :: cs) word → '-' ∉ word.toList.head? →
      '+' ∉ word.toList.head? → c ≠ '-' ∧ c ≠ '+' := by
    intro word h hminus hplus
    rw [← h] at hminus hplus
    refine ⟨?_, ?_⟩ <;> rintro rfl
    · exact hminus rfl
    · exact hplus rfl
  cases h with
  | infinite h =>
    rcases h with h | h
    · exact of_spelled h (by simp) (by simp)
    · exact of_spelled h (by simp) (by simp)
  | nan h => exact of_spelled h (by simp) (by simp)
  | decimal h =>
    obtain ⟨_, _, heq, hc⟩ := h.begins
    cases heq
    rcases hc with hc | rfl
    · exact ⟨ne_of_class hc rfl, ne_of_class hc rfl⟩
    · simp

theorem read?_eq_some_iff {cs : List Char} {n : Numeral} : read? cs = some n ↔ Written cs n := by
  constructor
  · intro h
    unfold read? at h
    split at h
    · exact .negative (readUnsigned?_eq_some_iff.1 h)
    · exact .positive (readUnsigned?_eq_some_iff.1 h)
    · exact .plain (readUnsigned?_eq_some_iff.1 h)
  · intro h
    cases h with
    | plain h =>
      rw [read?.eq_3 cs, readUnsigned?_eq_some_iff.2 h]
      · rintro _ rfl
        exact h.ne_sign.1 rfl
      · rintro _ rfl
        exact h.ne_sign.2 rfl
    | positive h => rw [read?, readUnsigned?_eq_some_iff.2 h]
    | negative h => rw [read?, readUnsigned?_eq_some_iff.2 h]

end Numeral

end TemplateExpr
