-- Floating-point literals read back. What is written for a number is read as that number,
-- and with a fraction it is so with and without the letter of a float. Where there is an
-- exponent and no fraction no letter may follow, so such a float falls apart.
import TemplateExpr.Expr.Printer
import TemplateExpr.Proofs.Decimal.Shortest
import TemplateExpr.Proofs.Parser.Places
import TemplateExpr.Proofs.Scanner.Layout

namespace TemplateExpr

namespace Decimal

open Pattern Scanner

/-- One digit and a power of ten that is written out, which makes an exponent and no fraction. -/
def IsBare (d : Decimal) : Prop :=
  0 < d.coefficient ∧ d.coefficient < 10 ∧ (16 ≤ d.exponent ∨ d.exponent < -4)

/-! ## What is written stands for the number -/

theorem exponent_mem (k : Int) : 'e' :: intDigits k ∈ Pattern.exponent :=
  mem_exponent.2 ⟨'e', _, k, rfl, .inl rfl, whole_intDigits k⟩

/-- Digits, a fraction, and an exponent or none, which together stand for this number. -/
def Fractional (cs : List Char) (number : ℚ) : Prop :=
  ∃ ds fs es d, cs = ds ++ '.' :: (fs ++ es) ∧ ds ∈ Pattern.digits ∧ fs ∈ Pattern.digits ∧
    (es = [] ∨ es ∈ Pattern.exponent) ∧ Says cs d ∧ d.value = number

theorem scientific_eq {d : Decimal} {c : Char} {cs : List Char}
    (h : digits d.coefficient = c :: cs) : d.scientific =
      [c] ++ (if cs = [] then [] else '.' :: cs) ++ 'e' :: intDigits (cs.length + d.exponent) := by
  have hreach : d.reach - 1 = cs.length + d.exponent := by
    rw [reach, h, List.length_cons]
    omega
  simp [scientific, h, hreach]

theorem fractional_scientific {d : Decimal} {c : Char} {cs : List Char}
    (h : digits d.coefficient = c :: cs) (hcs : cs ≠ []) : Fractional d.scientific d.value := by
  have hall : ∀ x ∈ c :: cs, x.isDigit = true := fun x hx => isDigit_of_mem_digits (h ▸ hx)
  obtain ⟨hc, hrest⟩ := List.forall_mem_cons.1 hall
  have hds := digit_mem hc
  have hfs : cs ∈ Pattern.digits := mem_digits_of_ne_nil hcs hrest
  have hvalue : ofDigits ([c] ++ cs) = d.coefficient := by
    rw [List.singleton_append, ← h, ofDigits_digits]
  have hsays := Says.scaled (.fraction hds hfs) (.inl rfl)
    (whole_intDigits (cs.length + d.exponent))
  dsimp only at hsays
  rw [hvalue, neg_add_cancel_left] at hsays
  rw [scientific_eq h, if_neg hcs]
  exact ⟨[c], cs, 'e' :: intDigits (cs.length + d.exponent), d, by simp, hds, hfs,
    .inr (exponent_mem _), hsays, rfl⟩

theorem fractional_whole {d : Decimal} (h : 0 ≤ d.exponent) :
    Fractional (d.positional ++ ['.', '0']) d.value := by
  rw [positional, if_pos h]
  have hds := append_zeros_mem (digits_mem d.coefficient) d.exponent.toNat
  have hfs : ['0'] ∈ Pattern.digits := digit_mem rfl
  refine ⟨_, ['0'], [], _, rfl, hds, hfs, .inl rfl, .positional (.fraction hds hfs), ?_⟩
  rw [← List.replicate_one, List.append_assoc, List.replicate_append_replicate,
    ofDigits_append_zeros, ofDigits_digits, value, value, Nat.cast_mul, Nat.cast_pow,
    Nat.cast_ofNat, pow_succ, ← zpow_natCast, Int.toNat_of_nonneg h]
  simp only [List.length_replicate]
  field_simp
  ring

theorem fractional_positional {d : Decimal} (h : d.exponent < 0) :
    Fractional d.positional d.value := by
  rw [positional, if_neg (by omega)]
  dsimp only
  have hlength := le_length_padLeft ((-d.exponent).toNat + 1) d.coefficient
  have hvalue : ofDigits (padLeft '0' ((-d.exponent).toNat + 1) (digits d.coefficient)) =
      d.coefficient := by rw [padLeft, ofDigits_zeros_append, ofDigits_digits]
  have hall : ∀ c ∈ padLeft '0' ((-d.exponent).toNat + 1) (digits d.coefficient),
      c.isDigit = true := fun _ hc => isDigit_of_mem_padLeft hc
  generalize padLeft '0' ((-d.exponent).toNat + 1) (digits d.coefficient) = cs at *
  have hwhole : cs.take (cs.length - (-d.exponent).toNat) ∈ Pattern.digits := by
    refine mem_digits_of_ne_nil ?_ fun c hc => hall c (List.mem_of_mem_take hc)
    apply List.ne_nil_of_length_pos
    rw [List.length_take]
    omega
  have hfraction : cs.drop (cs.length - (-d.exponent).toNat) ∈ Pattern.digits := by
    refine mem_digits_of_ne_nil ?_ fun c hc => hall c (List.mem_of_mem_drop hc)
    apply List.ne_nil_of_length_pos
    rw [List.length_drop]
    omega
  have hsays := Says.positional (.fraction hwhole hfraction)
  have hexponent : -((cs.drop (cs.length - (-d.exponent).toNat)).length : Int) = d.exponent := by
    rw [List.length_drop]
    omega
  rw [List.take_append_drop, hvalue, hexponent] at hsays
  exact ⟨_, _, [], d, by rw [List.append_nil], hwhole, hfraction, .inl rfl, hsays, rfl⟩

/-- The tail of a number's digits is empty if the number has one digit. -/
theorem lt_ten_iff {n : Nat} {c : Char} {cs : List Char} (h : digits n = c :: cs) :
    n < 10 ↔ cs = [] := by
  have hlength := length_digits_le_iff (n := n) Nat.one_pos
  rw [h, List.length_cons, Nat.pow_one] at hlength
  rw [← hlength, ← List.length_eq_zero_iff]
  omega

/-- A literal has a fraction, unless it is bare. -/
theorem fractional_literal {d : Decimal} (h : ¬ d.IsBare) : Fractional d.literal d.value := by
  obtain ⟨c, cs, hdigits, _⟩ := digits_eq_cons d.coefficient
  unfold literal
  split
  · rename_i hfar
    apply fractional_scientific hdigits
    intro hcs
    have hlt := (lt_ten_iff hdigits).2 hcs
    rw [reach, hdigits, hcs] at hfar
    refine h ⟨Nat.pos_of_ne_zero hfar.1, hlt, ?_⟩
    simpa using hfar.2
  · split
    · exact fractional_whole ‹_›
    · exact fractional_positional (by omega)

theorem literal_of_isBare {d : Decimal} (h : d.IsBare) :
    ∃ c, c.isDigit = true ∧ digits d.coefficient = [c] ∧
      d.literal = c :: 'e' :: intDigits d.exponent := by
  obtain ⟨hpos, hlt, hfar⟩ := h
  obtain ⟨c, cs, hdigits, hc, _⟩ := digits_eq_cons d.coefficient
  have hcs := (lt_ten_iff hdigits).1 hlt
  subst hcs
  refine ⟨c, hc, hdigits, ?_⟩
  rw [literal, if_pos, scientific_eq hdigits]
  · simp
  · rw [reach, hdigits]
    exact ⟨by omega, by simpa using hfar⟩

/-! ## Reading it -/

theorem reads_double {cs : List Char} {d : Decimal} (h : Fractional cs d.value) :
    Reads cs (.double (.ofDecimal false d)) := by
  obtain ⟨ds, fs, es, d', hcs, hds, hfs, hes, hsays, hvalue⟩ := h
  rw [← Binary.ofDecimal_congr false hvalue]
  exact .double (.inl (mem_fraction.2 ⟨ds, fs, es, hcs, hds, hfs, hes⟩)) hsays

theorem reads_float {cs : List Char} {d : Decimal} (h : Fractional cs d.value) :
    Reads (cs ++ ['f']) (.float (.ofDecimal false d)) := by
  obtain ⟨ds, fs, es, d', hcs, hds, hfs, hes, hsays, hvalue⟩ := h
  have hnumber := mem_fraction.2 ⟨ds, fs, es, hcs, hds, hfs, hes⟩
  have hletter : ['f'] ∈ floatLetter := ⟨'f', rfl, rfl⟩
  rw [← Binary.ofDecimal_congr false hvalue]
  exact .float (.inl (Language.append_mem_mul hnumber hletter)) hsays

theorem says_of_isBare {d : Decimal} (h : d.IsBare) : Says d.literal d := by
  obtain ⟨c, hc, hdigits, hliteral⟩ := literal_of_isBare h
  have hds := digit_mem hc
  have hsays := Says.scaled (.whole hds) (.inl rfl) (whole_intDigits d.exponent)
  rw [← hdigits, ofDigits_digits, Int.zero_add, hdigits] at hsays
  rwa [hliteral]

theorem double_mem_of_isBare {d : Decimal} (h : d.IsBare) : d.literal ∈ Pattern.double := by
  obtain ⟨c, hc, _, hliteral⟩ := literal_of_isBare h
  have hds := digit_mem hc
  rw [hliteral]
  exact .inr (Language.append_mem_mul hds (exponent_mem _))

theorem reads_literal (d : Decimal) : Reads d.literal (.double (.ofDecimal false d)) := by
  by_cases h : d.IsBare
  · exact .double (double_mem_of_isBare h) (says_of_isBare h)
  · exact reads_double (fractional_literal h)

/-- The letter after a bare literal is a name of its own. -/
theorem scans_bare {d : Decimal} (h : d.IsBare) :
    Scans (d.literal ++ ['f']) [.double (.ofDecimal false d), .identifier "f"] [] := by
  have hread : Form.read? d.literal .double = some (.double (.ofDecimal false d)) := by
    rw [Form.read?, read?_of_says (says_of_isBare h)]
    rfl
  have hname : Scans ['f'] [.identifier "f"] [] :=
    scans_word rfl (List.forall_mem_nil _) (by simp)
  obtain ⟨c, hc, _, hliteral⟩ := literal_of_isBare h
  have hlength := number_of_exponent (exponent_mem d.exponent) (noDigit_cons (c := 'f') [] rfl)
  have hending : ending 0 ('e' :: intDigits d.exponent).length ['f'] =
      (.double, ('e' :: intDigits d.exponent).length) := by simp [ending]
  rw [hending] at hlength
  rw [hliteral] at hread ⊢
  have hform : classify c ('e' :: intDigits d.exponent ++ ['f']) =
      (.double, ('e' :: intDigits d.exponent).length) := by
    rw [classify_of_isDigit _ hc, hlength]
  have hnumber : Scans (c :: 'e' :: intDigits d.exponent) [.double (.ofDecimal false d)] ['f'] :=
    scans_token .double hform hread
  exact hnumber.append hname

end Decimal

/-! ## Literals -/

open Pattern Scanner

/-- The text is scanned as this token and no other. -/
def ScansAs (text : String) (token : Token) : Prop :=
  ∃ span, Token.ofSource text = .ok [(token, span)]

theorem scansAs_of_reads {slice : List Char} {token : Token} (h : Reads slice token) :
    ScansAs (String.ofList slice) token := by
  have hscans : Scans (String.ofList slice).toList [token] [] := by
    rw [String.toList_ofList]
    exact scans_slice h (by simp [Parted])
  obtain ⟨placed, hplaced, hmap⟩ := hscans.ofSource
  obtain ⟨⟨_, span⟩, rfl, rfl⟩ := List.map_eq_singleton_iff.1 hmap
  exact ⟨span, hplaced⟩

namespace Token

/-- A floating-point number that is neither infinite nor the result of no number. -/
inductive IsFinite : Token → Prop
  | double {negative m e h} : IsFinite (.double (.finite negative m e h))
  | float {negative m e h} : IsFinite (.float (.finite negative m e h))

/-- A float that is written with an exponent and without a fraction. -/
def IsBare : Token → Prop
  | float x => ∃ d, x.decimal? = some d ∧ d.IsBare
  | _ => False

end Token

theorem ofDecimal_of_reads_double {slice : List Char} {x : Double}
    (h : Reads slice (.double x)) : ∃ d, .ofDecimal false d = x := by
  cases h with
  | double _ _ => exact ⟨_, rfl⟩
  | entry hentry => simp [keywords, symbols] at hentry

theorem ofDecimal_of_reads_float {slice : List Char} {x : Single}
    (h : Reads slice (.float x)) : ∃ d, .ofDecimal false d = x := by
  cases h with
  | float _ _ => exact ⟨_, rfl⟩
  | entry hentry => simp [keywords, symbols] at hentry

/-- What is read is never negative, a sign is a token of its own. -/
theorem unsigned_of_reads {slice : List Char} {token : Token} (h : Reads slice token)
    (hfinite : token.IsFinite) : (∃ m e hm, token = .double (.finite false m e hm)) ∨
      ∃ m e hm, token = .float (.finite false m e hm) := by
  cases hfinite with
  | double =>
    obtain ⟨d, hd⟩ := ofDecimal_of_reads_double h
    have hsign := Binary.negative_of_ofDecimal hd
    subst hsign
    exact .inl ⟨_, _, _, rfl⟩
  | float =>
    obtain ⟨d, hd⟩ := ofDecimal_of_reads_float h
    have hsign := Binary.negative_of_ofDecimal hd
    subst hsign
    exact .inr ⟨_, _, _, rfl⟩

/-- A token that is a literal is an expression by itself. -/
theorem ofSource_literal {source : String} {token : Token} {span : Span} {value : Literal}
    (h : Token.ofSource source = .ok [(token, span)])
    (hvalue : Parser.literal? token = some value) :
    Expr.ofSource source = .ok (.literal value span) := by
  rw [Expr.ofSource, h]
  cases token with
  | null | bool _ | integer _ | long _ | float _ | double _ | string _ =>
    cases hvalue
    rfl
  | _ => cases hvalue

theorem text_of_decimal? {f : Binary.Format} {m : Nat} {e : Int} {h : f.Canonical m e}
    {d : Decimal} (hd : (Binary.finite false m e h).decimal? = some d) :
    (Binary.finite false m e h).literalText = String.ofList d.literal := by
  rw [Binary.literalText, Binary.textWith, hd]
  rfl

theorem text_double_survives {m : Nat} {e : Int} (h : Binary.Format.double.Canonical m e) :
    ScansAs (Literal.double (.finite false m e h)).text (.double (.finite false m e h)) := by
  obtain ⟨d, hd, hread⟩ := Binary.ofDecimal_decimal? Binary.aroundOne_double h
  rw [Literal.text, text_of_decimal? hd, ← hread]
  exact scansAs_of_reads (Decimal.reads_literal d)

theorem text_float_survives_iff {m : Nat} {e : Int} (h : Binary.Format.single.Canonical m e) :
    ScansAs (Literal.float (.finite false m e h)).text (.float (.finite false m e h)) ↔
      ¬ (Token.float (.finite false m e h)).IsBare := by
  obtain ⟨d, hd, hread⟩ := Binary.ofDecimal_decimal? Binary.aroundOne_single h
  have htext : (Literal.float (.finite false m e h)).text = String.ofList (d.literal ++ ['f']) := by
    rw [Literal.text, text_of_decimal? hd, String.ofList_append]
  have hbare : (Token.float (.finite false m e h)).IsBare ↔ d.IsBare := by
    simp [Token.IsBare, hd]
  rw [htext, hbare]
  constructor
  · rintro ⟨span, hscan⟩ hd
    have hscans := Decimal.scans_bare hd
    rw [← String.toList_ofList (l := d.literal ++ ['f'])] at hscans
    obtain ⟨placed, hplaced, hmap⟩ := hscans.ofSource
    rw [hscan] at hplaced
    cases hplaced
    cases hmap
  · intro hd
    rw [← hread]
    exact scansAs_of_reads (Decimal.reads_float (Decimal.fractional_literal hd))

/-- The text of a number that a source is made of is scanned as that number again, unless it is a
bare float. -/
theorem a_number_survives_unless_it_is_a_bare_float (source : String) (token : Token)
    (span : Span) (h : Token.ofSource source = .ok [(token, span)]) (hfinite : token.IsFinite) :
    ∃ e, Expr.ofSource source = .ok e ∧ (ScansAs e.text token ↔ ¬ token.IsBare) := by
  obtain ⟨_, slice, _, _, _, _, hreads⟩ :=
    (stands_of_ofSource h).1 token span (List.mem_singleton_self _)
  rcases unsigned_of_reads hreads hfinite with ⟨m, e, hm, rfl⟩ | ⟨m, e, hm, rfl⟩
  · refine ⟨_, ofSource_literal h rfl, ?_⟩
    simp only [Expr.text, Token.IsBare, not_false_eq_true, iff_true]
    exact text_double_survives hm
  · exact ⟨_, ofSource_literal h rfl, text_float_survives_iff hm⟩

/-- A double that its source writes with an exponent. -/
theorem a_double_with_an_exponent_survives :
    Token.ofSource "15e-1" = .ok [(.double (.ofDecimal false ⟨15, -1⟩), ⟨0, 5, 1⟩)] ∧
      ∃ e, Expr.ofSource "15e-1" = .ok e ∧
        (ScansAs e.text (.double (.ofDecimal false ⟨15, -1⟩)) ↔
          ¬ (Token.double (.ofDecimal false ⟨15, -1⟩)).IsBare) := by
  have htokens : Token.ofSource "15e-1" =
      .ok [(.double (.ofDecimal false ⟨15, -1⟩), ⟨0, 5, 1⟩)] := by decide +kernel
  exact ⟨htokens, a_number_survives_unless_it_is_a_bare_float _ _ _ htokens .double⟩

/-- Ten to the sixteenth power loses the letter of a float. -/
theorem a_bare_float_falls_apart :
    ¬ ∀ source token span, Token.ofSource source = .ok [(token, span)] → token.IsFinite →
      ∃ e, Expr.ofSource source = .ok e ∧ ScansAs e.text token := by
  intro hall
  have htokens : Token.ofSource "1.0e16f" =
      .ok [(.float (.ofDecimal false ⟨10, 15⟩), ⟨0, 7, 1⟩)] := by decide +kernel
  have htext : (Literal.float (.ofDecimal false ⟨10, 15⟩)).text = "1e16f" := by decide +kernel
  have hagain : Token.ofSource "1e16f" = .ok [(.double (.ofDecimal false ⟨1, 16⟩), ⟨0, 4, 1⟩),
      (.identifier "f", ⟨4, 5, 1⟩)] := by decide +kernel
  obtain ⟨e, he, span, hscan⟩ := hall _ _ _ htokens .float
  rw [ofSource_literal htokens rfl] at he
  cases he
  rw [Expr.text, htext, hagain] at hscan
  cases hscan

end TemplateExpr
