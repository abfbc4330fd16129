-- Where a scan fails. Up to there the text is tokens and layout as everywhere. There nothing
-- that is declared begins, or the longest of what is declared is a literal that stands for
-- no token. The line of the fault counts the line breaks before it; only from a string that
-- is never closed line breaks are taken off that were not counted.
import TemplateExpr.Proofs.Scanner.Layout

namespace TemplateExpr

namespace Scanner

open Pattern

/-! ## Texts before a fault, and faults -/

/-- A text of tokens and layout in front of some rest. -/
inductive Filled : List Char → List Char → Prop
  | nil {rest} : Filled [] rest
  | layout {gap text rest} : Layout gap (text ++ rest) → Filled text rest →
      Filled (gap ++ text) rest
  | token {slice token text rest} : Longest slice (text ++ rest) → Reads slice token →
      Filled text rest → Filled (slice ++ text) rest

/-- No declared text begins here. -/
def Unmatched (text : List Char) : Prop := ∀ cs ∈ declared, ¬ cs <+: text

/-- What a scan cannot go on from: a character that nothing begins with, a string that is never
closed, or a literal that stands for no token. -/
inductive Faulty : List Char → List Char → Prop
  | stray {c rest} : c ≠ '"' → Unmatched (c :: rest) → Faulty [c] rest
  | openString {cs rest} : Unmatched ('"' :: (cs ++ rest)) → Faulty ('"' :: cs) rest
  | rejected {slice rest} : slice ∈ digits + Pattern.long + Pattern.string →
      Longest slice rest → (∀ token, ¬ Reads slice token) → Faulty slice rest

/-- A quote that opens a string which is never closed. -/
def Unclosed (slice rest : List Char) : Prop :=
  slice.head? = some '"' ∧ Unmatched (slice ++ rest)

/-! ## Forms -/

/-- What has no form of its own is a string without an end, or one character. -/
theorem classify_of_not_declared {c : Char} {cs : List Char}
    (h : ¬ (classify c cs).1.Declared) :
    c = '"' ∧ (classify c cs).1 = .openString ∨ c ≠ '"' ∧ classify c cs = (.stray, 0) := by
  by_cases hquote : c = '"'
  · subst hquote
    rw [classify_quote] at h ⊢
    by_cases hclosed : (stringRun cs).1 = true
    · simp [hclosed, Form.Declared] at h
    · simp [hclosed]
  · refine .inr ⟨hquote, ?_⟩
    have hnumber := declared_number cs
    simp only [classify, hquote, if_false] at h ⊢
    split_ifs at h ⊢
    · simp [Form.Declared] at h
    · simp [Form.Declared] at h
    · simp [Form.Declared] at h
    · exact absurd hnumber h
    · simp [Form.Declared] at h
    · cases hsymbol : symbol? c cs with
      | none => rfl
      | some found => simp [hsymbol, Form.Declared] at h

/-- Every piece is placed on the line that the counter stood at in front of it, but for a string
without an end. -/
theorem place_of_classify {c : Char} {cs : List Char} (h : (classify c cs).1 ≠ .openString)
    (offset line : Nat) :
    (classify c cs).1.place offset line (c :: cs.take (classify c cs).2) =
      ⟨offset, offset + bytes (c :: cs.take (classify c cs).2), line⟩ := by
  by_cases hdeclared : (classify c cs).1.Declared
  · exact (piece_of_classify c cs hdeclared).place offset line
  · rcases classify_of_not_declared hdeclared with ⟨_, hopen⟩ | ⟨_, hstray⟩
    · exact absurd hopen h
    · have hbreak : c ≠ '\n' := by
        rintro rfl
        cases hstray
      have hcount : lineBreaks [c] = 0 := List.count_eq_zero.2 (by simpa using hbreak.symm)
      simp only [hstray, List.take_zero, Form.place, Form.counted, hcount, Nat.sub_zero]

theorem unmatched_of_not_declared {c : Char} {cs : List Char}
    (h : ¬ (classify c cs).1.Declared) : Unmatched (c :: cs) := by
  rintro text htext ⟨rest, hrest⟩
  exact h (classify_of_declared htext hrest).1

theorem not_unmatched_of_longest {slice rest : List Char} (h : Longest slice rest) :
    ¬ Unmatched (slice ++ rest) :=
  fun hunmatched => hunmatched slice h.declared (List.prefix_append slice rest)

/-- A text that is not skipped has one form. -/
theorem Piece.form_eq {slice : List Char} {form form' : Form} (h : Piece slice form)
    (h' : Piece slice form') (hform : form.isSkipped = false) (hform' : form'.isSkipped = false) :
    form = form' := by
  cases slice with
  | nil => exact absurd rfl (ne_nil_of_declared h.declared)
  | cons c cs =>
    have hparted : Parted [] := by simp [Parted]
    have hclass := classify_of_piece h hform hparted
    have hclass' := classify_of_piece h' hform' hparted
    rw [hclass] at hclass'
    exact congrArg Prod.fst hclass'

theorem not_reads_of_read? {slice : List Char} {form : Form} (h : Piece slice form)
    (hform : form.isSkipped = false) (hread : form.read? slice = none) (token : Token) :
    ¬ Reads slice token := by
  intro hreads
  obtain ⟨form', hpiece, hread'⟩ := piece_of_reads hreads
  rw [← h.form_eq hpiece hform (isSkipped_of_read? hread'), hread] at hread'
  cases hread'

/-- Only numbers without a fraction and strings can be refused. -/
theorem literal_of_read? {slice : List Char} {form : Form} (h : Piece slice form)
    (hform : form.isSkipped = false) (hread : form.read? slice = none) :
    slice ∈ digits + Pattern.long + Pattern.string := by
  cases h with
  | lineBreak | blanks _ | comment _ => cases hform
  | string hstring => exact .inr hstring
  | word _ => cases hread
  | symbol _ => cases hread
  | number hnumber =>
    cases hnumber with
    | integer hds => exact .inl (.inl hds)
    | long hds hc =>
      exact .inl (.inr (Language.append_mem_mul hds (mem_longLetter (by simpa using hc))))
    | double _ hsays => simp [Form.read?, read?_of_says hsays] at hread
    | float _ hsays => simp [Form.read?, read?_of_says hsays] at hread

/-- What cannot be read is a fault, and a string without an end only where its form says so. -/
theorem faulty_of_read? {c : Char} {cs : List Char}
    (hform : (classify c cs).1.isSkipped = false)
    (hread : (classify c cs).1.read? (c :: cs.take (classify c cs).2) = none) :
    Faulty (c :: cs.take (classify c cs).2) (cs.drop (classify c cs).2) ∧
      (Unclosed (c :: cs.take (classify c cs).2) (cs.drop (classify c cs).2) ↔
        (classify c cs).1 = .openString) := by
  have hwhole : c :: cs.take (classify c cs).2 ++ cs.drop (classify c cs).2 = c :: cs := by
    rw [List.cons_append, List.take_append_drop]
  by_cases hdeclared : (classify c cs).1.Declared
  · have hpiece := piece_of_classify c cs hdeclared
    have hlongest := longest_of_classify c cs hdeclared
    refine ⟨.rejected (literal_of_read? hpiece hform hread) hlongest
      (not_reads_of_read? hpiece hform hread), ?_⟩
    constructor
    · rintro ⟨_, hunmatched⟩
      exact absurd hunmatched (not_unmatched_of_longest hlongest)
    · intro hopen
      exact absurd hopen hdeclared.2
  · have hunmatched := unmatched_of_not_declared hdeclared
    rcases classify_of_not_declared hdeclared with ⟨rfl, hopen⟩ | ⟨hquote, hstray⟩
    · rw [← hwhole] at hunmatched
      exact ⟨.openString hunmatched, fun _ => hopen, fun _ => ⟨rfl, hunmatched⟩⟩
    · simp only [hstray, List.take_zero, List.drop_zero]
      refine ⟨.stray hquote hunmatched, ?_⟩
      simp [Unclosed, hquote]

/-! ## The scan -/

/-- Where a fault is said to be. -/
structure Located (before slice rest : List Char) (span : Span) : Prop where
  start : span.start = bytes before
  stop : span.stop = bytes before + bytes slice
  line : ¬ Unclosed slice rest → span.line = 1 + lineBreaks before
  line_of_unclosed : Unclosed slice rest → span.line = 1 + lineBreaks before - lineBreaks slice

/-- A scan of a text after another one fails like this: where the text is filled no longer. -/
def FailsIn (before cs : List Char) (err : SyntaxError) : Prop :=
  ∃ text slice rest span, cs = text ++ (slice ++ rest) ∧ Filled text (slice ++ rest) ∧
    Faulty slice rest ∧ err = rejected slice span ∧ Located (before ++ text) slice rest span

/-- One more piece in front of the text. -/
theorem FailsIn.cons {before piece more : List Char} {err : SyntaxError}
    (h : FailsIn (before ++ piece) more err)
    (hpiece : ∀ text rest, more = text ++ rest → Filled text rest → Filled (piece ++ text) rest) :
    FailsIn before (piece ++ more) err := by
  obtain ⟨text, slice, rest, span, rfl, hfilled, hfaulty, herr, hlocated⟩ := h
  refine ⟨piece ++ text, slice, rest, span, by simp, hpiece text _ rfl hfilled, hfaulty, herr, ?_⟩
  rwa [← List.append_assoc]

theorem filled_of_skipped {c : Char} {cs text rest : List Char}
    (h : (classify c cs).1.isSkipped = true) (hrest : cs.drop (classify c cs).2 = text ++ rest)
    (htext : Filled text rest) : Filled (c :: cs.take (classify c cs).2 ++ text) rest := by
  have hlayout : Layout (c :: cs.take (classify c cs).2 ++ []) (text ++ rest) :=
    layout_of_classify h hrest .nil
  rw [List.append_nil] at hlayout
  exact .layout hlayout htext

theorem filled_of_token {c : Char} {cs text rest : List Char} {token : Token}
    (hread : (classify c cs).1.read? (c :: cs.take (classify c cs).2) = some token)
    (hrest : cs.drop (classify c cs).2 = text ++ rest) (htext : Filled text rest) :
    Filled (c :: cs.take (classify c cs).2 ++ text) rest := by
  have hform := declared_of_read? hread
  have hlongest := longest_of_classify c cs hform
  rw [hrest] at hlongest
  exact .token hlongest (reads_of_read? (piece_of_classify c cs hform) hread) htext

theorem failsIn_of_read? {c : Char} {cs before : List Char} {offset line : Nat}
    (hcounts : Counts before offset line) (hform : (classify c cs).1.isSkipped = false)
    (hread : (classify c cs).1.read? (c :: cs.take (classify c cs).2) = none) :
    FailsIn before (c :: cs) (rejected (c :: cs.take (classify c cs).2)
      ((classify c cs).1.place offset line (c :: cs.take (classify c cs).2))) := by
  obtain ⟨hfaulty, hunclosed⟩ := faulty_of_read? hform hread
  obtain ⟨rfl, rfl⟩ := hcounts
  refine ⟨[], c :: cs.take (classify c cs).2, cs.drop (classify c cs).2, _, ?_, .nil, hfaulty, rfl,
    ?_⟩
  · rw [List.nil_append, List.cons_append, List.take_append_drop]
  · rw [List.append_nil]
    refine ⟨rfl, rfl, ?_, ?_⟩
    · intro hclosed
      rw [hunclosed] at hclosed
      rw [place_of_classify hclosed]
    · intro hopen
      rw [hunclosed] at hopen
      rw [hopen]
      rfl

theorem failsIn_of_scan {offset line : Nat} {cs before : List Char} {err : SyntaxError}
    (h : scan offset line cs = .error err) (hcounts : Counts before offset line) :
    FailsIn before cs err := by
  induction offset, line, cs using scan.induct generalizing before with
  | case1 offset line =>
    rw [scan] at h
    cases h
  | case2 offset line c cs form slice rest place =>
    rename_i hskipped ih
    have hpiece := piece_of_classify c cs (declared_of_isSkipped hskipped)
    rw [scan_of_skipped offset line hskipped] at h
    have hfails := (ih h (hcounts.after hpiece)).cons fun text rest' hrest htext =>
      filled_of_skipped hskipped hrest htext
    rwa [List.cons_append, List.take_append_drop] at hfails
  | case3 offset line c cs form slice =>
    rename_i hskipped hread
    have hform := Bool.eq_false_iff.2 hskipped
    rw [scan_of_rejected offset line hform hread] at h
    cases h
    exact failsIn_of_read? hcounts hform hread
  | case4 offset line c cs form slice rest place hskipped token =>
    rename_i hread ih
    have hpiece := piece_of_classify c cs (declared_of_read? hread)
    rw [scan_of_token offset line hread] at h
    cases hscan : scan (offset + bytes slice) (form.counted line slice) rest with
    | ok more =>
      rw [hscan] at h
      cases h
    | error err' =>
      rw [hscan] at h
      cases h
      have hfails := (ih hscan (hcounts.after hpiece)).cons fun text rest' hrest htext =>
        filled_of_token hread hrest htext
      rwa [List.cons_append, List.take_append_drop] at hfails

theorem Located.line_iff {before slice rest : List Char} {span : Span}
    (h : Located before slice rest span) :
    span.line = 1 + lineBreaks before ↔ ¬ (Unclosed slice rest ∧ '\n' ∈ slice) := by
  by_cases hopen : Unclosed slice rest
  · have hline := h.line_of_unclosed hopen
    have hcount : lineBreaks slice = 0 ↔ '\n' ∉ slice := List.count_eq_zero
    simp only [hopen, true_and, ← hcount]
    omega
  · simp [h.line hopen, hopen]

/-- An error of the scanner points at the first place where it cannot go on: nothing that is
declared begins there, or the literal there stands for no token. It is about the range of a number
exactly where a digit stands. Its line is the line of that place, except for a string over several
lines that is never closed, which is placed too high by the line breaks inside it. -/
theorem a_lexical_error_points_at_the_first_fault (source : String) (err : SyntaxError)
    (h : Token.ofSource source = .error err) :
    ∃ before slice rest span, source.toList = before ++ (slice ++ rest) ∧
      Filled before (slice ++ rest) ∧ Faulty slice rest ∧
      span.start = bytes before ∧ span.stop = bytes before + bytes slice ∧
      (span.line = 1 + lineBreaks before ↔ ¬ (Unclosed slice rest ∧ '\n' ∈ slice)) ∧
      (Unclosed slice rest → lineBreaks slice ≤ 1 + lineBreaks before →
        span.line + lineBreaks slice = 1 + lineBreaks before) ∧
      (slice.head?.any Char.isDigit = true ∧ err = .outOfRange (String.ofList slice) span ∨
        slice.head?.any Char.isDigit = false ∧
          err = .unexpectedToken (String.ofList slice) span) := by
  obtain ⟨before, slice, rest, span, hsource, hfilled, hfaulty, rfl, hlocated⟩ :=
    failsIn_of_scan h .start
  refine ⟨before, slice, rest, span, hsource, hfilled, hfaulty, hlocated.start, hlocated.stop,
    hlocated.line_iff, ?_, ?_⟩
  · intro hopen hle
    have hline : span.line = 1 + lineBreaks before - lineBreaks slice :=
      hlocated.line_of_unclosed hopen
    omega
  · unfold rejected
    by_cases hdigit : slice.head?.any Char.isDigit = true
    · simp [hdigit]
    · simp [hdigit]

/-- A string with a backslash where none may stand, on the second line. -/
theorem a_refused_string_is_placed_on_its_line :
    Token.ofSource "1\n\"a\\q\nb\"" = .error (.unexpectedToken "\"a\\q\nb\"" ⟨2, 9, 2⟩) ∧
      ∃ before slice rest span, "1\n\"a\\q\nb\"".toList = before ++ (slice ++ rest) ∧
        Filled before (slice ++ rest) ∧ Faulty slice rest ∧
        span.start = bytes before ∧ span.stop = bytes before + bytes slice ∧
        (span.line = 1 + lineBreaks before ↔ ¬ (Unclosed slice rest ∧ '\n' ∈ slice)) ∧
        (Unclosed slice rest → lineBreaks slice ≤ 1 + lineBreaks before →
          span.line + lineBreaks slice = 1 + lineBreaks before) ∧
        (slice.head?.any Char.isDigit = true ∧
            SyntaxError.unexpectedToken "\"a\\q\nb\"" ⟨2, 9, 2⟩ =
              .outOfRange (String.ofList slice) span ∨
          slice.head?.any Char.isDigit = false ∧
            SyntaxError.unexpectedToken "\"a\\q\nb\"" ⟨2, 9, 2⟩ =
              .unexpectedToken (String.ofList slice) span) := by
  have hscan : Token.ofSource "1\n\"a\\q\nb\"" =
      .error (.unexpectedToken "\"a\\q\nb\"" ⟨2, 9, 2⟩) := by decide +kernel
  exact ⟨hscan, a_lexical_error_points_at_the_first_fault _ _ hscan⟩

/-- The string begins on the second line, and the error says that it begins on the first. -/
theorem an_open_string_over_two_lines_is_placed_too_high :
    Token.ofSource "\n\"a\nb" = .error (.unexpectedToken "\"a\nb" ⟨1, 5, 1⟩) ∧
      ∀ before rest, "\n\"a\nb".toList = before ++ rest → bytes before = 1 →
        1 ≠ 1 + lineBreaks before := by
  refine ⟨by decide +kernel, ?_⟩
  intro before rest hsource hbytes
  have hsplit : ['\n'] ++ "\"a\nb".toList = before ++ rest := hsource
  rw [← (eq_of_bytes_eq hsplit (by rw [hbytes]; rfl)).1]
  decide

end Scanner

end TemplateExpr
