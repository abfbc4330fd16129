-- How the scanner counts lines. Only line breaks and strings move its counter on, and the
-- line breaks of every piece are taken off again; this agrees because no other text that is
-- declared has a line break in it. Where a string is never closed it does not.
import TemplateExpr.Proofs.Scanner.Longest

namespace TemplateExpr

namespace Pattern

open Computability

/-! ## Texts on one line -/

/-- No text of the language has a line break in it. -/
def OneLine (l : Language Char) : Prop := ∀ cs ∈ l, '\n' ∉ cs

theorem oneLine_one {p : Char → Bool} (h : p '\n' = false) : OneLine (one p) := by
  rintro _ ⟨c, hc, rfl⟩ hmem
  rw [← List.mem_singleton.1 hmem, h] at hc
  cases hc

theorem oneLine_exactly {text : String} (h : '\n' ∉ text.toList) : OneLine (exactly text) := by
  rintro _ rfl
  exact h

theorem oneLine_entries {table : List (String × Token)}
    (h : ∀ entry ∈ table, '\n' ∉ entry.1.toList) : OneLine (entries table) := by
  rintro _ ⟨entry, hentry, rfl⟩
  exact h entry hentry

theorem oneLine_nil : OneLine 1 := by
  rintro _ rfl
  exact List.not_mem_nil

namespace OneLine

variable {l m : Language Char}

theorem add (hl : OneLine l) (hm : OneLine m) : OneLine (l + m) := by
  rintro cs (hcs | hcs)
  · exact hl cs hcs
  · exact hm cs hcs

theorem mul (hl : OneLine l) (hm : OneLine m) : OneLine (l * m) := by
  intro cs hcs
  obtain ⟨ds, hds, es, hes, rfl⟩ := Language.mem_mul.1 hcs
  exact List.not_mem_append (hl ds hds) (hm es hes)

theorem kstar (hl : OneLine l) : OneLine l∗ := by
  intro cs hcs hbreak
  obtain ⟨parts, rfl, hparts⟩ := Language.mem_kstar.1 hcs
  obtain ⟨part, hpart, hmem⟩ := List.mem_flatten.1 hbreak
  exact hl part (hparts part hpart) hmem

theorem plus (hl : OneLine l) : OneLine (plus l) := hl.mul hl.kstar

end OneLine

theorem oneLine_digits : OneLine digits := (oneLine_one rfl).plus

theorem oneLine_exponent : OneLine exponent :=
  ((oneLine_one rfl).mul (oneLine_nil.add (oneLine_one rfl))).mul oneLine_digits

theorem oneLine_fraction : OneLine (digits * exactly "." * digits * (1 + exponent)) :=
  ((oneLine_digits.mul (oneLine_exactly (by decide))).mul oneLine_digits).mul
    (oneLine_nil.add oneLine_exponent)

theorem oneLine_number : OneLine (double + float + long + digits) := by
  have hdouble : OneLine double := oneLine_fraction.add (oneLine_digits.mul oneLine_exponent)
  have hfloat : OneLine float :=
    (oneLine_fraction.mul (oneLine_one rfl)).add (oneLine_digits.mul (oneLine_one rfl))
  have hlong : OneLine long := oneLine_digits.mul (oneLine_one rfl)
  exact ((hdouble.add hfloat).add hlong).add oneLine_digits

theorem oneLine_name : OneLine name := (oneLine_one rfl).mul (oneLine_one rfl).kstar

theorem oneLine_comment : OneLine comment :=
  (oneLine_exactly (by decide)).mul (oneLine_one rfl).kstar

theorem oneLine_blanks : OneLine blanks := (oneLine_one rfl).plus

theorem oneLine_symbols : OneLine (entries symbols) := oneLine_entries (by decide)

end Pattern

namespace Scanner

open Pattern

/-! ## The counter -/

theorem bytes_append (cs ds : List Char) : bytes (cs ++ ds) = bytes cs + bytes ds := by
  induction cs with
  | nil => rw [List.nil_append, bytes, Nat.zero_add]
  | cons c cs ih => rw [List.cons_append, bytes, bytes, ih, Nat.add_assoc]

theorem lineBreaks_append (cs ds : List Char) :
    lineBreaks (cs ++ ds) = lineBreaks cs + lineBreaks ds :=
  List.count_append

theorem lineBreaks_of_oneLine {l : Language Char} {cs : List Char} (hl : OneLine l)
    (hcs : cs ∈ l) : lineBreaks cs = 0 :=
  List.count_eq_zero.2 (hl cs hcs)

/-- What is declared moves the counter on by the line breaks in it. -/
theorem Piece.counted {slice : List Char} {form : Form} (h : Piece slice form) (line : Nat) :
    form.counted line slice = line + lineBreaks slice := by
  cases h with
  | lineBreak | string _ => rfl
  | blanks h => rw [lineBreaks_of_oneLine oneLine_blanks h]; rfl
  | comment h => rw [lineBreaks_of_oneLine oneLine_comment h]; rfl
  | word h => rw [lineBreaks_of_oneLine oneLine_name h]; rfl
  | symbol h => rw [lineBreaks_of_oneLine oneLine_symbols ⟨_, h, rfl⟩]; rfl
  | number h =>
    rw [lineBreaks_of_oneLine oneLine_number h.mem]
    cases h <;> rfl

/-- The line of a piece is the one that the counter stood at in front of it. -/
theorem Piece.place {slice : List Char} {form : Form} (h : Piece slice form)
    (offset line : Nat) : form.place offset line slice = ⟨offset, offset + bytes slice, line⟩ := by
  rw [Form.place, h.counted, Nat.add_sub_cancel]

/-- The scanner is right behind this text: the offset counts its bytes, and the line counter its
line breaks. -/
structure Counts (before : List Char) (offset line : Nat) : Prop where
  offset_eq : offset = bytes before
  line_eq : line = 1 + lineBreaks before

theorem Counts.start : Counts [] 0 1 := ⟨rfl, rfl⟩

/-- What counts the text in front of a piece counts the piece as well when it has been taken. -/
theorem Counts.after {before slice : List Char} {offset line : Nat} {form : Form}
    (h : Counts before offset line) (hpiece : Piece slice form) :
    Counts (before ++ slice) (form.place offset line slice).stop (form.counted line slice) := by
  constructor
  · rw [bytes_append, ← h.offset_eq]
    rfl
  · rw [hpiece.counted, h.line_eq, lineBreaks_append, Nat.add_assoc]

end Scanner

end TemplateExpr
