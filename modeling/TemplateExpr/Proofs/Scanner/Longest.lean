-- What the scanner takes first from a text. It is a text of the form that the scanner says,
-- and nothing that is declared and begins there is longer.
import Mathlib.Tactic.FinCases
import TemplateExpr.Proofs.Scanner.Numbers

namespace TemplateExpr

namespace Scanner

open Pattern Computability

/-! ## Strings -/

theorem stringRun_plain {c : Char} (cs : List Char) (hquote : c ≠ '"') (hslash : c ≠ '\\') :
    stringRun (c :: cs) = ((stringRun cs).1, (stringRun cs).2 + 1) := by
  rw [stringRun.eq_4 _ _ (fun h _ => hslash h) (fun _ _ h => absurd h hslash), if_neg hquote]

theorem stringRun_escaped {c : Char} (cs : List Char) (hc : c ≠ '\n') :
    stringRun ('\\' :: c :: cs) = ((stringRun cs).1, (stringRun cs).2 + 2) := by
  rw [stringRun.eq_3, if_neg hc]

/-- A string ends at the first quote that no backslash takes with it. -/
theorem stringRun_of_body {body : List Char} (rest : List Char) (h : body ∈ stringPart∗) :
    stringRun (body ++ '"' :: rest) = (true, body.length + 1) := by
  obtain ⟨parts, rfl, hparts⟩ := Language.mem_kstar.1 h
  clear h
  induction parts with
  | nil => rfl
  | cons part parts ih =>
    obtain ⟨hpart, hparts⟩ := List.forall_mem_cons.1 hparts
    have hrun := ih hparts
    rw [List.flatten_cons, List.append_assoc, List.length_append]
    rcases hpart with ⟨c, hc, rfl⟩ | hescaped
    · have hc : c ≠ '"' ∧ c ≠ '\\' := by simpa using hc
      rw [List.singleton_append, stringRun_plain _ hc.1 hc.2, hrun, List.length_singleton]
      simp only [Prod.mk.injEq, true_and]
      omega
    · obtain ⟨_, rfl, _, ⟨c, hc, rfl⟩, rfl⟩ := Language.mem_mul.1 hescaped
      have hc : c ≠ '\n' := by simpa using hc
      change stringRun ('\\' :: c :: (parts.flatten ++ '"' :: rest)) = (true, 2 + _ + 1)
      rw [stringRun_escaped _ hc, hrun]
      simp only [Prod.mk.injEq, true_and]
      omega

theorem body_of_stringRun {cs : List Char} (h : (stringRun cs).1 = true) :
    ∃ body rest, cs = body ++ '"' :: rest ∧ body ∈ stringPart∗ := by
  induction cs using stringRun.induct with
  | case1 => cases h
  | case2 => cases h
  | case3 cs => cases h
  | case4 c cs hc ih =>
    rw [stringRun_escaped _ hc] at h
    obtain ⟨body, rest, rfl, hbody⟩ := ih h
    have hpart : ['\\', c] ∈ stringPart :=
      .inr (Language.append_mem_mul (show "\\".toList ∈ exactly "\\" from rfl)
        (mem_one.2 ⟨c, by simpa using hc, rfl⟩))
    exact ⟨'\\' :: c :: body, rest, rfl, append_mem_kstar hpart hbody⟩
  | case5 cs =>
    exact ⟨[], cs, rfl, Language.nil_mem_kstar _⟩
  | case6 c cs hend hslash hquote ih =>
    have hne : c ≠ '\\' := by
      rintro rfl
      cases cs with
      | nil => exact hend rfl rfl
      | cons d ds => exact hslash d ds rfl rfl
    rw [stringRun_plain _ hquote hne] at h
    obtain ⟨body, rest, rfl, hbody⟩ := ih h
    have hpart : [c] ∈ stringPart := .inl (mem_one.2 ⟨c, by simpa using ⟨hquote, hne⟩, rfl⟩)
    exact ⟨c :: body, rest, rfl, append_mem_kstar hpart hbody⟩

/-! ## Symbols -/

theorem classify_of_symbol {c : Char} {cs : List Char} {token : Token} {n : Nat}
    (h : symbol? c cs = some (token, n)) : classify c cs = (.symbol token, n) := by
  have hclass : c ≠ '\n' ∧ isSpace c = false ∧ c ≠ '#' ∧ c.isDigit = false ∧ c ≠ '"' ∧
      isWordStart c = false := by
    unfold symbol? at h
    split at h <;> cases h <;> decide
  obtain ⟨hbreak, hspace, hhash, hdigit, hquote, hword⟩ := hclass
  simp [classify, hbreak, hspace, hhash, hdigit, hquote, hword, h]

theorem mem_symbols_of_symbol? {c : Char} {cs : List Char} {token : Token} {n : Nat}
    (h : symbol? c cs = some (token, n)) :
    ∃ text, (text, token) ∈ symbols ∧ c :: cs.take n = text.toList := by
  unfold symbol? at h
  split at h <;> cases h <;> simp [symbols]

/-- Whatever follows an operator that is the beginning of a longer one. -/
theorem symbol?_of_shorter (rest : List Char) :
    (∃ token n, symbol? '<' rest = some (token, n)) ∧
      (∃ token n, symbol? '>' rest = some (token, n)) ∧
      (∃ token n, symbol? '/' rest = some (token, n)) ∧
      (∃ token n, symbol? '!' rest = some (token, n)) ∧
      ∃ token n, symbol? '.' ('.' :: rest) = some (token, n + 1) := by
  refine ⟨?_, ?_, ?_, ?_, ?_⟩
  all_goals unfold symbol?
  all_goals split <;> first | exact ⟨_, _, rfl⟩ | simp_all

theorem length_le_symbol {entry : String × Token} {c : Char} {cs rest : List Char}
    (hentry : entry ∈ symbols) (h : entry.1.toList ++ rest = c :: cs) :
    ∃ token n, symbol? c cs = some (token, n) ∧ entry.1.toList.length ≤ n + 1 := by
  obtain ⟨⟨less, n₁, hless⟩, ⟨greater, n₂, hgreater⟩, ⟨slash, n₃, hslash⟩, ⟨not, n₄, hnot⟩,
    ⟨points, n₅, hpoints⟩⟩ := symbol?_of_shorter rest
  unfold symbols at hentry
  fin_cases hentry <;> simp at h <;> obtain ⟨rfl, rfl⟩ := h <;> first
    | exact ⟨_, _, rfl, by decide⟩
    | exact ⟨_, _, hless, by simp⟩
    | exact ⟨_, _, hgreater, by simp⟩
    | exact ⟨_, _, hslash, by simp⟩
    | exact ⟨_, _, hnot, by simp⟩
    | exact ⟨_, _, hpoints, by simp⟩

/-! ## Nothing declared is longer -/

theorem mem_name {cs : List Char} : cs ∈ name ↔
    ∃ c ds, cs = c :: ds ∧ isWordStart c = true ∧ ∀ d ∈ ds, isWordPart d = true := by
  constructor
  · intro h
    obtain ⟨_, ⟨c, hc, rfl⟩, ds, hds, rfl⟩ := Language.mem_mul.1 h
    exact ⟨c, ds, rfl, hc, mem_kstar_one.1 hds⟩
  · rintro ⟨c, ds, rfl, hc, hds⟩
    exact Language.append_mem_mul (mem_one.2 ⟨c, hc, rfl⟩) (mem_kstar_one.2 hds)

theorem mem_name_of_mem_keywords {cs : List Char} (h : cs ∈ entries keywords) : cs ∈ name := by
  have hname : ∀ entry ∈ keywords, entry.1.toList.head?.any isWordStart = true ∧
      entry.1.toList.tail.all isWordPart = true := by decide
  obtain ⟨entry, hentry, rfl⟩ := mem_entries.1 h
  obtain ⟨hhead, htail⟩ := hname entry hentry
  cases hcs : entry.1.toList with
  | nil =>
    rw [hcs] at hhead
    cases hhead
  | cons c ds =>
    rw [hcs] at hhead htail
    exact mem_name.2 ⟨c, ds, rfl, hhead, List.all_eq_true.1 htail⟩

theorem mem_comment {cs : List Char} : cs ∈ comment ↔
    ∃ ds, cs = '#' :: ds ∧ ∀ d ∈ ds, (d != '\n' && d != '\r') = true := by
  constructor
  · intro h
    obtain ⟨_, rfl, ds, hds, rfl⟩ := Language.mem_mul.1 h
    exact ⟨ds, rfl, mem_kstar_one.1 hds⟩
  · rintro ⟨ds, rfl, hds⟩
    exact Language.append_mem_mul (show "#".toList ∈ exactly "#" from rfl) (mem_kstar_one.2 hds)

theorem mem_string {cs : List Char} : cs ∈ string ↔
    ∃ body, cs = '"' :: (body ++ ['"']) ∧ body ∈ stringPart∗ := by
  constructor
  · intro h
    obtain ⟨_, hopen, _, rfl, rfl⟩ := Language.mem_mul.1 h
    obtain ⟨_, rfl, body, hbody, rfl⟩ := Language.mem_mul.1 hopen
    exact ⟨body, rfl, hbody⟩
  · rintro ⟨body, rfl, hbody⟩
    have hquote : "\"".toList ∈ exactly "\"" := rfl
    exact Language.append_mem_mul (Language.append_mem_mul hquote hbody) hquote

theorem isDigit_of_number {text rest cs : List Char} {c : Char}
    (htext : text ∈ Pattern.double + Pattern.float + Pattern.long + digits)
    (h : text ++ rest = c :: cs) : c.isDigit = true := by
  have of_digits : ∀ ds u : List Char, ds ∈ digits → ds ++ u = c :: cs → c.isDigit = true := by
    intro ds u hds heq
    obtain ⟨d, ds, rfl, hd, _⟩ := mem_digits.1 hds
    rw [List.cons_append, List.cons.injEq] at heq
    exact heq.1 ▸ hd
  have of_front : ∀ l : Language Char, text ∈ digits * l → c.isDigit = true := by
    intro l hl
    obtain ⟨ds, hds, u, _, rfl⟩ := Language.mem_mul.1 hl
    rw [List.append_assoc] at h
    exact of_digits ds _ hds h
  rcases htext with (((hfraction | hscaled) | hfraction | hwhole) | hlong) | hdigits
  · rw [mul_assoc, mul_assoc] at hfraction
    exact of_front _ hfraction
  · exact of_front _ hscaled
  · rw [mul_assoc, mul_assoc, mul_assoc] at hfraction
    exact of_front _ hfraction
  · exact of_front _ hwhole
  · exact of_front _ hlong
  · exact of_digits text rest hdigits h

theorem classify_of_isSpace {c : Char} (cs : List Char) (h : isSpace c = true) :
    classify c cs = (.layout, run isSpace cs) := by
  have hbreak : c ≠ '\n' := ne_of_class h rfl
  simp [classify, hbreak, h]

theorem classify_quote (cs : List Char) : classify '"' cs =
    if (stringRun cs).1 then (.string, (stringRun cs).2) else (.openString, (stringRun cs).2) :=
  rfl

/-- A form that declared texts have. -/
def Form.Declared (form : Form) : Prop := form ≠ .stray ∧ form ≠ .openString

theorem declared_number (cs : List Char) : (number cs).1.Declared := by
  simp only [number, Form.Declared]
  split
  · simp
  · split
    · simp
    · split <;> simp

/-- Where something declared begins, what the scanner takes has a form of its own, and nothing
declared that begins there is longer. -/
theorem classify_of_declared {text rest cs : List Char} {c : Char} (htext : text ∈ declared)
    (h : text ++ rest = c :: cs) :
    (classify c cs).1.Declared ∧ text.length ≤ (classify c cs).2 + 1 := by
  have of_class : ∀ (p : Char → Bool) d ds form, text = d :: ds → (∀ x ∈ ds, p x = true) →
      Form.Declared form → (∀ more, classify d more = (form, run p more)) →
      (classify c cs).1.Declared ∧ text.length ≤ (classify c cs).2 + 1 := by
    intro p d ds form htext hds hform hclass
    rw [htext, List.cons_append, List.cons.injEq] at h
    obtain ⟨rfl, rfl⟩ := h
    have hle := length_le_run rest hds
    rw [hclass, htext, List.length_cons]
    exact ⟨hform, by omega⟩
  have of_name : text ∈ name → (classify c cs).1.Declared ∧
      text.length ≤ (classify c cs).2 + 1 := by
    intro hname
    obtain ⟨d, ds, htext, hd, hds⟩ := mem_name.1 hname
    exact of_class isWordPart d ds .word htext hds (by simp [Form.Declared])
      fun more => classify_of_isWordStart more hd
  rcases htext with
    (((((((hnumber | hstring) | hkeyword) | hname) | hcomment) | hsymbol) | hbreak) | hblanks)
  · rw [classify_of_isDigit cs (isDigit_of_number hnumber h)]
    exact ⟨declared_number cs, length_le_number hnumber h⟩
  · obtain ⟨body, rfl, hbody⟩ := mem_string.1 hstring
    simp only [List.cons_append, List.append_assoc, List.cons.injEq, List.nil_append] at h
    obtain ⟨rfl, rfl⟩ := h
    rw [classify_quote, stringRun_of_body rest hbody]
    simp [Form.Declared]
  · exact of_name (mem_name_of_mem_keywords hkeyword)
  · exact of_name hname
  · obtain ⟨ds, htext, hds⟩ := mem_comment.1 hcomment
    exact of_class _ '#' ds .layout htext hds (by simp [Form.Declared]) fun _ => rfl
  · obtain ⟨entry, hentry, rfl⟩ := mem_entries.1 hsymbol
    obtain ⟨token, n, hsymbol, hle⟩ := length_le_symbol hentry h
    rw [classify_of_symbol hsymbol]
    exact ⟨by simp [Form.Declared], hle⟩
  · refine of_class (fun _ => false) '\n' [] .lineBreak (mem_exactly.1 hbreak) (by simp)
      (by simp [Form.Declared]) ?_
    intro more
    cases more <;> rfl
  · obtain ⟨d, ds, htext, hd, hds⟩ := mem_plus_one.1 hblanks
    exact of_class isSpace d ds .layout htext hds (by simp [Form.Declared])
      fun more => classify_of_isSpace more hd

/-! ## What is taken is declared -/

/-- The texts of a form that stands for a token or for layout. -/
inductive Piece : List Char → Form → Prop
  | lineBreak : Piece ['\n'] .lineBreak
  | blanks {cs} : cs ∈ Pattern.blanks → Piece cs .layout
  | comment {cs} : cs ∈ Pattern.comment → Piece cs .layout
  | number {cs form} : NumberText cs form → Piece cs form
  | string {cs} : cs ∈ Pattern.string → Piece cs .string
  | word {cs} : cs ∈ Pattern.name → Piece cs .word
  | symbol {text token} : (text, token) ∈ symbols → Piece text.toList (.symbol token)

theorem NumberText.mem {cs : List Char} {form : Form} (h : NumberText cs form) :
    cs ∈ Pattern.double + Pattern.float + Pattern.long + digits := by
  cases h with
  | integer h => exact .inr h
  | long hds hc =>
    exact .inl (.inr (Language.append_mem_mul hds (mem_longLetter (by simpa using hc))))
  | double h => exact .inl (.inl (.inl h))
  | float h => exact .inl (.inl (.inr h))

theorem Piece.declared {cs : List Char} {form : Form} (h : Piece cs form) :
    cs ∈ Pattern.declared := by
  cases h with
  | lineBreak => exact .inl (.inr rfl)
  | blanks h => exact .inr h
  | comment h => exact .inl (.inl (.inl (.inr h)))
  | string h => exact .inl (.inl (.inl (.inl (.inl (.inl (.inr h))))))
  | word h => exact .inl (.inl (.inl (.inl (.inr h))))
  | symbol h => exact .inl (.inl (.inr ⟨_, h, rfl⟩))
  | number h => exact .inl (.inl (.inl (.inl (.inl (.inl (.inl h.mem))))))

theorem take_run (p : Char → Bool) (cs : List Char) : cs.take (run p cs) = cs.takeWhile p :=
  (List.prefix_iff_eq_take.1 (List.takeWhile_prefix p)).symm

theorem piece_of_quote (cs : List Char) (h : (classify '"' cs).1.Declared) :
    Piece ('"' :: cs.take (classify '"' cs).2) (classify '"' cs).1 := by
  have hclassify := classify_quote cs
  by_cases hclosed : (stringRun cs).1 = true
  · obtain ⟨body, rest, rfl, hbody⟩ := body_of_stringRun hclosed
    rw [hclassify, if_pos hclosed, stringRun_of_body rest hbody]
    dsimp only
    have htake : (body ++ '"' :: rest).take (body.length + 1) = body ++ ['"'] := by
      rw [List.take_length_add_append, List.take_succ_cons, List.take_zero]
    rw [htake]
    exact .string (mem_string.2 ⟨body, rfl, hbody⟩)
  · rw [hclassify, if_neg hclosed] at h
    exact absurd rfl h.2

/-- Whatever the scanner takes is a text of the form that it says, or nothing declared. -/
theorem piece_of_classify (c : Char) (cs : List Char) (h : (classify c cs).1.Declared) :
    Piece (c :: cs.take (classify c cs).2) (classify c cs).1 := by
  by_cases hbreak : c = '\n'
  · subst hbreak
    exact .lineBreak
  by_cases hspace : isSpace c = true
  · rw [classify_of_isSpace cs hspace, take_run]
    exact .blanks (mem_plus_one.2 ⟨c, _, rfl, hspace, List.all_eq_true.1 List.all_takeWhile⟩)
  by_cases hhash : c = '#'
  · subst hhash
    change Piece ('#' :: cs.take (run (fun d => d != '\n' && d != '\r') cs)) .layout
    rw [take_run]
    exact .comment (mem_comment.2 ⟨_, rfl, List.all_eq_true.1 List.all_takeWhile⟩)
  by_cases hdigit : c.isDigit = true
  · rw [classify_of_isDigit cs hdigit]
    exact .number (numberText_number cs hdigit)
  by_cases hquote : c = '"'
  · subst hquote
    exact piece_of_quote cs h
  by_cases hword : isWordStart c = true
  · rw [classify_of_isWordStart cs hword, take_run]
    exact .word (mem_name.2 ⟨c, _, rfl, hword, List.all_eq_true.1 List.all_takeWhile⟩)
  cases hsymbol : symbol? c cs with
  | none =>
    have hclassify : classify c cs = (.stray, 0) := by
      simp [classify, hbreak, hspace, hhash, hdigit, hquote, hword, hsymbol]
    rw [hclassify] at h
    exact absurd rfl h.1
  | some found =>
    obtain ⟨token, n⟩ := found
    obtain ⟨text, hmem, htext⟩ := mem_symbols_of_symbol? hsymbol
    rw [classify_of_symbol hsymbol]
    dsimp only
    rw [htext]
    exact .symbol hmem

/-- What the scanner takes is the longest of all that is declared and begins there. -/
theorem longest_of_classify (c : Char) (cs : List Char) (h : (classify c cs).1.Declared) :
    Longest (c :: cs.take (classify c cs).2) (cs.drop (classify c cs).2) := by
  have hpiece := piece_of_classify c cs h
  refine ⟨hpiece.declared, ?_⟩
  rintro other hother ⟨rest, hrest⟩
  rw [List.cons_append, List.take_append_drop] at hrest
  have hle := (classify_of_declared hother hrest).2
  have hlength : other.length + rest.length = cs.length + 1 := by
    rw [← List.length_append, hrest, List.length_cons]
  rw [List.length_cons, List.length_take]
  omega

end Scanner

end TemplateExpr
