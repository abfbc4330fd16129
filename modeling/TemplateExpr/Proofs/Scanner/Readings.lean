-- What the scanner reads from a piece is the token that the text of the piece stands for:
-- the number that its digits say, the text between its quotes, the keyword or the name;
-- and every text that stands for a token is read as that token.
import TemplateExpr.Proofs.Decimal.Numeral
import TemplateExpr.Proofs.Scanner.Longest

namespace TemplateExpr

namespace Scanner

open Pattern Computability

/-! ## Numbers -/

theorem toInt_of_integer? {ds : List Char} {n : Int64} (hds : ds ∈ digits)
    (h : integer? ds = some n) : n.toInt = Decimal.ofDigits ds := by
  rw [integer?, Decimal.readInt?_of_whole (.plain hds), Option.bind_some] at h
  exact int64?_eq_some_iff.1 h

/-- A number of a source has digits on both sides of its point. -/
theorem number_of_decimal {cs : List Char} {d : Decimal} (h : Says cs d) : Numeral.Number cs d := by
  have of_positional : ∀ {cs d}, Positional cs d → Numeral.Pointed cs d := by
    rintro cs d (hds | ⟨hds, hfs⟩)
    · exact .whole hds
    · exact .point (isDigit_of_mem hds) (isDigit_of_mem hfs)
        (List.append_ne_nil_of_left_ne_nil (ne_nil_of_mem_digits hds) _)
  cases h with
  | positional h => exact .plain (of_positional h)
  | scaled h he hes => exact .scaled (of_positional h) he hes

theorem read?_of_says {cs : List Char} {d : Decimal} (h : Says cs d) :
    Numeral.read? cs = some (.decimal false d) :=
  Numeral.read?_eq_some_iff.2 (.plain (.decimal (number_of_decimal h)))

/-! ## Strings and words -/

theorem mem_escapes_of_escaped? {c d : Char} (h : Text.escaped? c = some d) : (c, d) ∈ escapes := by
  unfold Text.escaped? at h
  split at h <;> cases h <;> decide

theorem content_of_unescape {cs ds : List Char} (hquote : cs ∈ stringPart∗)
    (h : Text.unescape cs = some ds) : Content cs ds := by
  obtain ⟨parts, rfl, hparts⟩ := Language.mem_kstar.1 hquote
  clear hquote
  induction parts generalizing ds with
  | nil =>
    cases h
    exact .nil
  | cons part parts ih =>
    obtain ⟨hpart, hmore⟩ := List.forall_mem_cons.1 hparts
    rw [List.flatten_cons] at h ⊢
    rcases hpart with ⟨c, hc, rfl⟩ | hescaped
    · have hc : c ≠ '"' ∧ c ≠ '\\' := by simpa using hc
      rw [List.singleton_append,
        Text.unescape.eq_3 _ _ (fun _ _ h => absurd h hc.2), if_neg hc.2,
        Option.map_eq_some_iff] at h
      obtain ⟨es, hes, rfl⟩ := h
      exact .plain hc.1 hc.2 (ih hmore hes)
    · obtain ⟨_, rfl, _, ⟨c, _, rfl⟩, rfl⟩ := Language.mem_mul.1 hescaped
      change Text.unescape ('\\' :: c :: parts.flatten) = some ds at h
      rw [Text.unescape] at h
      obtain ⟨d, hd, h⟩ := Option.bind_eq_some_iff.1 h
      obtain ⟨es, hes, h⟩ := Option.bind_eq_some_iff.1 h
      cases h
      exact .escaped (mem_escapes_of_escaped? hd) (ih hmore hes)

/-- A word that is no keyword is a name. -/
theorem reads_word {cs : List Char} (hcs : cs ∈ Pattern.name) : Reads cs (word cs) := by
  have of_keyword : ∀ {text token}, String.ofList cs = text → (text, token) ∈ keywords →
      Reads cs token := by
    intro text token htext hkeyword
    have hreads := Reads.entry (List.mem_append_left symbols hkeyword)
    rw [← htext, String.toList_ofList] at hreads
    exact hreads
  unfold word
  split
  · exact of_keyword ‹_› (by decide)
  · exact of_keyword ‹_› (by decide)
  · exact of_keyword ‹_› (by decide)
  · exact of_keyword ‹_› (by decide)
  · exact of_keyword ‹_› (by decide)
  · refine .name hcs ?_
    rintro ⟨entry, hentry, hcs⟩
    have htext : String.ofList cs = entry.1 := by rw [hcs, String.ofList_toList]
    unfold keywords at hentry
    fin_cases hentry <;> contradiction

/-! ## Pieces -/

/-- What is read as a token has a form of its own. -/
theorem declared_of_read? {slice : List Char} {form : Form} {token : Token}
    (h : form.read? slice = some token) : form.Declared := by
  constructor <;> rintro rfl <;> cases h

theorem reads_of_read? {slice : List Char} {form : Form} {token : Token}
    (hpiece : Piece slice form) (h : form.read? slice = some token) : Reads slice token := by
  cases hpiece with
  | lineBreak | blanks _ | comment _ => cases h
  | string hstring =>
    obtain ⟨body, rfl, hbody⟩ := mem_string.1 hstring
    rw [Form.read?, List.drop_one, List.tail_cons, List.dropLast_concat,
      Option.map_eq_some_iff] at h
    obtain ⟨ds, hds, rfl⟩ := h
    exact .string (content_of_unescape hbody hds)
  | word hname =>
    cases h
    exact reads_word hname
  | symbol hsymbol =>
    cases h
    exact .entry (List.mem_append_right _ hsymbol)
  | number hnumber =>
    cases hnumber with
    | integer hds =>
      obtain ⟨n, hn, rfl⟩ := Option.map_eq_some_iff.1 h
      exact .integer hds (toInt_of_integer? hds hn)
    | long hds hc =>
      rw [Form.read?, List.dropLast_concat, Option.map_eq_some_iff] at h
      obtain ⟨n, hn, rfl⟩ := h
      exact .long hds hc (toInt_of_integer? hds hn)
    | double hdouble hvalue =>
      rw [Form.read?, read?_of_says hvalue] at h
      cases h
      exact .double hdouble hvalue
    | float hfloat hvalue =>
      rw [Form.read?, List.dropLast_concat, read?_of_says hvalue] at h
      cases h
      exact .float hfloat hvalue

/-! ## Every text is read -/

theorem integer?_of_digits {ds : List Char} {n : Int64} (hds : ds ∈ digits)
    (hn : n.toInt = Decimal.ofDigits ds) : integer? ds = some n := by
  rw [integer?, Decimal.readInt?_of_whole (.plain hds), Option.bind_some, ← hn, int64?_toInt]

theorem word_of_keyword {text : String} {token : Token} (h : (text, token) ∈ keywords) :
    word text.toList = token := by
  simp only [keywords, List.mem_cons, Prod.mk.injEq, List.not_mem_nil, or_false] at h
  rcases h with ⟨rfl, rfl⟩ | ⟨rfl, rfl⟩ | ⟨rfl, rfl⟩ | ⟨rfl, rfl⟩ | ⟨rfl, rfl⟩ <;> rfl

theorem word_of_not_keyword {cs : List Char} (h : cs ∉ entries keywords) :
    word cs = .identifier (String.ofList cs) := by
  have hne : ∀ entry ∈ keywords, String.ofList cs ≠ entry.1 := by
    rintro entry hentry heq
    exact h ⟨entry, hentry, by rw [← heq, String.toList_ofList]⟩
  unfold word
  split
  case h_6 => rfl
  all_goals exact absurd ‹_› (hne (_, _) (by simp [keywords]; rfl))

theorem content_spelled {cs ds : List Char} (h : Content cs ds) :
    cs ∈ stringPart∗ ∧ Text.unescape cs = some ds := by
  induction h with
  | nil => exact ⟨Language.nil_mem_kstar _, rfl⟩
  | @plain c cs ds hquote hslash _ ih =>
    have hpart : [c] ∈ stringPart := .inl (mem_one.2 ⟨c, by simpa using ⟨hquote, hslash⟩, rfl⟩)
    refine ⟨append_mem_kstar hpart ih.1, ?_⟩
    rw [Text.unescape.eq_3 _ _ (fun _ _ h => absurd h hslash), if_neg hslash, ih.2]
    rfl
  | @escaped c d cs ds hescape _ ih =>
    have hentry : c ≠ '\n' ∧ Text.escaped? c = some d := by
      simp only [escapes, List.mem_cons, Prod.mk.injEq, List.not_mem_nil, or_false] at hescape
      rcases hescape with ⟨rfl, rfl⟩ | ⟨rfl, rfl⟩ | ⟨rfl, rfl⟩ | ⟨rfl, rfl⟩ <;> decide
    have hpart : ['\\', c] ∈ stringPart :=
      .inr (Language.append_mem_mul (show "\\".toList ∈ exactly "\\" from rfl)
        (mem_one.2 ⟨c, by simpa using hentry.1, rfl⟩))
    refine ⟨append_mem_kstar hpart ih.1, ?_⟩
    rw [Text.unescape, hentry.2, ih.2]
    rfl

/-- The scanner reads every text that stands for a token as that token. -/
theorem piece_of_reads {slice : List Char} {token : Token} (h : Reads slice token) :
    ∃ form, Piece slice form ∧ form.read? slice = some token := by
  cases h with
  | double hdouble hsays =>
    refine ⟨.double, .number (.double hdouble hsays), ?_⟩
    rw [Form.read?, read?_of_says hsays]
    rfl
  | float hfloat hsays =>
    refine ⟨.float, .number (.float hfloat hsays), ?_⟩
    rw [Form.read?, List.dropLast_concat, read?_of_says hsays]
    rfl
  | long hds hc hn =>
    refine ⟨.long, .number (.long hds hc), ?_⟩
    rw [Form.read?, List.dropLast_concat, integer?_of_digits hds hn]
    rfl
  | integer hds hn =>
    refine ⟨.integer, .number (.integer hds), ?_⟩
    rw [Form.read?, integer?_of_digits hds hn]
    rfl
  | string hcontent =>
    obtain ⟨hbody, hunescape⟩ := content_spelled hcontent
    refine ⟨.string, .string (mem_string.2 ⟨_, rfl, hbody⟩), ?_⟩
    rw [Form.read?, List.drop_one, List.tail_cons, List.dropLast_concat, hunescape]
    rfl
  | entry hentry =>
    rcases List.mem_append.1 hentry with hkeyword | hsymbol
    · refine ⟨.word, .word (mem_name_of_mem_keywords ⟨_, hkeyword, rfl⟩), ?_⟩
      rw [Form.read?, word_of_keyword hkeyword]
    · exact ⟨_, .symbol hsymbol, rfl⟩
  | name hname hkeyword =>
    refine ⟨.word, .word hname, ?_⟩
    rw [Form.read?, word_of_not_keyword hkeyword]

end Scanner

end TemplateExpr
