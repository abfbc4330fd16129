-- Texts of expressions read back. The text of a tree is scanned as the tokens of the
-- tree, whatever may follow an operand, and from its tokens the parser gives the tree.
-- A negative literal reads back as a sign before its absolute value, and the text of
-- that is the same.
import TemplateExpr.Proofs.Parser.Completeness
import TemplateExpr.Proofs.Printer.Spelling

namespace TemplateExpr

namespace Tree

open Scanner

/-! ## Where texts begin -/

/-- The first character is there, no space, and none that would go on a symbol. -/
def Begun (cs : List Char) : Prop := ∃ c ∈ cs.head?, isSpace c = false ∧ c ≠ '='

theorem Begun.append {cs : List Char} (h : Begun cs) (rest : List Char) :
    ∃ c, (cs ++ rest).head? = some c ∧ isSpace c = false ∧ c ≠ '=' := by
  obtain ⟨c, hc, hspace, hequal⟩ := h
  cases cs with
  | nil => cases hc
  | cons d cs =>
    cases hc
    exact ⟨c, rfl, hspace, hequal⟩

theorem Begun.scans_space {cs : List Char} (h : Begun cs) (rest : List Char) :
    Scans [' '] [] (cs ++ rest) := by
  obtain ⟨c, hc, hspace, _⟩ := h.append rest
  apply Scanner.scans_space
  intro d hd
  rw [hc] at hd
  cases hd
  exact hspace

theorem Begun.scans_sign {cs : List Char} (h : Begun cs) (op : UnaryOp) (rest : List Char) :
    Scans op.symbol.toList [Grammar.signToken op] (cs ++ rest) := by
  cases op with
  | negate => exact scans_minus (cs ++ rest)
  | not =>
    obtain ⟨c, hc, _, hequal⟩ := h.append rest
    apply scans_bang
    intro d hd
    rw [hc] at hd
    cases hd
    exact hequal

theorem begun_of_isDigit {c : Char} {cs : List Char} (h : c.isDigit = true) : Begun (c :: cs) :=
  ⟨c, rfl, not_isSpace_of_class h (by simp), ne_of_class h rfl⟩

theorem begun_of_isWordStart {c : Char} {cs : List Char} (h : isWordStart c = true) :
    Begun (c :: cs) :=
  ⟨c, rfl, not_isSpace_of_class h (by simp [isWordStart]), ne_of_class h rfl⟩

theorem isWordStart_iff (c : Char) : isWordStart c = true ↔ c.isAlpha = true ∨ c = '_' := by
  simp [isWordStart]

theorem isWordPart_iff (c : Char) : isWordPart c = true ↔ c.isAlphanum = true ∨ c = '_' := by
  simp [isWordPart]

/-! ## Names and literals -/

theorem word_of_not_mem {name : String}
    (h : name ∉ ["true", "false", "null", "and", "or"]) : word name.toList = .identifier name := by
  unfold word
  rw [String.ofList_toList]
  split <;> first | rfl | exact absurd (by simp) h

theorem scans_name {name : String} {rest : List Char} (h : IsName name)
    (hrest : ∀ c ∈ rest.head?, isWordPart c = false) :
    Scans name.toList [.identifier name] rest := by
  obtain ⟨⟨c, cs, hname, hc, hcs⟩, hword⟩ := h
  have hparts : ∀ d ∈ cs, isWordPart d = true := fun d hd => (isWordPart_iff d).2 (hcs d hd)
  have hscans := scans_word ((isWordStart_iff c).2 hc) hparts hrest
  rw [← hname, word_of_not_mem hword] at hscans
  exact hscans

theorem begun_name {name : String} (h : IsName name) : Begun name.toList := by
  obtain ⟨⟨c, cs, hname, hc, _⟩, _⟩ := h
  rw [hname]
  exact begun_of_isWordStart ((isWordStart_iff c).2 hc)

theorem intText_of_nonneg {n : Int} (hn : 0 ≤ n) :
    (Decimal.intText n).toList = Decimal.digits n.natAbs := by
  rw [Decimal.intText, String.toList_ofList, Decimal.intDigits, if_neg (by omega)]

theorem scans_literal {value : Literal} {rest : List Char} (h : PlainLiteral value)
    (hrest : Ended rest) : Scans value.text.toList [literalToken value] rest := by
  cases h with
  | null =>
    have hparts : ∀ d ∈ ['u', 'l', 'l'], isWordPart d = true := by simp [isWordPart]
    exact scans_word rfl hparts hrest.not_isWordPart
  | @bool b =>
    have hfalse : ∀ d ∈ ['a', 'l', 's', 'e'], isWordPart d = true := by simp [isWordPart]
    have htrue : ∀ d ∈ ['r', 'u', 'e'], isWordPart d = true := by simp [isWordPart]
    cases b
    · exact scans_word rfl hfalse hrest.not_isWordPart
    · exact scans_word rfl htrue hrest.not_isWordPart
  | @int n hn =>
    have hscans := scans_integer n.toInt64 (by rwa [Int32.toInt_toInt64]) hrest
    rw [Int32.toInt_toInt64] at hscans
    rw [Literal.text, intText_of_nonneg hn]
    exact hscans
  | @long n hn =>
    rw [Literal.text, String.toList_append, intText_of_nonneg hn]
    exact scans_long rest n hn
  | @string s => exact scans_string s rest

theorem begun_literal {value : Literal} (h : PlainLiteral value) : Begun value.text.toList := by
  cases h with
  | null => exact begun_of_isWordStart rfl
  | @bool b => cases b <;> exact begun_of_isWordStart rfl
  | @int n hn =>
    obtain ⟨c, cs, heq, hc, _⟩ := digits_eq_cons n.toInt.natAbs
    rw [Literal.text, intText_of_nonneg hn, heq]
    exact begun_of_isDigit hc
  | @long n hn =>
    obtain ⟨c, cs, heq, hc, _⟩ := digits_eq_cons n.toInt.natAbs
    rw [Literal.text, String.toList_append, intText_of_nonneg hn, heq]
    exact begun_of_isDigit hc
  | @string s =>
    rw [Literal.text, Text.quote, String.toList_ofList]
    exact ⟨'"', rfl, rfl, by decide⟩

/-! ## Trees -/

theorem ended_closer (b : Bracket) (rest : List Char) : Ended (b.closer :: rest) := by
  rintro c ⟨⟩
  cases b <;> simp [Bracket.closer]

theorem begun_enclosed {t : Tree} (h : Begun t.text.toList) : Begun (t.enclosed t.text).toList := by
  unfold enclosed
  split
  · rw [String.toList_append, String.toList_append]
    exact ⟨'(', rfl, rfl, by decide⟩
  · exact h

theorem Begun.left {cs : List Char} (h : Begun cs) (rest : List Char) : Begun (cs ++ rest) := by
  obtain ⟨c, hc, hbegun⟩ := h.append rest
  exact ⟨c, hc, hbegun⟩

theorem begun_text {t : Tree} (h : Written PlainLiteral t) : Begun t.text.toList := by
  induction h with
  | literal hvalue => exact begun_literal hvalue
  | named hname => exact begun_name hname
  | @unary op t _ ih =>
    rw [text, String.toList_append]
    cases op with
    | negate => exact ⟨'-', rfl, rfl, by decide⟩
    | not => exact ⟨'!', rfl, rfl, by decide⟩
  | binary _ _ ihl ihr =>
    simp only [text, String.toList_append, List.append_assoc]
    exact (begun_enclosed ihl).left _
  | call hname _ _ =>
    simp only [text, String.toList_append, List.append_assoc]
    exact (begun_name hname).left _
  | list _ _ =>
    simp only [text, String.toList_append, List.append_assoc]
    exact ⟨'[', rfl, rfl, by decide⟩

/-- Scanned as its tokens wherever an operand may end. -/
def Scanned (t : Tree) : Prop := ∀ rest, Ended rest → Scans t.text.toList t.tokens rest

theorem Scanned.enclosed {t : Tree} (h : t.Scanned) {rest : List Char} (hrest : Ended rest) :
    Scans (t.enclosed t.text).toList (t.enclosedTokens t.tokens) rest := by
  unfold Tree.enclosed Tree.enclosedTokens
  split
  · rw [String.toList_append, String.toList_append]
    have hclosed := (h _ (ended_closer .round rest)).append (scans_closing .round rest)
    rw [List.append_assoc]
    exact (scans_opening .round _).append hclosed
  · exact h rest hrest

theorem scans_textAll {ts : List Tree} (h : ∀ t ∈ ts, t.Scanned ∧ Begun t.text.toList)
    {rest : List Char} (hrest : Ended rest) : Scans (textAll ts).toList (tokensAll ts) rest := by
  induction ts with
  | nil => exact Scans.nil rest
  | cons t ts ih =>
    obtain ⟨ht, _⟩ := h t List.mem_cons_self
    have hts := ih fun u hu => h u (List.mem_cons_of_mem t hu)
    cases ts with
    | nil => exact ht rest hrest
    | cons u us =>
      have hbegun : Begun (textAll (u :: us)).toList := by
        obtain ⟨_, hu⟩ := h u (by simp)
        cases us with
        | nil => exact hu
        | cons v vs =>
          rw [textAll_cons_cons, String.toList_append, String.toList_append, List.append_assoc]
          exact hu.left _
      have hended : Ended (',' :: (' ' :: (textAll (u :: us)).toList) ++ rest) := by
        rintro c ⟨⟩
        simp
      have hspaced := (hbegun.scans_space rest).append hts
      have hrest := (ht _ hended).append ((scans_comma _).append hspaced)
      rw [textAll_cons_cons, tokensAll_cons_cons, String.toList_append, String.toList_append,
        List.append_assoc]
      exact hrest

theorem scanned {t : Tree} (h : Written PlainLiteral t) : t.Scanned := by
  induction h with
  | literal hvalue => exact fun rest hrest => scans_literal hvalue hrest
  | named hname => exact fun rest hrest => scans_name hname hrest.not_isWordPart
  | @unary op t ht ih =>
    intro rest hrest
    rw [text, tokens, String.toList_append]
    have hbegun := begun_enclosed (begun_text ht)
    exact (hbegun.scans_sign op rest).append (ih.enclosed hrest)
  | @binary op l r hl hr ihl ihr =>
    intro rest hrest
    have hright := begun_enclosed (begun_text hr)
    have hspace : ∀ more, Scans [' '] [] (op.symbol.toList ++ more ++ rest) := by
      intro more
      apply Scanner.scans_space
      cases op <;> (rintro c ⟨⟩; rfl)
    have hended : ∀ more, Ended (' ' :: more) := by
      rintro more c ⟨⟩
      simp
    have hoperand := (hright.scans_space rest).append (ihr.enclosed hrest)
    have hspaced := (hspace _).append ((scans_operator op _).append hoperand)
    have hscans := (ihl.enclosed (hended _)).append hspaced
    simpa [text, tokens] using hscans
  | @call name arguments hname hall ih =>
    intro rest hrest
    have harguments := scans_textAll (fun t ht => ⟨ih t ht, begun_text (hall t ht)⟩)
      (ended_closer .round rest)
    have hclosed := harguments.append (scans_closing .round rest)
    have hopened := (scans_opening .round _).append hclosed
    have hscans := (scans_name hname (by rintro c ⟨⟩; decide)).append hopened
    simpa [text, tokens, Bracket.opener, Bracket.closer] using hscans
  | @list items hall ih =>
    intro rest hrest
    have hitems := scans_textAll (fun t ht => ⟨ih t ht, begun_text (hall t ht)⟩)
      (ended_closer .square rest)
    have hclosed := hitems.append (scans_closing .square rest)
    have hscans := (scans_opening .square _).append hclosed
    simpa [text, tokens, Bracket.opener, Bracket.closer] using hscans

theorem ofSource_text {t : Tree} (h : Written PlainLiteral t) :
    ∃ e, Expr.ofSource t.text = .ok e ∧ e.tree = t := by
  have hended : Ended [] := by
    rintro c ⟨⟩
  obtain ⟨placed, hscan, hplaced⟩ := (scanned h [] hended).ofSource
  have hspelled : Grammar.Expression (placed.map Prod.fst) t := hplaced ▸ (signed_tokens h).1
  obtain ⟨e, hparse, he⟩ := Parser.ofTokens_of_expression hspelled
  refine ⟨e, ?_, he⟩
  rw [Expr.ofSource, hscan]
  exact hparse

/-! ## Negative literals -/

/-- A negative integer as a sign in front of its absolute value. -/
def signedLiteral : Literal → Tree
  | .int n => if n.toInt < 0 then .unary .negate (.literal (.int (-n))) else .literal (.int n)
  | .long n => if n.toInt < 0 then .unary .negate (.literal (.long (-n))) else .literal (.long n)
  | value => .literal value

mutual

/-- The tree with each negative integer as a sign in front of its absolute value. -/
def signed : Tree → Tree
  | literal value => signedLiteral value
  | named name => .named name
  | unary op t => .unary op t.signed
  | binary op l r => .binary op l.signed r.signed
  | call name arguments => .call name (signedAll arguments)
  | list items => .list (signedAll items)

def signedAll : List Tree → List Tree
  | [] => []
  | t :: ts => t.signed :: signedAll ts

end

/-- Null, truth values, texts, and integers that have an absolute value. -/
inductive ReadableLiteral : Literal → Prop
  | null : ReadableLiteral .null
  | bool {b : Bool} : ReadableLiteral (.bool b)
  | int {n : Int32} : -2147483648 < n.toInt → ReadableLiteral (.int n)
  | long {n : Int64} : -9223372036854775808 < n.toInt → ReadableLiteral (.long n)
  | string {s : String} : ReadableLiteral (.string s)

theorem toInt_neg_int {n : Int32} (hn : -2147483648 < n.toInt) : (-n).toInt = -n.toInt := by
  have hlt := n.toInt_lt
  rw [Int32.toInt_neg]
  exact Int.bmod_eq_of_le (by simp; omega) (by simp; omega)

theorem toInt_neg_long {n : Int64} (hn : -9223372036854775808 < n.toInt) :
    (-n).toInt = -n.toInt := by
  have hlt := n.toInt_lt
  rw [Int64.toInt_neg]
  exact Int.bmod_eq_of_le (by simp; omega) (by simp; omega)

theorem intText_of_neg {n : Int} (hn : n < 0) :
    Decimal.intText n = "-" ++ Decimal.intText (-n) := by
  rw [← String.toList_inj, String.toList_append]
  rw [intText_of_nonneg (by omega : 0 ≤ -n), Int.natAbs_neg, Decimal.intText, String.toList_ofList,
    Decimal.intDigits, if_pos hn]
  rfl

theorem written_signedLiteral {value : Literal} (h : ReadableLiteral value) :
    Written PlainLiteral (signedLiteral value) ∧ (signedLiteral value).text = value.text ∧
      (signedLiteral value).isBinary = false := by
  cases h with
  | null => exact ⟨.literal .null, rfl, rfl⟩
  | bool => exact ⟨.literal .bool, rfl, rfl⟩
  | string => exact ⟨.literal .string, rfl, rfl⟩
  | @int n hn =>
    by_cases hneg : n.toInt < 0
    · rw [signedLiteral, if_pos hneg]
      have habs := toInt_neg_int hn
      refine ⟨.unary (.literal (.int (by omega))), ?_, rfl⟩
      change "-" ++ Decimal.intText (-n).toInt = Decimal.intText n.toInt
      rw [habs, intText_of_neg hneg]
    · rw [signedLiteral, if_neg hneg]
      exact ⟨.literal (.int (by omega)), rfl, rfl⟩
  | @long n hn =>
    by_cases hneg : n.toInt < 0
    · rw [signedLiteral, if_pos hneg]
      have habs := toInt_neg_long hn
      refine ⟨.unary (.literal (.long (by omega))), ?_, rfl⟩
      change "-" ++ (Decimal.intText (-n).toInt ++ "L") = Decimal.intText n.toInt ++ "L"
      rw [habs, intText_of_neg hneg, String.append_assoc]
    · rw [signedLiteral, if_neg hneg]
      exact ⟨.literal (.long (by omega)), rfl, rfl⟩

theorem mem_signedAll {ts : List Tree} {u : Tree} (h : u ∈ signedAll ts) :
    ∃ t ∈ ts, t.signed = u := by
  induction ts with
  | nil => cases h
  | cons t ts ih =>
    rcases List.mem_cons.1 h with rfl | h
    · exact ⟨t, List.mem_cons_self, rfl⟩
    · obtain ⟨t', ht', rfl⟩ := ih h
      exact ⟨t', List.mem_cons_of_mem t ht', rfl⟩

theorem textAll_signedAll {ts : List Tree} (h : ∀ t ∈ ts, t.signed.text = t.text) :
    textAll (signedAll ts) = textAll ts := by
  induction ts with
  | nil => rfl
  | cons t ts ih =>
    have ht := h t List.mem_cons_self
    have hts := ih fun u hu => h u (List.mem_cons_of_mem t hu)
    cases ts with
    | nil => exact ht
    | cons u us =>
      simp only [signedAll] at hts ⊢
      rw [textAll_cons_cons, textAll_cons_cons, ht, hts]

theorem enclosed_congr {t u : Tree} (h : t.isBinary = u.isBinary) (text : String) :
    t.enclosed text = u.enclosed text := by
  rw [enclosed, enclosed, h]

theorem isBinary_signed {t : Tree} (h : Written ReadableLiteral t) :
    t.signed.isBinary = t.isBinary := by
  cases h with
  | literal hvalue => exact (written_signedLiteral hvalue).2.2
  | _ => rw [signed] <;> rfl

/-- Signs change no text, and leave plain literals only. -/
theorem written_signed {t : Tree} (h : Written ReadableLiteral t) :
    Written PlainLiteral t.signed ∧ t.signed.text = t.text := by
  induction h with
  | literal hvalue =>
    obtain ⟨hwritten, htext, _⟩ := written_signedLiteral hvalue
    exact ⟨hwritten, htext⟩
  | named hname => exact ⟨.named hname, rfl⟩
  | unary ht ih =>
    refine ⟨.unary ih.1, ?_⟩
    rw [signed, text, text, ih.2, enclosed_congr (isBinary_signed ht)]
  | binary hl hr ihl ihr =>
    refine ⟨.binary ihl.1 ihr.1, ?_⟩
    rw [signed, text, text, ihl.2, ihr.2, enclosed_congr (isBinary_signed hl),
      enclosed_congr (isBinary_signed hr)]
  | call hname _ ih =>
    refine ⟨.call hname ?_, ?_⟩
    · intro u hu
      obtain ⟨t, ht, rfl⟩ := mem_signedAll hu
      exact (ih t ht).1
    · rw [signed, text, text, textAll_signedAll fun t ht => (ih t ht).2]
  | list _ ih =>
    refine ⟨.list ?_, ?_⟩
    · intro u hu
      obtain ⟨t, ht, rfl⟩ := mem_signedAll hu
      exact (ih t ht).1
    · rw [signed, text, text, textAll_signedAll fun t ht => (ih t ht).2]

/-! ## The law -/

/-- The text of an expression is read as the expression itself, each negative integer as a sign in
front of its absolute value; and what was read has the same text. -/
theorem the_text_of_an_expression_reads_back (e : Expr) (h : e.tree.Written ReadableLiteral) :
    ∃ e', Expr.ofSource e.text = .ok e' ∧ e'.tree = e.tree.signed ∧ e'.text = e.text := by
  obtain ⟨hplain, htext⟩ := written_signed h
  obtain ⟨e', hsource, htree⟩ := ofSource_text hplain
  rw [htext, text_tree] at hsource
  refine ⟨e', hsource, htree, ?_⟩
  rw [← text_tree e', htree, htext, text_tree]

/-- Minus a call, or else the denial of a difference. -/
def sample : Expr :=
  .binary .coalesce
    (.unary .negate (.call "f" [.list [.named "x_2" default, .literal (.int (-3)) default] default,
      .literal (.string "\"#\n\\é") default] default) default)
    (.unary .not (.binary .subtract (.literal (.long (-7)) default) (.named "_y" default)) default)

theorem written_sample : sample.tree.Written ReadableLiteral := by
  have hf : IsName "f" := ⟨⟨'f', [], rfl, .inl rfl, by simp⟩, by simp⟩
  have hx : IsName "x_2" := ⟨⟨'x', ['_', '2'], rfl, .inl rfl, by simp⟩, by simp⟩
  have hy : IsName "_y" := ⟨⟨'_', ['y'], rfl, .inr rfl, by simp⟩, by simp⟩
  have hlong : ReadableLiteral (.long (-7)) := .long (by decide)
  refine .binary (.unary (.call hf ?_)) (.unary (.binary (.literal hlong) (.named hy)))
  intro t ht
  rcases List.mem_cons.1 ht with rfl | ht
  · refine .list ?_
    intro u hu
    rcases List.mem_cons.1 hu with rfl | hu
    · exact .named hx
    · rw [List.mem_singleton.1 hu]
      exact .literal (.int (by decide))
  · rw [List.mem_singleton.1 ht]
    exact .literal .string

theorem the_text_of_a_sample_reads_back :
    ∃ e', Expr.ofSource sample.text = .ok e' ∧ e'.tree = sample.tree.signed ∧
      e'.text = sample.text :=
  the_text_of_an_expression_reads_back sample written_sample

end Tree

end TemplateExpr
