-- The pieces that texts are made of, and the tokens they are scanned as. What a piece is
-- depends on the text after it as well, so each law says what may follow.
import TemplateExpr.Token.Scanner

namespace TemplateExpr

def Bracket.opener : Bracket → Char
  | round => '('
  | square => '['

namespace Scanner

/-! ## A stretch of text -/

/-- Characters that are scanned as these tokens when the rest follows. -/
def Scans (cs : List Char) (ts : List Token) (rest : List Char) : Prop :=
  ∀ offset line, ∃ placed offset' line', placed.map Prod.fst = ts ∧
    scan offset line (cs ++ rest) = (scan offset' line' rest).map (placed ++ ·)

theorem Scans.nil (rest : List Char) : Scans [] [] rest := by
  intro offset line
  refine ⟨[], offset, line, rfl, ?_⟩
  rw [List.nil_append]
  cases scan offset line rest <;> rfl

theorem Scans.append {cs ds rest : List Char} {ts us : List Token} (hcs : Scans cs ts (ds ++ rest))
    (hds : Scans ds us rest) : Scans (cs ++ ds) (ts ++ us) rest := by
  intro offset line
  obtain ⟨first, offset₁, line₁, hfirst, hscan₁⟩ := hcs offset line
  obtain ⟨second, offset₂, line₂, hsecond, hscan₂⟩ := hds offset₁ line₁
  refine ⟨first ++ second, offset₂, line₂, by rw [List.map_append, hfirst, hsecond], ?_⟩
  rw [List.append_assoc, hscan₁, hscan₂]
  cases scan offset₂ line₂ rest with
  | error _ => rfl
  | ok _ => exact congrArg Except.ok (List.append_assoc _ _ _).symm

theorem isSkipped_of_read? {slice : List Char} {form : Form} {token : Token}
    (h : form.read? slice = some token) : form.isSkipped = false := by
  cases form <;> first | rfl | cases h

/-- A piece that is scanned as one token. -/
theorem scans_token {c : Char} {cs rest : List Char} (form : Form) {token : Token}
    (hform : classify c (cs ++ rest) = (form, cs.length))
    (hread : form.read? (c :: cs) = some token) : Scans (c :: cs) [token] rest := by
  intro offset line
  have hskipped := isSkipped_of_read? hread
  refine ⟨[(token, form.place offset line (c :: cs))], offset + bytes (c :: cs),
    form.counted line (c :: cs), rfl, ?_⟩
  rw [List.cons_append, scan]
  simp only [hform, hskipped, List.take_left, List.drop_left, hread]
  rfl

/-- A piece that separates tokens. -/
theorem scans_skipped {c : Char} {cs rest : List Char} (form : Form)
    (hform : classify c (cs ++ rest) = (form, cs.length)) (hskipped : form.isSkipped = true) :
    Scans (c :: cs) [] rest := by
  intro offset line
  refine ⟨[], offset + bytes (c :: cs), form.counted line (c :: cs), rfl, ?_⟩
  rw [List.cons_append, scan]
  simp only [hform, hskipped, List.take_left, List.drop_left, Form.place]
  generalize scan _ _ rest = scanned
  cases scanned <;> rfl

/-- The tokens of a text that is scanned as a whole. -/
theorem Scans.ofSource {source : String} {ts : List Token} (h : Scans source.toList ts []) :
    ∃ placed, Token.ofSource source = .ok placed ∧ placed.map Prod.fst = ts := by
  obtain ⟨placed, offset, line, hplaced, hscan⟩ := h 0 1
  refine ⟨placed, ?_, hplaced⟩
  rw [List.append_nil, scan] at hscan
  rw [Token.ofSource, hscan]
  exact congrArg Except.ok (List.append_nil placed)

/-! ## Runs -/

theorem run_append_of_all {p : Char → Bool} {cs rest : List Char} (hcs : ∀ c ∈ cs, p c = true)
    (hrest : ∀ c ∈ rest.head?, p c = false) : run p (cs ++ rest) = cs.length := by
  have htake : rest.takeWhile p = [] := by
    cases rest with
    | nil => rfl
    | cons c rest => rw [List.takeWhile_cons_of_neg (by simp [hrest c rfl])]
  rw [run, List.takeWhile_append_of_pos hcs, htake, List.append_nil]

/-! ## Spaces -/

theorem scans_space {rest : List Char} (h : ∀ c ∈ rest.head?, isSpace c = false) :
    Scans [' '] [] rest := by
  refine scans_skipped .layout ?_ rfl
  have hrun : run isSpace ([] ++ rest) = 0 := run_append_of_all (by simp) h
  rw [List.nil_append] at hrun ⊢
  change (Form.layout, run isSpace rest) = _
  rw [hrun]
  rfl

/-! ## Symbols -/

theorem scans_symbol {c : Char} {cs rest : List Char} {token : Token}
    (h : classify c (cs ++ rest) = (.symbol token, cs.length)) : Scans (c :: cs) [token] rest :=
  scans_token (.symbol token) h rfl

/-- An operator with a space after it. -/
theorem scans_operator (op : BinaryOp) (rest : List Char) :
    Scans op.symbol.toList [.operator op] (' ' :: rest) := by
  cases op <;> exact scans_symbol rfl

theorem scans_comma (rest : List Char) : Scans [','] [.comma] rest := scans_symbol rfl

theorem scans_opening (b : Bracket) (rest : List Char) : Scans [b.opener] [.opening b] rest := by
  cases b <;> exact scans_symbol rfl

theorem scans_closing (b : Bracket) (rest : List Char) : Scans [b.closer] [.closing b] rest := by
  cases b <;> exact scans_symbol rfl

theorem scans_minus (rest : List Char) : Scans ['-'] [.operator .subtract] rest := scans_symbol rfl

theorem scans_bang {rest : List Char} (h : ∀ c ∈ rest.head?, c ≠ '=') :
    Scans ['!'] [.bang] rest := by
  apply scans_symbol
  cases rest with
  | nil => rfl
  | cons c rest =>
    have hsymbol : symbol? '!' (c :: rest) = some (.bang, 0) := by
      unfold symbol?
      split <;> simp_all
    simp [classify, isSpace, isWordStart, hsymbol]

/-! ## Classes of characters -/

theorem ne_of_class {p : Char → Bool} {c d : Char} (hc : p c = true) (hd : p d = false) :
    c ≠ d := by
  rintro rfl
  rw [hc] at hd
  cases hd

theorem not_isSpace_of_class {p : Char → Bool} {c : Char} (hc : p c = true)
    (hp : ∀ d ∈ [' ', '\t', '\r', '\x0c'], p d = false) : isSpace c = false := by
  have hne : ∀ d ∈ [' ', '\t', '\r', '\x0c'], c ≠ d := fun d hd => ne_of_class hc (hp d hd)
  simp only [isSpace, Bool.or_eq_false_iff, beq_eq_false_iff_ne]
  exact ⟨⟨⟨hne _ (by simp), hne _ (by simp)⟩, hne _ (by simp)⟩, hne _ (by simp)⟩

/-! ## Numbers -/

/-- What may follow an operand in a text: a space, a comma, a closing bracket, or nothing. -/
def Ended (rest : List Char) : Prop := ∀ c ∈ rest.head?, c = ' ' ∨ c = ',' ∨ c = ')' ∨ c = ']'

theorem classify_of_isDigit {c : Char} (cs : List Char) (h : c.isDigit = true) :
    classify c cs = number cs := by
  have hbreak : c ≠ '\n' := ne_of_class h rfl
  have hhash : c ≠ '#' := ne_of_class h rfl
  have hspace := not_isSpace_of_class h (by simp)
  simp [classify, hbreak, hhash, hspace, h]

/-- A number without fraction and exponent; the letter after it decides what it is. -/
theorem number_of_whole {ds rest : List Char} (hds : ∀ c ∈ ds, c.isDigit = true)
    (hrest : ∀ c ∈ rest.head?, c.isDigit = false) (hfraction : fractionRun rest = 0)
    (hexponent : exponentRun rest = 0) :
    number (ds ++ rest) =
      if rest.head?.any ['f', 'F'].contains then (.float, ds.length + 1)
      else if rest.head?.any ['l', 'L'].contains then (.long, ds.length + 1)
      else (.integer, ds.length) := by
  have hrun : run Char.isDigit (ds ++ rest) = ds.length := run_append_of_all hds hrest
  unfold number
  simp [hrun, hfraction, hexponent]

theorem number_of_ended {ds rest : List Char} (hds : ∀ c ∈ ds, c.isDigit = true)
    (h : Ended rest) : number (ds ++ rest) = (.integer, ds.length) := by
  match rest with
  | [] => exact number_of_whole hds (by simp) rfl rfl
  | c :: rest =>
    rcases h c rfl with rfl | rfl | rfl | rfl <;> exact number_of_whole hds (by simp) rfl rfl

theorem number_of_letter {ds : List Char} (rest : List Char) (hds : ∀ c ∈ ds, c.isDigit = true) :
    number (ds ++ 'L' :: rest) = (.long, ds.length + 1) :=
  number_of_whole hds (by simp) rfl rfl

theorem isDigit_of_mem_digits {n : Nat} {c : Char} (h : c ∈ Decimal.digits n) : c.isDigit = true :=
  Nat.isDigit_of_mem_toDigits (by decide) (by decide) h

theorem ofDigits_digits (n : Nat) : Decimal.ofDigits (Decimal.digits n) = n :=
  Nat.ofDigitChars_toDigits (by decide) (by decide)

theorem digits_eq_cons (n : Nat) : ∃ c cs, Decimal.digits n = c :: cs ∧
    c.isDigit = true ∧ ∀ d ∈ cs, d.isDigit = true := by
  cases hn : Decimal.digits n with
  | nil => exact absurd hn Nat.toDigits_ne_nil
  | cons c cs =>
    have hall : ∀ d ∈ c :: cs, d.isDigit = true := fun d hd => isDigit_of_mem_digits (hn ▸ hd)
    exact ⟨c, cs, rfl, hall c List.mem_cons_self, fun d hd => hall d (List.mem_cons_of_mem c hd)⟩

theorem readInt?_digits (n : Nat) : Decimal.readInt? (Decimal.digits n) = some (n : Int) := by
  obtain ⟨c, cs, hn, hc, hcs⟩ := digits_eq_cons n
  have hread : Decimal.readNat? (c :: cs) = some n := by
    have hall : (c :: cs).all Char.isDigit = true := by
      rw [List.all_cons, hc, List.all_eq_true.2 hcs]
      rfl
    rw [Decimal.readNat?, if_pos ⟨by simp, hall⟩, ← hn, ofDigits_digits]
  rw [hn]
  unfold Decimal.readInt?
  split
  · rename_i heq
    cases heq
    exact absurd hc (by decide)
  · rename_i heq
    cases heq
    exact absurd hc (by decide)
  · rw [hread]
    rfl

theorem integer?_digits (n : Int64) (hn : 0 ≤ n.toInt) :
    integer? (Decimal.digits n.toInt.natAbs) = some n := by
  rw [integer?, readInt?_digits, Int.natAbs_of_nonneg hn]
  exact int64?_toInt n

theorem scans_integer {rest : List Char} (n : Int64) (hn : 0 ≤ n.toInt) (h : Ended rest) :
    Scans (Decimal.digits n.toInt.natAbs) [.integer n] rest := by
  have hread := integer?_digits n hn
  obtain ⟨c, cs, heq, hc, hcs⟩ := digits_eq_cons n.toInt.natAbs
  rw [heq] at hread ⊢
  refine scans_token .integer ?_ ?_
  · rw [classify_of_isDigit _ hc, number_of_ended hcs h]
  · rw [Form.read?, hread]
    rfl

theorem scans_long (rest : List Char) (n : Int64) (hn : 0 ≤ n.toInt) :
    Scans (Decimal.digits n.toInt.natAbs ++ ['L']) [.long n] rest := by
  have hread := integer?_digits n hn
  obtain ⟨c, cs, heq, hc, hcs⟩ := digits_eq_cons n.toInt.natAbs
  rw [heq] at hread ⊢
  rw [List.cons_append]
  refine scans_token .long ?_ ?_
  · rw [classify_of_isDigit _ hc, List.append_assoc, List.cons_append, number_of_letter _ hcs,
      List.length_append]
    rfl
  · rw [Form.read?, ← List.cons_append, List.dropLast_concat, hread]
    rfl

/-! ## Words -/

theorem not_isDigit_of_lt {c : Char} (h : '9'.val < c.val) : c.isDigit = false := by
  simp only [Char.isDigit, Bool.and_eq_false_iff, decide_eq_false_iff_not]
  exact .inr (UInt32.not_le.2 h)

theorem not_isDigit_of_isWordStart {c : Char} (h : isWordStart c = true) : c.isDigit = false := by
  have hupper : '9'.val < 'A'.val := by decide
  have hlower : '9'.val < 'a'.val := by decide
  rcases Bool.or_eq_true_iff.1 h with h | h
  · have hletter : (c.isUpper || c.isLower) = true := h
    rcases Bool.or_eq_true_iff.1 hletter with h | h
    · have hrange : c.val ≥ 'A'.val ∧ c.val ≤ 'Z'.val := of_decide_eq_true h
      exact not_isDigit_of_lt (UInt32.lt_of_lt_of_le hupper hrange.1)
    · have hge : c.val ≥ 'a'.val := of_decide_eq_true (Bool.and_eq_true_iff.1 h).1
      exact not_isDigit_of_lt (UInt32.lt_of_lt_of_le hlower hge)
  · rw [beq_iff_eq.1 h]
    rfl

theorem classify_of_isWordStart {c : Char} (cs : List Char) (h : isWordStart c = true) :
    classify c cs = (.word, run isWordPart cs) := by
  have hdigit := not_isDigit_of_isWordStart h
  have hspace := not_isSpace_of_class h (by simp [isWordStart])
  have hbreak : c ≠ '\n' := ne_of_class h rfl
  have hhash : c ≠ '#' := ne_of_class h rfl
  have hquote : c ≠ '"' := ne_of_class h rfl
  simp [classify, hbreak, hhash, hquote, hspace, hdigit, h]

theorem scans_word {c : Char} {cs rest : List Char} (hc : isWordStart c = true)
    (hcs : ∀ d ∈ cs, isWordPart d = true) (hrest : ∀ d ∈ rest.head?, isWordPart d = false) :
    Scans (c :: cs) [word (c :: cs)] rest := by
  refine scans_token .word ?_ ?_
  · rw [classify_of_isWordStart _ hc, run_append_of_all hcs hrest]
  · rfl

theorem Ended.not_isWordPart {rest : List Char} (h : Ended rest) :
    ∀ c ∈ rest.head?, isWordPart c = false := by
  intro c hc
  rcases h c hc with rfl | rfl | rfl | rfl <;> decide

/-! ## Texts -/

/-- A string goes on to the quote after its escaped characters. -/
theorem stringRun_escape (c : Char) (cs : List Char) :
    stringRun (Text.escape c ++ cs) =
      ((stringRun cs).1, (stringRun cs).2 + (Text.escape c).length) := by
  unfold Text.escape
  split
  · rfl
  · rfl
  · rfl
  · rfl
  · rename_i hquote hslash _ _
    rw [List.cons_append, List.nil_append,
      stringRun.eq_4 _ _ (fun h _ => hslash h) (fun _ _ h => absurd h hslash), if_neg hquote]
    rfl

theorem stringRun_flatMap_escape (cs rest : List Char) :
    stringRun (cs.flatMap Text.escape ++ '"' :: rest) =
      (true, (cs.flatMap Text.escape).length + 1) := by
  induction cs with
  | nil => rfl
  | cons c cs ih =>
    rw [List.flatMap_cons, List.append_assoc, stringRun_escape, ih, List.length_append]
    simp only [Prod.mk.injEq, true_and]
    omega

theorem scans_string (s : String) (rest : List Char) :
    Scans (Text.quote s).toList [.string s] rest := by
  have hrun := stringRun_flatMap_escape s.toList rest
  rw [Text.quote, String.toList_ofList, List.cons_append]
  refine scans_token .string ?_ ?_
  · rw [List.append_assoc, List.singleton_append, List.length_append, List.length_singleton]
    change (if (stringRun (s.toList.flatMap Text.escape ++ '"' :: rest)).1 then _ else _) = _
    rw [hrun]
    rfl
  · rw [Form.read?, List.drop_one, List.tail_cons, List.dropLast_concat,
      Text.unescape_flatMap_escape, Option.map_some, String.ofList_toList]

end Scanner

end TemplateExpr
