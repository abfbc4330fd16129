-- A source laid out anew. Between two tokens stands layout or nothing; any layout in its
-- place, as long as there is some, leaves each token what it is, because no token goes on
-- into layout.
import TemplateExpr.Proofs.Scanner.Tiling

namespace TemplateExpr

namespace Scanner

open Pattern

/-! ## Where layout begins -/

/-- The characters that layout begins with. -/
def layoutStarts : List Char := [' ', '\t', '\r', '\x0c', '\n', '#']

/-- Nothing, or a text that begins with layout. -/
def Parted (rest : List Char) : Prop := ∀ c ∈ rest.head?, c ∈ layoutStarts

theorem Parted.not {rest : List Char} (h : Parted rest) {p : Char → Bool}
    (hp : layoutStarts.any p = false) : ∀ c ∈ rest.head?, p c = false :=
  fun c hc => Bool.eq_false_iff.2 (List.any_eq_false.1 hp c (h c hc))

theorem parted_of_layout {gap : List Char} (h : Layout gap []) : Parted gap := by
  intro c hc
  cases h with
  | nil => cases hc
  | blank hblank _ =>
    cases hc
    simp only [List.mem_cons, List.not_mem_nil, or_false] at hblank
    rcases hblank with rfl | rfl | rfl | rfl | rfl <;> decide
  | comment _ _ _ =>
    cases hc
    decide

/-- The scanner finds neither a fraction, nor an exponent, nor a letter where layout begins. -/
theorem Parted.exponentRun {rest : List Char} (h : Parted rest) : exponentRun rest = 0 := by
  cases rest with
  | nil => rfl
  | cons c cs =>
    have hletter := h.not (p := fun c => c == 'e' || c == 'E') (by decide) c rfl
    simp only [Scanner.exponentRun, hletter, Bool.false_and, Bool.false_eq_true, if_false]

theorem Parted.fractionRun {rest : List Char} (h : Parted rest) : fractionRun rest = 0 := by
  unfold Scanner.fractionRun
  split
  · exact absurd (h '.' rfl) (by decide)
  · rfl

theorem Parted.noDigit {rest : List Char} (h : Parted rest) : NoDigit rest := h.not (by decide)

theorem Parted.no_letter {rest : List Char} (h : Parted rest) (letters : List Char)
    (hletters : layoutStarts.any letters.contains = false) :
    rest.head?.any letters.contains = false := by
  cases rest with
  | nil => rfl
  | cons c cs => exact h.not hletters c rfl

/-! ## Numbers -/

theorem Parted.ending {rest : List Char} (h : Parted rest) (fraction exponent : Nat) :
    ending fraction exponent rest =
      (if fraction == 0 && exponent == 0 then .integer else .double, fraction + exponent) := by
  simp [Scanner.ending, h.no_letter ['f', 'F'] (by decide),
    h.no_letter ['l', 'L'] (by decide)]

/-- A number in front of layout is scanned as it is. -/
theorem number_of_text {c : Char} {cs rest : List Char} {form : Form}
    (h : NumberText (c :: cs) form) (hrest : Parted rest) :
    number (cs ++ rest) = (form, cs.length) := by
  have of_digits : ∀ {ds u : List Char} {n : Nat}, c :: cs = ds ++ u → ds ∈ digits →
      NoDigit (u ++ rest) → number (u ++ rest) = (form, n) → n = u.length →
      number (cs ++ rest) = (form, cs.length) := by
    rintro ds u n heq hds hno hnumber rfl
    obtain ⟨d, ds, rfl, _, hall⟩ := mem_digits.1 hds
    rw [List.cons_append, List.cons.injEq] at heq
    obtain ⟨rfl, rfl⟩ := heq
    rw [List.append_assoc, number_append hall hno, hnumber, List.length_append]
  generalize hcs : c :: cs = text at h
  cases h with
  | integer hds =>
    refine of_digits (u := []) (by rw [hcs, List.append_nil]) hds hrest.noDigit ?_ rfl
    rw [List.nil_append, number_of_parts hrest.noDigit hrest.fractionRun hrest.exponentRun rfl]
    exact hrest.ending 0 0
  | @long ds l hds hl =>
    have hno : NoDigit (l :: rest) := by rcases hl with rfl | rfl <;> exact noDigit_cons rest rfl
    refine of_digits hcs hds hno ?_ rfl
    rcases hl with rfl | rfl <;>
    · rw [List.singleton_append, number_of_parts hno rfl rfl rfl]
      rfl
  | double hdouble _ =>
    rcases hdouble with hfraction | hscaled
    · obtain ⟨ds, fs, es, rfl, hds, hfs, hes⟩ := mem_fraction.1 hfraction
      have hnumber := number_of_fraction hfs hes hrest.noDigit hrest.exponentRun
      rw [hrest.ending] at hnumber
      refine of_digits hcs hds (noDigit_cons _ rfl) ?_ rfl
      simp only [List.cons_append, List.append_assoc, hnumber, List.length_cons,
        List.length_append, Prod.mk.injEq]
      refine ⟨by simp, by omega⟩
    · obtain ⟨ds, hds, es, hes, rfl⟩ := Language.mem_mul.1 hscaled
      have hnumber := number_of_exponent hes hrest.noDigit
      rw [hrest.ending] at hnumber
      obtain ⟨e, es, k, rfl, he, _⟩ := mem_exponent.1 hes
      refine of_digits hcs hds (noDigit_exponent _ he) ?_ rfl
      rw [hnumber]
      simp
  | @float cs' l d hfloat _ =>
    rcases hfloat with hfraction | hwhole
    · obtain ⟨_, hnumber, _, ⟨letter, hletter, rfl⟩, heq⟩ := Language.mem_mul.1 hfraction
      obtain ⟨ds, fs, es, rfl, hds, hfs, hes⟩ := mem_fraction.1 hnumber
      have hf : letter = 'f' ∨ letter = 'F' := by simpa using hletter
      have hnumber := number_of_fraction hfs hes (noDigit_floatLetter rest hf)
        (exponentRun_floatLetter rest hf)
      rw [ending_floatLetter rest hf (by omega)] at hnumber
      have hsplit : c :: cs = ds ++ ('.' :: (fs ++ es) ++ [letter]) := by
        rw [hcs, ← List.append_assoc]
        exact heq.symm
      refine of_digits hsplit hds (noDigit_cons _ rfl) ?_ rfl
      simp only [List.cons_append, List.append_assoc, List.nil_append, hnumber, List.length_cons,
        List.length_append, List.length_nil, Prod.mk.injEq, true_and]
      omega
    · obtain ⟨ds, hds, _, ⟨letter, hletter, rfl⟩, heq⟩ := Language.mem_mul.1 hwhole
      have hf : letter = 'f' ∨ letter = 'F' := by simpa using hletter
      have hno := noDigit_floatLetter rest hf
      refine of_digits (hcs.trans heq.symm) hds hno ?_ rfl
      have hfraction : fractionRun (letter :: rest) = 0 := by rcases hf with rfl | rfl <;> rfl
      rw [List.singleton_append, number_of_parts hno hfraction (exponentRun_floatLetter rest hf)
        rfl, List.drop_zero, ending_floatLetter rest hf (fun _ => rfl)]
      rfl

/-! ## Pieces -/

theorem symbol?_of_text {text : String} {token : Token} {c : Char} {cs rest : List Char}
    (h : (text, token) ∈ symbols) (htext : text.toList = c :: cs) (hrest : Parted rest) :
    symbol? c (cs ++ rest) = some (token, cs.length) := by
  have hcases : rest = [] ∨ ∃ d ∈ layoutStarts, ∃ ds, rest = d :: ds := by
    cases rest with
    | nil => exact .inl rfl
    | cons d ds => exact .inr ⟨d, hrest d rfl, ds, rfl⟩
  unfold symbols at h
  unfold layoutStarts at hcases
  fin_cases h <;> cases htext <;> rcases hcases with rfl | ⟨d, hd, ds, rfl⟩
  all_goals first | rfl | (fin_cases hd <;> rfl)

/-- A piece that stands for a token is scanned as it is in front of layout. -/
theorem classify_of_piece {c : Char} {cs rest : List Char} {form : Form}
    (h : Piece (c :: cs) form) (hform : form.isSkipped = false) (hrest : Parted rest) :
    classify c (cs ++ rest) = (form, cs.length) := by
  generalize hcs : c :: cs = text at h
  cases h with
  | lineBreak | blanks _ | comment _ => cases hform
  | number h =>
    subst hcs
    have hdigit : c.isDigit = true :=
      isDigit_of_number h.mem (List.append_nil _)
    rw [classify_of_isDigit _ hdigit, number_of_text h hrest]
  | string h =>
    obtain ⟨body, hbody, hparts⟩ := mem_string.1 h
    obtain ⟨rfl, rfl⟩ := List.cons.inj (hcs.trans hbody)
    rw [List.append_assoc, List.singleton_append, List.length_append, List.length_singleton]
    change (if (stringRun (body ++ '"' :: rest)).1 then _ else _) = _
    rw [stringRun_of_body rest hparts]
    rfl
  | word h =>
    obtain ⟨d, ds, hname, hd, hds⟩ := mem_name.1 h
    obtain ⟨rfl, rfl⟩ := List.cons.inj (hcs.trans hname)
    rw [classify_of_isWordStart _ hd, run_append_of_all hds (hrest.not (by decide))]
  | symbol h => exact classify_of_symbol (symbol?_of_text h hcs.symm hrest)

theorem scans_slice {slice rest : List Char} {token : Token} (h : Reads slice token)
    (hrest : Parted rest) : Scans slice [token] rest := by
  obtain ⟨form, hpiece, hread⟩ := piece_of_reads h
  cases slice with
  | nil => exact absurd rfl (ne_nil_of_declared hpiece.declared)
  | cons c cs =>
    have hclass := classify_of_piece hpiece (isSkipped_of_read? hread) hrest
    exact scans_token form hclass hread

/-! ## Layout -/

/-- A space may be taken alone, although the scanner takes all the spaces after it as well. -/
theorem scan_space {c : Char} (h : isSpace c = true) (rest : List Char) (offset line : Nat) :
    scan offset line (c :: rest) = scan (offset + bytes [c]) line rest := by
  have hscan : ∀ {d : Char} (ds : List Char) (offset : Nat), isSpace d = true →
      scan offset line (d :: ds) =
        scan (offset + bytes (d :: ds.take (run isSpace ds))) line (ds.drop (run isSpace ds)) := by
    intro d ds offset hd
    have hclass := classify_of_isSpace ds hd
    rw [scan_of_skipped offset line (by rw [hclass]; rfl), hclass]
    rfl
  rw [hscan rest offset h]
  cases rest with
  | nil => rfl
  | cons d ds =>
    by_cases hd : isSpace d = true
    · have hrun : run isSpace (d :: ds) = run isSpace ds + 1 := by
        rw [run, List.takeWhile_cons_of_pos hd, List.length_cons, run]
      have hbytes := bytes_append [c] (d :: ds.take (run isSpace ds))
      rw [List.singleton_append] at hbytes
      rw [hscan ds _ hd, hrun, List.take_succ_cons, List.drop_succ_cons, hbytes, Nat.add_assoc]
    · have hrun : run isSpace (d :: ds) = 0 := by
        rw [run, List.takeWhile_cons_of_neg hd, List.length_nil]
      rw [hrun, List.take_zero, List.drop_zero]

theorem scans_blank {c : Char} (h : c ∈ [' ', '\t', '\r', '\x0c', '\n']) (rest : List Char) :
    Scans [c] [] rest := by
  by_cases hbreak : c = '\n'
  · subst hbreak
    exact scans_skipped .lineBreak rfl rfl
  · have hspace : isSpace c = true := by
      simp only [List.mem_cons, List.not_mem_nil, or_false] at h
      rcases h with rfl | rfl | rfl | rfl | rfl
      case inr.inr.inr.inr => exact absurd rfl hbreak
      all_goals rfl
    intro offset line
    refine ⟨[], offset + bytes [c], line, rfl, ?_⟩
    rw [List.singleton_append, scan_space hspace rest offset line]
    cases scan (offset + bytes [c]) line rest <;> rfl

theorem scans_comment {ds rest : List Char} (hds : ∀ c ∈ ds, c ≠ '\n' ∧ c ≠ '\r')
    (hrest : ∀ c ∈ rest.head?, c = '\n' ∨ c = '\r') : Scans ('#' :: ds) [] rest := by
  refine scans_skipped .layout ?_ rfl
  have hrun : run (fun d => d != '\n' && d != '\r') (ds ++ rest) = ds.length := by
    apply run_append_of_all
    · intro c hc
      simpa using hds c hc
    · intro c hc
      rcases hrest c hc with rfl | rfl <;> rfl
  rw [← hrun]
  rfl

/-- Layout gives no tokens, whatever follows it. -/
theorem scans_gap {gap rest : List Char} (h : Layout gap rest) : Scans gap [] rest := by
  induction h with
  | nil => exact Scans.nil _
  | blank hc _ ih => exact (scans_blank hc _).append ih
  | comment hds hend _ ih => exact (scans_comment hds hend).append ih

/-! ## Texts laid out anew -/

/-- These slices in their order, with layout in front of each and after the last. Between two of
them there is some. -/
inductive Spaced : List (List Char) → List Char → Prop
  | layout {gap} : Layout gap [] → Spaced [] gap
  | slice {gap slice slices rest} : Layout gap (slice ++ rest) →
      (slices ≠ [] → ∃ c ∈ rest.head?, c ∈ layoutStarts) → Spaced slices rest →
      Spaced (slice :: slices) (gap ++ (slice ++ rest))

theorem Spaced.parted {slices : List (List Char)} {rest : List Char} (h : Spaced slices rest)
    (hbetween : slices ≠ [] → ∃ c ∈ rest.head?, c ∈ layoutStarts) : Parted rest := by
  cases h with
  | layout hgap => exact parted_of_layout hgap
  | slice =>
    obtain ⟨c, hc, hstart⟩ := hbetween (List.cons_ne_nil _ _)
    intro d hd
    rw [hc] at hd
    cases hd
    exact hstart

theorem scans_spaced {slices : List (List Char)} {tokens : List Token} {text : List Char}
    (hreads : List.Forall₂ Reads slices tokens) (h : Spaced slices text) :
    Scans text tokens [] := by
  induction h generalizing tokens with
  | layout hgap =>
    cases hreads
    exact scans_gap hgap
  | @slice gap slice slices rest hgap hbetween hspaced ih =>
    have hparted := hspaced.parted hbetween
    cases hreads with
    | cons hslice hmore =>
      have hrest := ih hmore
      have hslice := scans_slice hslice hparted
      rw [← List.append_nil rest] at hgap hslice
      rw [← List.append_assoc] at hgap
      exact (scans_gap hgap).append (hslice.append hrest)

/-! ## The slices of tokens -/

/-- The slice is what stands at the place. -/
def At (source : List Char) (span : Span) (slice : List Char) : Prop :=
  ∃ before after, source = before ++ (slice ++ after) ∧ span = placeAfter before slice

/-- Two beginnings of a text that have as many bytes are one. -/
theorem eq_of_bytes_eq {before before' rest rest' : List Char}
    (h : before ++ rest = before' ++ rest') (hbytes : bytes before = bytes before') :
    before = before' ∧ rest = rest' := by
  have of_longer : ∀ {cs ds more : List Char}, ds = cs ++ more → bytes cs = bytes ds →
      more = [] := by
    intro cs ds more heq hle
    rw [heq, bytes_append] at hle
    by_contra hne
    have hpos := bytes_pos hne
    omega
  rcases List.append_eq_append_iff.1 h with ⟨more, hbefore, hrest⟩ | ⟨more, hbefore, hrest⟩
  · have hmore := of_longer hbefore hbytes
    subst hmore
    exact ⟨by rw [hbefore, List.append_nil], hrest⟩
  · have hmore := of_longer hbefore hbytes.symm
    subst hmore
    exact ⟨by rw [hbefore, List.append_nil], hrest.symm⟩

theorem At.unique {source slice slice' : List Char} {span : Span} (h : At source span slice)
    (h' : At source span slice') : slice = slice' := by
  obtain ⟨before, after, rfl, rfl⟩ := h
  obtain ⟨before', after', hsource, hplace⟩ := h'
  have hstart := congrArg Span.start hplace
  have hstop := congrArg Span.stop hplace
  simp only [placeAfter] at hstart hstop
  obtain ⟨rfl, hrest⟩ := eq_of_bytes_eq hsource hstart
  exact (eq_of_bytes_eq hrest (by omega)).1

theorem Tiled.reads {tiles : List Tile} {text : List Char} (h : Tiled tiles text)
    (before : List Char) :
    List.Forall₂ Reads (tiles.map Tile.slice) ((placed before tiles).map Prod.fst) := by
  induction h generalizing before with
  | layout _ => exact .nil
  | tile _ _ hreads _ ih => exact .cons hreads (ih _)

theorem Tiled.at {tiles : List Tile} {text : List Char} (h : Tiled tiles text)
    (before : List Char) : List.Forall₂ (At (before ++ text)) ((placed before tiles).map Prod.snd)
      (tiles.map Tile.slice) := by
  induction h generalizing before with
  | layout _ => exact .nil
  | @tile t ts rest _ _ _ _ ih =>
    have hsplit : before ++ (t.gap ++ (t.slice ++ rest)) =
        before ++ t.gap ++ (t.slice ++ rest) := (List.append_assoc _ _ _).symm
    refine .cons ⟨before ++ t.gap, rest, hsplit, rfl⟩ ?_
    rw [hsplit, ← List.append_assoc]
    exact ih _

theorem slices_unique {source : List Char} {spans : List Span} {slices slices' : List (List Char)}
    (h : List.Forall₂ (At source) spans slices) (h' : List.Forall₂ (At source) spans slices') :
    slices = slices' := by
  induction h generalizing slices' with
  | nil =>
    cases h'
    rfl
  | cons hslice _ ih =>
    cases h' with
    | cons hslice' hmore' => rw [hslice.unique hslice', ih hmore']

/-- What is read as tokens stands at their places. -/
theorem exists_slices {source : String} {tokens : List (Token × Span)}
    (h : Token.ofSource source = .ok tokens) :
    ∃ slices, List.Forall₂ (At source.toList) (tokens.map Prod.snd) slices := by
  obtain ⟨tiles, htiles, rfl⟩ := tiles_of_scan h .start
  exact ⟨_, htiles.at []⟩

/-- A source laid out anew has the tokens that it had. -/
theorem tokens_of_spaced {source source' : String} {tokens : List (Token × Span)}
    {slices : List (List Char)} (h : Token.ofSource source = .ok tokens)
    (hslices : List.Forall₂ (At source.toList) (tokens.map Prod.snd) slices)
    (hspaced : Spaced slices source'.toList) :
    ∃ tokens', Token.ofSource source' = .ok tokens' ∧
      tokens'.map Prod.fst = tokens.map Prod.fst := by
  obtain ⟨tiles, htiles, rfl⟩ := tiles_of_scan h .start
  have heq := slices_unique hslices (htiles.at [])
  subst heq
  exact (scans_spaced (htiles.reads []) hspaced).ofSource

end Scanner

end TemplateExpr
