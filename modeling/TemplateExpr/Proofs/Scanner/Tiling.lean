-- The tokens of a source tile it. Each is the longest text that may stand where it does
-- and is read from that text alone; what lies between two of them is layout; and places
-- count the bytes and the line breaks of everything before.
import TemplateExpr.Proofs.Scanner.Lines
import TemplateExpr.Proofs.Scanner.Readings

namespace TemplateExpr

namespace Scanner

open Pattern

/-- A token with its text and with the layout in front of it. -/
structure Tile where
  gap : List Char
  slice : List Char
  token : Token

/-- A text that is made of these tiles, and of layout after the last. -/
inductive Tiled : List Tile → List Char → Prop
  | layout {gap} : Layout gap [] → Tiled [] gap
  | tile {t ts rest} : Layout t.gap (t.slice ++ rest) → Longest t.slice rest →
      Reads t.slice t.token → Tiled ts rest → Tiled (t :: ts) (t.gap ++ (t.slice ++ rest))

/-- The place of a text after another one: its bytes, and the line that its first byte is on. -/
def placeAfter (before slice : List Char) : Span :=
  ⟨bytes before, bytes before + bytes slice, 1 + lineBreaks before⟩

/-- The tokens of tiles that follow some text, with their places. -/
def placed (before : List Char) : List Tile → List (Token × Span)
  | [] => []
  | t :: ts =>
    (t.token, placeAfter (before ++ t.gap) t.slice) :: placed (before ++ t.gap ++ t.slice) ts

/-! ## Lengths -/

theorem bytes_pos {cs : List Char} (h : cs ≠ []) : 0 < bytes cs := by
  cases cs with
  | nil => exact absurd rfl h
  | cons c cs =>
    have hc := Char.utf8Size_pos c
    rw [bytes]
    omega

theorem bytes_eq_utf8ByteSize (cs : List Char) : bytes cs = (String.ofList cs).utf8ByteSize := by
  induction cs with
  | nil => rfl
  | cons c cs ih =>
    have hsplit : String.ofList (c :: cs) = String.singleton c ++ String.ofList cs := by
      rw [String.singleton_eq_ofList, ← String.ofList_append, List.singleton_append]
    rw [bytes, ih, hsplit, String.utf8ByteSize_append, String.utf8ByteSize_singleton]

/-! ## Layout in front of tiles -/

/-- Tiles with more layout before the first of them. -/
def lead (gap : List Char) : List Tile → List Tile
  | [] => []
  | t :: ts => { t with gap := gap ++ t.gap } :: ts

theorem placed_lead (before gap : List Char) (tiles : List Tile) :
    placed before (lead gap tiles) = placed (before ++ gap) tiles := by
  cases tiles with
  | nil => rfl
  | cons t ts => simp only [lead, placed, List.append_assoc]

theorem drop_run (p : Char → Bool) (cs : List Char) : cs.drop (run p cs) = cs.dropWhile p := by
  have hall := List.take_append_drop (run p cs) cs
  rw [take_run] at hall
  exact List.append_cancel_left (hall.trans List.takeWhile_append_dropWhile.symm)

theorem layout_blanks {blanks gap rest : List Char} (hblanks : ∀ c ∈ blanks, isSpace c = true)
    (hgap : Layout gap rest) : Layout (blanks ++ gap) rest := by
  induction blanks with
  | nil => exact hgap
  | cons c cs ih =>
    obtain ⟨hc, hcs⟩ := List.forall_mem_cons.1 hblanks
    have hmem : c ∈ [' ', '\t', '\r', '\x0c', '\n'] := by
      simp only [isSpace, Bool.or_eq_true, beq_iff_eq] at hc
      rcases hc with ((rfl | rfl) | rfl) | rfl <;> decide
    exact .blank hmem (ih hcs)

/-- What is skipped has a form of its own. -/
theorem declared_of_isSkipped {form : Form} (h : form.isSkipped = true) : form.Declared := by
  constructor <;> rintro rfl <;> cases h

/-- A piece of layout goes before the layout that follows it. -/
theorem layout_of_classify {c : Char} {cs gap rest : List Char}
    (h : (classify c cs).1.isSkipped = true) (hrest : cs.drop (classify c cs).2 = gap ++ rest)
    (hgap : Layout gap rest) : Layout (c :: cs.take (classify c cs).2 ++ gap) rest := by
  have hpiece := piece_of_classify c cs (declared_of_isSkipped h)
  generalize hslice : c :: cs.take (classify c cs).2 = slice, (classify c cs).1 = form at h hpiece
  cases hpiece with
  | lineBreak => exact .blank (by decide) hgap
  | blanks hblanks =>
    obtain ⟨d, ds, rfl, hd, hds⟩ := mem_plus_one.1 hblanks
    exact layout_blanks (List.forall_mem_cons.2 ⟨hd, hds⟩) hgap
  | comment hcomment =>
    obtain ⟨ds, rfl, hds⟩ := mem_comment.1 hcomment
    obtain ⟨rfl, htake⟩ := List.cons.inj hslice
    refine .comment ?_ ?_ hgap
    · intro d hd
      simpa using hds d hd
    · intro d hd
      rw [← hrest] at hd
      change d ∈ (cs.drop (run _ cs)).head? at hd
      rw [drop_run] at hd
      have hnot := List.head?_dropWhile_not (fun d => d != '\n' && d != '\r') cs
      rw [hd] at hnot
      simpa [or_iff_not_imp_left] using hnot
  | string _ | word _ | symbol _ => cases h
  | number hnumber => cases hnumber <;> cases h

theorem Tiled.lead {c : Char} {cs : List Char} {tiles : List Tile}
    (h : (classify c cs).1.isSkipped = true) (htiles : Tiled tiles (cs.drop (classify c cs).2)) :
    Tiled (lead (c :: cs.take (classify c cs).2) tiles) (c :: cs) := by
  have hwhole : c :: cs =
      c :: cs.take (classify c cs).2 ++ cs.drop (classify c cs).2 := by
    rw [List.cons_append, List.take_append_drop]
  generalize hrest : cs.drop (classify c cs).2 = rest at htiles hwhole
  rw [hwhole]
  cases htiles with
  | layout hgap =>
    have hlayout := layout_of_classify h (by rw [hrest, List.append_nil]) hgap
    exact .layout hlayout
  | tile hgap hlongest hreads htiles =>
    have hlayout := layout_of_classify h hrest hgap
    rw [← List.append_assoc]
    exact .tile hlayout hlongest hreads htiles

/-! ## The scan -/

theorem scan_of_skipped {c : Char} {cs : List Char} (offset line : Nat)
    (hskipped : (classify c cs).1.isSkipped = true) :
    scan offset line (c :: cs) =
      scan (offset + bytes (c :: cs.take (classify c cs).2))
        ((classify c cs).1.counted line (c :: cs.take (classify c cs).2))
        (cs.drop (classify c cs).2) := by
  rw [scan]
  exact if_pos hskipped

theorem scan_of_token {c : Char} {cs : List Char} {token : Token} (offset line : Nat)
    (hread : (classify c cs).1.read? (c :: cs.take (classify c cs).2) = some token) :
    scan offset line (c :: cs) =
      (scan (offset + bytes (c :: cs.take (classify c cs).2))
        ((classify c cs).1.counted line (c :: cs.take (classify c cs).2))
        (cs.drop (classify c cs).2)).map
        ((token, (classify c cs).1.place offset line (c :: cs.take (classify c cs).2)) :: ·) := by
  rw [scan]
  simp only [isSkipped_of_read? hread, hread]
  rfl

theorem scan_of_rejected {c : Char} {cs : List Char} (offset line : Nat)
    (hskipped : (classify c cs).1.isSkipped = false)
    (hread : (classify c cs).1.read? (c :: cs.take (classify c cs).2) = none) :
    scan offset line (c :: cs) = .error (rejected (c :: cs.take (classify c cs).2)
      ((classify c cs).1.place offset line (c :: cs.take (classify c cs).2))) := by
  rw [scan]
  simp only [hskipped, hread]
  rfl

/-- The tiles of a text that begins with a token. -/
theorem Tiled.cons {c : Char} {cs : List Char} {token : Token} {tiles : List Tile}
    (hread : (classify c cs).1.read? (c :: cs.take (classify c cs).2) = some token)
    (htiles : Tiled tiles (cs.drop (classify c cs).2)) :
    Tiled (⟨[], c :: cs.take (classify c cs).2, token⟩ :: tiles) (c :: cs) := by
  have hform := declared_of_read? hread
  have htile := Tiled.tile (t := ⟨[], c :: cs.take (classify c cs).2, token⟩) .nil
    (longest_of_classify c cs hform) (reads_of_read? (piece_of_classify c cs hform) hread) htiles
  rw [List.nil_append, List.cons_append, List.take_append_drop] at htile
  exact htile

theorem Counts.placeAfter_eq {before slice : List Char} {offset line : Nat} {form : Form}
    (h : Counts before offset line) (hpiece : Piece slice form) :
    form.place offset line slice = placeAfter before slice := by
  rw [hpiece.place, placeAfter, h.offset_eq, h.line_eq]

/-- The pieces that a scan takes are tiles and layout, and its tokens are the tokens of the tiles at
their places. -/
theorem tiles_of_scan {offset line : Nat} {cs before : List Char}
    {tokens : List (Token × Span)} (h : scan offset line cs = .ok tokens)
    (hcounts : Counts before offset line) :
    ∃ tiles, Tiled tiles cs ∧ tokens = placed before tiles := by
  induction offset, line, cs using scan.induct generalizing tokens before with
  | case1 offset line =>
    rw [scan] at h
    cases h
    exact ⟨[], .layout .nil, rfl⟩
  | case2 offset line c cs form slice rest place =>
    rename_i hskipped ih
    have hpiece := piece_of_classify c cs (declared_of_isSkipped hskipped)
    rw [scan_of_skipped offset line hskipped] at h
    obtain ⟨tiles, htiles, htokens⟩ := ih h (hcounts.after hpiece)
    exact ⟨lead slice tiles, htiles.lead hskipped, by rw [placed_lead, htokens]⟩
  | case3 offset line c cs form slice =>
    rename_i hskipped hread
    rw [scan_of_rejected offset line (Bool.eq_false_iff.2 hskipped) hread] at h
    cases h
  | case4 offset line c cs form slice rest place hskipped token =>
    rename_i hread ih
    have hpiece := piece_of_classify c cs (declared_of_read? hread)
    rw [scan_of_token offset line hread] at h
    cases hscan : scan (offset + bytes slice) (form.counted line slice) rest with
    | error err =>
      rw [hscan] at h
      cases h
    | ok more =>
      rw [hscan] at h
      cases h
      obtain ⟨tiles, htiles, htokens⟩ := ih hscan (hcounts.after hpiece)
      refine ⟨⟨[], slice, token⟩ :: tiles, htiles.cons hread, ?_⟩
      rw [placed, List.append_nil, htokens, hcounts.placeAfter_eq hpiece]

/-! ## The places of tiles -/

/-- A token stands in a source where its place says. What is there is the longest text that may be,
and the token is read from it. -/
def Stands (source : List Char) (token : Token) (span : Span) : Prop :=
  ∃ before slice after, source = before ++ (slice ++ after) ∧ span = placeAfter before slice ∧
    Longest slice after ∧ Reads slice token

theorem Tiled.stands {tiles : List Tile} {cs : List Char} {token : Token} {span : Span}
    (h : Tiled tiles cs) (before : List Char) (hmem : (token, span) ∈ placed before tiles) :
    Stands (before ++ cs) token span := by
  induction h generalizing before with
  | layout _ => cases hmem
  | @tile t ts rest hgap hlongest hreads htiles ih =>
    have hsplit : before ++ (t.gap ++ (t.slice ++ rest)) = before ++ t.gap ++ (t.slice ++ rest) :=
      (List.append_assoc _ _ _).symm
    rw [hsplit]
    rcases List.mem_cons.1 hmem with hfirst | hmore
    · cases hfirst
      exact ⟨before ++ t.gap, t.slice, rest, rfl, rfl, hlongest, hreads⟩
    · rw [← List.append_assoc (before ++ t.gap)]
      exact ih _ hmore

theorem bytes_le_start {before : List Char} {tiles : List Tile} {p : Token × Span}
    (h : p ∈ placed before tiles) : bytes before ≤ p.2.start := by
  induction tiles generalizing before with
  | nil => cases h
  | cons t ts ih =>
    rcases List.mem_cons.1 h with rfl | hmore
    · rw [placeAfter, bytes_append]
      exact Nat.le_add_right _ _
    · have hle := ih hmore
      rw [bytes_append, bytes_append] at hle
      omega

theorem pairwise_placed (before : List Char) (tiles : List Tile) :
    (placed before tiles).Pairwise fun a b => a.2.stop ≤ b.2.start := by
  induction tiles generalizing before with
  | nil => exact .nil
  | cons t ts ih =>
    refine List.pairwise_cons.2 ⟨?_, ih _⟩
    intro p hp
    have hle := bytes_le_start hp
    rw [bytes_append] at hle
    exact hle

theorem ne_nil_of_declared {cs : List Char} (h : cs ∈ declared) : cs ≠ [] := by
  rintro rfl
  rcases h with (((((((hnumber | hstring) | hkeyword) | hname) | hcomment) | hsymbol) | hbreak) |
    hblanks)
  · exact absurd (isDigit_of_number hnumber (show [] ++ [' '] = ' ' :: [] from rfl)) (by decide)
  · obtain ⟨body, hbody, _⟩ := mem_string.1 hstring
    cases hbody
  · obtain ⟨c, ds, hname, _⟩ := mem_name.1 (mem_name_of_mem_keywords hkeyword)
    cases hname
  · obtain ⟨c, ds, hname, _⟩ := mem_name.1 hname
    cases hname
  · obtain ⟨ds, hcomment, _⟩ := mem_comment.1 hcomment
    cases hcomment
  · obtain ⟨entry, hentry, hnil⟩ := mem_entries.1 hsymbol
    have hspace : entry.1.toList ++ [' '] = ' ' :: [] := by rw [← hnil, List.nil_append]
    obtain ⟨_, _, hsymbol, _⟩ := length_le_symbol hentry hspace
    cases hsymbol
  · cases hbreak
  · obtain ⟨c, ds, hblanks, _⟩ := mem_plus_one.1 hblanks
    cases hblanks

theorem Stands.start_lt_stop {source : List Char} {token : Token} {span : Span}
    (h : Stands source token span) : span.start < span.stop := by
  obtain ⟨before, slice, after, _, rfl, hlongest, _⟩ := h
  have hpos := bytes_pos (ne_nil_of_declared hlongest.declared)
  simp only [placeAfter]
  omega

theorem Stands.stop_le {source : String} {token : Token} {span : Span}
    (h : Stands source.toList token span) : span.stop ≤ source.utf8ByteSize := by
  obtain ⟨before, slice, after, hsource, rfl, _⟩ := h
  have hbytes := bytes_eq_utf8ByteSize source.toList
  rw [hsource, bytes_append, bytes_append, ← hsource, String.ofList_toList] at hbytes
  simp only [placeAfter]
  omega

theorem stands_of_ofSource {source : String} {tokens : List (Token × Span)}
    (h : Token.ofSource source = .ok tokens) :
    (∀ token span, (token, span) ∈ tokens → Stands source.toList token span) ∧
      tokens.Pairwise fun a b => a.2.stop ≤ b.2.start := by
  obtain ⟨tiles, htiles, rfl⟩ := tiles_of_scan h .start
  exact ⟨fun token span hmem => htiles.stands [] hmem, pairwise_placed [] tiles⟩

/-- Tokens tile their source, no text of it is lost and none is used twice. The places of the tokens
are not empty and lie in the source one after the other. -/
theorem tokens_tile_the_source (source : String) (tokens : List (Token × Span))
    (h : Token.ofSource source = .ok tokens) :
    (∃ tiles, Tiled tiles source.toList ∧ tokens = placed [] tiles) ∧
      (∀ token span, (token, span) ∈ tokens → Stands source.toList token span ∧
        span.start < span.stop ∧ span.stop ≤ source.utf8ByteSize) ∧
      tokens.Pairwise fun a b => a.2.stop ≤ b.2.start := by
  obtain ⟨hstands, hpairwise⟩ := stands_of_ofSource h
  refine ⟨tiles_of_scan h .start, ?_, hpairwise⟩
  intro token span hmem
  have hplace := hstands token span hmem
  exact ⟨hplace, hplace.start_lt_stop, hplace.stop_le⟩

/-- A range, a comment and a string over two lines. -/
theorem tokens_of_two_lines_tile_them :
    Token.ofSource "1..3 # n\n\"a\nb\"" = .ok
        [(.integer 1, ⟨0, 1, 1⟩), (.operator .through, ⟨1, 3, 1⟩), (.integer 3, ⟨3, 4, 1⟩),
          (.string "a\nb", ⟨9, 14, 2⟩)] ∧
      ∃ tiles, Tiled tiles "1..3 # n\n\"a\nb\"".toList ∧
        [(.integer 1, ⟨0, 1, 1⟩), (.operator .through, ⟨1, 3, 1⟩), (.integer 3, ⟨3, 4, 1⟩),
          (.string "a\nb", ⟨9, 14, 2⟩)] = placed [] tiles := by
  have hscan : Token.ofSource "1..3 # n\n\"a\nb\"" = .ok
      [(.integer 1, ⟨0, 1, 1⟩), (.operator .through, ⟨1, 3, 1⟩), (.integer 3, ⟨3, 4, 1⟩),
        (.string "a\nb", ⟨9, 14, 2⟩)] := by decide +kernel
  exact ⟨hscan, (tokens_tile_the_source _ _ hscan).1⟩

end Scanner

end TemplateExpr
