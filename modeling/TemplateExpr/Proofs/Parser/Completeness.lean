-- What is in the grammar the parser accepts, and so it accepts exactly the grammar.
-- After a phrase the frames that were there before it are back as soon as the frames
-- of its level are taken up, with the expression of the phrase above them.
import TemplateExpr.Proofs.Parser.Soundness

namespace TemplateExpr

namespace Parser

open Grammar

/-! ## States after an operand -/

/-- The frames and the operand of a state that can go on with an operator. A name counts as an
operand there. -/
def State.operand? : State → Option (List Frame × Expr)
  | ⟨frames, .complete e⟩ => some (frames, e)
  | ⟨frames, .name name span⟩ => some (applySigns frames (.named name span))
  | _ => none

theorem step_of_operand? {s : State} {frames : List Frame} {e : Expr} {token : Token} {span : Span}
    (h : s.operand? = some (frames, e)) (htoken : token ≠ .opening .round) :
    step s token span = followOperand frames e token span := by
  obtain ⟨below, focus⟩ := s
  cases focus with
  | operand => cases h
  | firstItem => cases h
  | name name place =>
    simp only [State.operand?, Option.some.injEq] at h
    simp only [step, if_neg htoken, h]
  | complete e' =>
    cases h
    rfl

theorem finish_of_operand? {line : Nat} {s : State} {frames : List Frame} {e : Expr}
    (h : s.operand? = some (frames, e)) : finish line s = finishOperand line frames e := by
  obtain ⟨below, focus⟩ := s
  cases focus with
  | operand => cases h
  | firstItem => cases h
  | name name place =>
    simp only [State.operand?, Option.some.injEq] at h
    simp only [finish, h]
  | complete e' =>
    cases h
    rfl

/-- A state with these frames and this expression above them, once the frames of the level are taken
up. -/
def Spelled (level : Nat) (frames : List Frame) (e : Expr) (s : State) : Prop :=
  ∃ above operand, s.operand? = some (above, operand) ∧ reduce level above operand = (frames, e)

/-! ## Taking up frames level by level -/

theorem reduce_of_open {level : Nat} {frames : List Frame} (e : Expr) (h : Open level frames) :
    reduce level frames e = (frames, e) := by
  match frames with
  | [] => rfl
  | .binary op l :: frames => rw [reduce, if_neg (Nat.not_le_of_lt h)]
  | .unary op s :: frames => exact absurd h id
  | .group s :: frames => rfl
  | .items shape before :: frames => rfl

theorem applySigns_of_open {level : Nat} {frames : List Frame} (e : Expr) (h : Open level frames) :
    applySigns frames e = (frames, e) := by
  match frames with
  | [] => rfl
  | .binary op l :: frames => rfl
  | .unary op s :: frames => exact absurd h id
  | .group s :: frames => rfl
  | .items shape before :: frames => rfl

theorem Open.mono {low high : Nat} {frames : List Frame} (h : Open low frames) (hle : low ≤ high) :
    Open high frames := by
  match frames with
  | .binary op l :: frames => exact Nat.lt_of_lt_of_le h hle
  | .unary op s :: frames => exact h
  | [] | .group s :: frames | .items shape before :: frames => trivial

/-- Taking up the frames of a level first changes nothing for the levels below. -/
theorem reduce_reduce {low high : Nat} (hle : low ≤ high) (frames : List Frame) (e : Expr) :
    reduce low (reduce high frames e).1 (reduce high frames e).2 = reduce low frames e := by
  induction frames generalizing e with
  | nil => rfl
  | cons frame frames ih =>
    cases frame with
    | binary op l =>
      by_cases hop : high ≤ op.level
      · rw [reduce, if_pos hop, ih, reduce, if_pos (Nat.le_trans hle hop)]
      · rw [reduce, if_neg hop]
    | _ => rfl

/-- An operator of the level takes the whole phrase as its left operand. -/
theorem Spelled.step_operator {level : Nat} {frames : List Frame} {e : Expr} {s : State}
    {op : BinaryOp} {span : Span} (h : Spelled level frames e s) (hop : op.level = level) :
    step s (.operator op) span = .ok ⟨.binary op e :: frames, .operand⟩ := by
  obtain ⟨above, operand, hs, hreduce⟩ := h
  rw [step_of_operand? hs (by simp), followOperand, hop, hreduce]

/-- The right operand of an operator is taken up together with the operator. -/
theorem Spelled.binary {level : Nat} {op : BinaryOp} {frames : List Frame} {l r : Expr} {s : State}
    (h : Spelled (level + 1) (.binary op l :: frames) r s) (hop : op.level = level)
    (ho : Open level frames) : Spelled level frames (.binary op l r) s := by
  obtain ⟨above, operand, hs, hreduce⟩ := h
  refine ⟨above, operand, hs, ?_⟩
  rw [← reduce_reduce (Nat.le_succ level), hreduce, reduce, if_pos (Nat.le_of_eq hop.symm)]
  exact reduce_of_open _ ho

theorem Spelled.lower {low high : Nat} {frames : List Frame} {e : Expr} {s : State}
    (h : Spelled high frames e s) (hle : low ≤ high) (ho : Open low frames) :
    Spelled low frames e s := by
  obtain ⟨above, operand, hs, hreduce⟩ := h
  refine ⟨above, operand, hs, ?_⟩
  rw [← reduce_reduce hle, hreduce]
  exact reduce_of_open _ ho

/-- Whatever the token is, it finds all frames of the expression taken up. -/
theorem Spelled.reduce_zero {level : Nat} {frames : List Frame} {e : Expr} {s : State}
    (h : Spelled level frames e s) (ho : Open 0 frames) :
    ∃ above operand, s.operand? = some (above, operand) ∧ reduce 0 above operand = (frames, e) :=
  h.lower (Nat.zero_le level) ho

theorem Spelled.step_comma {shape : Shape} {before : List Expr} {frames : List Frame} {e : Expr}
    {s : State} {span : Span} (h : Spelled 1 (.items shape before :: frames) e s) :
    step s .comma span = .ok ⟨.items shape (e :: before) :: frames, .operand⟩ := by
  obtain ⟨above, operand, hs, hreduce⟩ := h.reduce_zero trivial
  rw [step_of_operand? hs (by simp)]
  simp only [followOperand, hreduce]

theorem Spelled.step_closing {shape : Shape} {before : List Expr} {frames : List Frame} {e : Expr}
    {s : State} {span : Span} (h : Spelled 1 (.items shape before :: frames) e s) :
    step s (.closing shape.bracket) span =
      .ok (complete frames (shape.expr (e :: before).reverse)) := by
  obtain ⟨above, operand, hs, hreduce⟩ := h.reduce_zero trivial
  rw [step_of_operand? hs (by simp)]
  cases shape <;> simp only [Shape.bracket, followOperand, hreduce, if_true]

theorem Spelled.step_group {opening : Span} {frames : List Frame} {e : Expr} {s : State}
    {span : Span} (h : Spelled 1 (.group opening :: frames) e s) :
    step s (.closing .round) span = .ok (complete frames e) := by
  obtain ⟨above, operand, hs, hreduce⟩ := h.reduce_zero trivial
  rw [step_of_operand? hs (by simp)]
  simp only [followOperand, hreduce]

/-! ## First items -/

/-- A token that begins an operand begins the first item of a sequence. -/
theorem step_firstItem {frames : List Frame} {token : Token} {span : Span} {s : State}
    (h : step ⟨frames, .operand⟩ token span = .ok s) :
    step ⟨frames, .firstItem⟩ token span = .ok s := by
  simp only [step] at h ⊢
  split
  · cases h
  · exact h

theorem run_firstItem {frames above : List Frame} {operand : Expr} {tokens : List (Token × Span)}
    {s : State} (h : run ⟨frames, .operand⟩ tokens = .ok s)
    (hs : s.operand? = some (above, operand)) : run ⟨frames, .firstItem⟩ tokens = .ok s := by
  cases tokens with
  | nil =>
    cases h
    cases hs
  | cons first tokens =>
    obtain ⟨token, span⟩ := first
    rw [run_cons] at h ⊢
    cases hstep : step ⟨frames, .operand⟩ token span with
    | error _ => rw [hstep] at h; cases h
    | ok next =>
      rw [hstep] at h
      rw [step_firstItem hstep]
      exact h

theorem literal?_of_denotes {token : Token} {value : Literal} (h : Denotes token value) :
    literal? token = some value := by
  cases h with
  | int h =>
    rw [literal?, ← h, int32?_toInt]
    rfl
  | wide h =>
    rw [literal?, int32?, if_neg (by omega)]
    rfl
  | _ => rfl

theorem step_signToken (frames : List Frame) (op : UnaryOp) (span : Span) :
    step ⟨frames, .operand⟩ (signToken op) span = .ok ⟨.unary op span :: frames, .operand⟩ := by
  cases op <;> rfl

theorem step_literal (frames : List Frame) {token : Token} {value : Literal} (span : Span)
    (h : literal? token = some value) :
    step ⟨frames, .operand⟩ token span = .ok (complete frames (.literal value span)) := by
  simp only [step, beginOperand]
  cases token <;> first | (cases h; done) | (cases h; rfl)

/-! ## Phrases -/

theorem eq_singleton_of_map_fst {tokens : List (Token × Span)} {token : Token}
    (h : tokens.map Prod.fst = [token]) : ∃ span, tokens = [(token, span)] := by
  obtain ⟨⟨_, span⟩, after, rfl, rfl, hafter⟩ := List.map_eq_cons_iff.1 h
  rw [List.map_eq_nil_iff.1 hafter]
  exact ⟨span, rfl⟩

theorem eq_concat_of_map_fst {tokens : List (Token × Span)} {ts : List Token} {token : Token}
    (h : tokens.map Prod.fst = ts ++ [token]) :
    ∃ inner span, tokens = inner ++ [(token, span)] ∧ inner.map Prod.fst = ts := by
  obtain ⟨inner, last, rfl, hts, hlast⟩ := List.map_eq_append_iff.1 h
  obtain ⟨span, rfl⟩ := eq_singleton_of_map_fst hlast
  exact ⟨inner, span, rfl, hts⟩

/-- A run over two stretches of tokens, the first of which ends in a known state. -/
theorem run_append_of_ok {s s' : State} {tokens : List (Token × Span)} (more : List (Token × Span))
    (h : run s tokens = .ok s') : run s (tokens ++ more) = run s' more := by
  rw [run_append, h]
  rfl

theorem run_cons_of_ok {s s' : State} {token : Token} {span : Span} (more : List (Token × Span))
    (h : step s token span = .ok s') : run s ((token, span) :: more) = run s' more := by
  rw [run_cons, h]
  rfl

mutual

theorem run_phrase {level : Nat} {ts : List Token} {t : Tree} (h : Phrase level ts t)
    {tokens : List (Token × Span)} (htokens : tokens.map Prod.fst = ts) (frames : List Frame)
    (ho : Open level frames) :
    ∃ s e, run ⟨frames, .operand⟩ tokens = .ok s ∧ Spelled level frames e s ∧ e.tree = t := by
  match h with
  | .chain hlevel hfirst htail =>
    obtain ⟨tokens, more, rfl, hts, hus⟩ := List.map_eq_append_iff.1 htokens
    obtain ⟨s, e, hrun, hs, he⟩ := run_phrase hfirst hts frames (ho.mono (Nat.le_succ level))
    obtain ⟨s', e', hrun', hs', he'⟩ := run_tail htail hus ho (hs.lower (Nat.le_succ level) ho) he
    exact ⟨s', e', by rw [run_append_of_ok more hrun, hrun'], hs', he'⟩
  | .signed hsigned =>
    obtain ⟨s, e, hrun, hs, he⟩ := run_signed hsigned htokens frames
    rw [applySigns_of_open e ho] at hs
    exact ⟨s, e, hrun, ⟨frames, e, hs, reduce_of_open e ho⟩, he⟩

theorem run_tail {level : Nat} {first t : Tree} {us : List Token} (h : Tail level first us t)
    {tokens : List (Token × Span)} (htokens : tokens.map Prod.fst = us) {frames : List Frame}
    (ho : Open level frames) {s : State} {e : Expr} (hs : Spelled level frames e s)
    (he : e.tree = first) :
    ∃ s' e', run s tokens = .ok s' ∧ Spelled level frames e' s' ∧ e'.tree = t := by
  match h with
  | .nil =>
    rw [List.map_eq_nil_iff.1 htokens]
    exact ⟨s, e, rfl, hs, he⟩
  | @Tail.cons _ _ op _ _ _ _ hop hright htail =>
    obtain ⟨⟨token, span⟩, rest, rfl, rfl, hrest⟩ := List.map_eq_cons_iff.1 htokens
    obtain ⟨tokens, more, rfl, hts, hus⟩ := List.map_eq_append_iff.1 hrest
    have hlevel : op.level = level := (mem_operators op level).1 hop
    have hopen : Open (level + 1) (.binary op e :: frames) :=
      Nat.lt_succ_of_le (Nat.le_of_eq hlevel)
    obtain ⟨s₁, r, hrun₁, hs₁, hr⟩ := run_phrase hright hts _ hopen
    obtain ⟨s₂, e₂, hrun₂, hs₂, he₂⟩ :=
      run_tail htail hus ho (hs₁.binary hlevel ho) (by rw [Expr.tree, he, hr])
    refine ⟨s₂, e₂, ?_, hs₂, he₂⟩
    rw [run_cons_of_ok _ (hs.step_operator hlevel), run_append_of_ok more hrun₁, hrun₂]

theorem run_signed {ts : List Token} {t : Tree} (h : Signed ts t) {tokens : List (Token × Span)}
    (htokens : tokens.map Prod.fst = ts) (frames : List Frame) :
    ∃ s e, run ⟨frames, .operand⟩ tokens = .ok s ∧ s.operand? = some (applySigns frames e) ∧
      e.tree = t := by
  match h with
  | @Signed.sign op _ _ hsigned =>
    obtain ⟨⟨token, span⟩, rest, rfl, rfl, hrest⟩ := List.map_eq_cons_iff.1 htokens
    obtain ⟨s, e, hrun, hs, he⟩ := run_signed hsigned hrest (.unary op span :: frames)
    refine ⟨s, .unary op e (span.cover e.span), ?_, hs, by rw [Expr.tree, he]⟩
    rw [run_cons_of_ok rest (step_signToken frames op span), hrun]
  | .primary hprimary => exact run_primary hprimary htokens frames

theorem run_primary {ts : List Token} {t : Tree} (h : Primary ts t) {tokens : List (Token × Span)}
    (htokens : tokens.map Prod.fst = ts) (frames : List Frame) :
    ∃ s e, run ⟨frames, .operand⟩ tokens = .ok s ∧ s.operand? = some (applySigns frames e) ∧
      e.tree = t := by
  match h with
  | @Primary.literal _ value hvalue =>
    obtain ⟨span, rfl⟩ := eq_singleton_of_map_fst htokens
    refine ⟨complete frames (.literal value span), .literal value span, ?_, rfl, rfl⟩
    rw [run_cons_of_ok [] (step_literal frames span (literal?_of_denotes hvalue)), run_nil]
  | @Primary.named name =>
    obtain ⟨span, rfl⟩ := eq_singleton_of_map_fst htokens
    exact ⟨⟨frames, .name name span⟩, .named name span, rfl, rfl, rfl⟩
  | @Primary.call name _ _ hitems =>
    obtain ⟨⟨token, place⟩, rest, rfl, rfl, hrest⟩ := List.map_eq_cons_iff.1 htokens
    obtain ⟨⟨token, span⟩, inner, rfl, rfl, hinner⟩ := List.map_eq_cons_iff.1 hrest
    obtain ⟨items, close, rfl, hts⟩ := eq_concat_of_map_fst hinner
    obtain ⟨es, hrun, hes⟩ := run_items hitems hts (.call name place) frames close
    refine ⟨_, .call name es place, hrun, rfl, ?_⟩
    rw [Expr.tree, Expr.treeAll_eq_map, hes]
  | .list hitems =>
    obtain ⟨⟨token, place⟩, rest, rfl, rfl, hrest⟩ := List.map_eq_cons_iff.1 htokens
    obtain ⟨items, close, rfl, hts⟩ := eq_concat_of_map_fst hrest
    obtain ⟨es, hrun, hes⟩ := run_items hitems hts (.list place) frames close
    refine ⟨_, .list es place, hrun, rfl, ?_⟩
    rw [Expr.tree, Expr.treeAll_eq_map, hes]
  | .group hphrase =>
    obtain ⟨⟨token, opening⟩, rest, rfl, rfl, hrest⟩ := List.map_eq_cons_iff.1 htokens
    obtain ⟨inner, close, rfl, hts⟩ := eq_concat_of_map_fst hrest
    obtain ⟨s, e, hrun, hs, he⟩ := run_phrase hphrase hts (.group opening :: frames) trivial
    refine ⟨complete frames e, e, ?_, rfl, he⟩
    have hopen : step ⟨frames, .operand⟩ (.opening .round) opening =
        .ok ⟨.group opening :: frames, .operand⟩ := rfl
    rw [run_cons_of_ok _ hopen, run_append_of_ok _ hrun, run_cons_of_ok [] hs.step_group, run_nil]

theorem run_items {ts : List Token} {items : List Tree} (h : Items ts items)
    {tokens : List (Token × Span)} (htokens : tokens.map Prod.fst = ts) (shape : Shape)
    (frames : List Frame) (close : Span) :
    ∃ es, run ⟨.items shape [] :: frames, .firstItem⟩
        (tokens ++ [(.closing shape.bracket, close)]) = .ok (complete frames (shape.expr es)) ∧
      es.map Expr.tree = items := by
  match h with
  | .nil =>
    rw [List.map_eq_nil_iff.1 htokens]
    refine ⟨[], ?_, rfl⟩
    cases shape <;> rfl
  | .cons hphrase hmore =>
    obtain ⟨tokens, more, rfl, hts, hus⟩ := List.map_eq_append_iff.1 htokens
    obtain ⟨s, e, hrun, hs, he⟩ :=
      run_phrase hphrase hts (.items shape [] :: frames) trivial
    obtain ⟨es, hrun', hes⟩ := run_moreItems hmore hus close hs
    obtain ⟨above, operand, hoperand, _⟩ := hs
    refine ⟨e :: es, ?_, by rw [List.map_cons, he, hes]⟩
    rw [List.append_assoc, run_append_of_ok _ (run_firstItem hrun hoperand), hrun']
    rfl

theorem run_moreItems {us : List Token} {rest : List Tree} (h : MoreItems us rest)
    {tokens : List (Token × Span)} (htokens : tokens.map Prod.fst = us) {shape : Shape}
    {before : List Expr} {frames : List Frame} (close : Span) {s : State} {e : Expr}
    (hs : Spelled 1 (.items shape before :: frames) e s) :
    ∃ es, run s (tokens ++ [(.closing shape.bracket, close)]) =
        .ok (complete frames (shape.expr ((e :: before).reverse ++ es))) ∧
      es.map Expr.tree = rest := by
  match h with
  | .nil =>
    rw [List.map_eq_nil_iff.1 htokens]
    refine ⟨[], ?_, rfl⟩
    rw [List.nil_append, run_cons_of_ok [] hs.step_closing, run_nil, List.append_nil]
  | .cons hphrase hmore =>
    obtain ⟨⟨token, span⟩, rest, rfl, rfl, hrest⟩ := List.map_eq_cons_iff.1 htokens
    obtain ⟨tokens, more, rfl, hts, hus⟩ := List.map_eq_append_iff.1 hrest
    obtain ⟨s₁, e₁, hrun₁, hs₁, he₁⟩ :=
      run_phrase hphrase hts (.items shape (e :: before) :: frames) trivial
    obtain ⟨es, hrun₂, hes⟩ := run_moreItems hmore hus close hs₁
    refine ⟨e₁ :: es, ?_, by rw [List.map_cons, he₁, hes]⟩
    rw [List.cons_append, run_cons_of_ok _ hs.step_comma, List.append_assoc,
      run_append_of_ok _ hrun₁, hrun₂]
    simp

end

/-- Tokens that spell a tree are accepted, and the expression has that tree. -/
theorem ofTokens_of_expression {tokens : List (Token × Span)} {t : Tree}
    (h : Expression (tokens.map Prod.fst) t) :
    ∃ e, Expr.ofTokens tokens = .ok e ∧ e.tree = t := by
  obtain ⟨s, e, hrun, hs, he⟩ := run_phrase h rfl ([]) trivial
  obtain ⟨above, operand, hoperand, hreduce⟩ := hs.reduce_zero trivial
  refine ⟨e, ?_, he⟩
  rw [ofTokens_eq, start, hrun]
  change finish _ s = .ok e
  rw [finish_of_operand? hoperand, finishOperand, hreduce]

/-- The parser accepts exactly the grammar: it gives an expression with a tree if and only if the
tokens spell that tree. So tokens spell one tree at most, and none that spell one are rejected. -/
theorem the_parser_accepts_exactly_the_grammar (tokens : List (Token × Span)) :
    (∀ t, (∃ e, Expr.ofTokens tokens = .ok e ∧ e.tree = t) ↔ Expression (tokens.map Prod.fst) t) ∧
      (∀ t u, Expression (tokens.map Prod.fst) t → Expression (tokens.map Prod.fst) u → t = u) ∧
      ((∃ t, Expression (tokens.map Prod.fst) t) ↔ (Expr.ofTokens tokens).isOk = true) := by
  refine ⟨fun t => ⟨?_, ofTokens_of_expression⟩, ?_, ?_, ?_⟩
  · rintro ⟨e, he, rfl⟩
    exact expression_of_ofTokens he
  · intro t u ht hu
    obtain ⟨e, he, rfl⟩ := ofTokens_of_expression ht
    obtain ⟨e', he', rfl⟩ := ofTokens_of_expression hu
    rw [he] at he'
    cases he'
    rfl
  · rintro ⟨t, ht⟩
    obtain ⟨e, he, _⟩ := ofTokens_of_expression ht
    rw [he]
    rfl
  · intro hok
    cases he : Expr.ofTokens tokens with
    | error _ => rw [he] at hok; cases hok
    | ok e => exact ⟨e.tree, expression_of_ofTokens he⟩

end Parser

end TemplateExpr
