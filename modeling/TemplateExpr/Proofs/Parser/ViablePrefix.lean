-- Where an error of the parser points. Every state that the parser reaches can still be
-- completed, and a token that it rejects can go on in no way, so the error is at the end of
-- the longest beginning that the grammar knows. At the end of the tokens it is the innermost
-- open bracket that decides what is missing.
import Mathlib.Order.Bounds.Defs
import TemplateExpr.Proofs.Parser.Completeness

namespace TemplateExpr

namespace Parser

open Grammar

/-! ## Beginnings of expressions -/

/-- Tokens with which some expression begins. -/
def Viable (ts : List Token) : Prop := ∃ us t, Expression (ts ++ us) t

theorem Viable.of_append {ts us : List Token} (h : Viable (ts ++ us)) : Viable ts := by
  obtain ⟨vs, t, ht⟩ := h
  rw [List.append_assoc] at ht
  exact ⟨us ++ vs, t, ht⟩

/-- An operand above these frames can be completed, also under signs that wait for it. -/
structure Completable (frames : List Frame) (ts : List Token) : Prop where
  signed : ∀ us t, Signed us t → Viable (ts ++ us)
  phrase : ∀ level us t, 1 ≤ level → Open level frames → Phrase level us t → Viable (ts ++ us)

/-- Above a bracket every expression can be completed if its closing bracket makes a primary. -/
theorem completable_of_bracket {frames : List Frame} {ts : List Token}
    (h : ∀ us t, Expression us t → Viable (ts ++ us)) : Completable frames ts where
  signed _ t hsigned := h _ t ((Phrase.signed hsigned).of_le (by omega))
  phrase _ _ t hlevel _ hphrase := h _ t (hphrase.of_le hlevel)

theorem completable_of_stacked {frames : List Frame} {ts : List Token} (h : Stacked frames ts) :
    Completable frames ts := by
  induction h with
  | nil =>
    refine completable_of_bracket ?_
    intro us t ht
    exact ⟨[], t, by rw [List.nil_append, List.append_nil]; exact ht⟩
  | @binary frames ts vs op l hstack hopen hl ih =>
    have hphrase : ∀ level us t, op.level < level → Phrase level us t →
        Viable (ts ++ (vs ++ [.operator op]) ++ us) := by
      intro level us t hlevel hus
      have hbinary := Phrase.binary hl (hus.of_le hlevel)
      have hviable := ih.phrase op.level _ _ (level_pos op) hopen hbinary
      simpa using hviable
    refine ⟨?_, fun level us t _ hlevel hus => hphrase level us t hlevel hus⟩
    intro us t hus
    exact hphrase 10 us t (Nat.lt_succ_of_le (level_le op)) (.signed hus)
  | @unary frames ts op s hstack ih =>
    refine ⟨?_, fun _ _ _ _ hopen _ => absurd hopen id⟩
    intro us t hus
    have hsigned : Signed (signToken op :: us) (.unary op t) := .sign hus
    have hviable := ih.signed _ _ hsigned
    simpa using hviable
  | @group frames ts s hstack ih =>
    refine completable_of_bracket ?_
    intro us t hus
    have hviable := ih.signed _ _ (.primary (.group hus))
    have hclosed : Viable (ts ++ [.opening .round] ++ us ++ [.closing .round]) := by
      simpa using hviable
    exact hclosed.of_append
  | @items frames ts vs shape before hstack hbefore ih =>
    refine completable_of_bracket ?_
    intro us t hus
    have hitems := hbefore.items hus MoreItems.nil
    rw [List.append_nil] at hitems
    obtain ⟨u, hprimary⟩ :
        ∃ u, Primary (shape.tokens ++ (vs ++ us ++ [.closing shape.bracket])) u := by
      cases shape with
      | list span => exact ⟨_, .list hitems⟩
      | call name span => exact ⟨_, .call hitems⟩
    have hviable := ih.signed _ _ (.primary hprimary)
    have hclosed : Viable (ts ++ (shape.tokens ++ vs) ++ us ++ [.closing shape.bracket]) := by
      simpa using hviable
    exact hclosed.of_append

theorem viable_of_read {s : State} {ts : List Token} (h : Read s ts) : Viable ts := by
  have hnull : Signed [.null] (.literal .null) := .primary (.literal .null)
  cases h with
  | operand hstack => exact ((completable_of_stacked hstack).signed _ _ hnull).of_append
  | @firstItem frames ts shape hstack =>
    have hempty : ItemsBefore [] (([] : List Expr).map Expr.tree) := .nil
    have hitems : Stacked (.items shape [] :: frames) (ts ++ (shape.tokens ++ [])) :=
      .items hstack hempty
    rw [List.append_nil] at hitems
    exact ((completable_of_stacked hitems).signed _ _ hnull).of_append
  | name hstack => exact (completable_of_stacked hstack).signed _ _ (.primary .named)
  | complete hstack _ hsigned => exact (completable_of_stacked hstack).signed _ _ hsigned

/-- No expression goes on with a token that the parser rejects. -/
theorem not_viable_of_step_error {tokens : List (Token × Span)} {s : State} {token : Token}
    {span : Span} {err : SyntaxError} (hrun : run start tokens = .ok s)
    (hstep : step s token span = .error err) : ¬ Viable (tokens.map Prod.fst ++ [token]) := by
  rintro ⟨us, t, ht⟩
  have hmap : (tokens ++ (token, span) :: us.map (·, default)).map Prod.fst =
      tokens.map Prod.fst ++ [token] ++ us := by
    simp [Function.comp_def]
  rw [← hmap] at ht
  obtain ⟨e, he, _⟩ := ofTokens_of_expression ht
  rw [ofTokens_eq, run_append_of_ok _ hrun, run_cons, hstep] at he
  cases he

/-! ## Open brackets -/

/-- What an open bracket is for. One that only groups is known by its place. -/
inductive Opening where
  | group (span : Span)
  | call
  | list

/-- The token right before this point is a name. The tokens before it are given latest first. -/
def afterName : List (Token × Span) → Bool
  | (.identifier _, _) :: _ => true
  | _ => false

/-- The brackets that are still open after some tokens, the innermost first. The tokens are given
latest first. A parenthesis right after a name is that of a call. -/
def openings : List (Token × Span) → List Opening
  | [] => []
  | (.opening .square, _) :: before => .list :: openings before
  | (.opening .round, span) :: before =>
    (if afterName before then .call else .group span) :: openings before
  | (.closing _, _) :: before => (openings before).tail
  | _ :: before => openings before

theorem mem_of_group_mem_openings {before : List (Token × Span)} {span : Span}
    (h : .group span ∈ openings before) : (.opening .round, span) ∈ before := by
  induction before using openings.induct with
  | case1 => cases h
  | case2 place before ih =>
    rcases List.mem_cons.1 h with heq | hmem
    · cases heq
    · exact List.mem_cons_of_mem _ (ih hmem)
  | case3 place before ih =>
    rcases List.mem_cons.1 h with heq | hmem
    · split at heq
      · cases heq
      · cases heq
        exact List.mem_cons_self
    · exact List.mem_cons_of_mem _ (ih hmem)
  | case4 b place before ih => exact List.mem_cons_of_mem _ (ih (List.mem_of_mem_tail h))
  | case5 first before _ _ _ ih =>
    rw [openings] at h
    · exact List.mem_cons_of_mem _ (ih h)
    all_goals assumption

/-- The bracket that a frame stands for, if it stands for one. -/
def Frame.opening? : Frame → Option Opening
  | group span => some (.group span)
  | items (.list _) _ => some .list
  | items (.call _ _) _ => some .call
  | binary _ _ | unary _ _ => none

def Focus.isName : Focus → Bool
  | name _ _ => true
  | _ => false

/-- A state knows the brackets that are open after the tokens it has read. -/
structure Tracks (s : State) (before : List (Token × Span)) : Prop where
  brackets : s.frames.filterMap Frame.opening? = openings before
  name : s.focus.isName = afterName before

theorem openings_applySigns (frames : List Frame) (e : Expr) :
    (applySigns frames e).1.filterMap Frame.opening? = frames.filterMap Frame.opening? := by
  induction frames generalizing e with
  | nil => rfl
  | cons frame frames ih =>
    cases frame with
    | unary op s => exact ih _
    | _ => rfl

theorem openings_reduce (level : Nat) (frames : List Frame) (e : Expr) :
    (reduce level frames e).1.filterMap Frame.opening? = frames.filterMap Frame.opening? := by
  induction frames generalizing e with
  | nil => rfl
  | cons frame frames ih =>
    cases frame with
    | binary op l =>
      rw [reduce]
      split
      · exact ih _
      · rfl
    | _ => rfl

/-- After a primary the state is where the brackets of the frames are. -/
theorem tracks_complete {frames : List Frame} {before : List (Token × Span)} (e : Expr)
    (h : frames.filterMap Frame.opening? = openings before) (hname : afterName before = false) :
    Tracks (complete frames e) before where
  brackets := by rw [complete, openings_applySigns, h]
  name := hname.symm

theorem tracks_beginOperand {frames : List Frame} {before : List (Token × Span)} {token : Token}
    {span : Span} {s : State} (h : frames.filterMap Frame.opening? = openings before)
    (hname : afterName before = false) (hs : beginOperand frames token span = .ok s) :
    Tracks s ((token, span) :: before) := by
  unfold beginOperand at hs
  split at hs
  · cases hs
    exact ⟨h, rfl⟩
  · cases hs
    refine ⟨?_, rfl⟩
    rw [openings, hname, ← h]
    rfl
  · cases hs
    refine ⟨?_, rfl⟩
    rw [openings, ← h]
    rfl
  · cases hs
    exact ⟨h, rfl⟩
  · cases hs
    exact ⟨h, rfl⟩
  · split at hs
    · rename_i hvalue
      cases hs
      have hplain : openings ((token, span) :: before) = openings before ∧
          afterName ((token, span) :: before) = false := by
        cases token <;> first | exact ⟨rfl, rfl⟩ | cases hvalue
      exact tracks_complete _ (h.trans hplain.1.symm) hplain.2
    · cases hs

theorem tracks_followOperand {frames : List Frame} {before : List (Token × Span)} {e : Expr}
    {token : Token} {span : Span} {s : State}
    (h : frames.filterMap Frame.opening? = openings before)
    (hs : followOperand frames e token span = .ok s) : Tracks s ((token, span) :: before) := by
  unfold followOperand at hs
  split at hs
  · rename_i op
    cases hs
    refine ⟨?_, rfl⟩
    change (reduce op.level frames e).1.filterMap _ = openings before
    rw [openings_reduce, h]
  · have hreduce := openings_reduce 0 frames e
    rw [h] at hreduce
    generalize reduce 0 frames e = taken at *
    obtain ⟨above, t⟩ := taken
    dsimp only at hs hreduce
    split at hs
    · rename_i shape items below _
      cases hs
      refine ⟨?_, rfl⟩
      change _ = openings before
      rw [← hreduce]
      cases shape <;> rfl
    · cases hs
      refine tracks_complete _ ?_ rfl
      rw [openings, ← hreduce]
      rfl
    · rename_i b shape items below _
      split at hs
      · cases hs
        refine tracks_complete _ ?_ rfl
        rw [openings, ← hreduce]
        cases shape <;> rfl
      · cases hs
    · cases hs

theorem tracks_step {s s' : State} {before : List (Token × Span)} {token : Token} {span : Span}
    (h : Tracks s before) (hs : step s token span = .ok s') :
    Tracks s' ((token, span) :: before) := by
  obtain ⟨frames, focus⟩ := s
  obtain ⟨hbrackets, hname⟩ := h
  dsimp only at hbrackets hname
  cases focus with
  | operand => exact tracks_beginOperand hbrackets hname.symm hs
  | firstItem =>
    simp only [step] at hs
    split at hs
    · split at hs
      · rename_i shape _ below _
        cases hs
        refine tracks_complete _ ?_ rfl
        rw [openings, ← hbrackets]
        cases shape <;> rfl
      · exact tracks_beginOperand hbrackets hname.symm hs
    · exact tracks_beginOperand hbrackets hname.symm hs
  | name name place =>
    simp only [step] at hs
    split at hs
    · rename_i htoken
      subst htoken
      cases hs
      refine ⟨?_, rfl⟩
      rw [openings, ← hname, ← hbrackets]
      rfl
    · exact tracks_followOperand ((openings_applySigns _ _).trans hbrackets) hs
  | complete e => exact tracks_followOperand hbrackets hs

theorem tracks_run {tokens : List (Token × Span)} {s : State} (h : run start tokens = .ok s) :
    Tracks s tokens.reverse := by
  have hstart : Tracks start ([] : List (Token × Span)).reverse := ⟨rfl, rfl⟩
  have hrun := run_invariant (P := fun s ts => Tracks s ts.reverse)
    (fun htracks hs => by simpa using tracks_step htracks hs) hstart h
  rwa [List.nil_append] at hrun

/-! ## Errors -/

/-- The error is about this token at this place. -/
inductive PointsAt (token : Token) (span : Span) : SyntaxError → Prop
  | unexpected : PointsAt token span (.unexpectedToken token.text span)
  | delimiter {c} : PointsAt token span (.expectedDelimiter c span)
  | trailing : PointsAt token span (.trailingToken token.text span)

theorem pointsAt_misplaced (token : Token) (span : Span) (frames : List Frame) :
    PointsAt token span (misplaced token span frames) := by
  unfold misplaced
  split
  · exact .delimiter
  · exact .delimiter
  · exact .trailing

theorem pointsAt_beginOperand {frames : List Frame} {token : Token} {span : Span}
    {err : SyntaxError} (h : beginOperand frames token span = .error err) :
    PointsAt token span err := by
  unfold beginOperand at h
  split at h
  case h_6 =>
    split at h
    · cases h
    · cases h
      exact .unexpected
  all_goals cases h

theorem pointsAt_followOperand {frames : List Frame} {e : Expr} {token : Token} {span : Span}
    {err : SyntaxError} (h : followOperand frames e token span = .error err) :
    PointsAt token span err := by
  unfold followOperand at h
  split at h
  · cases h
  · dsimp only at h
    split at h
    · cases h
    · cases h
    · split at h
      · cases h
      · cases h
        exact pointsAt_misplaced _ _ _
    · cases h
      exact pointsAt_misplaced _ _ _

theorem pointsAt_step {s : State} {token : Token} {span : Span} {err : SyntaxError}
    (h : step s token span = .error err) : PointsAt token span err := by
  unfold step at h
  split at h
  · exact pointsAt_beginOperand h
  · split at h
    · split at h
      · cases h
      · exact pointsAt_beginOperand h
    · exact pointsAt_beginOperand h
  · split at h
    · cases h
    · exact pointsAt_followOperand h
  · exact pointsAt_followOperand h

/-- The error is about the end of the tokens: about the innermost open bracket where that one is a
grouping parenthesis, or about the last line. -/
inductive EndsEarly (tokens : List (Token × Span)) : SyntaxError → Prop
  | unclosed {span} : (.opening .round, span) ∈ tokens →
      (openings tokens.reverse).head? = some (.group span) →
      EndsEarly tokens (.expectedDelimiter ')' span)
  | ended : EndsEarly tokens (.unexpectedEnd (lastLine tokens))

theorem endsEarly_finishOperand {tokens : List (Token × Span)} {frames : List Frame} {e : Expr}
    {err : SyntaxError} (hbrackets : frames.filterMap Frame.opening? = openings tokens.reverse)
    (h : finishOperand (lastLine tokens) frames e = .error err) : EndsEarly tokens err := by
  have hreduce := openings_reduce 0 frames e
  rw [hbrackets] at hreduce
  unfold finishOperand at h
  split at h
  · cases h
  · rename_i span _ _ hframes
    cases h
    rw [hframes] at hreduce
    have hhead : (openings tokens.reverse).head? = some (.group span) := by
      rw [← hreduce]
      rfl
    have hmem := mem_of_group_mem_openings (List.mem_of_mem_head? hhead)
    exact .unclosed (List.mem_reverse.1 hmem) hhead
  · cases h
    exact .ended

theorem endsEarly_finish {tokens : List (Token × Span)} {s : State} {err : SyntaxError}
    (htracks : Tracks s tokens.reverse) (h : finish (lastLine tokens) s = .error err) :
    EndsEarly tokens err := by
  unfold finish at h
  split at h
  · cases h
    exact .ended
  · cases h
    exact .ended
  · exact endsEarly_finishOperand ((openings_applySigns _ _).trans htracks.brackets) h
  · exact endsEarly_finishOperand htracks.brackets h

/-- A run that fails does so at the first token that a step rejects. -/
theorem run_error {tokens : List (Token × Span)} {s : State} {err : SyntaxError}
    (h : run s tokens = .error err) :
    ∃ before token span after s', tokens = before ++ (token, span) :: after ∧
      run s before = .ok s' ∧ step s' token span = .error err := by
  induction tokens generalizing s with
  | nil => cases h
  | cons first tokens ih =>
    obtain ⟨token, span⟩ := first
    rw [run_cons] at h
    cases hstep : step s token span with
    | error err' =>
      rw [hstep] at h
      cases h
      exact ⟨[], token, span, tokens, s, rfl, rfl, hstep⟩
    | ok next =>
      rw [hstep] at h
      obtain ⟨before, token', span', after, s', rfl, hrun, herr⟩ := ih h
      exact ⟨(token, span) :: before, token', span', after, s', rfl,
        by rw [run_cons_of_ok _ hstep, hrun], herr⟩

/-- An error of the parser points at the first token that can go on in no way: the tokens before it
begin some expression, and with it they begin none. Where all tokens can go on, what is missing at
their end is reported. -/
theorem an_error_points_where_no_expression_goes_on (tokens : List (Token × Span))
    (err : SyntaxError) (h : Expr.ofTokens tokens = .error err) :
    ∃ k, IsGreatest {j | j ≤ tokens.length ∧ Viable ((tokens.take j).map Prod.fst)} k ∧
      ((∃ token span, tokens[k]? = some (token, span) ∧ PointsAt token span err) ∨
        (k = tokens.length ∧ EndsEarly tokens err)) := by
  rw [ofTokens_eq] at h
  cases hrun : run start tokens with
  | error err' =>
    rw [hrun] at h
    cases h
    obtain ⟨before, token, span, after, s, rfl, hbefore, hstep⟩ := run_error hrun
    refine ⟨before.length, ⟨⟨?_, ?_⟩, ?_⟩, .inl ⟨token, span, ?_, pointsAt_step hstep⟩⟩
    · rw [List.length_append]
      exact Nat.le_add_right _ _
    · rw [List.take_left]
      exact viable_of_read (read_run (.operand .nil) hbefore)
    · rintro j ⟨_, hviable⟩
      refine Nat.le_of_not_lt fun hlt => ?_
      obtain ⟨n, rfl⟩ := Nat.exists_eq_add_of_lt hlt
      rw [Nat.add_assoc, List.take_length_add_append, List.take_succ_cons, List.map_append,
        List.map_cons, List.append_cons] at hviable
      exact not_viable_of_step_error hbefore hstep hviable.of_append
    · rw [List.getElem?_append_right (Nat.le_refl _), Nat.sub_self]
      rfl
  | ok s =>
    rw [hrun] at h
    have htracks := tracks_run hrun
    refine ⟨tokens.length, ⟨⟨Nat.le_refl _, ?_⟩, fun j hj => hj.1⟩, .inr ⟨rfl, ?_⟩⟩
    · rw [List.take_length]
      exact viable_of_read (read_run (.operand .nil) hrun)
    · exact endsEarly_finish htracks h

/-- A parenthesis that is never closed. -/
def unclosed : List (Token × Span) := [(.opening .round, ⟨0, 1, 1⟩), (.integer 1, ⟨1, 2, 1⟩)]

theorem an_unclosed_parenthesis_is_reported :
    Expr.ofTokens unclosed = .error (.expectedDelimiter ')' ⟨0, 1, 1⟩) ∧
      ∃ k, IsGreatest {j | j ≤ unclosed.length ∧ Viable ((unclosed.take j).map Prod.fst)} k ∧
        ((∃ token span, unclosed[k]? = some (token, span) ∧
            PointsAt token span (.expectedDelimiter ')' ⟨0, 1, 1⟩)) ∨
          (k = unclosed.length ∧ EndsEarly unclosed (.expectedDelimiter ')' ⟨0, 1, 1⟩))) :=
  ⟨rfl, an_error_points_where_no_expression_goes_on unclosed _ rfl⟩

end Parser

end TemplateExpr
