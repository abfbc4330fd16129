-- What the parser accepts is in the grammar. Each frame stands for the tokens that it
-- was made of, so the stack and the focus together spell all tokens read so far, and
-- every step keeps that true.
import TemplateExpr.Expr.Parser
import TemplateExpr.Proofs.Grammar

namespace TemplateExpr

namespace Parser

open Grammar

/-! ## What a state has read -/

/-- A phrase of this level can begin above these frames: no sign waits for a primary, and a waiting
operator binds less tightly. -/
def Open (level : Nat) : List Frame → Prop
  | .binary op _ :: _ => op.level < level
  | .unary _ _ :: _ => False
  | _ => True

/-- Items with a comma after each, latest first. -/
inductive ItemsBefore : List Token → List Tree → Prop
  | nil : ItemsBefore [] []
  | snoc {ts us items t} : ItemsBefore ts items → Expression us t →
      ItemsBefore (ts ++ (us ++ [.comma])) (t :: items)

/-- The tokens that open a sequence. -/
def Shape.tokens : Shape → List Token
  | list _ => [.opening .square]
  | call name _ => [.identifier name, .opening .round]

/-- The tokens that a stack of frames was made of. -/
inductive Stacked : List Frame → List Token → Prop
  | nil : Stacked [] []
  | binary {frames ts us op l} : Stacked frames ts → Open op.level frames →
      Phrase op.level us l.tree → Stacked (.binary op l :: frames) (ts ++ (us ++ [.operator op]))
  | unary {frames ts op s} : Stacked frames ts →
      Stacked (.unary op s :: frames) (ts ++ [signToken op])
  | group {frames ts s} : Stacked frames ts → Stacked (.group s :: frames) (ts ++ [.opening .round])
  | items {frames ts us shape before} : Stacked frames ts → ItemsBefore us (before.map Expr.tree) →
      Stacked (.items shape before :: frames) (ts ++ (shape.tokens ++ us))

/-- The tokens that a state has read. -/
inductive Read : State → List Token → Prop
  | operand {frames ts} : Stacked frames ts → Read ⟨frames, .operand⟩ ts
  | firstItem {frames ts shape} : Stacked frames ts →
      Read ⟨.items shape [] :: frames, .firstItem⟩ (ts ++ shape.tokens)
  | name {frames ts name s} : Stacked frames ts →
      Read ⟨frames, .name name s⟩ (ts ++ [.identifier name])
  | complete {frames ts us e} : Stacked frames ts → Open 10 frames → Signed us e.tree →
      Read ⟨frames, .complete e⟩ (ts ++ us)

/-! ## Literals -/

theorem denotes_of_literal? {token : Token} {value : Literal} (h : literal? token = some value) :
    Denotes token value := by
  cases token with
  | integer n =>
    simp only [literal?, Option.some.injEq] at h
    by_cases hn : -2147483648 ≤ n.toInt ∧ n.toInt ≤ 2147483647
    · rw [int32?, if_pos hn] at h
      subst h
      exact .int (Int32.toInt_ofInt_of_le hn.1 (by omega))
    · rw [int32?, if_neg hn] at h
      subst h
      exact .wide (by omega)
  | _ =>
    simp only [literal?, Option.some.injEq, reduceCtorEq] at h
    try subst h
    try constructor

/-! ## Taking up frames -/

theorem stacked_applySigns {frames : List Frame} {ts : List Token} (h : Stacked frames ts) :
    ∀ {us : List Token} {e : Expr}, Signed us e.tree → ∃ ts' us', ts ++ us = ts' ++ us' ∧
      Stacked (applySigns frames e).1 ts' ∧ Open 10 (applySigns frames e).1 ∧
      Signed us' (applySigns frames e).2.tree := by
  induction h with
  | unary h ih =>
    intro us e he
    obtain ⟨ts', us', hts, hrest⟩ := ih (e := .unary _ e _) he.sign
    exact ⟨ts', us', by rw [← hts]; simp, hrest⟩
  | nil => exact fun he => ⟨_, _, rfl, .nil, trivial, he⟩
  | binary h ho hl =>
    intro us e he
    exact ⟨_, _, rfl, .binary h ho hl, Nat.lt_succ_of_le (level_le _), he⟩
  | group h => exact fun he => ⟨_, _, rfl, .group h, trivial, he⟩
  | items h hb => exact fun he => ⟨_, _, rfl, .items h hb, trivial, he⟩

theorem read_complete {frames : List Frame} {ts us : List Token} {e : Expr} (h : Stacked frames ts)
    (he : Signed us e.tree) : Read (complete frames e) (ts ++ us) := by
  obtain ⟨ts', us', hts, hs, ho, he'⟩ := stacked_applySigns h he
  rw [hts]
  exact .complete hs ho he'

/-- Taking up the frames of a level turns what was read above them into a phrase of that level. -/
theorem stacked_reduce {low : Nat} {frames : List Frame} {ts : List Token} (h : Stacked frames ts) :
    ∀ {high : Nat} {us : List Token} {e : Expr}, low ≤ high → Open high frames →
      Phrase high us e.tree → ∃ ts' us', ts ++ us = ts' ++ us' ∧
        Stacked (reduce low frames e).1 ts' ∧ Open low (reduce low frames e).1 ∧
        Phrase low us' (reduce low frames e).2.tree := by
  induction h with
  | nil => exact fun hle _ he => ⟨_, _, rfl, .nil, trivial, he.of_le hle⟩
  | unary h => exact fun _ ho => absurd ho id
  | group h => exact fun hle _ he => ⟨_, _, rfl, .group h, trivial, he.of_le hle⟩
  | items h hb => exact fun hle _ he => ⟨_, _, rfl, .items h hb, trivial, he.of_le hle⟩
  | @binary frames ts vs op l h ho hl ih =>
    intro high us e hle hlt he
    unfold reduce
    by_cases hop : low ≤ op.level
    · rw [if_pos hop]
      have hbinary := Phrase.binary hl (he.of_le hlt)
      obtain ⟨ts', us', hts, hrest⟩ := ih (e := .binary op l e) hop ho hbinary
      exact ⟨ts', us', by rw [← hts]; simp, hrest⟩
    · rw [if_neg hop]
      exact ⟨_, _, rfl, .binary h ho hl, Nat.lt_of_not_le hop, he.of_le hle⟩

/-- No operator is on level zero. -/
theorem reduce_zero (frames : List Frame) (e : Expr) : reduce 0 frames e = reduce 1 frames e := by
  induction frames generalizing e with
  | nil => rfl
  | cons frame frames ih =>
    cases frame with
    | binary op l => rw [reduce, reduce, if_pos (Nat.zero_le _), if_pos (level_pos op), ih]
    | _ => rfl

theorem ItemsBefore.items {ts : List Token} {before : List Tree} (h : ItemsBefore ts before) :
    ∀ {us vs : List Token} {t : Tree} {rest : List Tree}, Expression us t → MoreItems vs rest →
      Items (ts ++ (us ++ vs)) (before.reverse ++ t :: rest) := by
  induction h with
  | nil =>
    intro us vs t rest ht hrest
    simpa using Items.cons ht hrest
  | snoc _ hs ih =>
    intro us vs t rest ht hrest
    simpa using ih hs (.cons ht hrest)

/-! ## One token -/

theorem read_beginOperand {frames : List Frame} {ts : List Token} {token : Token} {span : Span}
    {s : State} (h : Stacked frames ts) (hs : beginOperand frames token span = .ok s) :
    Read s (ts ++ [token]) := by
  unfold beginOperand at hs
  split at hs
  · cases hs
    exact .name h
  · cases hs
    exact .operand (.group h)
  · cases hs
    exact .firstItem h
  · cases hs
    exact .operand (.unary h)
  · cases hs
    exact .operand (.unary h)
  · split at hs
    · rename_i value hvalue
      cases hs
      exact read_complete h (.primary (.literal (denotes_of_literal? hvalue)))
    · cases hs

/-- A sequence with its closing bracket is a primary. -/
theorem primary_expr (shape : Shape) {ts : List Token} {items : List Expr}
    (h : Items ts (items.map Expr.tree)) :
    Primary (shape.tokens ++ (ts ++ [.closing shape.bracket])) (shape.expr items).tree := by
  cases shape with
  | list span =>
    rw [Shape.expr, Expr.tree, Expr.treeAll_eq_map]
    exact .list h
  | call name span =>
    rw [Shape.expr, Expr.tree, Expr.treeAll_eq_map]
    exact .call h

theorem read_followOperand {frames : List Frame} {ts us : List Token} {e : Expr} {token : Token}
    {span : Span} {s : State} (h : Stacked frames ts) (ho : Open 10 frames) (he : Signed us e.tree)
    (hs : followOperand frames e token span = .ok s) : Read s (ts ++ us ++ [token]) := by
  unfold followOperand at hs
  split at hs
  · rename_i op
    obtain ⟨ts', us', hts, hstack, hopen, hphrase⟩ :=
      stacked_reduce h (Nat.le_succ_of_le (level_le op)) ho (.signed he)
    cases hs
    rw [hts, List.append_assoc]
    exact .operand (.binary hstack hopen hphrase)
  · obtain ⟨ts', us', hts, hstack, _, hphrase⟩ :=
      stacked_reduce h (by omega : 1 ≤ 10) ho (.signed he)
    rw [← reduce_zero] at hstack hphrase
    rw [hts]
    generalize reduce 0 frames e = taken at *
    obtain ⟨above, t⟩ := taken
    dsimp only at hs hstack hphrase
    split at hs
    · rename_i shape before below _
      cases hs
      cases hstack with
      | items hb hbefore =>
        have hitems : Stacked (.items shape (t :: before) :: below) _ :=
          .items hb (.snoc hbefore hphrase)
        simpa using Read.operand hitems
    · cases hs
      cases hstack with
      | group hb =>
        have hgroup := read_complete hb (.primary (.group hphrase))
        simpa using hgroup
    · rename_i b shape before below _
      split at hs
      · rename_i hshape
        subst hshape
        cases hs
        cases hstack with
        | items hb hbefore =>
          have hitems := hbefore.items hphrase MoreItems.nil
          have hsame : (before.map Expr.tree).reverse ++ [t.tree] =
              (t :: before).reverse.map Expr.tree := by simp
          rw [hsame] at hitems
          have hclosed := read_complete hb (.primary (primary_expr shape hitems))
          simpa using hclosed
      · cases hs
    · cases hs

theorem read_step {s s' : State} {ts : List Token} {token : Token} {span : Span} (h : Read s ts)
    (hs : step s token span = .ok s') : Read s' (ts ++ [token]) := by
  cases h with
  | operand h => exact read_beginOperand h hs
  | @firstItem frames ts shape h =>
    have hstack : Stacked (.items shape [] :: frames) (ts ++ shape.tokens) := by
      have hitems : Stacked (.items shape [] :: frames) _ := .items h .nil
      simpa using hitems
    simp only [step] at hs
    split at hs
    · rename_i b _ _ _ hframes
      cases hframes
      split at hs
      · rename_i hshape
        subst hshape
        cases hs
        have hempty : Items [] (([] : List Expr).map Expr.tree) := .nil
        have hclosed := read_complete h (.primary (primary_expr shape hempty))
        simpa using hclosed
      · exact read_beginOperand hstack hs
    · exact read_beginOperand hstack hs
  | @name frames ts name place h =>
    simp only [step] at hs
    split at hs
    · rename_i htoken
      subst htoken
      cases hs
      have hcall : Read ⟨.items (.call name place) [] :: frames, .firstItem⟩ _ := .firstItem h
      simpa [Shape.tokens] using hcall
    · obtain ⟨ts', us', hts, hstack, hopen, he⟩ :=
        stacked_applySigns (e := .named name place) h (.primary .named)
      rw [hts]
      exact read_followOperand hstack hopen he hs
  | complete h ho he => exact read_followOperand h ho he hs

/-! ## Many tokens -/

/-- The state after some more tokens. -/
def run (s : State) (tokens : List (Token × Span)) : Except SyntaxError State :=
  tokens.foldlM (fun s (token, span) => step s token span) s

theorem run_nil (s : State) : run s [] = .ok s := rfl

theorem run_cons (s : State) (token : Token) (span : Span) (tokens : List (Token × Span)) :
    run s ((token, span) :: tokens) = step s token span >>= (run · tokens) := by
  rw [run, List.foldlM_cons]
  rfl

theorem run_append (s : State) (tokens more : List (Token × Span)) :
    run s (tokens ++ more) = run s tokens >>= (run · more) := by
  rw [run, List.foldlM_append]
  rfl

/-- What every step carries on to the tokens it has read, a run carries on to all of its tokens. -/
theorem run_invariant {P : State → List (Token × Span) → Prop}
    (hstep : ∀ {s s' : State} {ts : List (Token × Span)} {token : Token} {span : Span},
      P s ts → step s token span = .ok s' → P s' (ts ++ [(token, span)]))
    {s s' : State} {ts tokens : List (Token × Span)} (h : P s ts) (hs : run s tokens = .ok s') :
    P s' (ts ++ tokens) := by
  induction tokens generalizing s ts with
  | nil =>
    cases hs
    rwa [List.append_nil]
  | cons first tokens ih =>
    obtain ⟨token, span⟩ := first
    rw [run_cons] at hs
    cases hnext : step s token span with
    | error err =>
      rw [hnext] at hs
      cases hs
    | ok next =>
      rw [hnext] at hs
      have hrest := ih (hstep h hnext) hs
      rwa [List.append_assoc] at hrest

theorem ofTokens_eq (tokens : List (Token × Span)) :
    Expr.ofTokens tokens = run start tokens >>= finish (lastLine tokens) := rfl

theorem read_run {tokens : List (Token × Span)} :
    ∀ {s s' : State} {ts : List Token}, Read s ts → run s tokens = .ok s' →
      Read s' (ts ++ tokens.map Prod.fst) := by
  induction tokens with
  | nil =>
    intro s s' ts h hs
    cases hs
    simpa using h
  | cons first tokens ih =>
    obtain ⟨token, span⟩ := first
    intro s s' ts h hs
    rw [run_cons] at hs
    cases hstep : step s token span with
    | error _ => rw [hstep] at hs; cases hs
    | ok next =>
      rw [hstep] at hs
      have hread := ih (read_step h hstep) hs
      simpa using hread

/-! ## The end of the tokens -/

theorem expression_of_finishOperand {line : Nat} {frames : List Frame} {ts us : List Token}
    {e e' : Expr} (h : Stacked frames ts) (ho : Open 10 frames) (he : Signed us e.tree)
    (hs : finishOperand line frames e = .ok e') : Expression (ts ++ us) e'.tree := by
  unfold finishOperand at hs
  obtain ⟨ts', us', hts, hstack, _, hphrase⟩ :=
    stacked_reduce h (by omega : 1 ≤ 10) ho (.signed he)
  rw [← reduce_zero] at hstack hphrase
  rw [hts]
  split at hs
  · rename_i hreduce
    rw [hreduce] at hstack hphrase
    cases hs
    cases hstack
    exact hphrase
  · cases hs
  · cases hs

theorem expression_of_finish {line : Nat} {s : State} {ts : List Token} {e : Expr} (h : Read s ts)
    (hs : finish line s = .ok e) : Expression ts e.tree := by
  cases h with
  | operand => cases hs
  | firstItem => cases hs
  | @name frames ts name place h =>
    obtain ⟨ts', us', hts, hstack, hopen, he⟩ :=
      stacked_applySigns (e := .named name place) h (.primary .named)
    rw [hts]
    exact expression_of_finishOperand hstack hopen he hs
  | complete h ho he => exact expression_of_finishOperand h ho he hs

/-- The tokens of an accepted expression spell its tree. -/
theorem expression_of_ofTokens {tokens : List (Token × Span)} {e : Expr}
    (h : Expr.ofTokens tokens = .ok e) : Expression (tokens.map Prod.fst) e.tree := by
  rw [ofTokens_eq] at h
  cases hrun : run start tokens with
  | error _ => rw [hrun] at h; cases h
  | ok s =>
    rw [hrun] at h
    have hread := read_run (.operand .nil) hrun
    exact expression_of_finish hread h

end Parser

end TemplateExpr
