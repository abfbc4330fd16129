-- Where the nodes of an expression are. Each frame of the parser was made of a stretch of
-- the tokens, and so was the operand above the frames; every node is composed of a
-- stretch, and its place goes from the first to the last token of a stretch.
import TemplateExpr.Proofs.Evaluation.Postorder
import TemplateExpr.Proofs.Parser.Soundness

namespace TemplateExpr

namespace Expr

theorem postorderAll_append (es more : List Expr) :
    postorderAll (es ++ more) = postorderAll es ++ postorderAll more := by
  induction es with
  | nil => rfl
  | cons e es ih => simp [postorderAll, ih]

theorem postorderAll_snoc (es : List Expr) (e : Expr) :
    postorderAll (es ++ [e]) = postorderAll es ++ e.postorder := by
  simp [postorderAll_append, postorderAll]

end Expr

namespace Parser

open Grammar

/-! ## Stretches of tokens -/

/-- From the start of the first of some tokens in a row to the end of the last of them. -/
def Stretch (tokens : List (Token × Span)) (span : Span) : Prop :=
  ∃ before middle after first last, tokens = before ++ (middle ++ after) ∧
    middle.head? = some first ∧ middle.getLast? = some last ∧ span = first.2.cover last.2

theorem Stretch.single (token : Token) (span : Span) : Stretch [(token, span)] span :=
  ⟨[], [(token, span)], [], _, _, rfl, rfl, rfl, rfl⟩

theorem Stretch.widen {tokens more : List (Token × Span)} {span : Span}
    (h : Stretch tokens span) (hmore : tokens <:+: more) : Stretch more span := by
  obtain ⟨before, middle, after, first, last, rfl, hspan⟩ := h
  obtain ⟨left, right, rfl⟩ := hmore
  exact ⟨left ++ before, middle, after ++ right, first, last, by simp, hspan⟩

/-- Two stretches one after the other, and all that lies between them. -/
theorem Stretch.cover {left right : List (Token × Span)} {a b : Span} (ha : Stretch left a)
    (between : List (Token × Span)) (hb : Stretch right b) :
    Stretch (left ++ (between ++ right)) (a.cover b) := by
  obtain ⟨before, middle, after, first, last, rfl, hfirst, hlast, rfl⟩ := ha
  obtain ⟨before', middle', after', first', last', rfl, hfirst', hlast', rfl⟩ := hb
  refine ⟨before, middle ++ (after ++ (between ++ (before' ++ middle'))), after', first, last',
    by simp, ?_, ?_, rfl⟩
  · rw [List.head?_append, hfirst]
    rfl
  · rw [← List.append_assoc, ← List.append_assoc, ← List.append_assoc, List.getLast?_append,
      hlast']
    rfl

/-! ## What expressions are composed of -/

mutual

/-- The first tokens spell the expression. The others are those of them that belong to it, all but
the parentheses that only group. Every token is where the expression says. -/
inductive Composed : List (Token × Span) → List (Token × Span) → Expr → Prop
  | literal {token value place} : Denotes token value →
      Composed [(token, place)] [(token, place)] (.literal value place)
  | named {name place} :
      Composed [(.identifier name, place)] [(.identifier name, place)] (.named name place)
  | unary {op place ts own e} : Composed ts own e →
      Composed ((signToken op, place) :: ts) ((signToken op, place) :: own)
        (.unary op e (place.cover e.span))
  | binary {op place ts us ownl ownr l r} : Composed ts ownl l → Composed us ownr r →
      Composed (ts ++ (.operator op, place) :: us) (ownl ++ (.operator op, place) :: ownr)
        (.binary op l r)
  | call {name place opening closing ts own arguments} : Sequence ts own arguments →
      Composed ((.identifier name, place) :: (.opening .round, opening) ::
          (ts ++ [(.closing .round, closing)]))
        ((.identifier name, place) :: (.opening .round, opening) ::
          (own ++ [(.closing .round, closing)])) (.call name arguments place)
  | list {opening closing ts own items} : Sequence ts own items →
      Composed ((.opening .square, opening) :: (ts ++ [(.closing .square, closing)]))
        ((.opening .square, opening) :: (own ++ [(.closing .square, closing)]))
        (.list items opening)
  | group {opening closing ts own e} : Composed ts own e →
      Composed ((.opening .round, opening) :: (ts ++ [(.closing .round, closing)])) own e

/-- Nothing, or expressions with commas between them. -/
inductive Sequence : List (Token × Span) → List (Token × Span) → List Expr → Prop
  | nil : Sequence [] [] []
  | snoc {ts us own own' before e} : Preceding ts own before → Composed us own' e →
      Sequence (ts ++ us) (own ++ own') (before ++ [e])

/-- Expressions with a comma after each. -/
inductive Preceding : List (Token × Span) → List (Token × Span) → List Expr → Prop
  | nil : Preceding [] [] []
  | snoc {ts us own own' before e place} : Preceding ts own before → Composed us own' e →
      Preceding (ts ++ (us ++ [(.comma, place)])) (own ++ (own' ++ [(.comma, place)]))
        (before ++ [e])

end

/-- The place of an expression is a stretch of the tokens that spell it. -/
theorem Composed.stretch {ts own : List (Token × Span)} {e : Expr} (h : Composed ts own e) :
    Stretch ts e.span := by
  match h with
  | @Composed.literal token _ place _ => exact .single token place
  | @Composed.named name place => exact .single (.identifier name) place
  | @Composed.unary op place _ _ _ he =>
    exact (Stretch.single (signToken op) place).cover [] he.stretch
  | @Composed.binary op place _ _ _ _ _ _ hl hr =>
    exact hl.stretch.cover [(.operator op, place)] hr.stretch
  | @Composed.call name place _ _ _ _ _ _ =>
    exact (Stretch.single (.identifier name) place).widen ⟨[], _, rfl⟩
  | @Composed.list opening _ _ _ _ _ =>
    exact (Stretch.single (.opening .square) opening).widen ⟨[], _, rfl⟩
  | .group he => exact he.stretch.widen ⟨[_], _, rfl⟩

/-- The expression is composed of tokens among these. -/
def Within (ts own : List (Token × Span)) (e : Expr) : Prop :=
  ∃ ts' own', ts' <:+: ts ∧ own' <:+: own ∧ Composed ts' own' e

theorem Within.mono {ts ts' own own' : List (Token × Span)} {e : Expr} (h : Within ts own e)
    (hts : ts <:+: ts') (hown : own <:+: own') : Within ts' own' e := by
  obtain ⟨us, own'', hus, hown'', he⟩ := h
  exact ⟨us, own'', hus.trans hts, hown''.trans hown, he⟩

theorem Composed.within {ts own : List (Token × Span)} {e : Expr} (h : Composed ts own e) :
    Within ts own e := ⟨ts, own, List.infix_rfl, List.infix_rfl, h⟩

mutual

/-- Every node of an expression is composed of tokens in a row. -/
theorem Composed.nodes {ts own : List (Token × Span)} {e : Expr} (h : Composed ts own e) :
    ∀ n ∈ e.postorder, Within ts own n := by
  intro n hn
  match h with
  | .literal hdenotes =>
    rw [Expr.postorder, List.mem_singleton] at hn
    rw [hn]
    exact (Composed.literal hdenotes).within
  | .named =>
    rw [Expr.postorder, List.mem_singleton] at hn
    rw [hn]
    exact Composed.named.within
  | .unary he =>
    rw [Expr.postorder, List.mem_append, List.mem_singleton] at hn
    rcases hn with hn | rfl
    · exact (he.nodes n hn).mono (List.suffix_cons _ _).isInfix (List.suffix_cons _ _).isInfix
    · exact he.unary.within
  | .binary hl hr =>
    rw [Expr.postorder, List.mem_append, List.mem_append, List.mem_singleton] at hn
    rcases hn with (hn | hn) | rfl
    · exact (hl.nodes n hn).mono ⟨[], _, rfl⟩ ⟨[], _, rfl⟩
    · exact (hr.nodes n hn).mono (List.suffix_append_of_suffix (List.suffix_cons _ _)).isInfix
        (List.suffix_append_of_suffix (List.suffix_cons _ _)).isInfix
    · exact (hl.binary hr).within
  | .call hs =>
    rw [Expr.postorder, List.mem_append, List.mem_singleton] at hn
    rcases hn with hn | rfl
    · exact (hs.nodes n hn).mono ⟨[_, _], _, rfl⟩ ⟨[_, _], _, rfl⟩
    · exact (Composed.call hs).within
  | .list hs =>
    rw [Expr.postorder, List.mem_append, List.mem_singleton] at hn
    rcases hn with hn | rfl
    · exact (hs.nodes n hn).mono ⟨[_], _, rfl⟩ ⟨[_], _, rfl⟩
    · exact (Composed.list hs).within
  | .group he => exact (he.nodes n hn).mono ⟨[_], _, rfl⟩ List.infix_rfl

theorem Sequence.nodes {ts own : List (Token × Span)} {es : List Expr} (h : Sequence ts own es) :
    ∀ n ∈ Expr.postorderAll es, Within ts own n := by
  intro n hn
  match h with
  | .nil => cases hn
  | .snoc hbefore he =>
    rw [Expr.postorderAll_snoc, List.mem_append] at hn
    rcases hn with hn | hn
    · exact (hbefore.nodes n hn).mono ⟨[], _, rfl⟩ ⟨[], _, rfl⟩
    · exact (he.nodes n hn).mono (List.suffix_append _ _).isInfix (List.suffix_append _ _).isInfix

theorem Preceding.nodes {ts own : List (Token × Span)} {es : List Expr}
    (h : Preceding ts own es) : ∀ n ∈ Expr.postorderAll es, Within ts own n := by
  intro n hn
  match h with
  | .nil => cases hn
  | .snoc hbefore he =>
    rw [Expr.postorderAll_snoc, List.mem_append] at hn
    rcases hn with hn | hn
    · exact (hbefore.nodes n hn).mono ⟨[], _, rfl⟩ ⟨[], _, rfl⟩
    · exact (he.nodes n hn).mono ⟨_, _, List.append_assoc _ _ _⟩ ⟨_, _, List.append_assoc _ _ _⟩

end

/-! ## What frames were made of -/

/-- The tokens that begin a sequence, where its shape says. -/
inductive Shape.Begins : Shape → List (Token × Span) → Prop
  | list {place} : Begins (.list place) [(.opening .square, place)]
  | call {name place opening} :
      Begins (.call name place) [(.identifier name, place), (.opening .round, opening)]

/-- The tokens that a stack of frames was made of, each frame of tokens of its own. -/
inductive Laid : List Frame → List (Token × Span) → Prop
  | nil : Laid [] []
  | binary {frames ts us own op l place} : Laid frames ts → Composed us own l →
      Laid (.binary op l :: frames) (ts ++ (us ++ [(.operator op, place)]))
  | unary {frames ts op place} : Laid frames ts →
      Laid (.unary op place :: frames) (ts ++ [(signToken op, place)])
  | group {frames ts opening} : Laid frames ts →
      Laid (.group opening :: frames) (ts ++ [(.opening .round, opening)])
  | items {frames ts us vs own shape before} : Laid frames ts → shape.Begins us →
      Preceding vs own before.reverse → Laid (.items shape before :: frames) (ts ++ (us ++ vs))

/-- The tokens that a state was made of. -/
inductive LaidOut : State → List (Token × Span) → Prop
  | operand {frames ts} : Laid frames ts → LaidOut ⟨frames, .operand⟩ ts
  | firstItem {frames ts us shape} : Laid frames ts → shape.Begins us →
      LaidOut ⟨.items shape [] :: frames, .firstItem⟩ (ts ++ us)
  | name {frames ts name place} : Laid frames ts →
      LaidOut ⟨frames, .name name place⟩ (ts ++ [(.identifier name, place)])
  | complete {frames ts us own e} : Laid frames ts → Composed us own e →
      LaidOut ⟨frames, .complete e⟩ (ts ++ us)

/-! ## Taking up frames -/

/-- A sequence with its closing bracket. -/
theorem composed_expr {shape : Shape} {items : List Expr} {us vs own : List (Token × Span)}
    (hbegins : shape.Begins us) (hitems : Sequence vs own items) (closing : Span) :
    ∃ own', Composed (us ++ (vs ++ [(.closing shape.bracket, closing)])) own'
      (shape.expr items) := by
  cases hbegins with
  | list => exact ⟨_, .list hitems⟩
  | call => exact ⟨_, .call hitems⟩

theorem laid_applySigns {frames : List Frame} {ts : List (Token × Span)} (h : Laid frames ts) :
    ∀ {us own : List (Token × Span)} {e : Expr}, Composed us own e → ∃ ts' us' own',
      ts ++ us = ts' ++ us' ∧ Laid (applySigns frames e).1 ts' ∧
        Composed us' own' (applySigns frames e).2 := by
  induction h with
  | unary h ih =>
    intro us own e he
    obtain ⟨ts', us', own', hts, hrest⟩ := ih he.unary
    exact ⟨ts', us', own', by rw [← hts, List.append_assoc]; rfl, hrest⟩
  | nil => exact fun he => ⟨_, _, _, rfl, .nil, he⟩
  | binary h hl => exact fun he => ⟨_, _, _, rfl, .binary h hl, he⟩
  | group h => exact fun he => ⟨_, _, _, rfl, .group h, he⟩
  | items h hbegins hbefore => exact fun he => ⟨_, _, _, rfl, .items h hbegins hbefore, he⟩

theorem laidOut_complete {frames : List Frame} {ts us own : List (Token × Span)} {e : Expr}
    (h : Laid frames ts) (he : Composed us own e) : LaidOut (complete frames e) (ts ++ us) := by
  obtain ⟨ts', us', own', hts, hlaid, hcomposed⟩ := laid_applySigns h he
  rw [hts]
  exact .complete hlaid hcomposed

theorem laid_reduce {frames : List Frame} {ts : List (Token × Span)} (level : Nat)
    (h : Laid frames ts) : ∀ {us own : List (Token × Span)} {e : Expr}, Composed us own e →
      ∃ ts' us' own', ts ++ us = ts' ++ us' ∧ Laid (reduce level frames e).1 ts' ∧
        Composed us' own' (reduce level frames e).2 := by
  induction h with
  | @binary frames ts vs own op l place h hl ih =>
    intro us own e he
    unfold reduce
    split
    · have hbinary := @Composed.binary op place _ _ _ _ l e hl he
      obtain ⟨ts', us', own', hts, hrest⟩ := ih hbinary
      exact ⟨ts', us', own', by rw [← hts]; simp, hrest⟩
    · exact ⟨_, _, _, rfl, .binary h hl, he⟩
  | nil => exact fun he => ⟨_, _, _, rfl, .nil, he⟩
  | unary h => exact fun he => ⟨_, _, _, rfl, .unary h, he⟩
  | group h => exact fun he => ⟨_, _, _, rfl, .group h, he⟩
  | items h hbegins hbefore => exact fun he => ⟨_, _, _, rfl, .items h hbegins hbefore, he⟩

/-! ## One token -/

theorem laidOut_beginOperand {frames : List Frame} {ts : List (Token × Span)} {token : Token}
    {span : Span} {s : State} (h : Laid frames ts) (hs : beginOperand frames token span = .ok s) :
    LaidOut s (ts ++ [(token, span)]) := by
  unfold beginOperand at hs
  split at hs
  · cases hs
    exact .name h
  · cases hs
    exact .operand (.group h)
  · cases hs
    exact .firstItem h .list
  · cases hs
    exact .operand (@Laid.unary _ _ .negate span h)
  · cases hs
    exact .operand (@Laid.unary _ _ .not span h)
  · split at hs
    · rename_i value hvalue
      cases hs
      exact laidOut_complete h (.literal (denotes_of_literal? hvalue))
    · cases hs

theorem laidOut_followOperand {frames : List Frame} {ts us own : List (Token × Span)} {e : Expr}
    {token : Token} {span : Span} {s : State} (h : Laid frames ts) (he : Composed us own e)
    (hs : followOperand frames e token span = .ok s) :
    LaidOut s (ts ++ us ++ [(token, span)]) := by
  unfold followOperand at hs
  split at hs
  · rename_i op
    obtain ⟨ts', us', own', hts, hlaid, hcomposed⟩ := laid_reduce op.level h he
    cases hs
    rw [hts, List.append_assoc]
    exact .operand (.binary hlaid hcomposed)
  · obtain ⟨ts', us', own', hts, hlaid, hcomposed⟩ := laid_reduce 0 h he
    rw [hts]
    generalize reduce 0 frames e = taken at *
    obtain ⟨above, e⟩ := taken
    dsimp only at hs hlaid hcomposed
    split at hs
    · rename_i shape before below _
      cases hs
      cases hlaid with
      | items hbelow hbegins hbefore =>
        have hmore := @Preceding.snoc _ _ _ _ _ e span hbefore hcomposed
        rw [← List.reverse_cons] at hmore
        have hitems : Laid (.items shape (e :: before) :: below) _ := .items hbelow hbegins hmore
        simpa using LaidOut.operand hitems
    · rename_i opening below _
      cases hs
      cases hlaid with
      | group hbelow =>
        have hgroup := laidOut_complete hbelow (@Composed.group opening span _ _ e hcomposed)
        simpa using hgroup
    · rename_i b shape before below _
      split at hs
      · rename_i hshape
        subst hshape
        cases hs
        cases hlaid with
        | items hbelow hbegins hbefore =>
          have hitems := Sequence.snoc hbefore hcomposed
          rw [← List.reverse_cons] at hitems
          obtain ⟨own'', hexpr⟩ := composed_expr hbegins hitems span
          have hclosed := laidOut_complete hbelow hexpr
          simpa using hclosed
      · cases hs
    · cases hs

theorem laidOut_step {s s' : State} {ts : List (Token × Span)} {token : Token} {span : Span}
    (h : LaidOut s ts) (hs : step s token span = .ok s') : LaidOut s' (ts ++ [(token, span)]) := by
  cases h with
  | operand h => exact laidOut_beginOperand h hs
  | @firstItem frames ts us shape h hbegins =>
    have hlaid : Laid (.items shape [] :: frames) (ts ++ us) := by
      have hitems : Laid (.items shape [] :: frames) _ := .items h hbegins .nil
      simpa using hitems
    simp only [step] at hs
    split at hs
    · rename_i b _ _ _ hframes
      cases hframes
      split at hs
      · rename_i hshape
        subst hshape
        cases hs
        obtain ⟨own, hexpr⟩ := composed_expr hbegins .nil span
        have hclosed := laidOut_complete h hexpr
        simpa using hclosed
      · exact laidOut_beginOperand hlaid hs
    · exact laidOut_beginOperand hlaid hs
  | @name frames ts name place h =>
    simp only [step] at hs
    split at hs
    · rename_i htoken
      subst htoken
      cases hs
      have hcall : LaidOut ⟨.items (.call name place) [] :: frames, .firstItem⟩ _ :=
        .firstItem h (@Shape.Begins.call name place span)
      simpa using hcall
    · obtain ⟨ts', us', own', hts, hlaid, hcomposed⟩ :=
        laid_applySigns h (@Composed.named name place)
      rw [hts]
      exact laidOut_followOperand hlaid hcomposed hs
  | complete h he => exact laidOut_followOperand h he hs

/-! ## All tokens -/

theorem composed_finishOperand {line : Nat} {frames : List Frame} {ts us own : List (Token × Span)}
    {e e' : Expr} (h : Laid frames ts) (he : Composed us own e)
    (hs : finishOperand line frames e = .ok e') : ∃ own', Composed (ts ++ us) own' e' := by
  unfold finishOperand at hs
  obtain ⟨ts', us', own', hts, hlaid, hcomposed⟩ := laid_reduce 0 h he
  rw [hts]
  split at hs
  · rename_i hreduce
    cases hs
    rw [hreduce] at hlaid hcomposed
    cases hlaid
    exact ⟨own', hcomposed⟩
  · cases hs
  · cases hs

theorem composed_finish {line : Nat} {s : State} {ts : List (Token × Span)} {e : Expr}
    (h : LaidOut s ts) (hs : finish line s = .ok e) : ∃ own, Composed ts own e := by
  cases h with
  | operand => cases hs
  | firstItem => cases hs
  | @name frames ts name place h =>
    obtain ⟨ts', us', own', hts, hlaid, hcomposed⟩ :=
      laid_applySigns h (@Composed.named name place)
    rw [hts]
    exact composed_finishOperand hlaid hcomposed hs
  | complete h he => exact composed_finishOperand h he hs

/-- An expression is composed of all of its tokens. -/
theorem composed_of_ofTokens {tokens : List (Token × Span)} {e : Expr}
    (h : Expr.ofTokens tokens = .ok e) : ∃ own, Composed tokens own e := by
  rw [ofTokens_eq] at h
  cases hrun : run start tokens with
  | error err =>
    rw [hrun] at h
    cases h
  | ok s =>
    rw [hrun] at h
    have hlaid := run_invariant (P := LaidOut) laidOut_step (.operand .nil) hrun
    exact composed_finish hlaid h

/-- Every node of an expression is where a stretch of its tokens is. -/
theorem made_of_ofTokens {tokens : List (Token × Span)} {e : Expr}
    (h : Expr.ofTokens tokens = .ok e) : ∀ n ∈ e.postorder, Stretch tokens n.span := by
  intro n hn
  obtain ⟨own, hcomposed⟩ := composed_of_ofTokens h
  obtain ⟨ts, _, hts, _, hnode⟩ := hcomposed.nodes n hn
  exact hnode.stretch.widen hts

end Parser

theorem tokens_of_ofSource {source : String} {e : Expr} (h : Expr.ofSource source = .ok e) :
    ∃ tokens, Token.ofSource source = .ok tokens ∧ Expr.ofTokens tokens = .ok e := by
  unfold Expr.ofSource at h
  cases htokens : Token.ofSource source with
  | error err =>
    rw [htokens] at h
    cases h
  | ok tokens =>
    rw [htokens] at h
    exact ⟨tokens, rfl, h⟩

end TemplateExpr
