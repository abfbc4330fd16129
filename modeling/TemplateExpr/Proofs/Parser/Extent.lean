-- How much of an expression the place of a node takes in. Lists and calls are placed at
-- what begins them, so an operator whose last operand is one of them stops short of its
-- closing bracket; every other operator takes in all that belongs to it.
import TemplateExpr.Proofs.Parser.Places
import TemplateExpr.Proofs.Scanner.Tiling

namespace TemplateExpr

/-- The second place lies in the first. -/
def Span.Contains (outer inner : Span) : Prop :=
  outer.start ≤ inner.start ∧ inner.stop ≤ outer.stop

instance (outer inner : Span) : Decidable (outer.Contains inner) := instDecidableAnd

namespace Expr

def isOperator : Expr → Bool
  | unary .. | binary .. => true
  | _ => false

/-- The last token of the expression, parentheses around a part of it aside, closes a list or a
call. -/
def endsInBracket : Expr → Bool
  | literal .. | named .. => false
  | unary _ e _ => e.endsInBracket
  | binary _ _ r => r.endsInBracket
  | call .. | list .. => true

/-- The place of the node contains those of all nodes below it and of these tokens. -/
def CoversAll (n : Expr) (own : List (Token × Span)) : Prop :=
  (∀ m ∈ n.postorder, n.span.Contains m.span) ∧ ∀ p ∈ own, n.span.Contains p.2

end Expr

namespace Parser

open Grammar

/-! ## Tokens one after the other -/

/-- Tokens whose places are not empty and follow each other. -/
structure InOrder (tokens : List (Token × Span)) : Prop where
  nonempty : ∀ p ∈ tokens, p.2.start < p.2.stop
  pairwise : tokens.Pairwise fun a b => a.2.stop ≤ b.2.start

theorem inOrder_of_ofSource {source : String} {tokens : List (Token × Span)}
    (h : Token.ofSource source = .ok tokens) : InOrder tokens := by
  obtain ⟨hstands, hpairwise⟩ := Scanner.stands_of_ofSource h
  refine ⟨?_, hpairwise⟩
  intro p hp
  exact (hstands p.1 p.2 hp).start_lt_stop

theorem InOrder.sublist {tokens some : List (Token × Span)} (h : InOrder tokens)
    (hsub : some.Sublist tokens) : InOrder some :=
  ⟨fun p hp => h.nonempty p (hsub.subset hp), h.pairwise.sublist hsub⟩

theorem InOrder.stop_le_start {ts us : List (Token × Span)} (h : InOrder (ts ++ us))
    {p q : Token × Span} (hp : p ∈ ts) (hq : q ∈ us) : p.2.stop ≤ q.2.start :=
  (List.pairwise_append.1 h.pairwise).2.2 p hp q hq

theorem InOrder.head_le {tokens : List (Token × Span)} (h : InOrder tokens)
    {first p : Token × Span} (hfirst : tokens.head? = some first) (hp : p ∈ tokens) :
    first.2.start ≤ p.2.start := by
  obtain ⟨more, rfl⟩ := List.head?_eq_some_iff.1 hfirst
  rcases List.mem_cons.1 hp with rfl | hmore
  · exact Nat.le_refl _
  · have hlt := h.nonempty first List.mem_cons_self
    have hle := (List.pairwise_cons.1 h.pairwise).1 p hmore
    omega

theorem InOrder.le_last {tokens : List (Token × Span)} {last p : Token × Span}
    (h : InOrder (tokens ++ [last])) (hp : p ∈ tokens ++ [last]) : p.2.stop ≤ last.2.stop := by
  rcases List.mem_append.1 hp with hbefore | hlast
  · have hle := h.stop_le_start hbefore List.mem_cons_self
    have hlt := h.nonempty last (List.mem_append_right _ List.mem_cons_self)
    omega
  · rw [List.mem_singleton.1 hlast]

/-! ## The tokens that belong to an expression -/

mutual

theorem Composed.sublist {ts own : List (Token × Span)} {e : Expr} (h : Composed ts own e) :
    own.Sublist ts := by
  match h with
  | .literal _ | .named => exact .refl _
  | .unary he => exact he.sublist.cons_cons _
  | .binary hl hr => exact hl.sublist.append (hr.sublist.cons_cons _)
  | .call hs => exact ((hs.sublist.append (.refl _)).cons_cons _).cons_cons _
  | .list hs => exact (hs.sublist.append (.refl _)).cons_cons _
  | .group he => exact (he.sublist.trans (List.sublist_append_left _ _)).cons _

theorem Sequence.sublist {ts own : List (Token × Span)} {es : List Expr}
    (h : Sequence ts own es) : own.Sublist ts := by
  match h with
  | .nil => exact .refl _
  | .snoc hbefore he => exact hbefore.sublist.append he.sublist

theorem Preceding.sublist {ts own : List (Token × Span)} {es : List Expr}
    (h : Preceding ts own es) : own.Sublist ts := by
  match h with
  | .nil => exact .refl _
  | .snoc hbefore he => exact hbefore.sublist.append (he.sublist.append (.refl _))

end

/-- The place begins at the first of these tokens and stops before this tail of them. -/
def LeavesOut (own : List (Token × Span)) (place : Span) (tail : List (Token × Span)) : Prop :=
  ∃ first front last, own.head? = some first ∧ own = front ++ last :: tail ∧
    place = first.2.cover last.2

theorem leavesOut_single (p : Token × Span) (tail : List (Token × Span)) :
    LeavesOut (p :: tail) p.2 tail := ⟨p, [], p, rfl, rfl, rfl⟩

/-- What the place of an expression leaves out of its tokens. -/
theorem Composed.leavesOut {ts own : List (Token × Span)} {e : Expr} (h : Composed ts own e) :
    ∃ tail, LeavesOut own e.span tail ∧ (tail = [] ↔ e.endsInBracket = false) := by
  match h with
  | @Composed.literal token _ place _ =>
    exact ⟨[], leavesOut_single (token, place) [], by simp [Expr.endsInBracket]⟩
  | @Composed.named name place =>
    exact ⟨[], leavesOut_single (.identifier name, place) [], by simp [Expr.endsInBracket]⟩
  | @Composed.unary op place _ _ _ he =>
    obtain ⟨tail, ⟨first, front, last, _, rfl, hspan⟩, htail⟩ := he.leavesOut
    refine ⟨tail, ⟨(signToken op, place), (signToken op, place) :: front, last, rfl, rfl, ?_⟩,
      by simpa [Expr.endsInBracket] using htail⟩
    simp only [Expr.span, hspan, Span.cover]
  | @Composed.binary op place _ _ ownl _ _ _ hl hr =>
    obtain ⟨_, ⟨first, _, _, hfirst, _, hleft⟩, _⟩ := hl.leavesOut
    obtain ⟨tail, ⟨_, front, last, _, rfl, hright⟩, htail⟩ := hr.leavesOut
    refine ⟨tail, ⟨first, ownl ++ (.operator op, place) :: front, last, ?_, by simp, ?_⟩,
      by simpa [Expr.endsInBracket] using htail⟩
    · rw [List.head?_append, hfirst, Option.some_or]
    · simp only [Expr.span, hleft, hright, Span.cover]
  | @Composed.call name place _ _ _ _ _ _ =>
    exact ⟨_, leavesOut_single (.identifier name, place) _, by simp [Expr.endsInBracket]⟩
  | @Composed.list opening _ _ _ _ _ =>
    exact ⟨_, leavesOut_single (.opening .square, opening) _, by simp [Expr.endsInBracket]⟩
  | .group he => exact he.leavesOut

/-- The place of an expression goes from one of its tokens to another. -/
theorem Composed.ends {ts own : List (Token × Span)} {e : Expr} (h : Composed ts own e) :
    ∃ first ∈ own, ∃ last ∈ own, e.span = first.2.cover last.2 := by
  obtain ⟨_, ⟨first, front, last, hfirst, rfl, hspan⟩, _⟩ := h.leavesOut
  exact ⟨first, List.mem_of_mem_head? hfirst, last, by simp, hspan⟩

/-- A place contains all tokens exactly if it leaves none of them out. -/
theorem LeavesOut.contains_iff {own tail : List (Token × Span)} {place : Span}
    (h : LeavesOut own place tail) (horder : InOrder own) :
    (∀ p ∈ own, place.Contains p.2) ↔ tail = [] := by
  obtain ⟨first, front, last, hfirst, rfl, rfl⟩ := h
  constructor
  · intro hall
    cases tail with
    | nil => rfl
    | cons q more =>
      have hq : q ∈ front ++ last :: q :: more := by simp
      have hlt := horder.nonempty q hq
      have hinside := (hall q hq).2
      have hlast : last ∈ front ++ [last] := by simp
      rw [← List.singleton_append, ← List.append_assoc] at horder
      have hafter := horder.stop_le_start hlast List.mem_cons_self
      rw [Span.stop_cover] at hinside
      omega
  · rintro rfl p hp
    exact ⟨horder.head_le hfirst hp, horder.le_last hp⟩

/-! ## Operators -/

/-- The operands of an operator are in its place. -/
theorem Composed.contains_children {ts own : List (Token × Span)} {n : Expr}
    (h : Composed ts own n) (horder : InOrder own) (hn : n.isOperator) :
    ∀ c ∈ n.children, n.span.Contains c.span := by
  match h with
  | .literal _ | .named | .call _ | .list _ => cases hn
  | .group he => exact he.contains_children horder hn
  | @Composed.unary op place _ own' e he =>
    intro c hc
    rw [List.mem_singleton.1 hc]
    obtain ⟨first, hfirst, _, _, hspan⟩ := he.ends
    rw [← List.singleton_append] at horder
    have hbefore := horder.stop_le_start List.mem_cons_self hfirst
    have hlt := horder.nonempty (signToken op, place) (by simp)
    refine ⟨?_, Nat.le_refl _⟩
    simp only [Expr.span, hspan, Span.start_cover] at hbefore hlt ⊢
    omega
  | @Composed.binary op place _ _ ownl ownr l r hl hr =>
    obtain ⟨firstl, hfirstl, lastl, hlastl, hspanl⟩ := hl.ends
    obtain ⟨firstr, hfirstr, lastr, hlastr, hspanr⟩ := hr.ends
    have hfirst := horder.stop_le_start hfirstl (List.mem_cons_of_mem _ hfirstr)
    have hlast := horder.stop_le_start hlastl (List.mem_cons_of_mem _ hlastr)
    have hltl := horder.nonempty firstl (by simp [hfirstl])
    have hltr := horder.nonempty lastr (by simp [hlastr])
    intro c hc
    simp only [Expr.span, Span.Contains, Span.start_cover, Span.stop_cover]
    rcases List.mem_cons.1 hc with rfl | hc
    · rw [hspanl, hspanr, Span.stop_cover, Span.stop_cover]
      omega
    · rw [List.mem_singleton.1 hc, hspanl, hspanr, Span.start_cover, Span.start_cover]
      omega

/-- A node contains all that belongs to it exactly if it does not end in a bracket. -/
theorem Composed.coversAll_iff {ts own : List (Token × Span)} {n : Expr} (h : Composed ts own n)
    (horder : InOrder own) : n.CoversAll own ↔ n.endsInBracket = false := by
  obtain ⟨tail, hleaves, htail⟩ := h.leavesOut
  rw [← htail, ← hleaves.contains_iff horder]
  constructor
  · exact And.right
  · intro hall
    refine ⟨?_, hall⟩
    intro m hm
    obtain ⟨_, own', _, hown', hcomposed⟩ := h.nodes m hm
    obtain ⟨first, hfirst, last, hlast, hspan⟩ := hcomposed.ends
    rw [hspan]
    exact ⟨(hall first (hown'.subset hfirst)).1, (hall last (hown'.subset hlast)).2⟩

/-- The place of an operator contains those of its operands. It contains all nodes below it, and all
tokens that belong to it, exactly if what is read last of it does not close a list or a call. -/
theorem an_operator_covers_all_but_a_bracket_at_its_end (source : String) (e : Expr)
    (h : Expr.ofSource source = .ok e) :
    ∃ tokens own, Token.ofSource source = .ok tokens ∧ Composed tokens own e ∧
      ∀ n ∈ e.postorder, n.isOperator → Within tokens own n ∧
        ∀ ts us, ts <:+: tokens → Composed ts us n →
          (∀ c ∈ n.children, n.span.Contains c.span) ∧
            (n.CoversAll us ↔ n.endsInBracket = false) := by
  obtain ⟨tokens, htokens, hparse⟩ := tokens_of_ofSource h
  obtain ⟨own, hcomposed⟩ := composed_of_ofTokens hparse
  refine ⟨tokens, own, htokens, hcomposed, ?_⟩
  intro n hn hoperator
  refine ⟨hcomposed.nodes n hn, ?_⟩
  intro ts us hts hnode
  have horder : InOrder us :=
    (inOrder_of_ofSource htokens).sublist (hnode.sublist.trans hts.sublist)
  exact ⟨hnode.contains_children horder hoperator, hnode.coversAll_iff horder⟩

/-- The sum of one and a list that holds two, as a source spells it. -/
def sumWithList : Expr :=
  .binary .add (.literal (.int 1) ⟨0, 1, 1⟩) (.list [.literal (.int 2) ⟨5, 6, 1⟩] ⟨4, 5, 1⟩)

theorem ofSource_sumWithList : Expr.ofSource "1 + [2]" = .ok sumWithList := by
  have htokens : Token.ofSource "1 + [2]" = .ok [(.integer 1, ⟨0, 1, 1⟩),
      (.operator .add, ⟨2, 3, 1⟩), (.opening .square, ⟨4, 5, 1⟩), (.integer 2, ⟨5, 6, 1⟩),
      (.closing .square, ⟨6, 7, 1⟩)] := by decide +kernel
  rw [Expr.ofSource, htokens]
  rfl

/-- The second operand of this sum is a list, and the sum stops before its items. -/
theorem a_sum_with_a_list_leaves_its_items_out :
    Expr.ofSource "1 + [2]" = .ok sumWithList ∧
      ∃ tokens own, Token.ofSource "1 + [2]" = .ok tokens ∧ Composed tokens own sumWithList ∧
        ∀ n ∈ sumWithList.postorder, n.isOperator → Within tokens own n ∧
          ∀ ts us, ts <:+: tokens → Composed ts us n →
            (∀ c ∈ n.children, n.span.Contains c.span) ∧
              (n.CoversAll us ↔ n.endsInBracket = false) :=
  ⟨ofSource_sumWithList,
    an_operator_covers_all_but_a_bracket_at_its_end "1 + [2]" _ ofSource_sumWithList⟩

/-- Not every operator contains the nodes below it. -/
theorem an_operator_need_not_cover_the_items_of_a_list :
    ¬ ∀ source e, Expr.ofSource source = .ok e → ∀ n ∈ e.postorder, n.isOperator →
      ∀ m ∈ n.postorder, n.span.Contains m.span := by
  intro h
  have hitem := h "1 + [2]" sumWithList ofSource_sumWithList sumWithList
    (Expr.mem_postorder_self _) rfl (.literal (.int 2) ⟨5, 6, 1⟩)
    (by simp [sumWithList, Expr.postorder, Expr.postorderAll])
  exact absurd hitem (by decide)

end Parser

end TemplateExpr
