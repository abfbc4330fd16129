-- How deep lists are nested. A value in which no list holds itself nests at most as deep as
-- there are lists, so what goes through its items without a limit comes to an end, and gives
-- what the limit of that depth gives.
import Mathlib.Data.Finset.Card
import Mathlib.Data.List.Forall2
import Mathlib.Logic.Relation
import TemplateExpr.Value.Equality

namespace TemplateExpr

/-! ## References -/

/-- A value that is no list, or one of the first lists. -/
def Value.Below (n : Nat) : Value → Prop
  | .list r => r.index < n
  | _ => True

/-- A value that can be had of a heap: if it is a list, there is this list. -/
def Value.In (h : Heap) (v : Value) : Prop := v.Below h.lists.size

theorem Value.Below.mono {v : Value} {m n : Nat} (h : v.Below m) (hle : m ≤ n) : v.Below n := by
  cases v with
  | list r => exact Nat.lt_of_lt_of_le h hle
  | _ => trivial

/-- What goes through items stops at a value that is no list. -/
theorem Value.list_or_leaf (v : Value) : (∃ r, v = .list r) ∨ v.kind ≠ .list := by
  cases v with
  | list r => exact .inl ⟨r, rfl⟩
  | _ => exact .inr nofun

/-- Only two lists are compared by what they hold. -/
theorem Value.lists_or_not (a b : Value) :
    (∃ r s, a = .list r ∧ b = .list s) ∨ ¬ (a.kind = .list ∧ b.kind = .list) := by
  cases a with
  | list r =>
    cases b with
    | list s => exact .inl ⟨r, s, rfl, rfl⟩
    | _ => exact .inr fun hab => nomatch hab.2
  | _ => exact .inr fun hab => nomatch hab.1

namespace Heap

/-- Lists and objects hold only values that can be had of the heap. -/
structure Closed (h : Heap) : Prop where
  lists : ∀ r : ListRef, ∀ v ∈ h.items r, v.In h
  objects : ∀ object ∈ h.objects, ∀ items, object.items = some items → ∀ v ∈ items, v.In h

/-! ## Nesting -/

variable {h : Heap}

/-- The second value is a list, and the first one of its items. -/
def Holds (h : Heap) (u v : Value) : Prop := ∃ r, v = .list r ∧ u ∈ h.items r

/-- Nothing in the value holds itself, neither directly nor in what it holds. -/
def Grounded (h : Heap) (v : Value) : Prop := Acc h.Holds v

/-- The value is a list of lists at most this deep. -/
def NestedWithin (h : Heap) : Nat → Value → Prop
  | 0, v => v.kind ≠ .list
  | d + 1, v => ∀ u, h.Holds u v → h.NestedWithin d u

/-- The second value is the first one, or is somewhere in it. -/
def Contains (h : Heap) (v u : Value) : Prop := Relation.ReflTransGen h.Holds u v

theorem contains_self (h : Heap) (v : Value) : h.Contains v v := .refl

theorem Contains.of_holds {u v x : Value} (hu : h.Holds u v) (hx : h.Contains u x) :
    h.Contains v x := hx.tail hu

theorem not_holds {u v : Value} (hv : v.kind ≠ .list) : ¬ h.Holds u v := by
  rintro ⟨r, rfl, _⟩
  exact hv rfl

theorem grounded_of_ne_list {v : Value} (hv : v.kind ≠ .list) : h.Grounded v :=
  Acc.intro v fun _ hu => absurd hu (not_holds hv)

theorem NestedWithin.succ {d : Nat} {v : Value} (hv : h.NestedWithin d v) :
    h.NestedWithin (d + 1) v := by
  induction d generalizing v with
  | zero => exact fun u hu => absurd hu (not_holds hv)
  | succ d ih => exact fun u hu => ih (hv u hu)

theorem NestedWithin.mono {d e : Nat} {v : Value} (hv : h.NestedWithin d v) (hle : d ≤ e) :
    h.NestedWithin e v := by
  induction hle with
  | refl => exact hv
  | step _ ih => exact ih.succ

theorem NestedWithin.grounded {d : Nat} {v : Value} (hv : h.NestedWithin d v) :
    h.Grounded v := by
  induction d generalizing v with
  | zero => exact grounded_of_ne_list hv
  | succ d ih => exact Acc.intro v fun u hu => ih (hv u hu)

theorem Closed.of_holds (hc : h.Closed) {u v : Value} (hu : h.Holds u v) : u.In h := by
  obtain ⟨r, _, hmem⟩ := hu
  exact hc.lists r u hmem

/-- No value that is grounded is anywhere in itself. -/
theorem Grounded.not_transGen {v : Value} (hv : h.Grounded v) :
    ¬ Relation.TransGen h.Holds v v := by
  have hacc : Acc (Relation.TransGen h.Holds) v := hv.transGen
  clear hv
  induction hacc with
  | intro v _ ih => exact fun hself => ih v hself hself

open Classical in
/-- The lists that a value consists of, itself included. -/
noncomputable def parts (h : Heap) (v : Value) : Finset Nat :=
  (Finset.range h.lists.size).filter fun i => Relation.ReflTransGen h.Holds (.list ⟨i⟩) v

/-- What a list holds consists of fewer lists, because the list itself is not among them. -/
theorem card_parts_lt {r : ListRef} {u : Value} (hr : (Value.list r).In h)
    (hg : h.Grounded (.list r)) (hu : h.Holds u (.list r)) :
    (h.parts u).card < (h.parts (.list r)).card := by
  apply Finset.card_lt_card
  rw [Finset.ssubset_iff_of_subset]
  · refine ⟨r.index, ?_, ?_⟩
    · simp only [parts, Finset.mem_filter, Finset.mem_range]
      exact ⟨hr, .refl⟩
    · simp only [parts, Finset.mem_filter, Finset.mem_range, not_and]
      intro _ hself
      exact hg.not_transGen (.tail' hself hu)
  · intro i hi
    simp only [parts, Finset.mem_filter] at hi ⊢
    exact ⟨hi.1, hi.2.tail hu⟩

section

variable {P : Value → Prop} (hholds : ∀ u v, P v → h.Holds u v → P u) (hin : ∀ v, P v → v.In h)

include hholds hin

theorem nestedWithin_card_parts {v : Value} (hv : P v) (hg : h.Grounded v) :
    h.NestedWithin (h.parts v).card v := by
  induction hg with
  | intro v hacc ih =>
    rcases v.list_or_leaf with ⟨r, rfl⟩ | hlist
    · have hr : r.index ∈ h.parts (.list r) := by
        simp only [parts, Finset.mem_filter, Finset.mem_range]
        exact ⟨hin _ hv, .refl⟩
      obtain ⟨d, hd⟩ := Nat.exists_eq_succ_of_ne_zero (Finset.card_ne_zero_of_mem hr)
      rw [hd]
      intro u hu
      have hlt := card_parts_lt (hin _ hv) (.intro _ hacc) hu
      exact (ih u hu (hholds u _ hv hu)).mono (by omega)
    · exact NestedWithin.mono (d := 0) hlist (Nat.zero_le _)

/-- Lists nested deeper than there are lists hold themselves, as long as all that is held is
there. -/
theorem nestedWithin_depth {v : Value} (hv : P v) (hg : h.Grounded v) :
    h.NestedWithin h.depth v := by
  apply (nestedWithin_card_parts hholds hin hv hg).mono
  have hsubset : h.parts v ⊆ Finset.range h.lists.size := by
    intro i hi
    simp only [parts, Finset.mem_filter] at hi
    exact hi.1
  have hcard := Finset.card_le_card hsubset
  rwa [Finset.card_range] at hcard

end

theorem Closed.nestedWithin_depth (hc : h.Closed) {v : Value} (hv : v.In h) (hg : h.Grounded v) :
    h.NestedWithin h.depth v :=
  Heap.nestedWithin_depth (fun _ _ _ hu => hc.of_holds hu) (fun _ hv => hv) hv hg

/-! ## Recursions without a limit -/

section

variable {β : Type} (shown : List Value → List Value) (leaf : Value → β)
  (node : List Value → List β → β)

/-- What a recursion through the items of lists gives that has no limit of its depth. It ends for
a value exactly if there is such a derivation. Of a list some items are shown, and what they give is
put together. -/
inductive Unfolds (h : Heap) : Value → β → Prop
  | leaf {v} : v.kind ≠ .list → Unfolds h v (leaf v)
  | list {r bs} : List.Forall₂ (Unfolds h) (shown (h.items r)) bs →
      Unfolds h (.list r) (node (h.items r) bs)

variable {shown leaf node} {f : Nat → Value → β} (hshown : ∀ vs, shown vs ⊆ vs)
  (hleaf : ∀ d v, v.kind ≠ .list → f d v = leaf v)
  (hlist : ∀ d r, f (d + 1) (.list r) = node (h.items r) ((shown (h.items r)).map (f d)))

include hshown hleaf hlist

/-- A recursion whose limit is not reached gives what it gives without one. -/
theorem unfolds_of_nestedWithin {d : Nat} {v : Value} (hv : h.NestedWithin d v) :
    Unfolds shown leaf node h v (f d v) := by
  induction d generalizing v with
  | zero =>
    rw [hleaf 0 v hv]
    exact .leaf hv
  | succ d ih =>
    rcases v.list_or_leaf with ⟨r, rfl⟩ | hkind
    · rw [hlist d r]
      refine .list ?_
      rw [List.forall₂_map_right_iff, List.forall₂_same]
      exact fun u hu => ih (hv u ⟨r, rfl, hshown _ hu⟩)
    · rw [hleaf _ v hkind]
      exact .leaf hkind

variable (shown node)

/-- A limit that is not reached may as well be higher. -/
theorem eq_of_nestedWithin {d e : Nat} {v : Value} (hv : h.NestedWithin d v) (hle : d ≤ e) :
    f e v = f d v := by
  induction d generalizing e v with
  | zero => rw [hleaf e v hv, hleaf 0 v hv]
  | succ d ih =>
    obtain ⟨e, rfl⟩ : ∃ k, e = k + 1 := ⟨e - 1, by omega⟩
    rcases v.list_or_leaf with ⟨r, rfl⟩ | hkind
    · rw [hlist e r, hlist d r]
      congr 1
      exact List.map_congr_left fun u hu =>
        ih (hv u ⟨r, rfl, hshown _ hu⟩) (Nat.le_of_succ_le_succ hle)
    · rw [hleaf _ v hkind, hleaf _ v hkind]

/-- With as many levels as there are lists, a list and its items get the same limit. -/
theorem eq_node_of_nestedWithin {r : ListRef} (hr : (Value.list r).In h)
    (hv : h.NestedWithin h.depth (.list r)) :
    f h.depth (.list r) = node (h.items r) ((shown (h.items r)).map (f h.depth)) := by
  obtain ⟨d, hd⟩ : ∃ d, h.depth = d + 1 := Nat.exists_eq_succ_of_ne_zero (Nat.ne_zero_of_lt hr)
  rw [hd] at hv ⊢
  rw [hlist d r]
  congr 1
  exact List.map_congr_left fun u hu =>
    (eq_of_nestedWithin shown node hshown hleaf hlist (hv u ⟨r, rfl, hshown _ hu⟩)
      (Nat.le_succ d)).symm

end

/-- Writing a value without a limit of depth gives a text. -/
def Writes (h : Heap) (pattern : String) : Value → String → Prop :=
  Unfolds id (h.leafText pattern) (fun _ texts => Text.bracketed texts) h

/-- Describing a value without a limit of depth gives a text. -/
def Describes (h : Heap) : Value → String → Prop :=
  Unfolds (List.take describedItems) (h.describeWithin 0)
    (fun items texts =>
      Text.bracketed (texts ++ if describedItems < items.length then ["..."] else [])) h

mutual

/-- Comparing two values without a limit of depth gives an answer. -/
inductive Compares (h : Heap) : Value → Value → Bool → Prop
  | leaf {a b} : ¬ (a.kind = .list ∧ b.kind = .list) → Compares h a b (a.sameLeaf b)
  | one {r} : Compares h (.list r) (.list r) true
  | lists {r s answer} : r ≠ s → ComparesAll h (h.items r) (h.items s) answer →
      Compares h (.list r) (.list s) answer

inductive ComparesAll (h : Heap) : List Value → List Value → Bool → Prop
  | nil : ComparesAll h [] [] true
  | cons {a b as bs x y} : Compares h a b x → ComparesAll h as bs y →
      ComparesAll h (a :: as) (b :: bs) (x && y)
  | shorter {b bs} : ComparesAll h [] (b :: bs) false
  | longer {a as} : ComparesAll h (a :: as) [] false

end

theorem textWithin_of_ne_list (h : Heap) {v : Value} (pattern : String) (d : Nat)
    (hv : v.kind ≠ .list) : h.textWithin pattern d v = h.leafText pattern v := by
  cases v with
  | list => exact absurd rfl hv
  | _ => cases d <;> rfl

theorem textWithin_list (h : Heap) (pattern : String) (d : Nat) (r : ListRef) :
    h.textWithin pattern (d + 1) (.list r) =
      Text.bracketed ((h.items r).map (h.textWithin pattern d)) := by
  rw [textWithin]

theorem text_of_ne_list (h : Heap) {v : Value} (pattern : String) (hv : v.kind ≠ .list) :
    h.text pattern v = h.leafText pattern v :=
  h.textWithin_of_ne_list pattern h.depth hv

theorem describeWithin_of_ne_list (h : Heap) {v : Value} (d : Nat) (hv : v.kind ≠ .list) :
    h.describeWithin d v = h.describeWithin 0 v := by
  cases v with
  | list => exact absurd rfl hv
  | _ => cases d <;> rfl

theorem sameWithin_of_ne_list (h : Heap) {a b : Value} (d : Nat)
    (hab : ¬ (a.kind = .list ∧ b.kind = .list)) : h.sameWithin d a b = a.sameLeaf b := by
  cases d with
  | zero => rfl
  | succ d =>
    cases a with
    | list =>
      cases b with
      | list => exact absurd ⟨rfl, rfl⟩ hab
      | _ => rfl
    | _ => rfl

/-- A limit of depth that is not reached does not matter. -/
theorem NestedWithin.textWithin_eq {d e : Nat} {v : Value} (hv : h.NestedWithin d v)
    (pattern : String) (hle : d ≤ e) : h.textWithin pattern e v = h.textWithin pattern d v :=
  eq_of_nestedWithin id (fun _ => Text.bracketed) (fun vs => List.Subset.refl vs)
    (fun d _ => h.textWithin_of_ne_list pattern d) (h.textWithin_list pattern) hv hle

/-- The text of a list is made of the texts of its items. -/
theorem text_list {r : ListRef} (hr : (Value.list r).In h)
    (hv : h.NestedWithin h.depth (.list r)) (pattern : String) :
    h.text pattern (.list r) = Text.bracketed ((h.items r).map (h.text pattern)) :=
  eq_node_of_nestedWithin id (fun _ => Text.bracketed) (fun vs => List.Subset.refl vs)
    (fun d _ => h.textWithin_of_ne_list pattern d) (h.textWithin_list pattern) hr hv

theorem writes_of_nestedWithin (pattern : String) {d : Nat} {v : Value}
    (hv : h.NestedWithin d v) : h.Writes pattern v (h.textWithin pattern d v) :=
  unfolds_of_nestedWithin (fun vs => List.Subset.refl vs)
    (fun d _ => h.textWithin_of_ne_list pattern d) (h.textWithin_list pattern) hv

theorem describes_of_nestedWithin {d : Nat} {v : Value} (hv : h.NestedWithin d v) :
    h.Describes v (h.describeWithin d v) :=
  unfolds_of_nestedWithin (fun vs => List.take_subset _ vs)
    (fun d _ => h.describeWithin_of_ne_list d) (fun _ _ => by rw [describeWithin]) hv

theorem comparesAll_of {same : Value → Value → Bool} {as bs : List Value}
    (hsame : ∀ a ∈ as, ∀ b, h.Compares a b (same a b)) :
    h.ComparesAll as bs (Value.pairwise same as bs) := by
  induction as generalizing bs with
  | nil =>
    cases bs with
    | nil => exact .nil
    | cons b bs => exact .shorter
  | cons a as ih =>
    cases bs with
    | nil => exact .longer
    | cons b bs =>
      exact .cons (hsame a List.mem_cons_self b)
        (ih fun u hu => hsame u (List.mem_cons_of_mem a hu))

theorem compares_of_nestedWithin {d : Nat} {a : Value} (ha : h.NestedWithin d a) (b : Value) :
    h.Compares a b (h.sameWithin d a b) := by
  induction d generalizing a b with
  | zero =>
    have hab : ¬ (a.kind = .list ∧ b.kind = .list) := fun hab => ha hab.1
    rw [h.sameWithin_of_ne_list 0 hab]
    exact .leaf hab
  | succ d ih =>
    rcases Value.lists_or_not a b with ⟨r, s, rfl, rfl⟩ | hab
    · rw [sameWithin]
      by_cases hrs : r = s
      · subst hrs
        rw [decide_eq_true rfl, Bool.true_or]
        exact .one
      · rw [decide_eq_false hrs, Bool.false_or]
        exact .lists hrs (comparesAll_of fun u hu v => ih (ha u ⟨r, rfl, hu⟩) v)
    · rw [h.sameWithin_of_ne_list _ hab]
      exact .leaf hab

/-- Of a grounded value, what a heap says of it is what comes of going through its items without a
limit, which comes to an end. -/
structure Ends (h : Heap) (v : Value) : Prop where
  writes : ∀ pattern, h.Writes pattern v (h.text pattern v)
  describes : h.Describes v (h.describe v)
  compares : ∀ u, h.Compares v u (h.same v u)

theorem ends_of_grounded (hc : h.Closed) {v : Value} (hv : v.In h) (hg : h.Grounded v) :
    h.Ends v := by
  have hdepth := hc.nestedWithin_depth hv hg
  exact ⟨fun pattern => writes_of_nestedWithin pattern hdepth, describes_of_nestedWithin hdepth,
    compares_of_nestedWithin hdepth⟩

end Heap

end TemplateExpr
