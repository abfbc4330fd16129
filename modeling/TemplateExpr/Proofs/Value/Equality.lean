-- Equality of values as a relation. It is symmetric and transitive but not reflexive, since
-- a NaN differs from itself; only a list equals itself whatever it holds. Two lists may be equal
-- because they are one or because their items are equal, and every law has to hold for
-- whichever of the two it was.
import TemplateExpr.Proofs.Binary.Value
import TemplateExpr.Proofs.Heap.Order

namespace TemplateExpr

/-! ## Numbers -/

namespace Binary

variable {f : Format} {x y z : Binary f}

theorem same_symm (h : x.same y = true) : y.same x = true := by
  rw [same_iff] at h ⊢
  rcases h with ⟨q, hx, hy⟩ | ⟨negative, hx, hy⟩
  · exact .inl ⟨q, hy, hx⟩
  · exact .inr ⟨negative, hy.trans hx, hy.symm⟩

theorem same_trans (hxy : x.same y = true) (hyz : y.same z = true) : x.same z = true := by
  rw [same_iff] at hxy hyz ⊢
  rcases hxy with ⟨q, hx, hy⟩ | ⟨negative, hx, rfl⟩
  · rcases hyz with ⟨q', hy', hz⟩ | ⟨negative, hinfinite, _⟩
    · rw [hy] at hy'
      cases hy'
      exact .inl ⟨q, hx, hz⟩
    · rw [hinfinite] at hy
      cases hy
  · exact hyz

theorem same_self (x : Binary f) : x.same x = !x.isNaN := by
  rw [Bool.eq_iff_iff, same_iff]
  cases x <;> simp [value?, isNaN]

end Binary

/-! ## Values that are no lists -/

namespace Value

def isNaN : Value → Bool
  | float x => x.isNaN
  | double x => x.isNaN
  | _ => false

variable {a b c : Value}

theorem isNaN_iff (v : Value) : v.isNaN = true ↔ v = .float .nan ∨ v = .double .nan := by
  cases v with
  | float x => cases x <;> simp [isNaN, Binary.isNaN]
  | double x => cases x <;> simp [isNaN, Binary.isNaN]
  | _ => simp [isNaN]

theorem sameLeaf_self (v : Value) : v.sameLeaf v = !v.isNaN := by
  cases v with
  | float x => exact x.same_self
  | double x => exact x.same_self
  | _ => simp [sameLeaf, isNaN]

/-- Values that count as equal are two numbers of one width, or one value. -/
theorem sameLeaf_cases (h : a.sameLeaf b = true) :
    (∃ x y, a = .float x ∧ b = .float y ∧ x.same y = true) ∨
      (∃ x y, a = .double x ∧ b = .double y ∧ x.same y = true) ∨
        a = b ∧ a.isNaN = false := by
  cases a with
  | float x =>
    cases b with
    | float y => exact .inl ⟨x, y, rfl, rfl, h⟩
    | _ => simp [sameLeaf] at h
  | double x =>
    cases b with
    | double y => exact .inr (.inl ⟨x, y, rfl, rfl, h⟩)
    | _ => simp [sameLeaf] at h
  | _ =>
    refine .inr (.inr ⟨?_, rfl⟩)
    simpa [sameLeaf] using h

theorem kind_of_sameLeaf (h : a.sameLeaf b = true) : a.kind = b.kind := by
  rcases sameLeaf_cases h with ⟨x, y, rfl, rfl, _⟩ | ⟨x, y, rfl, rfl, _⟩ | ⟨rfl, _⟩ <;> rfl

theorem sameLeaf_symm (h : a.sameLeaf b = true) : b.sameLeaf a = true := by
  rcases sameLeaf_cases h with ⟨x, y, rfl, rfl, hxy⟩ | ⟨x, y, rfl, rfl, hxy⟩ | ⟨rfl, _⟩
  · exact Binary.same_symm hxy
  · exact Binary.same_symm hxy
  · exact h

theorem sameLeaf_trans (hab : a.sameLeaf b = true) (hbc : b.sameLeaf c = true) :
    a.sameLeaf c = true := by
  rcases sameLeaf_cases hab with ⟨x, y, rfl, rfl, hxy⟩ | ⟨x, y, rfl, rfl, hxy⟩ | ⟨rfl, _⟩
  · rcases sameLeaf_cases hbc with ⟨_, z, hy, rfl, hyz⟩ | ⟨_, z, hy, _⟩ | ⟨rfl, _⟩
    · cases hy
      exact Binary.same_trans hxy hyz
    · cases hy
    · exact hxy
  · rcases sameLeaf_cases hbc with ⟨_, z, hy, _⟩ | ⟨_, z, hy, rfl, hyz⟩ | ⟨rfl, _⟩
    · cases hy
    · cases hy
      exact Binary.same_trans hxy hyz
    · exact hxy
  · exact hbc

theorem pairwise_iff {same : Value → Value → Bool} {as bs : List Value} :
    pairwise same as bs = true ↔ List.Forall₂ (fun a b => same a b = true) as bs := by
  induction as generalizing bs with
  | nil => cases bs <;> simp [pairwise]
  | cons a as ih => cases bs <;> simp [pairwise, ih]

theorem pairwise_congr {same other : Value → Value → Bool} {as bs : List Value}
    (h : ∀ a ∈ as, ∀ b ∈ bs, same a b = other a b) :
    pairwise same as bs = pairwise other as bs := by
  induction as generalizing bs with
  | nil => cases bs <;> rfl
  | cons a as ih =>
    cases bs with
    | nil => rfl
    | cons b bs =>
      have hrest := ih fun u hu v hv =>
        h u (List.mem_cons_of_mem a hu) v (List.mem_cons_of_mem b hv)
      rw [pairwise, pairwise, h a List.mem_cons_self b List.mem_cons_self, hrest]

end Value

/-! ## One level of lists -/

namespace Heap

/-- Two values are equal at their tops, given what it is for the items of lists to be. -/
inductive SameBy (h : Heap) (R : Value → Value → Prop) : Value → Value → Prop
  | leaf {a b} : ¬ (a.kind = .list ∧ b.kind = .list) → a.sameLeaf b = true → SameBy h R a b
  | one {r} : SameBy h R (.list r) (.list r)
  | items {r s} : List.Forall₂ R (h.items r) (h.items s) → SameBy h R (.list r) (.list s)

variable {h h' : Heap} {a b c : Value}

theorem sameWithin_succ_iff {d : Nat} : h.sameWithin (d + 1) a b = true ↔
    h.SameBy (fun a b => h.sameWithin d a b = true) a b := by
  rcases Value.lists_or_not a b with ⟨r, s, rfl, rfl⟩ | hab
  · rw [sameWithin, Bool.or_eq_true, decide_eq_true_iff, Value.pairwise_iff]
    constructor
    · rintro (rfl | hitems)
      · exact .one
      · exact .items hitems
    · intro hsame
      cases hsame with
      | leaf hlists _ => exact absurd ⟨rfl, rfl⟩ hlists
      | one => exact .inl rfl
      | items hitems => exact .inr hitems
  · rw [h.sameWithin_of_ne_list _ hab]
    constructor
    · exact .leaf hab
    · intro hsame
      cases hsame with
      | leaf _ hleaf => exact hleaf
      | one => exact absurd ⟨rfl, rfl⟩ hab
      | items => exact absurd ⟨rfl, rfl⟩ hab

theorem SameBy.kind_eq {R : Value → Value → Prop} (hab : h.SameBy R a b) : a.kind = b.kind := by
  cases hab with
  | leaf _ hleaf => exact Value.kind_of_sameLeaf hleaf
  | one => rfl
  | items => rfl

theorem SameBy.symm {R : Value → Value → Prop} (hR : ∀ a b, R a b → R b a)
    (hab : h.SameBy R a b) : h.SameBy R b a := by
  cases hab with
  | leaf hlists hleaf => exact .leaf (fun hba => hlists hba.symm) (Value.sameLeaf_symm hleaf)
  | one => exact .one
  | items hitems => exact .items ((hitems.imp fun a b => hR a b).flip)

theorem forall₂_trans {R : Value → Value → Prop} (hR : ∀ a b c, R a b → R b c → R a c)
    {as bs cs : List Value} (hab : List.Forall₂ R as bs) (hbc : List.Forall₂ R bs cs) :
    List.Forall₂ R as cs := by
  induction hab generalizing cs with
  | nil => exact hbc
  | cons hab _ ih =>
    cases hbc with
    | cons hbc hrest => exact .cons (hR _ _ _ hab hbc) (ih hrest)

/-- A list in the middle may be the one on the left, the one on the right, or a third. -/
theorem SameBy.trans {R : Value → Value → Prop} (hR : ∀ a b c, R a b → R b c → R a c)
    (hab : h.SameBy R a b) (hbc : h.SameBy R b c) : h.SameBy R a c := by
  cases hab with
  | leaf hlists hleaf =>
    have hkind := Value.kind_of_sameLeaf hleaf
    cases hbc with
    | leaf _ hleaf' =>
      refine .leaf ?_ (Value.sameLeaf_trans hleaf hleaf')
      intro hac
      exact hlists ⟨hac.1, hkind ▸ hac.1⟩
    | one => exact absurd ⟨hkind, rfl⟩ hlists
    | items => exact absurd ⟨hkind, rfl⟩ hlists
  | one => exact hbc
  | items hitems =>
    cases hbc with
    | leaf hlists hleaf => exact absurd ⟨rfl, (Value.kind_of_sameLeaf hleaf).symm⟩ hlists
    | one => exact .items hitems
    | items hitems' => exact .items (forall₂_trans hR hitems hitems')

/-! ## All levels -/

theorem sameWithin_kind {d : Nat} (hab : h.sameWithin d a b = true) : a.kind = b.kind := by
  cases d with
  | zero => exact Value.kind_of_sameLeaf hab
  | succ d => exact (sameWithin_succ_iff.1 hab).kind_eq

theorem sameWithin_symm (d : Nat) :
    ∀ a b, h.sameWithin d a b = true → h.sameWithin d b a = true := by
  induction d with
  | zero => exact fun a b => Value.sameLeaf_symm
  | succ d ih =>
    intro a b hab
    rw [sameWithin_succ_iff] at hab ⊢
    exact hab.symm ih

theorem sameWithin_trans (d : Nat) : ∀ a b c,
    h.sameWithin d a b = true → h.sameWithin d b c = true → h.sameWithin d a c = true := by
  induction d with
  | zero => exact fun a b c => Value.sameLeaf_trans
  | succ d ih =>
    intro a b c hab hbc
    rw [sameWithin_succ_iff] at hab hbc ⊢
    exact hab.trans ih hbc

/-- A value differs from itself only if it is a NaN, not if it holds one. -/
theorem sameWithin_self (d : Nat) (v : Value) : h.sameWithin d v v = !v.isNaN := by
  rcases v.list_or_leaf with ⟨r, rfl⟩ | hlist
  · cases d with
    | zero => exact decide_eq_true rfl
    | succ d => exact sameWithin_succ_iff.2 .one
  · rw [h.sameWithin_of_ne_list d fun hboth => hlist hboth.1]
    exact v.sameLeaf_self

/-- A limit of depth that the left value does not reach does not matter. -/
theorem NestedWithin.sameWithin_eq {d e : Nat} {a : Value} (ha : h.NestedWithin d a)
    (hle : d ≤ e) (b : Value) : h.sameWithin e a b = h.sameWithin d a b := by
  induction d generalizing e a b with
  | zero =>
    have hab : ¬ (a.kind = .list ∧ b.kind = .list) := fun hab => ha hab.1
    rw [h.sameWithin_of_ne_list e hab, h.sameWithin_of_ne_list 0 hab]
  | succ d ih =>
    obtain ⟨e, rfl⟩ : ∃ k, e = k + 1 := ⟨e - 1, by omega⟩
    rcases Value.lists_or_not a b with ⟨r, s, rfl, rfl⟩ | hab
    · rw [sameWithin, sameWithin]
      congr 1
      exact Value.pairwise_congr fun u hu v _ =>
        ih (ha u ⟨r, rfl, hu⟩) (Nat.le_of_succ_le_succ hle) v
    · rw [h.sameWithin_of_ne_list _ hab, h.sameWithin_of_ne_list _ hab]

/-- A later heap says the same of values that were there before it. -/
theorem Kept.sameWithin_eq (hk : h.Kept h') (hc : h.Closed) (d : Nat) {a b : Value}
    (ha : a.In h) (hb : b.In h) : h'.sameWithin d a b = h.sameWithin d a b := by
  induction d generalizing a b with
  | zero => rfl
  | succ d ih =>
    rcases Value.lists_or_not a b with ⟨r, s, rfl, rfl⟩ | hab
    · rw [sameWithin, sameWithin, hk.items_eq r ha, hk.items_eq s hb]
      congr 1
      exact Value.pairwise_congr fun u hu v hv => ih (hc.lists r u hu) (hc.lists s v hv)
    · rw [h'.sameWithin_of_ne_list _ hab, h.sameWithin_of_ne_list _ hab]

theorem Closed.same_lists_iff (hc : h.Closed) (hg : ∀ v : Value, v.In h → h.Grounded v)
    {r s : ListRef} (hr : (Value.list r).In h) (hrs : r ≠ s) :
    h.same (.list r) (.list s) = true ↔
      List.Forall₂ (fun a b => h.same a b = true) (h.items r) (h.items s) := by
  have hdepth := hc.nestedWithin_depth hr (hg _ hr)
  unfold same
  obtain ⟨d, hd⟩ : ∃ d, h.depth = d + 1 := Nat.exists_eq_succ_of_ne_zero (Nat.ne_zero_of_lt hr)
  rw [hd] at hdepth ⊢
  have hitems : Value.pairwise (h.sameWithin d) (h.items r) (h.items s) =
      Value.pairwise (h.sameWithin (d + 1)) (h.items r) (h.items s) :=
    Value.pairwise_congr fun u hu v _ =>
      (NestedWithin.sameWithin_eq (hdepth u ⟨r, rfl, hu⟩) (Nat.le_succ d) v).symm
  rw [sameWithin, decide_eq_false hrs, Bool.false_or, hitems, Value.pairwise_iff]

/-! ## Lists with one more item -/

end Heap

/-- The items with one more, which stands where the operator puts it. -/
def BinaryOp.extended (op : BinaryOp) (items : List Value) (a : Value) : List Value :=
  if op = .prepend then a :: items else items ++ [a]

/-- A new list is made of a list and one more item. -/
def Operation.extend {σ : Type} (o : Operation) (coercions : Heap → Coercions) (xs : ListRef)
    (a : Value) : Eval σ Value :=
  if o.op = .prepend then o.perform coercions a (.list xs) else o.perform coercions (.list xs) a

theorem Operation.run_extend {σ : Type} {o : Operation} (hop : o.op = .append ∨ o.op = .prepend)
    (coercions : Heap → Coercions) (xs : ListRef) (a : Value) (w : World σ) :
    ∃ w₁, (o.extend coercions xs a).run w =
        (.ok (.list (w.heap.newList (o.op.extended (w.heap.items xs) a)).1), w₁) ∧
      w₁.heap = (w.heap.newList (o.op.extended (w.heap.items xs) a)).2 := by
  rcases hop with hop | hop
  · have happly : o.apply (coercions w.heap) w.heap (.list xs) a =
        .ok (.newList (w.heap.items xs ++ [a])) := by
      rw [Operation.apply_eq, Operation.steps_of_extended (.inl hop), hop]
      rfl
    have hextend : o.extend coercions xs a = (o.perform coercions (.list xs) a : Eval σ Value) :=
      if_neg (by rw [hop]; decide)
    rw [hextend, Operation.run_perform_of_ok happly, hop]
    exact ⟨_, rfl, rfl⟩
  · have happly : o.apply (coercions w.heap) w.heap a (.list xs) =
        .ok (.newList (a :: w.heap.items xs)) := by
      rw [Operation.apply_eq, Operation.steps_of_extended (.inr hop), hop]
      rfl
    have hextend : o.extend coercions xs a = (o.perform coercions a (.list xs) : Eval σ Value) :=
      if_pos hop
    rw [hextend, Operation.run_perform_of_ok happly, hop]
    exact ⟨_, rfl, rfl⟩

namespace Heap

variable {h h' : Heap} {a b : Value}

/-- Two equal lists and two equal values to add to them. The items equal themselves, which counts
if the lists are one. -/
structure Twins (h : Heap) (xs ys : ListRef) (a b : Value) : Prop where
  left_in : (Value.list xs).In h ∧ a.In h
  right_in : (Value.list ys).In h ∧ b.In h
  lists : h.same (.list xs) (.list ys) = true
  items : ∀ v ∈ h.items xs, h.same v v = true
  values : h.same a b = true

theorem Twins.extended (hc : h.Closed) (hg : ∀ v : Value, v.In h → h.Grounded v)
    {xs ys : ListRef} (ht : h.Twins xs ys a b) (op : BinaryOp) :
    List.Forall₂ (fun a b => h.same a b = true) (op.extended (h.items xs) a)
      (op.extended (h.items ys) b) := by
  have hitems : List.Forall₂ (fun a b => h.same a b = true) (h.items xs) (h.items ys) := by
    by_cases hxy : xs = ys
    · rw [← hxy]
      exact List.forall₂_same.2 ht.items
    · exact (hc.same_lists_iff hg ht.left_in.1 hxy).1 ht.lists
  unfold BinaryOp.extended
  split
  · exact .cons ht.values hitems
  · exact List.rel_append hitems (.cons ht.values .nil)

/-- Lists made of equal items of an older heap are equal. -/
theorem same_of_items (hk : h.Kept h') (hlt : h.depth < h'.depth) (hc : h.Closed)
    (hg : ∀ v : Value, v.In h → h.Grounded v) {r s : ListRef} (hr : ∀ u ∈ h'.items r, u.In h)
    (hs : ∀ v ∈ h'.items s, v.In h)
    (hitems : List.Forall₂ (fun a b => h.same a b = true) (h'.items r) (h'.items s)) :
    h'.same (.list r) (.list s) = true := by
  obtain ⟨d, hd⟩ : ∃ d, h'.depth = d + 1 := Nat.exists_eq_succ_of_ne_zero (Nat.ne_zero_of_lt hlt)
  have hle : h.depth ≤ d := by omega
  have holder : Value.pairwise (h'.sameWithin d) (h'.items r) (h'.items s) =
      Value.pairwise h.same (h'.items r) (h'.items s) := by
    apply Value.pairwise_congr
    intro u hu v hv
    have hdepth := hc.nestedWithin_depth (hr u hu) (hg u (hr u hu))
    rw [hk.sameWithin_eq hc d (hr u hu) (hs v hv), hdepth.sameWithin_eq hle v]
    rfl
  rw [same, hd, sameWithin, holder, Value.pairwise_iff.2 hitems, Bool.or_true]

/-! ## The law -/

/-- What equality is on a heap in which no list holds itself. -/
structure ComparesFairly (h : Heap) : Prop where
  symm : ∀ a b, h.same a b = h.same b a
  trans : ∀ a b c, h.same a b = true → h.same b c = true → h.same a c = true
  kinds : ∀ a b, a.kind ≠ b.kind → h.same a b = false
  /-- A list equals itself, whatever it holds. -/
  one : ∀ r, h.same (.list r) (.list r) = true
  lists : ∀ r s, (Value.list r).In h → r ≠ s → (h.same (.list r) (.list s) = true ↔
    List.Forall₂ (fun a b => h.same a b = true) (h.items r) (h.items s))
  objects : ∀ r v, h.same (.object r) v = true ↔ v = .object r
  self : ∀ v, h.same v v = false ↔ v = .float .nan ∨ v = .double .nan
  /-- The answer is what comes of going through all items without a limit of depth. -/
  ends : ∀ a b, a.In h → h.Compares a b (h.same a b)
  /-- Lists that are made one after the other of twins are equal from then on. -/
  extended : ∀ {σ : Type} (o o' : Operation) (coercions coercions' : Heap → Coercions)
    (w : World σ) (xs ys : ListRef) (a b : Value), w.heap = h →
    o.op = .append ∨ o.op = .prepend → o'.op = o.op → h.Twins xs ys a b →
    ∃ x w₁, (o.extend coercions xs a).run w = (.ok (.list x), w₁) ∧
      ∀ w₂ : World σ, w₁.heap.Kept w₂.heap →
        ∃ y w₃, (o'.extend coercions' ys b).run w₂ = (.ok (.list y), w₃) ∧
          ∀ k : Heap, w₃.heap.Kept k → k.same (.list x) (.list y) = true

theorem same_objects (r : ObjectRef) (v : Value) :
    h.same (.object r) v = true ↔ v = .object r := by
  have hne : ¬ ((Value.object r).kind = .list ∧ v.kind = .list) := fun hboth => nomatch hboth.1
  rw [same, h.sameWithin_of_ne_list _ hne]
  simp [Value.sameLeaf, eq_comm]

/-- A new list holds its items in every later heap. -/
theorem Kept.items_newList {items : List Value} (hk : (h.newList items).2.Kept h') :
    h'.items (h.newList items).1 = items := by
  rw [hk.items_eq _ (h.in_newList items), Heap.items_newList]

/-- Items of a list that is made of a list and a value can be had where these can. -/
theorem Closed.in_of_extended (hc : h.Closed) {xs : ListRef} (ha : a.In h) (op : BinaryOp) :
    ∀ v ∈ op.extended (h.items xs) a, v.In h := by
  intro v hv
  unfold BinaryOp.extended at hv
  split at hv
  · rcases List.mem_cons.1 hv with rfl | hv
    · exact ha
    · exact hc.lists xs v hv
  · rcases List.mem_append.1 hv with hv | hv
    · exact hc.lists xs v hv
    · rwa [List.mem_singleton.1 hv]

/-- Equality of values is symmetric and transitive, and only a NaN differs from itself. -/
theorem equality_respects_list_identity (h : Heap) (hc : h.Closed)
    (hg : ∀ v : Value, v.In h → h.Grounded v) : h.ComparesFairly := by
  refine ⟨?_, h.sameWithin_trans h.depth, ?_, ?_, fun r s hr => hc.same_lists_iff hg hr,
    same_objects, ?_, fun a b ha => (ends_of_grounded hc ha (hg a ha)).compares b, ?_⟩
  · intro a b
    rw [Bool.eq_iff_iff]
    exact ⟨h.sameWithin_symm h.depth a b, h.sameWithin_symm h.depth b a⟩
  · intro a b hkind
    rw [← Bool.not_eq_true]
    exact fun hab => hkind (sameWithin_kind hab)
  · exact fun r => h.sameWithin_self h.depth (.list r)
  · intro v
    rw [same, sameWithin_self, ← v.isNaN_iff, Bool.not_eq_false']
  · intro σ o o' coercions coercions' w xs ys a b hw hop hop' ht
    obtain ⟨w₁, hrun, hheap⟩ := Operation.run_extend hop coercions xs a w
    refine ⟨_, w₁, hrun, ?_⟩
    intro w₂ hw₂
    obtain ⟨w₃, hrun', hheap'⟩ := Operation.run_extend (hop' ▸ hop) coercions' ys b w₂
    refine ⟨_, w₃, hrun', ?_⟩
    intro k hk
    subst hw
    rw [hheap] at hw₂
    rw [hheap'] at hk
    have hlater := (kept_newList w₂.heap _).trans hk
    have hold := (kept_newList w.heap _).trans hw₂
    have hsize := hw₂.size_le
    rw [size_newList] at hsize
    have hlt : w.heap.depth < k.depth := Nat.lt_of_lt_of_le hsize hlater.size_le
    have hx := (hw₂.trans hlater).items_newList
    have hy := hk.items_newList
    rw [hop', hold.items_eq ys ht.right_in.1] at hy
    rw [hop', hold.items_eq ys ht.right_in.1]
    apply same_of_items (hold.trans hlater) hlt hc hg
    · rw [hx]
      exact hc.in_of_extended ht.left_in.2 o.op
    · rw [hy]
      exact hc.in_of_extended ht.right_in.2 o.op
    · rw [hx, hy]
      exact ht.extended hc hg o.op

/-- A list of a NaN, and two lists that hold this list. -/
def sharing : Heap := { lists := #[[.float .nan], [.list ⟨0⟩, .int 1], [.list ⟨0⟩, .int 1]] }

theorem ordered_sharing : sharing.Ordered := by
  have hone : Builds {} { lists := #[[.float .nan]] } :=
    .newList .refl (by simp [Value.In, Value.Below])
  have htwo : Builds {} { lists := #[[.float .nan], [.list ⟨0⟩, .int 1]] } :=
    .newList hone (by simp [Value.In, Value.Below])
  have hthree : Builds {} sharing :=
    .newList htwo (by simp [Value.In, Value.Below])
  exact hthree.ordered ordered_empty

/-- The two lists and the list that they share make twins, although a NaN is in all of them. -/
theorem equality_respects_the_identity_of_a_shared_list :
    sharing.ComparesFairly ∧ sharing.Twins ⟨1⟩ ⟨2⟩ (.list ⟨0⟩) (.list ⟨0⟩) :=
  ⟨equality_respects_list_identity sharing ordered_sharing.closed
      fun v _ => ordered_sharing.wellFounded.apply v,
    ⟨⟨(by decide : 1 < 3), (by decide : 0 < 3)⟩, ⟨(by decide : 2 < 3), (by decide : 0 < 3)⟩,
      by decide, by decide, by decide⟩⟩

end Heap

end TemplateExpr
