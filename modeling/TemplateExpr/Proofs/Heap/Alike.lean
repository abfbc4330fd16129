-- Values with the same structure and content, each in a heap of its own. Which lists they are
-- does not matter, only what is found by going through them side by side; lists may hold
-- themselves. Nothing that a heap gains later changes that.
import TemplateExpr.Proofs.Heap.Order

namespace TemplateExpr

theorem exists_of_forall₂ {α β : Type} {R : α → β → Prop} {as : List α} {bs : List β}
    (hall : List.Forall₂ R as bs) {a : α} (ha : a ∈ as) : ∃ b ∈ bs, R a b := by
  induction hall with
  | nil => cases ha
  | cons hab _ ih =>
    rcases List.mem_cons.1 ha with rfl | ha
    · exact ⟨_, List.mem_cons_self, hab⟩
    · obtain ⟨b, hb, hR⟩ := ih ha
      exact ⟨b, List.mem_cons_of_mem _ hb, hR⟩

namespace Heap

/-! ## Heaps that gain lists only -/

/-- The second heap has the lists of the first one, as they were, and the same objects. -/
structure Grown (h h' : Heap) : Prop where
  kept : h.Kept h'
  objects : h'.objects = h.objects

theorem Grown.refl (h : Heap) : Grown h h := ⟨.refl h, rfl⟩

theorem Grown.trans {h h' h'' : Heap} (first : Grown h h') (second : Grown h' h'') :
    Grown h h'' :=
  ⟨first.kept.trans second.kept, second.objects.trans first.objects⟩

theorem grown_place (h : Heap) (outcome : Outcome) : Grown h (h.place outcome).2 := by
  refine ⟨h.kept_place outcome, ?_⟩
  cases outcome <;> rfl

/-! ## Values side by side -/

/-- Two values that are the same at their top, given what it is for their items to be. -/
inductive Matches (h h' : Heap) (R : Value → Value → Prop) : Value → Value → Prop
  | leaf {v} : v.kind ≠ .list → Matches h h' R v v
  | list {r r'} : (Value.list r).In h → (Value.list r').In h' →
      List.Forall₂ R (h.items r) (h'.items r') → Matches h h' R (.list r) (.list r')

theorem Matches.mono {h h' : Heap} {R S : Value → Value → Prop} {v v' : Value}
    (hv : Matches h h' R v v') (hRS : ∀ u u', R u u' → S u u') : Matches h h' S v v' := by
  cases hv with
  | leaf hleaf => exact .leaf hleaf
  | list hr hr' hitems => exact .list hr hr' (hitems.imp hRS)

/-- Two values of equal structure and content: the values side by side match, and so do their items,
and so on. -/
def Alike (h h' : Heap) (v v' : Value) : Prop :=
  ∃ R : Value → Value → Prop, (∀ u u', R u u' → Matches h h' R u u') ∧ R v v'

variable {h h' k k' : Heap} {v v' : Value}

theorem Alike.matches (hv : h.Alike h' v v') : Matches h h' (h.Alike h') v v' := by
  obtain ⟨R, hR, hv⟩ := hv
  exact (hR v v' hv).mono fun u u' hu => ⟨R, hR, hu⟩

/-- Values that match are alike if their items are. -/
theorem Matches.alike (hv : Matches h h' (h.Alike h') v v') : h.Alike h' v v' := by
  refine ⟨fun u u' => Matches h h' (h.Alike h') u u', ?_, hv⟩
  intro u u' hu
  exact hu.mono fun _ _ => Alike.matches

theorem Alike.grown (hv : h.Alike h' v v') (hk : h.Grown k) (hk' : h'.Grown k') :
    k.Alike k' v v' := by
  refine ⟨h.Alike h', ?_, hv⟩
  intro u u' hu
  cases hu.matches with
  | leaf hleaf => exact .leaf hleaf
  | @list r r' hr hr' hitems =>
    refine .list (hk.kept.mono hr) (hk'.kept.mono hr') ?_
    rwa [hk.kept.items_eq r hr, hk'.kept.items_eq r' hr']

/-- A value is alike to itself in all heaps that a heap grows to. -/
theorem Closed.alike (hc : h.Closed) (hk : h.Grown k) (hk' : h.Grown k') (hv : v.In h) :
    k.Alike k' v v := by
  refine ⟨fun u u' => u' = u ∧ u.In h, ?_, rfl, hv⟩
  rintro _ u ⟨rfl, hu⟩
  cases u with
  | list r =>
    refine .list (hk.kept.mono hu) (hk'.kept.mono hu) ?_
    rw [hk.kept.items_eq r hu, hk'.kept.items_eq r hu, List.forall₂_same]
    exact fun x hx => ⟨rfl, hc.lists r x hx⟩
  | _ => exact .leaf nofun

theorem alike_of_ne_list (hv : v.kind ≠ .list) : h.Alike h' v v := Matches.alike (.leaf hv)

theorem alike_newList {items items' : List Value}
    (hitems : List.Forall₂ (h.Alike h') items items') :
    (h.newList items).2.Alike (h'.newList items').2 (.list (h.newList items).1)
      (.list (h'.newList items').1) := by
  have hk : h.Grown (h.newList items).2 := h.grown_place (.newList items)
  have hk' : h'.Grown (h'.newList items').2 := h'.grown_place (.newList items')
  refine Matches.alike (.list (h.in_newList items) (h'.in_newList items') ?_)
  rw [items_newList, items_newList]
  exact hitems.imp fun u u' hu => hu.grown hk hk'

theorem Alike.cases_list (hv : h.Alike h' v v') :
    v' = v ∧ v.kind ≠ .list ∨ ∃ r r', v = .list r ∧ v' = .list r' ∧
      List.Forall₂ (h.Alike h') (h.items r) (h'.items r') := by
  cases hv.matches with
  | leaf hleaf => exact .inl ⟨rfl, hleaf⟩
  | @list r r' _ _ hitems => exact .inr ⟨r, r', rfl, rfl, hitems⟩

theorem Alike.symm (hv : h.Alike h' v v') : h'.Alike h v' v := by
  refine ⟨fun u' u => h.Alike h' u u', ?_, hv⟩
  intro u' u hu
  cases hu.matches with
  | leaf hleaf => exact .leaf hleaf
  | list hr hr' hitems => exact .list hr' hr hitems.flip

/-! ## Texts -/

/-- What is held by one of two values that are alike has something like it in the other. -/
theorem Alike.of_holds {u : Value} (hv : h.Alike h' v v') (hu : h.Holds u v) :
    ∃ u', h'.Holds u' v' ∧ h.Alike h' u u' := by
  obtain ⟨r, rfl, hmem⟩ := hu
  rcases hv.cases_list with ⟨_, hlist⟩ | ⟨s, r', hs, rfl, hitems⟩
  · exact absurd rfl hlist
  · cases hs
    obtain ⟨u', hu', halike⟩ := exists_of_forall₂ hitems hmem
    exact ⟨u', ⟨r', rfl, hu'⟩, halike⟩

theorem Alike.nestedWithin {d : Nat} (hv : h.Alike h' v v') (hd : h.NestedWithin d v) :
    h'.NestedWithin d v' := by
  induction d generalizing v v' with
  | zero =>
    rcases hv.cases_list with ⟨rfl, hlist⟩ | ⟨r, r', rfl, _⟩
    · exact hlist
    · exact absurd rfl hd
  | succ d ih =>
    intro u' hu'
    obtain ⟨u, hu, halike⟩ := hv.symm.of_holds hu'
    exact ih halike.symm (hd u hu)

theorem leafText_of_objects (hobjects : h'.objects = h.objects) (pattern : String) (v : Value) :
    h'.leafText pattern v = h.leafText pattern v := by
  cases v with
  | object r => simp only [leafText, object?, hobjects]
  | _ => rfl

/-- To the same depth, what is alike is written alike. -/
theorem Alike.textWithin (hobjects : h'.objects = h.objects) (pattern : String) (d : Nat)
    (hv : h.Alike h' v v') : h'.textWithin pattern d v' = h.textWithin pattern d v := by
  induction d generalizing v v' with
  | zero =>
    rcases hv.cases_list with ⟨rfl, _⟩ | ⟨r, r', rfl, rfl, _⟩
    · exact leafText_of_objects hobjects pattern _
    · rfl
  | succ d ih =>
    rcases hv.cases_list with ⟨rfl, hlist⟩ | ⟨r, r', rfl, rfl, hitems⟩
    · rw [textWithin_of_ne_list _ _ _ hlist, textWithin_of_ne_list _ _ _ hlist]
      exact leafText_of_objects hobjects pattern _
    · have htexts : (h'.items r').map (h'.textWithin pattern d) =
          (h.items r).map (h.textWithin pattern d) := by
        rw [← List.forall₂_eq_eq_eq, List.forall₂_map_left_iff, List.forall₂_map_right_iff]
        exact (hitems.imp fun u u' hu => ih hu).flip
      rw [Heap.textWithin, Heap.textWithin, htexts]

/-- All that a value alike to another consists of is there. -/
theorem Alike.nestedWithin_depth (hv : h.Alike h' v v') (hg : h.Grounded v) :
    h.NestedWithin h.depth v := by
  have hholds : ∀ u v, (∃ v', h.Alike h' v v') → h.Holds u v → ∃ u', h.Alike h' u u' := by
    rintro u v ⟨v', hv⟩ hu
    obtain ⟨u', _, halike⟩ := hv.of_holds hu
    exact ⟨u', halike⟩
  have hin : ∀ v, (∃ v', h.Alike h' v v') → v.In h := by
    rintro v ⟨v', hv⟩
    cases hv.matches with
    | leaf hlist => exact Value.in_of_ne_list hlist
    | list hr => exact hr
  exact Heap.nestedWithin_depth hholds hin ⟨v', hv⟩ hg

/-- What is alike is written alike, unless it holds itself. -/
theorem Alike.text (hobjects : h'.objects = h.objects) (pattern : String) (hv : h.Alike h' v v')
    (hg : h.Grounded v) : h'.text pattern v' = h.text pattern v := by
  have hdepth := hv.nestedWithin_depth hg
  have hdepth' := hv.symm.nestedWithin_depth (hv.nestedWithin hdepth).grounded
  calc h'.text pattern v'
    _ = h'.textWithin pattern (max h.depth h'.depth) v' :=
      (hdepth'.textWithin_eq pattern (Nat.le_max_right _ _)).symm
    _ = h.textWithin pattern (max h.depth h'.depth) v := hv.textWithin hobjects pattern _
    _ = h.text pattern v := hdepth.textWithin_eq pattern (Nat.le_max_left _ _)

end Heap

end TemplateExpr
