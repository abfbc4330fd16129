-- The order in which lists come into being. A new list can hold only what there is, so where
-- no list is changed, each holds only older ones, and none holds itself.
import TemplateExpr.Datum
import TemplateExpr.Proofs.Evaluation.Frame
import TemplateExpr.Proofs.Heap.Nesting

namespace TemplateExpr

namespace Heap

/-! ## Ordered heaps -/

/-- Lists hold only lists that were created before them, and objects only lists there are. -/
structure Ordered (h : Heap) : Prop where
  lists : ∀ r : ListRef, r.index < h.lists.size → ∀ v ∈ h.items r, v.Below r.index
  objects : ∀ object ∈ h.objects, ∀ items, object.items = some items → ∀ v ∈ items, v.In h

variable {h h' h'' : Heap}

theorem items_of_size_le {r : ListRef} (hr : h.lists.size ≤ r.index) : h.items r = [] := by
  simp [items, hr]

theorem ordered_empty : Ordered {} := ⟨nofun, nofun⟩

theorem Ordered.closed (ho : h.Ordered) : h.Closed := by
  refine ⟨?_, ho.objects⟩
  intro r v hv
  rcases Nat.lt_or_ge r.index h.lists.size with hr | hr
  · exact (ho.lists r hr v hv).mono (Nat.le_of_lt hr)
  · rw [items_of_size_le hr] at hv
    cases hv

/-- No list of an ordered heap holds itself, neither directly nor in what it holds. -/
theorem Ordered.wellFounded (ho : h.Ordered) : WellFounded h.Holds := by
  have hlists : ∀ n, ∀ r : ListRef, r.index < n → h.Grounded (.list r) := by
    intro n
    induction n with
    | zero => exact fun r hr => absurd hr (Nat.not_lt_zero _)
    | succ n ih =>
      intro r hr
      refine Acc.intro _ ?_
      rintro u ⟨s, hs, hu⟩
      cases hs
      rcases Nat.lt_or_ge r.index h.lists.size with hlt | hge
      · have hbelow := ho.lists r hlt u hu
        cases u with
        | list s =>
          have hs : s.index < r.index := hbelow
          exact ih s (by omega)
        | _ => exact grounded_of_ne_list (by simp [Value.kind])
      · rw [items_of_size_le hge] at hu
        cases hu
  refine ⟨fun v => ?_⟩
  rcases v.list_or_leaf with ⟨r, rfl⟩ | hv
  · exact hlists (r.index + 1) r (Nat.lt_succ_self _)
  · exact grounded_of_ne_list hv

theorem Ordered.ends (ho : h.Ordered) {v : Value} (hv : v.In h) : h.Ends v :=
  ends_of_grounded ho.closed hv (ho.wellFounded.apply v)

/-! ## Building -/

/-- What can be made of a heap: lists and objects of values that can be had of it, one after the
other. Objects may come to lend other items, but no list is changed. -/
inductive Builds (h : Heap) : Heap → Prop
  | refl : Builds h h
  | newList {h' items} : Builds h h' → (∀ v ∈ items, v.In h') → Builds h (h'.newList items).2
  | newObject {h' object} : Builds h h' →
      (∀ items, object.items = some items → ∀ v ∈ items, v.In h') →
      Builds h (h'.newObject object).2
  | setObject {h' i object} : Builds h h' →
      (∀ items, object.items = some items → ∀ v ∈ items, v.In h') →
      Builds h { h' with objects := h'.objects.setIfInBounds i object }

theorem Builds.trans (first : Builds h h') (second : Builds h' h'') : Builds h h'' := by
  induction second with
  | refl => exact first
  | newList _ hitems ih => exact ih.newList hitems
  | newObject _ hitems ih => exact ih.newObject hitems
  | setObject _ hitems ih => exact ih.setObject hitems

theorem Builds.kept (hb : Builds h h') : h.Kept h' := by
  induction hb with
  | refl => exact .refl h
  | newList _ _ ih => exact ih.trans (kept_newList _ _)
  | newObject _ _ ih => exact ih.trans ⟨Nat.le_refl _, fun _ _ => rfl⟩
  | setObject _ _ ih => exact ih.trans ⟨Nat.le_refl _, fun _ _ => rfl⟩

theorem Kept.mono {v : Value} (hk : h.Kept h') (hv : v.In h) : v.In h' := hv.mono hk.size_le

theorem ordered_newList (ho : h.Ordered) {items : List Value} (hitems : ∀ v ∈ items, v.In h) :
    (h.newList items).2.Ordered := by
  refine ⟨?_, ?_⟩
  · intro r hr v hv
    rw [size_newList] at hr
    rcases Nat.lt_or_ge r.index h.lists.size with hlt | hge
    · rw [items_newList_of_lt _ hlt] at hv
      exact ho.lists r hlt v hv
    · have hnew : r = (h.newList items).1 := by
        have hindex : r.index = h.lists.size := by omega
        cases r
        cases hindex
        rfl
      rw [hnew, items_newList] at hv
      rw [hnew]
      exact hitems v hv
  · intro object hobject xs hxs v hv
    exact (kept_newList h items).mono (ho.objects object hobject xs hxs v hv)

/-- What is built of an ordered heap is ordered. -/
theorem Builds.ordered (hb : Builds h h') (ho : h.Ordered) : h'.Ordered := by
  induction hb with
  | refl => exact ho
  | newList _ hitems ih => exact ordered_newList ih hitems
  | @newObject h' object _ hitems ih =>
    refine ⟨ih.lists, ?_⟩
    intro x hx
    rcases Array.mem_push.1 hx with hx | rfl
    · exact ih.objects x hx
    · exact hitems
  | @setObject h' i object _ hitems ih =>
    refine ⟨ih.lists, ?_⟩
    intro x hx
    rcases Array.mem_or_eq_of_mem_setIfInBounds hx with hx | rfl
    · exact ih.objects x hx
    · exact hitems

theorem Closed.of_sequence (hc : h.Closed) {v : Value} {items : List Value}
    (hv : h.sequence? v = some items) : ∀ u ∈ items, u.In h := by
  cases v with
  | list r =>
    cases hv
    exact hc.lists r
  | object r =>
    obtain ⟨object, hobject, hitems⟩ := Option.bind_eq_some_iff.1 hv
    exact hc.objects object (Array.mem_of_getElem? hobject) items hitems
  | _ => cases hv

theorem in_newList (h : Heap) (items : List Value) :
    (Value.list (h.newList items).1).In (h.newList items).2 := by
  change h.lists.size < (h.newList items).2.lists.size
  rw [size_newList]
  exact Nat.lt_succ_self _

end Heap

/-- The values that an outcome mentions. -/
def Outcome.values : Outcome → List Value
  | value v => [v]
  | newList items => items

theorem Heap.builds_place {h : Heap} {outcome : Outcome} (hvalues : ∀ v ∈ outcome.values, v.In h) :
    h.Builds (h.place outcome).2 ∧ (h.place outcome).1.In (h.place outcome).2 := by
  cases outcome with
  | value v => exact ⟨.refl, hvalues v List.mem_cons_self⟩
  | newList items => exact ⟨.newList .refl hvalues, h.in_newList items⟩

/-! ## Trees that are handed in -/

theorem Value.in_of_ne_list {h : Heap} {v : Value} (hv : v.kind ≠ .list) : v.In h := by
  cases v with
  | list => exact absurd rfl hv
  | _ => trivial

mutual

/-- A tree that refers to no list of a heap. -/
def Datum.Free : Datum → Prop
  | .leaf v => v.kind ≠ .list
  | .list items => FreeAll items
  | .object _ none => True
  | .object _ (some items) => FreeAll items

def Datum.FreeAll : List Datum → Prop
  | [] => True
  | d :: ds => d.Free ∧ FreeAll ds

end

namespace Heap

mutual

theorem builds_store (h : Heap) : (d : Datum) → d.Free →
    h.Builds (h.store d).2 ∧ (h.store d).1.In (h.store d).2
  | .leaf v, hd => ⟨.refl, Value.in_of_ne_list hd⟩
  | .list items, hd => by
    obtain ⟨hbuilds, hin⟩ := builds_storeAll h items hd
    rw [store]
    exact ⟨hbuilds.newList hin, in_newList _ _⟩
  | .object typeName none, _ => by
    rw [store]
    exact ⟨Builds.refl.newObject nofun, trivial⟩
  | .object typeName (some items), hd => by
    obtain ⟨hbuilds, hin⟩ := builds_storeAll h items hd
    rw [store]
    refine ⟨hbuilds.newObject ?_, trivial⟩
    rintro _ ⟨⟩
    exact hin

theorem builds_storeAll (h : Heap) : (ds : List Datum) → Datum.FreeAll ds →
    h.Builds (h.storeAll ds).2 ∧ ∀ v ∈ (h.storeAll ds).1, v.In (h.storeAll ds).2
  | [], _ => ⟨.refl, List.forall_mem_nil _⟩
  | d :: ds, hds => by
    obtain ⟨hfirst, hin⟩ := builds_store h d hds.1
    obtain ⟨hrest, hall⟩ := builds_storeAll (h.store d).2 ds hds.2
    rw [storeAll]
    exact ⟨hfirst.trans hrest, List.forall_mem_cons.2 ⟨hrest.kept.mono hin, hall⟩⟩

end

end Heap

end TemplateExpr
