-- The lists and host objects that values refer to, numbered in the order in which they
-- came into being. A new one gets the next number, so it is different from all others.
import TemplateExpr.Value

namespace TemplateExpr

/-- An object that the host lends to expressions; some can be taken apart into items. -/
structure HostObject where
  typeName : String
  items : Option (List Value)
deriving DecidableEq

structure Heap where
  lists : Array (List Value) := #[]
  objects : Array HostObject := #[]

namespace Heap

instance : Inhabited Heap := ⟨{}⟩

/-- The items of a list. -/
def items (h : Heap) (r : ListRef) : List Value := h.lists[r.index]?.getD []

def object? (h : Heap) (r : ObjectRef) : Option HostObject := h.objects[r.index]?

/-- A new list of these items. -/
def newList (h : Heap) (items : List Value) : ListRef × Heap :=
  (⟨h.lists.size⟩, { h with lists := h.lists.push items })

/-- A new host object. -/
def newObject (h : Heap) (object : HostObject) : ObjectRef × Heap :=
  (⟨h.objects.size⟩, { h with objects := h.objects.push object })

/-- The heap after a host has changed a list in place. -/
def setItems (h : Heap) (r : ListRef) (items : List Value) : Heap :=
  { h with lists := h.lists.setIfInBounds r.index items }

/-- The items of a list, or of an object that has some. -/
def sequence? (h : Heap) : Value → Option (List Value)
  | .list r => some (h.items r)
  | .object r => (h.object? r).bind HostObject.items
  | _ => none

theorem items_newList (h : Heap) (xs : List Value) :
    (h.newList xs).2.items (h.newList xs).1 = xs := by
  simp [items, newList]

theorem items_newList_of_lt {h : Heap} {r : ListRef} (xs : List Value)
    (hr : r.index < h.lists.size) : (h.newList xs).2.items r = h.items r := by
  simp [items, newList, Array.getElem?_push, Nat.ne_of_lt hr]

end Heap

end TemplateExpr
