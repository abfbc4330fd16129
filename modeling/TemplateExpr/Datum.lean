-- Values taken out of their heap: trees that hold copies of what lists and objects
-- hold. Hosts hand values in and read them out in this form; every list and object of
-- a tree that is handed in is a new one.
import TemplateExpr.Heap

namespace TemplateExpr

inductive Datum where
  /-- A value that refers to nothing in a heap. -/
  | leaf (v : Value)
  | list (items : List Datum)
  | object (typeName : String) (items : Option (List Datum))

instance : Inhabited Datum := ⟨.leaf .null⟩

namespace Heap

mutual

/-- The value of a tree, in a heap with its lists and objects, each made after what it holds. -/
def store (h : Heap) : Datum → Value × Heap
  | .leaf v => (v, h)
  | .list items =>
    let stored := h.storeAll items
    (.list (stored.2.newList stored.1).1, (stored.2.newList stored.1).2)
  | .object typeName none =>
    (.object (h.newObject ⟨typeName, none⟩).1, (h.newObject ⟨typeName, none⟩).2)
  | .object typeName (some items) =>
    let stored := h.storeAll items
    let object := stored.2.newObject ⟨typeName, some stored.1⟩
    (.object object.1, object.2)

def storeAll (h : Heap) : List Datum → List Value × Heap
  | [] => ([], h)
  | d :: ds =>
    let first := h.store d
    let rest := first.2.storeAll ds
    (first.1 :: rest.1, rest.2)

end

/-- The tree of a value, down to this depth of lists and objects. -/
def treeWithin (h : Heap) : Nat → Value → Datum
  | d + 1, .list r => .list ((h.items r).map (treeWithin h d))
  | d + 1, .object r =>
    match h.object? r with
    | some object => .object object.typeName (object.items.map (List.map (treeWithin h d)))
    | none => .leaf (.object r)
  | _, v => .leaf v

/-- The tree of a value. -/
def tree (h : Heap) (v : Value) : Datum := h.treeWithin (h.lists.size + h.objects.size) v

end Heap

end TemplateExpr
