-- Names bound to things. A new binding of a name replaces the old one.

namespace TemplateExpr

structure Bindings (α : Type) where
  entries : List (String × α) := []

namespace Bindings

variable {α : Type}

def find? (b : Bindings α) (name : String) : Option α := b.entries.lookup name

def set (b : Bindings α) (name : String) (a : α) : Bindings α :=
  ⟨(name, a) :: b.entries.filter fun e => e.1 != name⟩

def ofList (entries : List (String × α)) : Bindings α :=
  entries.foldl (fun b (name, a) => b.set name a) {}

/-- The names that are bound, in the order of their characters. -/
def names (b : Bindings α) : List String := (b.entries.map Prod.fst).mergeSort fun s t => s ≤ t

@[simp] theorem find?_set_self (b : Bindings α) (name : String) (a : α) :
    (b.set name a).find? name = some a := by
  simp [find?, set]

theorem find?_set_of_ne (b : Bindings α) {name other : String} (a : α) (h : other ≠ name) :
    (b.set name a).find? other = b.find? other := by
  have hne : (other == name) = false := by simpa using h
  simp only [find?, set, List.lookup_cons, hne]
  induction b.entries with
  | nil => rfl
  | cons e es ih =>
    obtain ⟨k, v⟩ := e
    by_cases hk : k = name
    · subst hk
      simp only [List.filter_cons, List.lookup_cons, hne]
      simpa using ih
    · simp only [List.filter_cons, List.lookup_cons]
      have : (k != name) = true := by simpa using hk
      simp only [this, if_true, List.lookup_cons, ih]

end Bindings

end TemplateExpr
