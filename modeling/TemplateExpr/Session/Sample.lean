-- Host functions that a session can register. They write down how they are called
-- before they do anything, and some count their calls or change a list in place.
import TemplateExpr.Evaluation

namespace TemplateExpr

/-- What the functions of a session keep: the calls made, latest last, and one counter for each
function registered. -/
structure Journal where
  calls : Array String := #[]
  counters : Array Nat := #[]

inductive Sample where
  /-- Gives its first argument back. -/
  | echo
  /-- Gives the number of its calls so far. -/
  | count
  /-- Gives a new list of its arguments. -/
  | list
  /-- Gives the place of the call as text. -/
  | span
  | fail
  /-- Appends to a list in place. -/
  | push
  /-- Empties a list in place. -/
  | clear
  /-- Gives a new list of the items of its first argument. -/
  | sequence
deriving DecidableEq

namespace Sample

/-- A call as the journal shows it. -/
def callText (h : Heap) (name : String) (args : List Value) : String :=
  name ++ "(" ++ ", ".intercalate (args.map h.describe) ++ ")"

/-- A new list as a value. -/
def fresh (h : Heap) (items : List Value) : Except RuntimeError Value × Heap :=
  (.ok (.list (h.newList items).1), (h.newList items).2)

/-- Changes the first argument in place, if it is a list. -/
def changing (h : Heap) (span : Span) (args : List Value)
    (change : List Value → List Value) : Except RuntimeError Value × Heap :=
  match args.head? with
  | some (.list r) => (.ok (.list r), h.setItems r (change (h.items r)))
  | _ => (.error ⟨.invalidArgument "first argument must be a list", span⟩, h)

/-- What a function gives and does to the heap, called for the `n`th time. -/
def act (s : Sample) (n : Nat) (args : List Value) (span : Span) (h : Heap) :
    Except RuntimeError Value × Heap :=
  match s with
  | echo => (.ok (args.headD .null), h)
  | count => (.ok (.int (Int32.ofNat n)), h)
  | list => fresh h args
  | .span => (.ok (.string span.text), h)
  | fail => (.error ⟨.invalidArgument "host failure", span⟩, h)
  | push => changing h span args (· ++ args.drop 1)
  | clear => changing h span args fun _ => []
  | sequence =>
    match args.head?.bind h.sequence? with
    | some items => fresh h items
    | none => (.ok .null, h)

/-- The function under a name, with the counter of this number. -/
def function (s : Sample) (name : String) (counter : Nat) : HostFunction Journal :=
  fun args span h j =>
    let n := j.counters[counter]?.getD 0 + 1
    let done := s.act n args span h
    (done.1, done.2, ⟨j.calls.push (callText h name args), j.counters.setIfInBounds counter n⟩)

end Sample

end TemplateExpr
