-- A session: one context and one world over many steps. Each step gives an answer, and
-- the next one starts from what it left behind.
import TemplateExpr.Datum
import TemplateExpr.Session.Sample
import TemplateExpr.Source
import TemplateExpr.Value.Equality

namespace TemplateExpr

structure Session where
  context : Context Journal
  world : World Journal

namespace Session

inductive Step where
  | set (name : String) (value : Datum)
  | get (name : String)
  | eval (source : String)
  /-- Evaluates a source and binds a name to its very value. -/
  | bind (name : String) (source : String)
  | register (name : String) (function : Sample)
  /-- Chooses the pattern for dates. -/
  | format (pattern : String)
  /-- Asks whether two variables are equal or both unset. -/
  | same (name other : String)
  | names

inductive Answer where
  | nothing
  | found (v : Option Value)
  | result (r : Except Failure Value)
  | text (s : String)
  | truth (b : Bool)
  | names (ns : List String)

/-- A session with the usual pattern and nothing bound. -/
def empty : Session := ⟨{}, ⟨{}, {}, #[]⟩⟩

/-- The session after a variable is bound to a new copy of a tree. -/
def set (s : Session) (name : String) (value : Datum) : Session :=
  let stored := s.world.heap.store value
  { context := { s.context with values := s.context.values.set name stored.1 }
    world := { s.world with heap := stored.2 } }

/-- The session after a host function is registered, with a counter of its own. -/
def register (s : Session) (name : String) (function : Sample) : Session :=
  let journal := s.world.state
  let f := function.function name journal.counters.size
  { context := { s.context with functions := s.context.functions.set name f }
    world := { s.world with state := { journal with counters := journal.counters.push 0 } } }

/-- The session with a pattern for dates. -/
def format (s : Session) (pattern : String) : Session :=
  { s with context := { s.context with pattern } }

/-- A source evaluated, and the session after it. -/
def eval (s : Session) (source : String) : Except Failure Value × Session :=
  let done := s.context.evalSource source s.world
  (done.1, { s with world := done.2 })

/-- Whether two variables are equal or both unset. -/
def same (s : Session) (name other : String) : Bool :=
  match s.context.values.find? name, s.context.values.find? other with
  | some a, some b => s.world.heap.same a b
  | none, none => true
  | _, _ => false

def step (s : Session) : Step → Answer × Session
  | .set name value => (.nothing, s.set name value)
  | .get name => (.found (s.context.values.find? name), s)
  | .eval source => (.result (s.eval source).1, (s.eval source).2)
  | .bind name source =>
    let done := s.eval source
    match done.1 with
    | .error e => (.result (.error e), done.2)
    | .ok v =>
      let context := done.2.context
      (.result (.ok v),
        { done.2 with context := { context with values := context.values.set name v } })
  | .register name function => (.nothing, s.register name function)
  | .format pattern => (.text pattern, s.format pattern)
  | .same name other => (.truth (s.same name other), s)
  | .names => (.names s.context.values.names, s)

/-- A step with the calls of host functions made during it. -/
def stepWithCalls (s : Session) (t : Step) : Answer × List String × Session :=
  let quiet := { s with world := { s.world with state := { s.world.state with calls := #[] } } }
  let done := quiet.step t
  (done.1, done.2.world.state.calls.toList, done.2)

end Session

end TemplateExpr
