-- Texts between double quotes. In a literal exactly the four characters that a
-- literal cannot hold as they are get a backslash; in a message about a token
-- everything that could not be seen is named by its number as well.
import TemplateExpr.Text.Unmarked

namespace TemplateExpr

namespace Text

/-- A character inside a literal. -/
def escape : Char → List Char
  | '"' => ['\\', '"']
  | '\\' => ['\\', '\\']
  | '\n' => ['\\', 'n']
  | '\t' => ['\\', 't']
  | c => [c]

/-- A text as a literal. -/
def quote (s : String) : String := String.ofList ('"' :: s.toList.flatMap escape ++ ['"'])

/-- What the character after a backslash stands for; no others may follow one. -/
def escaped? : Char → Option Char
  | '"' => some '"'
  | '\\' => some '\\'
  | 'n' => some '\n'
  | 't' => some '\t'
  | _ => none

/-- The text between the quotes of a literal, unless a backslash stands where it may not. -/
def unescape : List Char → Option (List Char)
  | [] => some []
  | '\\' :: c :: cs => do
    let d ← escaped? c
    let ds ← unescape cs
    some (d :: ds)
  | c :: cs => if c = '\\' then none else (unescape cs).map (c :: ·)

/-- A character as messages about tokens show it. -/
def shown : Char → List Char
  | '"' => ['\\', '"']
  | '\\' => ['\\', '\\']
  | '\n' => ['\\', 'n']
  | '\t' => ['\\', 't']
  | '\r' => ['\\', 'r']
  | '\x00' => ['\\', '0']
  | c => if unmarked c then ['\\', 'u', '\x7b'] ++ Nat.toDigits 16 c.toNat ++ ['\x7d'] else [c]

/-- A text as messages about tokens show it. -/
def display (s : String) : String := String.ofList ('"' :: s.toList.flatMap shown ++ ['"'])

theorem unescape_escape (c : Char) (cs : List Char) :
    unescape (escape c ++ cs) = (unescape cs).map (c :: ·) := by
  unfold escape
  split <;> try (simp [unescape, escaped?]; cases unescape cs <;> rfl)
  next h1 h2 h3 h4 =>
    simp only [List.cons_append, List.nil_append]
    rw [unescape]
    · simp_all
    · intros; simp_all

theorem unescape_flatMap_escape (cs : List Char) : unescape (cs.flatMap escape) = some cs := by
  induction cs with
  | nil => rfl
  | cons c cs ih => simp [unescape_escape, ih]

end Text

end TemplateExpr
