-- From source text to tokens. The first character and what follows it decide what
-- form of piece the text begins with and how long the piece is; the piece is then
-- read by itself. Pieces follow each other without gaps, so each begins at the byte where
-- the one before it stops. Lines are counted apart from that: the counter is moved on by
-- line breaks and strings alone, and a place is worked out from it when its piece is taken.
import TemplateExpr.Binary.Narrowing
import TemplateExpr.SyntaxError
import TemplateExpr.Token

namespace TemplateExpr

namespace Scanner

/-! ## Lengths -/

/-- Bytes of a text. -/
def bytes : List Char → Nat
  | [] => 0
  | c :: cs => c.utf8Size + bytes cs

/-- Line breaks in a text. -/
def lineBreaks (cs : List Char) : Nat := cs.count '\n'

def isWordStart (c : Char) : Bool := c.isAlpha || c == '_'

def isWordPart (c : Char) : Bool := c.isAlphanum || c == '_'

/-- Spaces, tabs, carriage returns and form feeds. -/
def isSpace (c : Char) : Bool := c == ' ' || c == '\t' || c == '\r' || c == '\x0c'

/-- Length of the run of characters of a class at the start of a text. -/
def run (p : Char → Bool) (cs : List Char) : Nat := (cs.takeWhile p).length

/-- Length of the sign at the start of a text. -/
def signRun : List Char → Nat
  | '+' :: _ | '-' :: _ => 1
  | _ => 0

/-- Length of the exponent at the start of a text, zero where there is none. -/
def exponentRun : List Char → Nat
  | [] => 0
  | c :: cs =>
    let digits := run Char.isDigit (cs.drop (signRun cs))
    if (c == 'e' || c == 'E') && 0 < digits then 1 + signRun cs + digits else 0

/-- Length of a point with digits after it at the start of a text, zero where there is none. -/
def fractionRun : List Char → Nat
  | '.' :: cs => if 0 < run Char.isDigit cs then 1 + run Char.isDigit cs else 0
  | _ => 0

/-- How far a string goes after its opening quote, and whether it is closed there. A backslash takes
the next character with it, unless that is a line break. -/
def stringRun : List Char → Bool × Nat
  | [] => (false, 0)
  | ['\\'] => (false, 1)
  | '\\' :: c :: cs =>
    if c = '\n' then (false, 1) else ((stringRun cs).1, (stringRun cs).2 + 2)
  | c :: cs => if c = '"' then (true, 1) else ((stringRun cs).1, (stringRun cs).2 + 1)

/-! ## Forms of pieces -/

inductive Form where
  | lineBreak
  /-- Spaces and comments. -/
  | layout
  | double
  | float
  | long
  | integer
  | string
  | openString
  | word
  | symbol (token : Token)
  | stray
deriving DecidableEq

/-- What a number is, and how many characters follow its first digit. The letter of a float follows
whole digits or a fraction, that of a long only whole digits. -/
def number (cs : List Char) : Form × Nat :=
  let whole := run Char.isDigit cs
  let fraction := fractionRun (cs.drop whole)
  let exponent := exponentRun (cs.drop (whole + fraction))
  let length := whole + fraction + exponent
  let isWhole := fraction == 0 && exponent == 0
  let followedBy (letters : List Char) : Bool := (cs.drop length).head?.any letters.contains
  if (isWhole || 0 < fraction) && followedBy ['f', 'F'] then (.float, length + 1)
  else if isWhole && followedBy ['l', 'L'] then (.long, length + 1)
  else (if isWhole then .integer else .double, length)

/-- The longest symbol that starts with this character, and how many more it has. -/
def symbol? : Char → List Char → Option (Token × Nat)
  | '?', '?' :: _ => some (.operator .coalesce, 1)
  | '.', '.' :: '.' :: _ => some (.operator .below, 2)
  | '.', '.' :: '<' :: _ => some (.operator .below, 2)
  | '.', '.' :: _ => some (.operator .through, 1)
  | '<', '<' :: _ => some (.operator .append, 1)
  | '<', '=' :: _ => some (.operator .lessEqual, 1)
  | '<', _ => some (.operator .less, 0)
  | '>', '>' :: _ => some (.operator .prepend, 1)
  | '>', '=' :: _ => some (.operator .greaterEqual, 1)
  | '>', _ => some (.operator .greater, 0)
  | '=', '=' :: _ => some (.operator .equal, 1)
  | '!', '=' :: _ => some (.operator .notEqual, 1)
  | '!', _ => some (.bang, 0)
  | '&', '&' :: _ => some (.operator .and, 1)
  | '|', '|' :: _ => some (.operator .or, 1)
  | '+', _ => some (.operator .add, 0)
  | '-', _ => some (.operator .subtract, 0)
  | '*', _ => some (.operator .multiply, 0)
  | '/', '/' :: _ => some (.operator .quotient, 1)
  | '/', _ => some (.operator .divide, 0)
  | '%', _ => some (.operator .remainder, 0)
  | '(', _ => some (.opening .round, 0)
  | ')', _ => some (.closing .round, 0)
  | '[', _ => some (.opening .square, 0)
  | ']', _ => some (.closing .square, 0)
  | ',', _ => some (.comma, 0)
  | _, _ => none

/-- What a text begins with, and how many characters of it follow the first. -/
def classify (c : Char) (cs : List Char) : Form × Nat :=
  if c = '\n' then (.lineBreak, 0)
  else if isSpace c then (.layout, run isSpace cs)
  else if c = '#' then (.layout, run (fun d => d != '\n' && d != '\r') cs)
  else if c.isDigit then number cs
  else if c = '"' then
    if (stringRun cs).1 then (.string, (stringRun cs).2) else (.openString, (stringRun cs).2)
  else if isWordStart c then (.word, run isWordPart cs)
  else
    match symbol? c cs with
    | some (token, n) => (.symbol token, n)
    | none => (.stray, 0)

/-! ## Reading a piece -/

/-- A word is a keyword or names something. -/
def word (cs : List Char) : Token :=
  match String.ofList cs with
  | "true" => .bool true
  | "false" => .bool false
  | "null" => .null
  | "and" => .operator .and
  | "or" => .operator .or
  | name => .identifier name

/-- A whole number of 64 bits. -/
def integer? (cs : List Char) : Option Int64 := (Decimal.readInt? cs).bind int64?

/-- The token that a piece of this form stands for. Suffixes and quotes are not part of its
value. -/
def Form.read? (slice : List Char) : Form → Option Token
  | double => (Numeral.read? slice).map fun x => .double x.toBinary
  | float => (Numeral.read? slice.dropLast).map fun x => .float x.toBinary
  | long => (integer? slice.dropLast).map .long
  | integer => (integer? slice).map .integer
  | string => (Text.unescape (slice.drop 1).dropLast).map fun cs => .string (String.ofList cs)
  | word => some (Scanner.word slice)
  | symbol token => some token
  | lineBreak | layout | openString | stray => none

/-- Line breaks, spaces and comments stand between tokens and give none. -/
def Form.isSkipped : Form → Bool
  | lineBreak | layout => true
  | _ => false

/-! ## Places -/

/-- The line counter once a piece has been taken. A closed string adds its line breaks before its
escapes are looked at; no other piece but a line break moves the counter on. -/
def Form.counted (line : Nat) (slice : List Char) : Form → Nat
  | lineBreak => line + 1
  | string => line + lineBreaks slice
  | _ => line

/-- The place of a piece that has been taken. Its line is what the counter has come to less the line
breaks of the piece, whether or not these were counted. -/
def Form.place (offset line : Nat) (slice : List Char) (form : Form) : Span :=
  ⟨offset, offset + bytes slice, form.counted line slice - lineBreaks slice⟩

/-! ## The scan -/

/-- The error for a piece that is no token. -/
def rejected (slice : List Char) (span : Span) : SyntaxError :=
  if slice.head?.any Char.isDigit then .outOfRange (String.ofList slice) span
  else .unexpectedToken (String.ofList slice) span

/-- The tokens of a text that begins at this offset, with the line counter where it stands there. -/
def scan (offset line : Nat) : List Char → Except SyntaxError (List (Token × Span))
  | [] => .ok []
  | c :: cs =>
    let form := (classify c cs).1
    let slice := c :: cs.take (classify c cs).2
    let rest := cs.drop (classify c cs).2
    let place := form.place offset line slice
    if form.isSkipped then scan place.stop (form.counted line slice) rest
    else
      match form.read? slice with
      | none => .error (rejected slice place)
      | some token =>
        (scan place.stop (form.counted line slice) rest).map ((token, place) :: ·)
termination_by cs => cs.length
decreasing_by all_goals rw [List.length_drop, List.length_cons]; omega

end Scanner

/-- The tokens of a source with their places. -/
def Token.ofSource (source : String) : Except SyntaxError (List (Token × Span)) :=
  Scanner.scan 0 1 source.toList

end TemplateExpr
