-- What a source may be made of: the texts of tokens and of layout as formal languages,
-- and the token that each text stands for. Nothing here says how a text is found.
import Mathlib.Computability.Language
import TemplateExpr.Token

namespace TemplateExpr

namespace Pattern

open Computability

/-! ## Texts -/

/-- One character of a class. -/
def one (p : Char → Bool) : Language Char := {cs | ∃ c, p c = true ∧ cs = [c]}

/-- This text and no other. -/
def exactly (text : String) : Language Char := {text.toList}

/-- One text or several, one after the other. -/
def plus (l : Language Char) : Language Char := l * l∗

def digits : Language Char := plus (one Char.isDigit)

def sign : Language Char := one fun c => c == '+' || c == '-'

def exponent : Language Char := one (fun c => c == 'e' || c == 'E') * (1 + sign) * digits

def double : Language Char :=
  digits * exactly "." * digits * (1 + exponent) + digits * exponent

def floatLetter : Language Char := one fun c => c == 'f' || c == 'F'

def float : Language Char :=
  digits * exactly "." * digits * (1 + exponent) * floatLetter + digits * floatLetter

def longLetter : Language Char := one fun c => c == 'l' || c == 'L'

def long : Language Char := digits * longLetter

/-- Inside a string a backslash takes any next character with it but a line break. -/
def stringPart : Language Char :=
  one (fun c => c != '"' && c != '\\') + exactly "\\" * one fun c => c != '\n'

def string : Language Char := exactly "\"" * stringPart∗ * exactly "\""

def name : Language Char :=
  one (fun c => c.isAlpha || c == '_') * (one fun c => c.isAlphanum || c == '_')∗

def comment : Language Char := exactly "#" * (one fun c => c != '\n' && c != '\r')∗

def blanks : Language Char := plus (one fun c => c == ' ' || c == '\t' || c == '\r' || c == '\x0c')

def keywords : List (String × Token) :=
  [("true", .bool true), ("false", .bool false), ("null", .null), ("and", .operator .and),
    ("or", .operator .or)]

def symbols : List (String × Token) :=
  [("&&", .operator .and), ("||", .operator .or), ("??", .operator .coalesce),
    ("...", .operator .below), ("..<", .operator .below), ("..", .operator .through),
    ("<<", .operator .append), (">>", .operator .prepend), ("+", .operator .add),
    ("-", .operator .subtract), ("*", .operator .multiply), ("//", .operator .quotient),
    ("/", .operator .divide), ("%", .operator .remainder), ("(", .opening .round),
    (")", .closing .round), ("[", .opening .square), ("]", .closing .square), (",", .comma),
    ("==", .operator .equal), ("!=", .operator .notEqual), ("<=", .operator .lessEqual),
    (">=", .operator .greaterEqual), ("<", .operator .less), (">", .operator .greater),
    ("!", .bang)]

/-- The texts of a table. -/
def entries (table : List (String × Token)) : Language Char :=
  {cs | ∃ entry ∈ table, cs = entry.1.toList}

/-- Every text that is a token or a piece of layout. -/
def declared : Language Char :=
  double + float + long + digits + string + entries keywords + name + comment + entries symbols +
    exactly "\n" + blanks

/-- A text that is a token or a piece of layout, of all that begin where it does the longest. -/
structure Longest (text rest : List Char) : Prop where
  declared : text ∈ declared
  longest : ∀ other ∈ Pattern.declared, other <+: text ++ rest → other.length ≤ text.length

/-! ## Meanings -/

/-- The whole number that digits after at most one sign stand for. -/
inductive Whole : List Char → Int → Prop
  | plain {ds} : ds ∈ digits → Whole ds (Decimal.ofDigits ds)
  | positive {ds} : ds ∈ digits → Whole ('+' :: ds) (Decimal.ofDigits ds)
  | negative {ds} : ds ∈ digits → Whole ('-' :: ds) (-(Decimal.ofDigits ds : Int))

/-- The decimal that digits stand for, with or without a fraction. -/
inductive Positional : List Char → Decimal → Prop
  | whole {ds} : ds ∈ digits → Positional ds ⟨Decimal.ofDigits ds, 0⟩
  | fraction {ds fs} : ds ∈ digits → fs ∈ digits →
      Positional (ds ++ '.' :: fs) ⟨Decimal.ofDigits (ds ++ fs), -(fs.length : Int)⟩

/-- The decimal that a number without its suffix stands for. -/
inductive Says : List Char → Decimal → Prop
  | positional {cs d} : Positional cs d → Says cs d
  | scaled {cs d e es k} : Positional cs d → e = 'e' ∨ e = 'E' → Whole es k →
      Says (cs ++ e :: es) ⟨d.coefficient, d.exponent + k⟩

/-- The characters that may follow a backslash, with what they stand for. -/
def escapes : List (Char × Char) := [('"', '"'), ('\\', '\\'), ('n', '\n'), ('t', '\t')]

/-- The characters that the text between two quotes stands for. -/
inductive Content : List Char → List Char → Prop
  | nil : Content [] []
  | plain {c cs ds} : c ≠ '"' → c ≠ '\\' → Content cs ds → Content (c :: cs) (c :: ds)
  | escaped {c d cs ds} : (c, d) ∈ escapes → Content cs ds →
      Content ('\\' :: c :: cs) (d :: ds)

/-- The token that a text stands for. A keyword is not a name. -/
inductive Reads : List Char → Token → Prop
  | double {cs d} : cs ∈ Pattern.double → Says cs d → Reads cs (.double (.ofDecimal false d))
  | float {cs c d} : cs ++ [c] ∈ Pattern.float → Says cs d →
      Reads (cs ++ [c]) (.float (.ofDecimal false d))
  | long {ds c} {n : Int64} : ds ∈ digits → c = 'l' ∨ c = 'L' →
      n.toInt = Decimal.ofDigits ds → Reads (ds ++ [c]) (.long n)
  | integer {ds} {n : Int64} : ds ∈ digits → n.toInt = Decimal.ofDigits ds → Reads ds (.integer n)
  | string {cs ds} : Content cs ds → Reads ('"' :: (cs ++ ['"'])) (.string (String.ofList ds))
  | entry {text token} : (text, token) ∈ keywords ++ symbols → Reads text.toList token
  | name {cs} : cs ∈ Pattern.name → cs ∉ entries keywords →
      Reads cs (.identifier (String.ofList cs))

/-- Spaces, tabs, line ends and comments in front of some text. A comment goes on to the end of its
line. -/
inductive Layout : List Char → List Char → Prop
  | nil {rest} : Layout [] rest
  | blank {c cs rest} : c ∈ [' ', '\t', '\r', '\x0c', '\n'] → Layout cs rest →
      Layout (c :: cs) rest
  | comment {ds cs rest} : (∀ c ∈ ds, c ≠ '\n' ∧ c ≠ '\r') →
      (∀ c ∈ (cs ++ rest).head?, c = '\n' ∨ c = '\r') → Layout cs rest →
      Layout ('#' :: (ds ++ cs)) rest

/-! ## Members -/

theorem mem_one {p : Char → Bool} {cs : List Char} : cs ∈ one p ↔ ∃ c, p c = true ∧ cs = [c] :=
  Iff.rfl

theorem mem_exactly {text : String} {cs : List Char} : cs ∈ exactly text ↔ cs = text.toList :=
  Iff.rfl

theorem mem_entries {table : List (String × Token)} {cs : List Char} :
    cs ∈ entries table ↔ ∃ entry ∈ table, cs = entry.1.toList := Iff.rfl

theorem append_mem_kstar {l : Language Char} {cs ds : List Char} (hcs : cs ∈ l) (hds : ds ∈ l∗) :
    cs ++ ds ∈ l∗ :=
  (mul_kstar_le_kstar : l * l∗ ≤ l∗) (Language.append_mem_mul hcs hds)

theorem mem_kstar_one {p : Char → Bool} {cs : List Char} :
    cs ∈ (one p)∗ ↔ ∀ c ∈ cs, p c = true := by
  constructor
  · intro h
    obtain ⟨parts, rfl, hparts⟩ := Language.mem_kstar.1 h
    intro c hc
    obtain ⟨part, hpart, hc⟩ := List.mem_flatten.1 hc
    obtain ⟨d, hd, rfl⟩ := hparts part hpart
    rw [List.mem_singleton.1 hc]
    exact hd
  · intro h
    induction cs with
    | nil => exact Language.nil_mem_kstar _
    | cons c cs ih =>
      obtain ⟨hc, hcs⟩ := List.forall_mem_cons.1 h
      exact append_mem_kstar (mem_one.2 ⟨c, hc, rfl⟩) (ih hcs)

theorem mem_plus_one {p : Char → Bool} {cs : List Char} :
    cs ∈ plus (one p) ↔ ∃ c ds, cs = c :: ds ∧ p c = true ∧ ∀ d ∈ ds, p d = true := by
  constructor
  · intro h
    obtain ⟨_, ⟨c, hc, rfl⟩, ds, hds, rfl⟩ := Language.mem_mul.1 h
    exact ⟨c, ds, rfl, hc, mem_kstar_one.1 hds⟩
  · rintro ⟨c, ds, rfl, hc, hds⟩
    exact Language.append_mem_mul (mem_one.2 ⟨c, hc, rfl⟩) (mem_kstar_one.2 hds)

theorem mem_digits {cs : List Char} :
    cs ∈ digits ↔ ∃ c ds, cs = c :: ds ∧ c.isDigit = true ∧ ∀ d ∈ ds, d.isDigit = true :=
  mem_plus_one

theorem isDigit_of_mem {cs : List Char} (h : cs ∈ digits) : ∀ c ∈ cs, c.isDigit = true := by
  obtain ⟨c, ds, rfl, hc, hds⟩ := mem_digits.1 h
  exact List.forall_mem_cons.2 ⟨hc, hds⟩

theorem mem_digits_of_ne_nil {cs : List Char} (hne : cs ≠ []) (h : ∀ c ∈ cs, c.isDigit = true) :
    cs ∈ digits := by
  cases cs with
  | nil => exact absurd rfl hne
  | cons c cs =>
    obtain ⟨hc, hcs⟩ := List.forall_mem_cons.1 h
    exact mem_digits.2 ⟨c, cs, rfl, hc, hcs⟩

/-- A number with a fraction, and an exponent or not. -/
theorem mem_fraction {cs : List Char} : cs ∈ digits * exactly "." * digits * (1 + exponent) ↔
    ∃ ds fs es, cs = ds ++ '.' :: (fs ++ es) ∧ ds ∈ digits ∧ fs ∈ digits ∧
      (es = [] ∨ es ∈ exponent) := by
  constructor
  · intro h
    obtain ⟨_, hfront, es, hes, rfl⟩ := Language.mem_mul.1 h
    obtain ⟨_, hpoint, fs, hfs, rfl⟩ := Language.mem_mul.1 hfront
    obtain ⟨ds, hds, _, rfl, rfl⟩ := Language.mem_mul.1 hpoint
    exact ⟨ds, fs, es, by simp, hds, hfs, hes⟩
  · rintro ⟨ds, fs, es, rfl, hds, hfs, hes⟩
    have hpoint := Language.append_mem_mul hds (show ".".toList ∈ exactly "." from rfl)
    have hall := Language.append_mem_mul (Language.append_mem_mul hpoint hfs)
      (show es ∈ 1 + exponent from hes)
    simpa using hall

theorem mem_exponent {cs : List Char} : cs ∈ exponent ↔
    ∃ e es k, cs = e :: es ∧ (e = 'e' ∨ e = 'E') ∧ Whole es k := by
  constructor
  · intro h
    obtain ⟨_, hfront, ds, hds, rfl⟩ := Language.mem_mul.1 h
    obtain ⟨_, ⟨e, he, rfl⟩, s, hs, rfl⟩ := Language.mem_mul.1 hfront
    have hletter : e = 'e' ∨ e = 'E' := by simpa using he
    rcases hs with rfl | ⟨c, hc, rfl⟩
    · exact ⟨e, ds, _, rfl, hletter, .plain hds⟩
    · have hsign : c = '+' ∨ c = '-' := by simpa using hc
      rcases hsign with rfl | rfl
      · exact ⟨e, '+' :: ds, _, rfl, hletter, .positive hds⟩
      · exact ⟨e, '-' :: ds, _, rfl, hletter, .negative hds⟩
  · rintro ⟨e, es, k, rfl, he, hes⟩
    have hletter : [e] ∈ one fun c => c == 'e' || c == 'E' := ⟨e, by simpa using he, rfl⟩
    have of_sign : ∀ s ds, s ∈ 1 + sign → ds ∈ digits → e :: (s ++ ds) ∈ exponent := by
      intro s ds hs hds
      exact Language.append_mem_mul (Language.append_mem_mul hletter hs) hds
    cases hes with
    | plain hds => exact of_sign [] _ (.inl rfl) hds
    | positive hds => exact of_sign ['+'] _ (.inr ⟨'+', rfl, rfl⟩) hds
    | negative hds => exact of_sign ['-'] _ (.inr ⟨'-', rfl, rfl⟩) hds

end Pattern

end TemplateExpr
