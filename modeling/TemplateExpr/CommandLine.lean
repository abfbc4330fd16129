-- The command line: one expression, given as it stands or by the name of a file that
-- holds it, and a few options before or after it. The arguments are taken one by one,
-- and the first that is wrong ends the matter.
import TemplateExpr.Source
import TemplateExpr.Value.Text

namespace TemplateExpr

namespace CommandLine

/-! ## Arguments -/

/-- What has been asked for so far. -/
structure Options where
  fromFile : Bool := false
  detail : Nat := 0
  pattern : Option String := none
  contents : Option String := none
deriving DecidableEq

inductive Request where
  | evaluate (options : Options)
  | version
  | help
  | misuse
deriving DecidableEq

/-- What reading an argument leads to: more options, or an end to reading. -/
abbrev Read := Except Request Options

/-- The expression may be given once. -/
def Options.withContents (o : Options) (s : String) : Read :=
  if o.contents.isNone then .ok { o with contents := some s } else .error .misuse

/-- The pattern may be given once. -/
def Options.withPattern (o : Options) (s : String) : Read :=
  if o.pattern.isNone then .ok { o with pattern := some s } else .error .misuse

/-- Reading from a file may be asked for once, and more detail any number of times. -/
def Options.flag (o : Options) : Char → Read
  | 'f' => if o.fromFile then .error .misuse else .ok { o with fromFile := true }
  | 'v' => .ok { o with detail := o.detail + 1 }
  | 'V' => .error .version
  | 'h' => .error .help
  | _ => .error .misuse

/-- The options that are spelled out and take no value. -/
def Options.word (o : Options) : String → Read
  | "file" => o.flag 'f'
  | "verbose" => o.flag 'v'
  | "version" => o.flag 'V'
  | "help" => o.flag 'h'
  | _ => .error .misuse

/-- Whether an argument cannot be the value of the option before it. -/
def isOption (arg : String) : Bool := arg.startsWith "-" && arg != "-"

/-- One argument that is not the value of another. -/
def Options.argument (o : Options) (arg : String) : Read :=
  match arg.toList with
  | '-' :: '-' :: name =>
    match name.span (· != '=') with
    | (name, '=' :: value) =>
      if String.ofList name = "date-format" then o.withPattern (String.ofList value)
      else .error .misuse
    | (name, _) => o.word (String.ofList name)
  | '-' :: c :: flags => (c :: flags).foldlM Options.flag o
  | _ => o.withContents arg

/-- The arguments after these options. After a double dash none is an option. -/
def Options.read (o : Options) : List String → Read
  | [] => .ok o
  | "--" :: args => args.foldlM Options.withContents o
  | ["--date-format"] => .error .misuse
  | "--date-format" :: value :: args =>
    if isOption value then .error .misuse
    else
      match o.withPattern value with
      | .ok o => o.read args
      | .error r => .error r
  | arg :: args =>
    match o.argument arg with
    | .ok o => o.read args
    | .error r => .error r

/-- What the arguments ask for. -/
def Request.ofArguments (args : List String) : Request :=
  match Options.read {} args with
  | .error r => r
  | .ok o => if o.contents.isSome then .evaluate o else .misuse

/-- The file that has to be read for a request. -/
def Request.path? : Request → Option String
  | evaluate o => if o.fromFile then o.contents else none
  | _ => none

/-! ## Replies -/

/-- What is written and the code to end with. The log goes before the error. -/
structure Reply where
  code : Nat
  stdout : String := ""
  log : List String := []
  stderr : String := ""
deriving DecidableEq

def usage : String :=
  "Usage: quill [-f|--file] [-v|--verbose]... [--date-format <DATE_FORMAT>] <CONTENTS>\n"

/-- The reply to a source. -/
def evaluate (o : Options) (source : String) : Reply :=
  let ctx : Context Unit := { pattern := o.pattern.getD Calendar.usualPattern }
  let done := ctx.evalSource source ⟨{}, (), #[]⟩
  let log := Event.lines o.detail done.2.log.toList
  match done.1 with
  | .ok v => { code := 0, stdout := done.2.heap.text ctx.pattern v ++ "\n", log }
  | .error e => { code := 1, log, stderr := e.message ++ "\n" }

/-- The reply to a request, given the text of its file if that could be read. -/
def Request.reply (file : Option String) : Request → Reply
  | version => { code := 0, stdout := "quill 0.1.0\n" }
  | help => { code := 0, stdout := usage }
  | misuse => { code := 2, stderr := usage }
  | evaluate o =>
    let contents := o.contents.getD ""
    if o.fromFile then
      match file with
      | some source => CommandLine.evaluate o source
      | none =>
        { code := 1
          stderr := s!"Failed to read the input file '{contents}'. " ++
            "Perhaps this file does not exist?\n" }
    else CommandLine.evaluate o contents

end CommandLine

end TemplateExpr
