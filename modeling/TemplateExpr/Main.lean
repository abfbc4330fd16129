-- The program: reads the file if one is named, and writes the reply.
import TemplateExpr.CommandLine

open TemplateExpr

/-- The text of a file, if it can be read. -/
def TemplateExpr.CommandLine.readText? (path : String) : IO (Option String) := do
  try
    return some (← IO.FS.readFile path)
  catch _ =>
    return none

def main (args : List String) : IO UInt32 := do
  let request := CommandLine.Request.ofArguments args
  let file ← match request.path? with
    | some path => CommandLine.readText? path
    | none => pure none
  let reply := request.reply file
  reply.log.forM fun line => IO.eprintln line
  IO.eprint reply.stderr
  IO.print reply.stdout
  return UInt32.ofNat reply.code
