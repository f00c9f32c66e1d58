import Raml.CommandLine.Arguments

/-! # Help

What is printed for those who ask how to use the commands.
-/

namespace Raml.CommandLine

def Command.purpose : Command → String
  | .routes => "List every route as VERB /path."
  | .resource => "Show the resource a concrete URI resolves to."
  | .types => "List the declared types and their kinds."

def Command.argumentNames : Command → String
  | .resource => "DOC_PATH URI"
  | .routes | .types => "DOC_PATH"

def Command.help (c : Command) : List String := [
  "Usage: main " ++ c.word ++ " [OPTIONS] " ++ c.argumentNames,
  "",
  "  " ++ c.purpose,
  "",
  "Options:",
  "  --help  Show this message and exit."]

def Command.line (c : Command) : String :=
  let gap := String.ofList (List.replicate (10 - c.word.length) ' ')
  "  " ++ c.word ++ gap ++ c.purpose

def secondColumn (before text : String) : String :=
  before ++ String.ofList (List.replicate (34 - before.length) ' ') ++ text

def overview : List String :=
  ["Usage: main [OPTIONS] COMMAND [ARGS]...",
    "",
    "  raml-parser: inspect RAML API definitions.",
    "",
    "Options:",
    "  --log-level [debug|info|warning|error]",
    secondColumn "" "Logging verbosity.",
    secondColumn "  --help" "Show this message and exit.",
    "",
    "Commands:"] ++
  [Command.resource, Command.routes, Command.types].map Command.line

def help (command : Option Command) : List String :=
  match command with
  | some c => c.help
  | none => overview

end Raml.CommandLine
