import Raml.CommandLine.Run

/-! # Program

Reads the document that the arguments name, and prints the report of the run.
-/

namespace Raml.CommandLine

def levelVariable : String := "RAML_PARSER_LOG_LEVEL"

def contentAt (path : String) : IO Content := do
  try
    let bytes ← IO.FS.readBinFile path
    return .file bytes.toList
  catch
    | .inappropriateType .. => return .directory
    | _ => return .missing

def Request.path (r : Request) : String :=
  match r with
  | .run _ _ (path :: _) => path
  | _ => ""

/-- What is printed about a run that ended without a message of its own. -/
def unexplained (r : Report) : String :=
  if r.fault.isSome then "Error: the document has contents of an unexpected kind\n" else ""

end Raml.CommandLine

open Raml.CommandLine in
def main (arguments : List String) : IO UInt32 := do
  let request := read (← IO.getEnv levelVariable) arguments
  let content ← contentAt request.path
  let report := run (fun _ => content) request
  IO.print report.output
  IO.eprint (report.error ++ unexplained report)
  return UInt32.ofNat report.exit
