import Raml.Api.Document
import Raml.Api.Query
import Raml.CommandLine.Help
import Raml.Log.Events

/-! # Runs of commands

A run reads a document and prints what its command is about. A document that is
at fault, or a URI that no resource has, ends the run with a message; a fault
that no message is made for ends it without one.
-/

namespace Raml.CommandLine

inductive Content
  | missing
  | directory
  | file (bytes : List UInt8)

structure Report where
  exit : Nat
  output : String
  error : String
  /-- The fault that ended the run without a message. -/
  fault : Option Fault

def linesText (lines : List String) : String :=
  String.join (lines.map (· ++ "\n"))

/-! ## Documents -/

def withLineFeeds : List Char → List Char
  | [] => []
  | '\r' :: '\n' :: rest => '\n' :: withLineFeeds rest
  | '\r' :: rest => '\n' :: withLineFeeds rest
  | c :: rest => c :: withLineFeeds rest

/-- A path without what does not lead anywhere. -/
def shownPath (path : String) : String :=
  let steps := (Text.splitAt '/' path).filter fun step => !(step.isEmpty || step == ".")
  let joined := Text.joined "/" steps
  if Text.startsIn '/' path then
    (if path.toList.takeWhile (· = '/') == ['/', '/'] then "//" else "/") ++ joined
  else if joined.isEmpty then "."
  else joined

def textOf : Content → Except Fault String
  | .file bytes =>
      match Field.decodeUtf8? bytes with
      | some s => .ok (String.ofList (withLineFeeds s.toList))
      | none => .error .undecodable
  | .directory => .error .directory
  | .missing => .error .missingKey

def load (path : String) (content : Content) : Traced Api := do
  let text ← (textOf content : Except Fault String)
  let a ← Api.ofText text
  let routes ← (a.routes : Except Fault (Table String Route))
  Traced.emit (.loaded (shownPath path) a.title routes.length)
  return a

/-! ## Commands -/

def typeLine (name : String) (t : DataType) : String :=
  let parent := t.parent.getD ""
  name ++ ": " ++ t.kind.text ++
    if parent.isEmpty then "" else " (extends " ++ parent ++ ")"

def resourceLines (r : Resource) : List String :=
  (r.uri ++ " (" ++ r.displayName ++ ")") :: r.methods.keys.map ("  " ++ ·)

def Command.lines (a : Api) (arguments : List String) : Command → Except Fault (List String)
  | .routes => a.routes.map Table.keys
  | .types => .ok (a.types.map fun e => typeLine e.1 e.2)
  | .resource => (a.resourceByUri ((arguments[1]?).getD "")).map resourceLines

/-! ## Reports -/

/-- The exit of a run whose arguments are not well-formed. -/
def misuse : Report := ⟨2, "", "", none⟩

/-- The report of a run that told some events and then had a message for an error. -/
def failed (output message : String) : Report :=
  ⟨1, output, "Error: " ++ message ++ "\n", none⟩

def runCommand (level : Int) (c : Command) (path : String) (arguments : List String)
    (content : Content) : Report :=
  let loaded := load path content
  let records := loaded.events.map Event.record
  let log := { Log.Config.standard with level }
  let told := log.write .output records
  match loaded.outcome with
  | .error f =>
      if f.isDocumented then failed told (shownPath path ++ ": " ++ f.message)
      else ⟨1, told, "", some f⟩
  | .ok a =>
      match c.lines a arguments with
      | .ok lines => ⟨0, told ++ linesText lines, log.write .error records, none⟩
      | .error f => if f.isNotFound then failed told f.message else ⟨1, told, "", some f⟩

/-- The report of a request; `contentOf` is what paths lead to. -/
def run (contentOf : String → Content) : Request → Report
  | .misuse => misuse
  | .help command => ⟨0, linesText (help command), "", none⟩
  | .run level c arguments =>
      let path := (arguments[0]?).getD ""
      match contentOf path with
      | .missing => misuse
      | content => runCommand level c path arguments content

end Raml.CommandLine
