import Raml.Log.Basic
import Raml.Text.Pieces

/-! # Arguments

The arguments name a command, a document and, for one command, a URI. The level
of the log stands before the command, or in the environment. A request for help
counts wherever it stands among the options.
-/

namespace Raml.CommandLine

inductive Command
  | routes
  | resource
  | types
deriving DecidableEq

namespace Command

def word : Command → String
  | .routes => "routes"
  | .resource => "resource"
  | .types => "types"

def ofWord? (word : String) : Option Command :=
  [routes, resource, types].find? fun c => c.word == word

def arity : Command → Nat
  | .resource => 2
  | .routes | .types => 1

end Command

inductive Request
  /-- The help on everything, or on a command. -/
  | help (command : Option Command)
  /-- A command with its arguments, told at a level. -/
  | run (level : Int) (command : Command) (arguments : List String)
  /-- The arguments are not well-formed. -/
  | misuse
deriving DecidableEq

def levelOf? (word : String) : Option Int :=
  let upper := String.ofList (word.toList.map Char.toUpper)
  (Log.names.find? fun n => n.2 == upper && Log.debug ≤ n.1 && n.1 ≤ Log.error).map (·.1)

/-! ## Options -/

/-- Whether an argument is an option; a dash alone is not. -/
def isOption (argument : String) : Bool :=
  Text.startsIn '-' argument && argument.length ≠ 1

def endOfOptions : String := "--"

def helpOption : String := "--help"

def levelOption : String := "--log-level"

/-- What stands before the command: whether help is asked for, and the last level. -/
structure Options where
  wantsHelp : Bool
  level : Option String

def attached? (option argument : String) : Option String :=
  let marker := (option ++ "=").toList
  if marker.isPrefixOf argument.toList then
    some (String.ofList (argument.toList.drop marker.length))
  else none

/-- The options before the command, and what follows them; none if one of them is not known or has
no value. -/
def readOptions (o : Options) : List String → Option (Options × List String)
  | [] => some (o, [])
  | argument :: rest =>
      if argument == endOfOptions then some (o, rest)
      else if !isOption argument then some (o, argument :: rest)
      else if argument == helpOption then readOptions { o with wantsHelp := true } rest
      else
        match attached? levelOption argument with
        | some level => readOptions { o with level := some level } rest
        | none =>
            if argument == levelOption then
              match rest with
              | level :: rest => readOptions { o with level := some level } rest
              | [] => none
            else none

/-- The arguments of a command, and whether help is asked for among them; none if there is an
option that is not known. -/
def readArguments (wantsHelp : Bool) : List String → Option (Bool × List String)
  | [] => some (wantsHelp, [])
  | argument :: rest =>
      if argument == endOfOptions then some (wantsHelp, rest)
      else if !isOption argument then
        (readArguments wantsHelp rest).map fun r => (r.1, argument :: r.2)
      else if argument == helpOption then readArguments true rest
      else none

/-! ## Requests -/

/-- The request of arguments that stand in the place of a command but name none. They are read as
options once more, so that a request for help after the end of the options still counts. -/
def readUnknown (arguments : List String) : Request :=
  if (readOptions ⟨false, none⟩ arguments).any fun r => r.1.wantsHelp then .help none else .misuse

def readCommand (level : Int) (word : String) (arguments : List String) : Request :=
  match Command.ofWord? word with
  | none => readUnknown (word :: arguments)
  | some command =>
      match readArguments false arguments with
      | none => .misuse
      | some (true, _) => .help (some command)
      | some (false, arguments) =>
          if arguments.length = command.arity then .run level command arguments else .misuse

/-- The level that is asked for, by an option or else by the environment, where an empty text does
not count; none if it is not one. -/
def chosenLevel? (o : Options) (environment : Option String) : Option Int :=
  match o.level, environment.filter (!·.isEmpty) with
  | some word, _ => levelOf? word
  | none, some word => levelOf? word
  | none, none => some Log.warning

def read (environment : Option String) (arguments : List String) : Request :=
  match readOptions ⟨false, none⟩ arguments with
  | none => .misuse
  | some (o, rest) =>
      if o.wantsHelp then .help none
      else
        match chosenLevel? o environment, rest with
        | some level, word :: arguments => readCommand level word arguments
        | _, _ => .misuse

end Raml.CommandLine
