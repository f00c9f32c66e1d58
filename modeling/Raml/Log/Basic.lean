/-! # Log lines

A record has a logger, a level and a text. Records below a threshold go to the
standard output and all others to the standard error, those below the level of
the log to neither. How a record is written is a format with places for its
parts.
-/

namespace Raml.Log

/-! ## Levels -/

def debug : Int := 10

def info : Int := 20

def warning : Int := 30

def error : Int := 40

def names : List (Int × String) := [
  (50, "CRITICAL"), (error, "ERROR"), (warning, "WARNING"), (info, "INFO"), (debug, "DEBUG"),
  (0, "NOTSET")]

def levelName (level : Int) : String :=
  match names.find? (·.1 == level) with
  | some (_, name) => name
  | none => "Level " ++ toString level

/-! ## Records -/

structure Record where
  logger : String
  level : Int
  text : String

/-- The name of the logger that all others are below of. -/
def rootName : String := "root"

/-- A record of a logger; the one without a name is the root. -/
def Record.of (logger : String) (level : Int) (text : String) : Record :=
  ⟨if logger.isEmpty then rootName else logger, level, text⟩

/-! ## Formats -/

inductive Part
  | char (c : Char)
  | logger
  | level
  | text
deriving DecidableEq

abbrev Format := List Part

namespace Format

def places : List (String × Part) :=
  [("%(name)s", .logger), ("%(levelname)s", .level), ("%(message)s", .text), ("%%", .char '%')]

def place? (cs : List Char) : Option (Nat × Part) :=
  (places.find? fun p => p.1.toList.isPrefixOf cs).map fun p => (p.1.length, p.2)

/-- The format of a text; the first characters are those of a place that is read already. -/
def ofChars : Nat → List Char → Format
  | _, [] => []
  | skipped + 1, _ :: rest => ofChars skipped rest
  | 0, c :: rest =>
      match place? (c :: rest) with
      | some (length, part) => part :: ofChars (length - 1) rest
      | none => .char c :: ofChars 0 rest

def ofText (s : String) : Format :=
  ofChars 0 s.toList

def standard : Format :=
  ofText "%(name)s - %(levelname)s - %(message)s"

def Part.write (r : Record) : Part → String
  | .char c => c.toString
  | .logger => r.logger
  | .level => levelName r.level
  | .text => r.text

def write (f : Format) (r : Record) : String :=
  String.join (f.map (Part.write r)) ++ "\n"

end Format

/-! ## Streams -/

inductive Stream
  | output
  | error
deriving DecidableEq

structure Handler where
  stream : Stream
  least : Int
  greatest : Option Int

def Handler.takes (h : Handler) (r : Record) : Bool :=
  h.least ≤ r.level && h.greatest.all (r.level ≤ ·)

/-- A log: its level, the first level that goes to the standard error, and its format. -/
structure Config where
  level : Int
  threshold : Int
  format : Format

namespace Config

/-- The usual log tells what may be wrong on the standard error. -/
def standard : Config := ⟨warning, warning, Format.standard⟩

/-- The handlers of a log. No threshold is below the level of the least that is told. -/
def handlers (c : Config) : List Handler :=
  let threshold := max debug c.threshold
  [⟨.output, debug, some (threshold - 1)⟩, ⟨.error, threshold, none⟩]

/-- Whether a record is told at all; levels up to zero are not. -/
def isTold (c : Config) (r : Record) : Bool :=
  0 < r.level && c.level ≤ r.level

def linesOf (c : Config) (stream : Stream) (r : Record) : List String :=
  if c.isTold r then
    (c.handlers.filter fun h => h.stream = stream && h.takes r).map fun _ => c.format.write r
  else []

def write (c : Config) (stream : Stream) (rs : List Record) : String :=
  String.join (rs.flatMap (c.linesOf stream))

end Config

end Raml.Log
