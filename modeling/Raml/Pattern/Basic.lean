import Raml.Text.Alphanumeric
import Raml.Text.Blank
import Raml.Text.Case
import Raml.Text.Digit

/-! # Regular expressions

The parts of a regular expression. Characters are given by their code points,
since an expression may also name codes that no text holds. Which letters agree
in case, where lines end and which characters are word characters is settled in
each part when the expression is read.
-/

namespace Raml

namespace Pattern

/-- The named classes of characters; `ascii` restricts them to ASCII. -/
inductive CharClass
  | digit (ascii : Bool)
  | space (ascii : Bool)
  | word (ascii : Bool)
deriving DecidableEq

/-- Which letters stand for each other apart from their case. -/
inductive CaseRule
  | exact
  | asciiLetters
  | allLetters
deriving DecidableEq

inductive SetItem
  | code (c : Nat)
  | range (low high : Nat)
  | inClass (cls : CharClass) (negated : Bool)

/-- The places that a part can require without taking a character. -/
inductive Place
  | start (eachLine : Bool)
  | stop (eachLine : Bool)
  | textStart
  | textStop
  | wordEdge (ascii negated : Bool)

/-- How often-repeated parts choose their number of rounds. -/
inductive Preference
  | most
  | fewest
  /-- The most, and no other number is tried afterwards. -/
  | mostOnly
deriving DecidableEq

inductive Node
  | empty
  | code (c : Nat) (rule : CaseRule)
  /-- Any character, a line feed only if `dotAll`. -/
  | any (dotAll : Bool)
  | set (negated : Bool) (items : List SetItem) (rule : CaseRule)
  | place (p : Place)
  | seq (a b : Node)
  | alt (a b : Node)
  | rounds (least : Nat) (most : Option Nat) (preference : Preference) (body : Node)
  | group (index : Nat) (body : Node)
  | back (index : Nat) (rule : CaseRule)
  | ahead (negated : Bool) (body : Node)
  /-- The text just before, of a fixed width. -/
  | behind (negated : Bool) (width : Nat) (body : Node)
  /-- The first way in which the body matches, and no other. -/
  | atomic (body : Node)
  | ifGroup (index : Nat) (yes no : Node)

def CharClass.holds (cls : CharClass) (c : Char) : Bool :=
  match cls with
  | .digit ascii => if ascii then c.isDigit else Text.isDecimalDigit c
  | .space ascii =>
      if ascii then c = ' ' || (0x09 ≤ c.toNat && c.toNat ≤ 0x0d) else Text.isBlank c
  | .word ascii => if ascii then c.isAlphanum || c = '_' else Text.isWordChar c

def SetItem.holds (item : SetItem) (c : Char) : Bool :=
  match item with
  | .code n => c.toNat == n
  | .range low high => low ≤ c.toNat && c.toNat ≤ high
  | .inClass cls negated => cls.holds c != negated

/-- The characters that a character stands for under a rule, itself among them. -/
def CaseRule.variants (rule : CaseRule) (c : Char) : List Char :=
  match rule with
  | .exact => [c]
  | .asciiLetters => [c, c.toLower, c.toUpper]
  | .allLetters => c :: Text.caseVariants c

def CaseRule.agree (rule : CaseRule) (c d : Char) : Bool :=
  match rule with
  | .exact => c == d
  | .asciiLetters => c.toLower == d.toLower
  | .allLetters => Text.lowerChar c == Text.lowerChar d

def holdsAny (items : List SetItem) (rule : CaseRule) (c : Char) : Bool :=
  (rule.variants c).any fun v => items.any (·.holds v)

def hasCode (code : Nat) (rule : CaseRule) (c : Char) : Bool :=
  (rule.variants c).any fun v => v.toNat == code

end Pattern

end Raml
