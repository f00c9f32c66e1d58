import Raml.Text.Digit
import Raml.Text.Pieces

/-! # Addresses in brackets

The host of a URI may be an address of the sixth version between brackets:
eight groups of hexadecimal digits with colons between them, where two colons
stand for a run of zero groups, at most once. The last two groups may be
written as an address of the fourth version. An address of a later version
starts with `v`.
-/

namespace Raml.Uri

/-- A number below 256 without leading zeros. -/
def isOctet (cs : List Char) : Bool :=
  match cs with
  | [] => false
  | ['0'] => true
  | '0' :: _ => false
  | cs => cs.all Char.isDigit && cs.length ≤ 3 && Nat.ofDigitChars 10 cs 0 ≤ 255

def isFourth (cs : List Char) : Bool :=
  let octets := Text.splitChars '.' cs
  octets.length == 4 && octets.all isOctet

def isGroup (cs : List Char) : Bool :=
  !cs.isEmpty && cs.length ≤ 4 && cs.all Text.isHexDigit

def cutAtGap : List Char → Option (List Char × List Char)
  | [] => none
  | ':' :: ':' :: rest => some ([], rest)
  | c :: rest => (cutAtGap rest).map fun sides => (c :: sides.1, sides.2)

/-- The groups between colons; an empty text has none. -/
def groups (cs : List Char) : List (List Char) :=
  if cs.isEmpty then [] else Text.splitChars ':' cs

/-- The groups at the end of an address, an address of the fourth version being two zero ones. -/
def lastGroups (cs : List Char) : List (List Char) :=
  let all := groups cs
  if isFourth (all.getLast?.getD []) then all.dropLast ++ [['0'], ['0']] else all

/-- Whether the text is an address of the sixth version without a zone. -/
def isUnzoned (cs : List Char) : Bool :=
  match cutAtGap cs with
  | some (before, after) =>
      let all := groups before ++ lastGroups after
      all.length ≤ 7 && all.all isGroup
  | none =>
      let all := lastGroups cs
      all.length == 8 && all.all isGroup

/-- Whether the text is an address of the sixth version. A zone may follow a percent sign. -/
def isSixth (cs : List Char) : Bool :=
  isUnzoned (cs.takeWhile (· ≠ '%')) &&
    match cs.dropWhile (· ≠ '%') with
    | [] => true
    | _ :: zone => !zone.isEmpty && !zone.contains '%'

/-- Whether what follows a `v` makes an address of a later version: hexadecimal digits, a point and
something after it. -/
def isLater (cs : List Char) : Bool :=
  let version := cs.takeWhile Text.isHexDigit
  match cs.dropWhile Text.isHexDigit with
  | '.' :: _ :: _ => !version.isEmpty
  | _ => false

def isBracketed (cs : List Char) : Bool :=
  match cs with
  | 'v' :: rest => isLater rest
  | cs => isSixth cs

end Raml.Uri
