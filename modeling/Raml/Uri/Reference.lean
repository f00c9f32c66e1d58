import Raml.Text.Pieces
import Raml.Uri.Scheme

/-! # References relative to a URI

A reference is joined to a base: the parts that it leaves out are those of the
base, and its path goes on from the last slash of the base's path, with `.` and
`..` followed. Authorities are taken as they are.
-/

namespace Raml.Uri

/-- The parts of a URI between its delimiters; a part that is not there is empty. -/
structure Parts where
  scheme : List Char
  authority : List Char
  path : List Char
  query : List Char
  fragment : List Char

/-- The schemes that references are relative to; without a scheme they are, too. -/
def relativeSchemes : List String :=
  ["", "ftp", "http", "gopher", "nntp", "imap", "wais", "file", "https", "shttp", "mms",
    "prospero", "rtsp", "rtsps", "rtspu", "sftp", "svn", "svn+ssh", "ws", "wss"]

/-- The schemes with an authority that references are not relative to. -/
def absoluteSchemes : List String :=
  ["telnet", "snews", "rsync", "nfs", "git", "git+ssh"]

/-- The text before a separator, and the text behind it, empty where there is none. -/
def cutAt (sep : Char) (cs : List Char) : List Char × List Char :=
  (cs.takeWhile (· ≠ sep), (cs.dropWhile (· ≠ sep)).drop 1)

/-- The parts of a URI, which has the scheme `outer` if it does not name one. -/
def split (outer cs : List Char) : Parts :=
  let (scheme, rest) := splitScheme (cleaned cs)
  let owner := authority rest
  let rest := if "//".toList.isPrefixOf rest then rest.drop (owner.length + 2) else rest
  let (rest, fragment) := cutAt '#' rest
  let (path, query) := cutAt '?' rest
  ⟨if scheme.isEmpty then outer else scheme, owner, path, query, fragment⟩

namespace Parts

def isRelative (p : Parts) : Bool :=
  relativeSchemes.contains (String.ofList p.scheme)

def mayHaveAuthority (p : Parts) : Bool :=
  p.isRelative || absoluteSchemes.contains (String.ofList p.scheme)

def text (p : Parts) : List Char :=
  let isMarked := !p.authority.isEmpty || !p.scheme.isEmpty && p.mayHaveAuthority ||
    "//".toList.isPrefixOf p.path
  let path :=
    if isMarked then
      let path := if p.path.isEmpty || p.path.head? = some '/' then p.path else '/' :: p.path
      "//".toList ++ p.authority ++ path
    else p.path
  (if p.scheme.isEmpty then [] else p.scheme ++ [':']) ++ path ++
    (if p.query.isEmpty then [] else '?' :: p.query) ++
    (if p.fragment.isEmpty then [] else '#' :: p.fragment)

end Parts

/-! ## Paths -/

/-- The segments of a path with `.` and `..` followed; `before` are those in front, the last one
first. -/
def followDots (before : List (List Char)) : List (List Char) → List (List Char)
  | [] => before.reverse
  | ['.', '.'] :: rest => followDots before.tail rest
  | ['.'] :: rest => followDots before rest
  | segment :: rest => followDots (segment :: before) rest

/-- The segments with the empty ones left out, the first and the last apart. -/
def withoutGaps (segments : List (List Char)) : List (List Char) :=
  match segments with
  | [] => []
  | first :: rest => first :: (rest.dropLast.filter (!·.isEmpty) ++ rest.getLast?.toList)

def joinPath (base path : List Char) : List Char :=
  let segments := Text.splitChars '/' path
  let segments :=
    if path.head? = some '/' then segments
    else
      let outer := Text.splitChars '/' base
      withoutGaps ((if outer.getLast? = some [] then outer else outer.dropLast) ++ segments)
  let last := segments.getLast?.getD []
  let followed := followDots [] segments ++ (if last = ['.'] || last = ['.', '.'] then [[]] else [])
  let joined := ['/'].intercalate followed
  if joined.isEmpty then ['/'] else joined

/-! ## Joining -/

def join (base ref : List Char) : List Char :=
  if base.isEmpty then ref
  else if ref.isEmpty then base
  else
    let b := split [] base
    let r := split b.scheme ref
    if r.scheme ≠ b.scheme || !r.isRelative then ref
    else if !r.authority.isEmpty then r.text
    else if r.path.isEmpty then
      { r with
        authority := b.authority
        path := b.path
        query := if r.query.isEmpty then b.query else r.query }.text
    else { r with authority := b.authority, path := joinPath b.path r.path }.text

def defragment (cs : List Char) : List Char × List Char :=
  if cs.contains '#' then
    let parts := split [] cs
    ({ parts with fragment := [] }.text, parts.fragment)
  else (cs, [])

/-! ## Percent signs -/

/-- A byte that is written as a percent sign with two digits, and what follows. -/
def readByte : List Char → Option (UInt8 × List Char)
  | '%' :: a :: b :: rest => do
      let high ← Text.hexValue? a
      let low ← Text.hexValue? b
      some (.ofNat (high * 16 + low), rest)
  | _ => none

/-- The bytes that a text starts with, each written with a percent sign, and what follows. -/
def readBytes : Nat → List Char → List UInt8 × List Char
  | 0, cs => ([], cs)
  | fuel + 1, cs =>
      match readByte cs with
      | some (byte, rest) =>
          let (bytes, rest) := readBytes fuel rest
          (byte :: bytes, rest)
      | none => ([], cs)

/-- The text that bytes encode, or a sign of replacement for each byte. -/
def decoded (bytes : List UInt8) : List Char :=
  match String.fromUTF8? ⟨bytes.toArray⟩ with
  | some s => s.toList
  | none => bytes.map fun _ => '\uFFFD'

/-- A text with the characters in place of the percent signs that stand for them. -/
def unquoted : Nat → List Char → List Char
  | 0, cs => cs
  | fuel + 1, cs =>
      match readBytes cs.length cs with
      | ([], c :: rest) => c :: unquoted fuel rest
      | ([], []) => []
      | (bytes, rest) => decoded bytes ++ unquoted fuel rest

end Raml.Uri
