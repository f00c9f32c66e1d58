import Raml.Fault
import Raml.Uri.Address

/-! # Schemes of URIs

The scheme is what stands before the first colon, if that starts with a letter
and goes on with letters, digits, `+`, `-` and `.`. Reading it also looks at the
authority, which must have matching brackets around an address and no character
that a compatibility form turns into a delimiter.
-/

namespace Raml.Uri

def isControl (c : Char) : Bool :=
  c.toNat ≤ 0x20

/-- The characters that a URI is read without, wherever they stand. -/
def isSkipped (c : Char) : Bool :=
  c = '\t' || c = '\r' || c = '\n'

def cleaned (cs : List Char) : List Char :=
  (cs.dropWhile isControl).filter (!isSkipped ·)

def isScheme (cs : List Char) : Bool :=
  (cs.head?.any Char.isAlpha) &&
    cs.all fun c => c.isAlphanum || c = '+' || c = '-' || c = '.'

/-- The scheme in lower case and what follows it; the scheme is empty when there is none. -/
def splitScheme (cs : List Char) : List Char × List Char :=
  let candidate := cs.takeWhile (· ≠ ':')
  match cs.dropWhile (· ≠ ':') with
  | _ :: rest => if isScheme candidate then (candidate.map Char.toLower, rest) else ([], cs)
  | [] => ([], cs)

def authority (cs : List Char) : List Char :=
  match cs with
  | '/' :: '/' :: rest => rest.takeWhile fun c => !(c = '/' || c = '?' || c = '#')
  | _ => []

/-- The characters whose compatibility form holds one of `/`, `?`, `#`, `@` and `:`. -/
def disguised : List Nat := [
  0x2047, 0x2048, 0x2049, 0x2100, 0x2101, 0x2105, 0x2106, 0x2a74, 0xfe13, 0xfe16, 0xfe55, 0xfe56,
  0xfe5f, 0xfe6b, 0xff03, 0xff0f, 0xff1a, 0xff1f, 0xff20]

def bracketed (cs : List Char) : List Char :=
  ((cs.dropWhile (· ≠ '[')).drop 1).takeWhile (· ≠ ']')

def isAuthority (cs : List Char) : Bool :=
  (if cs.contains '[' && cs.contains ']' then isBracketed (bracketed cs)
    else !(cs.contains '[' || cs.contains ']')) &&
  cs.all fun c => !disguised.contains c.toNat

/-- The scheme of a URI in lower case, empty when there is none. -/
def scheme (uri : String) : Except Fault String :=
  let (scheme, rest) := splitScheme (cleaned uri.toList)
  if isAuthority (authority rest) then .ok (String.ofList scheme) else .error .badValue

end Raml.Uri
