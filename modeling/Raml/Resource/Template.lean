import Raml.Parameter.Pattern
import Raml.Text.Pieces

/-! # URI templates

A template is made of literal text and placeholders in braces; a tilde in front
marks a placeholder as optional. The pattern of a template matches the URIs that
have the literal text in its place and, for each placeholder, a text that
matches the placeholder's parameter. Placeholders without a parameter stand for
texts without slashes.
-/

namespace Raml

inductive TemplatePart
  | literal (c : Char)
  | placeholder (optional : Bool) (key : String)
deriving DecidableEq

abbrev Template := List TemplatePart

namespace Template

/-- The key between braces, whose opening one is read already, and what follows. -/
def readKey? (cs : List Char) : Option (String × List Char) :=
  match cs.dropWhile (· ≠ '\x7d') with
  | [] => none
  | _ :: rest => some (String.ofList (cs.takeWhile (· ≠ '\x7d')), rest)

def readPlaceholder? : List Char → Option (TemplatePart × List Char)
  | '~' :: '\x7b' :: rest => (readKey? rest).map fun p => (.placeholder true p.1, p.2)
  | '\x7b' :: rest => (readKey? rest).map fun p => (.placeholder false p.1, p.2)
  | _ => none

theorem length_readKey? {cs rest : List Char} {key : String} (h : readKey? cs = some (key, rest)) :
    rest.length < cs.length := by
  unfold readKey? at h
  have hle := (List.dropWhile_sublist (fun c => decide (c ≠ '\x7d')) (l := cs)).length_le
  split at h
  · cases h
  · rename_i c r heq
    simp only [Option.some.injEq, Prod.mk.injEq] at h
    obtain ⟨-, rfl⟩ := h
    rw [heq] at hle
    simp only [List.length_cons] at hle
    omega

theorem length_readPlaceholder? {cs rest : List Char} {part : TemplatePart}
    (h : readPlaceholder? cs = some (part, rest)) : rest.length < cs.length := by
  unfold readPlaceholder? at h
  split at h
  · obtain ⟨⟨key, r⟩, hk, he⟩ := Option.map_eq_some_iff.1 h
    simp only [Prod.mk.injEq] at he
    obtain ⟨-, rfl⟩ := he
    have := length_readKey? hk
    simp only [List.length_cons]
    omega
  · obtain ⟨⟨key, r⟩, hk, he⟩ := Option.map_eq_some_iff.1 h
    simp only [Prod.mk.injEq] at he
    obtain ⟨-, rfl⟩ := he
    have := length_readKey? hk
    simp only [List.length_cons]
    omega
  · cases h

/-- The parts of a text from left to right; a brace that is never closed is literal. -/
def ofChars (cs : List Char) : Template :=
  match h : readPlaceholder? cs with
  | some (part, rest) =>
      have : rest.length < cs.length := length_readPlaceholder? h
      part :: ofChars rest
  | none =>
      match cs with
      | [] => []
      | c :: rest => .literal c :: ofChars rest
termination_by cs.length

def ofUri (uri : String) : Template :=
  ofChars uri.toList

/-! ## Patterns -/

def withoutAnchors (pattern : String) : String :=
  let cs := if Text.startsIn '^' pattern then pattern.toList.drop 1 else pattern.toList
  String.ofList (if cs.getLast? = some '$' then cs.dropLast else cs)

def partPattern (parameters : Parameters) : TemplatePart → String
  | .literal c => Pattern.escape c.toString
  | .placeholder optional key =>
      match parameters.get? key with
      | some p =>
          let inner := withoutAnchors p.matchPattern
          -- the inner group keeps the alternatives of the parameter's pattern together
          if optional then "((" ++ inner ++ ")|())" else "(" ++ inner ++ ")"
      | none => if optional then "([^/]*)" else "([^/]+)"

def pattern (parameters : Parameters) (t : Template) : String :=
  "^" ++ String.join (t.map (partPattern parameters)) ++ "$"

end Template

end Raml
