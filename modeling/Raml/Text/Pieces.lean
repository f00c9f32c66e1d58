/-! # Pieces of a text

Cutting a text at separators, at a suffix and at its first or last occurrence
of a marker. The functions on lists of characters carry the rules; those on
texts only convert.
-/

namespace Raml.Text

/-! ## Separators -/

/-- The stretches between the occurrences of a separator, at least one. -/
def splitChars (sep : Char) : List Char → List (List Char)
  | [] => [[]]
  | c :: rest =>
      if c = sep then [] :: splitChars sep rest
      else
        match splitChars sep rest with
        | [] => [[c]]
        | piece :: pieces => (c :: piece) :: pieces

def splitAt (sep : Char) (s : String) : List String :=
  (splitChars sep s.toList).map String.ofList

/-- The part of a text before the first occurrence of a separator, all of it if there is none. -/
def before (sep : Char) (s : String) : String :=
  String.ofList (s.toList.takeWhile (· ≠ sep))

theorem splitChars_ne_nil (sep : Char) (cs : List Char) : splitChars sep cs ≠ [] := by
  cases cs with
  | nil => simp [splitChars]
  | cons c rest =>
      simp only [splitChars]
      split
      · simp
      · split <;> simp

/-! ## Suffixes and markers -/

def removeSuffix (c : Char) (s : String) : String :=
  if s.toList.getLast? = some c then String.ofList s.toList.dropLast else s

def endsIn (c : Char) (s : String) : Bool :=
  s.toList.getLast? = some c

def startsIn (c : Char) (s : String) : Bool :=
  s.toList.head? = some c

/-- What stands before the last occurrence of a marker, if it occurs. -/
def beforeLast? (marker : List Char) : List Char → Option (List Char)
  | [] => if marker.isEmpty then some [] else none
  | c :: rest =>
      match beforeLast? marker rest with
      | some found => some (c :: found)
      | none => if marker.isPrefixOf (c :: rest) then some [] else none

/-- Every occurrence of a marker, from left to right, replaced by a text. -/
def replaceChars (marker new : List Char) (cs : List Char) : List Char :=
  match cs with
  | [] => []
  | c :: rest =>
      if marker ≠ [] ∧ marker.isPrefixOf (c :: rest) then
        new ++ replaceChars marker new (rest.drop (marker.length - 1))
      else c :: replaceChars marker new rest
termination_by cs.length

def replaceAll (marker new s : String) : String :=
  String.ofList (replaceChars marker.toList new.toList s.toList)

def occursIn (marker : List Char) : List Char → Bool
  | [] => marker.isEmpty
  | c :: rest => marker.isPrefixOf (c :: rest) || occursIn marker rest

def joined (sep : String) (parts : List String) : String :=
  sep.intercalate parts

end Raml.Text
