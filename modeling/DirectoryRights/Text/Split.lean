/-!
# Cutting text at a character

Texts are cut as lists of characters. `splitOn` keeps every part, empty ones included; `cutFirst?`
and `cutLast?` cut once, at the first or the last occurrence, and find nothing to cut exactly when
the character is absent.
-/

set_option autoImplicit false

namespace DirectoryRights.Text

/-- The parts between the occurrences of `sep`, empty parts included. -/
def splitOn (sep : Char) : List Char → List (List Char)
  | [] => [[]]
  | c :: rest =>
    if c = sep then
      [] :: splitOn sep rest
    else
      match splitOn sep rest with
      | [] => [[c]]
      | part :: parts => (c :: part) :: parts

/-- What stands before and after the first occurrence of `sep`. -/
def cutFirst? (sep : Char) : List Char → Option (List Char × List Char)
  | [] => none
  | c :: rest =>
    if c = sep then some ([], rest)
    else (cutFirst? sep rest).map fun (before, after) => (c :: before, after)

/-- What stands before and after the last occurrence of `sep`. -/
def cutLast? (sep : Char) : List Char → Option (List Char × List Char)
  | [] => none
  | c :: rest =>
    match cutLast? sep rest with
    | some (before, after) => some (c :: before, after)
    | none => if c = sep then some ([], rest) else none

/-- The parts of a text between the occurrences of `sep`. -/
def parts (sep : Char) (text : String) : List String :=
  (splitOn sep text.toList).map String.ofList

/-- What stands after the last occurrence of `sep` in a text. -/
def afterLast? (sep : Char) (text : String) : Option String :=
  (cutLast? sep text.toList).map fun (_, after) => String.ofList after

/-- What stands after the first occurrence of `sep` in a text. -/
def afterFirst? (sep : Char) (text : String) : Option String :=
  (cutFirst? sep text.toList).map fun (_, after) => String.ofList after

/-- Whether `c` occurs in a text. -/
def mentions (c : Char) (text : String) : Bool :=
  text.toList.contains c

/-- The text after a given beginning, if it begins so. -/
def dropBeginning? (beginning text : String) : Option String :=
  if beginning.toList.isPrefixOf text.toList then
    some (String.ofList (text.toList.drop beginning.toList.length))
  else
    none

end DirectoryRights.Text
