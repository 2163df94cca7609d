import DirectoryRights.Text.Split

/-!
# Reading files

Why a file cannot be read, and how a file is named: the part of a name after its last dot says what
the file holds, unless the dot begins the name.
-/

set_option autoImplicit false

namespace DirectoryRights

/-- Why the text of a file cannot be had. -/
inductive FileFault where
  /-- There is no such file. -/
  | missing
  /-- The name is that of a folder. -/
  | isFolder
  /-- The name leads through a file as if it were a folder. -/
  | notFolder
  /-- The name has a character that no name can have. -/
  | badName
  /-- The name is longer than the system allows. -/
  | nameTooLong
  /-- The bytes of the file are not text. -/
  | notText
  /-- The system refused for another reason. -/
  | refused (reason : String)
deriving DecidableEq

/-- The wording of a file fault. -/
def FileFault.text : FileFault → String
  | missing => "No such file or directory (os error 2)"
  | isFolder => "Is a directory (os error 21)"
  | notFolder => "Not a directory (os error 20)"
  | badName => "file name contained an unexpected NUL byte"
  | nameTooLong => "File name too long (os error 36)"
  | notText => "stream did not contain valid UTF-8"
  | refused reason => reason

/-- Whether there is nothing under a name at all, so that it may as well not have been given. -/
def FileFault.isAbsence : FileFault → Bool
  | missing | notFolder | badName | nameTooLong => true
  | isFolder | notText | refused _ => false

/-- The last part of a path that names something; a step upwards does not. -/
def fileName? (path : String) : Option String :=
  (((Text.parts '/' path).filter fun part => part ≠ "" ∧ part ≠ ".").getLast?).filter (· ≠ "..")

/-- What stands after the last dot of the name of a file. -/
def fileExtension? (path : String) : Option String :=
  (fileName? path).bind fun name =>
    match Text.cutLast? '.' name.toList with
    | none | some ([], _) => none
    | some (_, after) => some (String.ofList after)

end DirectoryRights
