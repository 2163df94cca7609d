import DirectoryRights.File
import DirectoryRights.Table

/-!
# Folders in memory

A folder holds the texts of files under their paths. A path is walked part by part: a part steps
into a folder, `.` and an empty part stay in it, `..` leaves it again, and nothing can be stepped
into but a folder. A path that starts with a slash starts at the root, above which there is nothing;
any other starts in the folder itself, above which there are more folders whose files are not known.
-/

set_option autoImplicit false

namespace DirectoryRights

/-- Files by the parts of their paths. -/
structure Folder where
  /-- The texts of the files by the parts of their paths. -/
  files : Table (List String) String

namespace Folder

/-- Where a walk begins: the root stands for the parts of a path before its first slash. -/
def root : List String := ["/"]

/-- The text of the file at a place. -/
def text? (f : Folder) (place : List String) : Option String :=
  f.files.get? place

/-- Whether a place is the folder itself or above it. -/
def isAbove (place : List String) : Bool :=
  place.all (· = "..")

/-- Whether a place is a folder: one in which a walk begins, one above it, or one on the way to a
file. -/
def isFolder (f : Folder) (place : List String) : Bool :=
  place = root ∨ isAbove place
    ∨ f.files.rows.any fun file => place.isPrefixOf file.1 ∧ place ≠ file.1

/-- The folder around a place. -/
def outer (place : List String) : List String :=
  if place = root then root
  else if isAbove place then place ++ [".."]
  else place.dropLast

/-- Where a part of a path leads to. -/
def advance (here : List String) (part : String) : List String :=
  if part = "" ∨ part = "." then here
  else if part = ".." then outer here
  else here ++ [part]

/-- Where the walk along a path begins. -/
def start (path : String) : List String :=
  if path.toList.head? = some '/' then root else []

/-- The most bytes that a part of a path can have. -/
def longestPart : Nat := 255

/-- The most bytes that a path can have. -/
def longestPath : Nat := 4095

/-- One step of a walk. -/
def step (f : Folder) (here : List String) (part : String) : Except FileFault (List String) :=
  let there := advance here part
  if ¬ f.isFolder here then .error .notFolder
  else if longestPart < part.utf8ByteSize then .error .nameTooLong
  else if (f.text? there).isSome ∨ f.isFolder there then .ok there
  else .error .missing

/-- The place that a path leads to. -/
def walk (f : Folder) (path : String) : Except FileFault (List String) :=
  (Text.parts '/' path).foldlM f.step (start path)

/-- The text of a file. -/
def read (f : Folder) (path : String) : Except FileFault String :=
  if path = "" then .error .missing
  else if Text.mentions '\x00' path then .error .badName
  else if longestPath < path.utf8ByteSize then .error .nameTooLong
  else
    (f.walk path).bind fun place =>
      match f.text? place with
      | some text => .ok text
      | none => .error .isFolder

/-- The place of a file under a path. -/
def place (path : String) : List String :=
  (Text.parts '/' path).foldl advance (start path)

/-- The folder with a file under a path, in place of the one that is there. -/
def write (f : Folder) (path text : String) : Folder :=
  ⟨f.files.insert (place path) text⟩

/-- The folder in which files are written one after the other. -/
def ofList (files : List (String × String)) : Folder :=
  files.foldl (fun f (path, text) => f.write path text) ⟨.empty⟩

end Folder

end DirectoryRights
