import DirectoryRights.Error
import DirectoryRights.Text.Column
import DirectoryRights.Text.Numeral
import DirectoryRights.World.Build

/-!
# Failures

Why a job cannot be done. A failure says what was attempted and then what caused it; several causes
are numbered.
-/

set_option autoImplicit false

namespace DirectoryRights.CommandLine

/-- Why a job cannot be done. -/
inductive Failure where
  /-- A request cannot be met. -/
  | error (cause : Error)
  /-- A file of settings cannot be used. -/
  | config (path : String) (cause : Error)
  /-- There is no file of right definitions. -/
  | noRights
  /-- A file of right definitions cannot be used. -/
  | rights (path : String) (cause : Error)
  /-- A file of a world cannot be read. -/
  | worldFile (path : String) (fault : FileFault)
  /-- A file does not describe a world. -/
  | worldText (path : String) (fault : Toml.Fault)
  /-- A world cannot be built, or does not have an entry. -/
  | world (fault : WorldFault)
deriving DecidableEq

namespace Failure

/-- What a failure says, from the outermost context to the innermost cause. -/
def chain : Failure → List String
  | error cause => [cause.text]
  | config path cause => [s!"loading {path}", cause.text]
  | noRights => ["no right definitions: pass --rights or set rights_file in the config"]
  | rights path cause => [s!"loading rights from {path}", cause.text]
  | worldFile path fault => [s!"failed to read world file {path}", fault.text]
  | worldText path fault => [s!"invalid world file {path}", fault.text]
  | world fault => fault.chain

/-- Causes behind numbers. -/
def numbered (causes : List String) : List String :=
  causes.zipIdx.map fun (cause, i) =>
    Text.hanging (Text.columnEnd 5 (Text.decimal i) ++ ": ") (Text.column 7 "") cause

/-- The lines on causes. -/
def causeLines : List String → List String
  | [] => []
  | [cause] => ["", "Caused by:", Text.hanging (Text.column 4 "") (Text.column 4 "") cause]
  | causes => ["", "Caused by:"] ++ numbered causes

/-- The lines on a chain of causes. -/
def describe : List String → List String
  | [] => []
  | outermost :: causes => s!"Error: {outermost}" :: causeLines causes

/-- The text of a failure. -/
def text (f : Failure) : String :=
  "\n".intercalate (describe f.chain)

end Failure

end DirectoryRights.CommandLine
