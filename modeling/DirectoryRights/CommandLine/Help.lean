import DirectoryRights.CommandLine.Command
import DirectoryRights.Text.Column

/-!
# Help

The help on the program or on a command says what it does, how it is called, and what each of its
parts is for. Every switch has a place: those of a command are counted from its start, and the
common ones, which are parts of the program, are counted after the commands. Switches stand by
their places, and of two in the same place the one with the smaller letter stands first.
-/

set_option autoImplicit false

namespace DirectoryRights.CommandLine

/-- The name of the program. -/
def programName : String := "warden"

/-- What help can be asked on. -/
inductive Topic where
  /-- The program. -/
  | program
  /-- A command. -/
  | command (c : Command)
  /-- The help itself. -/
  | help
deriving DecidableEq

/-- The topic of a level. -/
def Level.topic : Level → Topic
  | none => .program
  | some c => .command c

namespace Topic

/-- The name under which help is asked for. -/
def helpName : String := "help"

/-- The topic of a name. -/
def ofName? (name : String) : Option Topic :=
  if name = helpName then some help else (Command.ofName? name).map command

/-- What a topic is about. -/
def about : Topic → String
  | program => "Warden - directory ACL inspection and right checking"
  | command c => c.about
  | help => "Print this message or the help of the given subcommand(s)"

/-- How the program is called. -/
def usage : Topic → String
  | program => s!"{programName} [OPTIONS] <COMMAND>"
  | command c =>
    " ".intercalate ([programName, c.name, "[OPTIONS]"] ++ c.required.map Switch.form
      ++ c.operands.map fun name => s!"<{name}>")
  | help => s!"{programName} {helpName} [COMMAND]..."

/-- What switches of the same place are told apart by. -/
def sortKey (s : Switch) : String :=
  match s.letter? with
  | some letter => String.ofList [letter, '0']
  | none => s.name

/-- Whether a switch stands before another: by its place, then by its letter. -/
def stands : Switch × Nat → Switch × Nat → Bool
  | (s, i), (t, j) => i < j ∨ i = j ∧ sortKey s ≤ sortKey t

/-- The switches of a level and the common ones with their places. -/
def placed (l : Level) : List (Switch × Nat) :=
  l.own.zipIdx ++ Switch.common.zipIdx Command.all.length

/-- The switches of a level in the order of the help. -/
def switchOrder (l : Level) : List Switch :=
  ((placed l).mergeSort stands).map Prod.fst ++ [.help]

/-- A switch of a level with its letter. -/
def switchEntry (l : Level) (s : Switch) : String × String :=
  match s.letter? with
  | some letter => (String.ofList ['-', letter, ',', ' '] ++ s.form, l.describe s)
  | none => ("    " ++ s.form, l.describe s)

/-- The switches of a level and what they are for. -/
def switchEntries (l : Level) : List (String × String) :=
  (switchOrder l).map (switchEntry l)

/-- Entries with what they mean, under a heading. -/
def listing (heading : String) (entries : List (String × String)) : List String :=
  if entries = [] then []
  else
    let width := (entries.map fun entry => entry.1.length).foldl max 0
    "" :: heading :: entries.map fun (entry, meaning) =>
      "  " ++ Text.column (width + 2) entry ++ meaning

/-- The commands and what they do. -/
def commandEntries : List (String × String) :=
  Command.all.map (fun c => (c.name, c.about)) ++ [(helpName, help.about)]

/-- The parts of a call and what they are for. -/
def entries : Topic → List String
  | program =>
    listing "Commands:" commandEntries ++ listing "Options:" (switchEntries none)
  | command c =>
    listing "Arguments:" (c.operands.map fun name => (s!"<{name}>", Command.operandDescription))
      ++ listing "Options:" (switchEntries (some c))
  | help => listing "Arguments:" [("[COMMAND]...", "Print help for the subcommand(s)")]

/-- The lines of the help on a topic. -/
def lines (t : Topic) : List String :=
  [t.about, "", "Usage: " ++ t.usage] ++ t.entries

end Topic

end DirectoryRights.CommandLine
