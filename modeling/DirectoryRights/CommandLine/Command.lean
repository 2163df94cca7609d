import DirectoryRights.CommandLine.Switch

/-!
# Commands

What the program can be asked to do, with the switches of each command. Some switches have to be
given, some exclude each other, and some are of use only with another.
-/

set_option autoImplicit false

namespace DirectoryRights.CommandLine

/-- What the program can be asked to do. -/
inductive Command where
  /-- List the rights. -/
  | rights
  /-- Read a stored grant. -/
  | parseAce
  /-- Show the grants of an entry. -/
  | acl
  /-- Check a right. -/
  | check
deriving DecidableEq

namespace Command

/-- Every command, in the order of the help. -/
def all : List Command :=
  [rights, parseAce, acl, check]

/-- The name of a command. -/
def name : Command → String
  | rights => "rights"
  | parseAce => "parse-ace"
  | acl => "acl"
  | check => "check"

/-- The command of a name. -/
def ofName? (name : String) : Option Command :=
  all.find? (·.name = name)

/-- What a command does. -/
def about : Command → String
  | rights => "List the rights of the catalog"
  | parseAce => "Decode and validate one ACE line"
  | acl => "Show the grants stored on an entry of a world"
  | check => "Check whether a grantee holds a right on a target"

/-- The switches of a command alone. -/
def own : Command → List Switch
  | rights => [.user]
  | parseAce => []
  | acl => [.world, .target]
  | check =>
    [.world, .grantee, .guest, .password, .target, .right, .delegate, .via, .json]

/-- The switches that a command cannot do without. -/
def required : Command → List Switch
  | rights | parseAce => []
  | acl => [.world, .target]
  | check => [.world, .target, .right]

/-- The names of what a command takes without a switch. -/
def operands : Command → List String
  | parseAce => ["ACE"]
  | rights | acl | check => []

/-- What the operand of a command is. -/
def operandDescription : String :=
  "ACE in wire form, e.g. `<id> usr -sendAs`"

end Command

/-- Where switches stand: before the name of a command or after it. -/
abbrev Level := Option Command

namespace Level

/-- The switches of a level alone. -/
def own : Level → List Switch
  | none => []
  | some c => c.own

/-- The switches that may be given at a level. -/
def switches (l : Level) : List Switch :=
  l.own ++ Switch.common ++ [.help]

/-- The switch of a name. -/
def named? (l : Level) (name : List Char) : Option Switch :=
  l.switches.find? fun s => s.name.toList = name

/-- The switch of a letter. -/
def lettered? (l : Level) (letter : Char) : Option Switch :=
  l.switches.find? fun s => s.letter? = some letter

/-- What a switch is for at a level: a check tells its target from its grantee. -/
def describe : Level → Switch → String
  | some .check, .target => "Target entry name, id or `globalgrant`"
  | _, s => s.description

/-- How many operands a level takes. -/
def capacity : Level → Nat
  | none => 0
  | some c => c.operands.length

end Level

end DirectoryRights.CommandLine
