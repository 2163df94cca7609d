/-!
# Switches of the command line

A switch is given by its name behind two dashes or by its letter behind one, and some switches take
a value.
-/

set_option autoImplicit false

namespace DirectoryRights.CommandLine

/-- What is given by name on a command line. -/
inductive Switch where
  /-- More messages about the work. -/
  | verbose
  /-- The file of settings. -/
  | config
  /-- The file of right definitions. -/
  | rights
  /-- User rights alone. -/
  | user
  /-- The file of the world. -/
  | world
  /-- The entry on which grants are stored or a right is checked. -/
  | target
  /-- The entry that asks. -/
  | grantee
  /-- The address of a guest who asks. -/
  | guest
  /-- The password of the guest. -/
  | password
  /-- The right that is checked. -/
  | right
  /-- Whether the right is to be passed on. -/
  | delegate
  /-- Whether the deciding grant is wanted. -/
  | via
  /-- Whether the answer is to be a document. -/
  | json
  /-- The help. -/
  | help
deriving DecidableEq

namespace Switch

/-- The switches that may stand before and after the name of a command. -/
def common : List Switch :=
  [verbose, config, rights]

/-- The name of a switch. -/
def name : Switch → String
  | verbose => "verbose"
  | config => "config"
  | rights => "rights"
  | user => "user"
  | world => "world"
  | target => "target"
  | grantee => "grantee"
  | guest => "guest"
  | password => "password"
  | right => "right"
  | delegate => "delegate"
  | via => "via"
  | json => "json"
  | help => "help"

/-- The letter of a switch. -/
def letter? : Switch → Option Char
  | verbose => some 'v'
  | config => some 'c'
  | rights => some 'r'
  | world => some 'w'
  | target => some 't'
  | grantee => some 'g'
  | help => some 'h'
  | user | guest | password | right | delegate | via | json => none

/-- Whether a switch takes a value. -/
def takesValue : Switch → Bool
  | config | rights | world | target | grantee | guest | password | right => true
  | verbose | user | delegate | via | json | help => false

/-- Whether the value of a switch is a path, which cannot be empty. -/
def takesPath : Switch → Bool
  | config | rights | world => true
  | verbose | user | target | grantee | guest | password | right | delegate | via | json | help =>
    false

/-- The file of settings where none is named. -/
def standardConfig : String := "warden.toml"

/-- What a switch is for. -/
def description : Switch → String
  | verbose => "Enable verbose logging"
  | config => s!"Config file path [default: {standardConfig}]"
  | rights => "Right definitions; overrides `rights_file` from the config"
  | user => "Only show user rights"
  | world => "World fixture"
  | target => "Entry name, id or `globalgrant`"
  | grantee => "Grantee entry name or id; omit for an anonymous check"
  | guest => "Check as an unauthenticated guest with this email"
  | password => "Guest password"
  | right => "Right name"
  | delegate => "Ask for the right to grant the right onward"
  | via => "Report the deciding grant"
  | json => "Print the result as JSON"
  | help => "Print help"

/-- The name that stands for the value of a switch. -/
def valueName (s : Switch) : String :=
  String.ofList ('<' :: s.name.toList.map Char.toUpper ++ ['>'])

/-- A switch behind its dashes. -/
def dashed (s : Switch) : String :=
  "--" ++ s.name

/-- A switch with the name of its value. -/
def form (s : Switch) : String :=
  if s.takesValue then s!"{s.dashed} {s.valueName}" else s.dashed

end Switch

end DirectoryRights.CommandLine
