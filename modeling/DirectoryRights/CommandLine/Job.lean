import DirectoryRights.CommandLine.Arguments

/-!
# Requests to the program

What a call asks the program to do, and where its settings and right definitions are found.
-/

set_option autoImplicit false

namespace DirectoryRights.CommandLine

/-- Who asks in a check. -/
inductive Asker where
  /-- The entry of a name. -/
  | named (name : String)
  /-- A guest with an address and a password. -/
  | guest (email password : String)
  /-- Nobody in particular. -/
  | anonymous
deriving DecidableEq

/-- A check in a world. -/
structure CheckTask where
  /-- The file of the world. -/
  world : String
  /-- Who asks. -/
  asker : Asker
  /-- The entry on which the right is checked. -/
  target : String
  /-- The right. -/
  right : String
  /-- Whether the right is to be passed on. -/
  delegate : Bool
  /-- Whether the deciding grant is wanted. -/
  via : Bool
  /-- Whether the answer is to be a document. -/
  json : Bool
deriving DecidableEq

/-- What is to be done. -/
inductive Task where
  /-- List the rights, or the user rights alone. -/
  | listRights (userOnly : Bool)
  /-- Read a stored grant. -/
  | readAce (line : String)
  /-- Show the grants of an entry of a world. -/
  | showGrants (world target : String)
  /-- Check a right in a world. -/
  | check (task : CheckTask)
deriving DecidableEq

/-- A request to the program. -/
structure Job where
  /-- The file of settings. -/
  config : String
  /-- The file of right definitions, which comes before the one in the settings. -/
  rights : Option String
  /-- What is to be done. -/
  task : Task
deriving DecidableEq

/-- Who asks in a call. -/
def Call.asker (c : Call) : Asker :=
  match c.after.value? .grantee, c.after.value? .guest with
  | some name, _ => .named name
  | none, some email => .guest email (c.value .password)
  | none, none => .anonymous

/-- What a call asks for. -/
def Call.task (c : Call) : Task :=
  match c.command with
  | .rights => .listRights (c.after.has .user)
  | .parseAce => .readAce (c.after.operands.headD "")
  | .acl => .showGrants (c.value .world) (c.value .target)
  | .check =>
    .check
      { world := c.value .world, asker := c.asker, target := c.value .target,
        right := c.value .right, delegate := c.after.has .delegate, via := c.after.has .via,
        json := c.after.has .json }

/-- The request of a call. -/
def Call.job (c : Call) : Job where
  config := (c.value? .config).getD Switch.standardConfig
  rights := c.value? .rights
  task := c.task

/-- The request that arguments make. -/
def Job.ofArguments (arguments : List String) : Except Halt Job :=
  (Call.read .nothing arguments).map Call.job

end DirectoryRights.CommandLine
