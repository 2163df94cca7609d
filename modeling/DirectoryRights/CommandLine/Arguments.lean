import DirectoryRights.CommandLine.Help

/-!
# Arguments

Arguments are read one by one. A switch that takes a value and has none attached stays pending: it
takes the next argument, unless that one is a switch itself, and it is settled when the next switch
or operand begins or the arguments end. After two dashes everything is an operand. The first name of
a command ends the switches of the program and begins those of the command. Asking for help ends the
reading, and so does the first misuse.
-/

set_option autoImplicit false

namespace DirectoryRights.CommandLine

/-- What is wrong with arguments. -/
inductive Misuse where
  /-- There is no such switch. -/
  | unknown (argument : String)
  /-- Nothing more can be taken. -/
  | unexpected (argument : String)
  /-- A switch lacks its value. -/
  | valueMissing (s : Switch)
  /-- A switch that takes no value has one. -/
  | valueUnneeded (s : Switch)
  /-- A path is empty. -/
  | emptyPath (s : Switch)
  /-- A switch is given twice. -/
  | repeated (s : Switch)
  /-- No command is given. -/
  | noCommand
  /-- A part of the call is missing. -/
  | missing (part : String)
  /-- Two switches exclude each other. -/
  | conflict (s t : Switch)
deriving DecidableEq

namespace Misuse

/-- What a misuse says. -/
def text : Misuse → String
  | unknown argument => s!"unexpected argument '{argument}' found"
  | unexpected argument => s!"unexpected argument '{argument}' found"
  | valueMissing s => s!"a value is required for '{s.form}' but none was supplied"
  | valueUnneeded s => s!"unexpected value for '{s.form}' found; no more were expected"
  | emptyPath s => s!"a value is required for '{s.form}' but none was supplied"
  | repeated s => s!"the argument '{s.form}' cannot be used multiple times"
  | noCommand => s!"'{programName}' requires a subcommand but one was not provided"
  | missing part => s!"the following required arguments were not provided:\n  {part}"
  | conflict s t => s!"the argument '{s.form}' cannot be used with '{t.form}'"

end Misuse

/-- Why the arguments ask for no work. -/
inductive Halt where
  /-- They ask for help. -/
  | help (topic : Topic)
  /-- They cannot be understood. -/
  | misuse (cause : Misuse)
deriving DecidableEq

/-- What the arguments of a level have said so far. -/
structure Said where
  /-- The settled switches with their values. -/
  settled : List (Switch × Option String)
  /-- The switch that takes a value and is not settled yet, and its value if it has one. -/
  pending : Option (Switch × Option String)
  /-- The operands. -/
  operands : List String
  /-- Whether everything that follows is an operand. -/
  literal : Bool

namespace Said

/-- Nothing said. -/
def nothing : Said :=
  { settled := [], pending := none, operands := [], literal := false }

/-- Whether a switch is settled. -/
def has (p : Said) (s : Switch) : Bool :=
  p.settled.any (·.1 = s)

/-- The value of a switch. -/
def value? (p : Said) (s : Switch) : Option String :=
  (p.settled.find? (·.1 = s)).bind Prod.snd

/-- Settles one more switch. -/
def give (p : Said) (s : Switch) (value : Option String) : Except Misuse Said :=
  if p.has s then .error (.repeated s)
  else if s.takesPath ∧ value = some "" then .error (.emptyPath s)
  else .ok { p with settled := p.settled ++ [(s, value)] }

/-- Settles what is pending. -/
def settle (p : Said) : Except Misuse Said :=
  match p.pending with
  | none => .ok p
  | some (s, none) => .error (.valueMissing s)
  | some (s, some value) => { p with pending := none }.give s (some value)

/-- Whether the next argument is the value of a switch, unless it is a switch itself. -/
def awaitsValue (p : Said) : Bool :=
  match p.pending with
  | some (_, none) => true
  | _ => false

/-- A switch without a value of its own: its value may follow, and the help is given at once. -/
def bare (l : Level) (p : Said) (s : Switch) : Except Halt Said := do
  let p ← p.settle.mapError .misuse
  if s.takesValue then return { p with pending := some (s, none) }
  else if s = .help then throw (.help l.topic)
  else (p.give s none).mapError .misuse

/-- A switch with an attached value. -/
def attached (p : Said) (s : Switch) (value : List Char) : Except Halt Said :=
  ((p.settle).bind fun p => p.give s (some (String.ofList value))).mapError .misuse

/-- An argument that begins with two dashes: a name, with a value behind an equals sign. -/
def named (l : Level) (p : Said) (body : List Char) : Except Halt Said :=
  let (name, value) := match Text.cutFirst? '=' body with
    | some (name, value) => (name, some value)
    | none => (body, none)
  match l.named? name, value with
  | none, _ => .error (.misuse (.unknown (String.ofList ('-' :: '-' :: name))))
  | some s, none => p.bare l s
  | some s, some value =>
    if s.takesValue then p.attached s value else .error (.misuse (.valueUnneeded s))

/-- An argument that begins with one dash: letters, the last of which may take what follows it as
its value. -/
def lettered (l : Level) (p : Said) : List Char → Except Halt Said
  | [] => .ok p
  | letter :: rest =>
    match l.lettered? letter with
    | none => .error (.misuse (.unknown (String.ofList ['-', letter])))
    | some s =>
      if s.takesValue ∧ rest ≠ [] then
        p.attached s (if rest.head? = some '=' then rest.tail else rest)
      else
        (p.bare l s).bind fun p => p.lettered l rest

/-- An operand. -/
def operand (l : Level) (p : Said) (argument : String) : Except Halt Said := do
  let p ← p.settle.mapError .misuse
  if p.operands.length < l.capacity then
    return { p with operands := p.operands ++ [argument] }
  else
    throw (.misuse (.unexpected argument))

/-- One more argument. -/
def next (l : Level) (p : Said) (argument : String) : Except Halt Said :=
  if p.literal then p.operand l argument
  else
    match argument.toList with
    | ['-', '-'] => .ok { p with literal := true }
    | '-' :: '-' :: body => p.named l body
    | '-' :: letter :: letters => p.lettered l (letter :: letters)
    | _ =>
      match p.pending with
      | some (s, none) => .ok { p with pending := some (s, some argument) }
      | _ => p.operand l argument

end Said

/-- A command with the switches before its name and after it. -/
structure Call where
  /-- The command. -/
  command : Command
  /-- What stands before its name. -/
  before : Said
  /-- What stands after its name. -/
  after : Said

namespace Call

/-- What the help is asked on: nothing more than one name. -/
def helpTopic : List String → Except Misuse Topic
  | [] => .ok .program
  | name :: rest =>
    match Topic.ofName? name, rest with
    | some topic, [] => .ok topic
    | some _, extra :: _ => .error (.unexpected extra)
    | none, _ => .error (.unexpected name)

/-- Whether the first two parts of the call can stand together with what it says. -/
def conflict? (c : Call) : Option Misuse :=
  if c.after.has .grantee ∧ c.after.has .guest then some (.conflict .grantee .guest) else none

/-- The first part of the call that is missing. The password of a guest needs the guest, unless the
call names a grantee, with whom no guest can be given. -/
def missing? (c : Call) : Option Misuse :=
  let needed := if c.after.has .password ∧ ¬ c.after.has .grantee then [Switch.guest] else []
  match (c.command.required ++ needed).find? fun s => ¬ c.after.has s with
  | some s => some (.missing s.form)
  | none => (c.command.operands[c.after.operands.length]?).map .missing

/-- Reads the arguments of a command. -/
def readAfter (c : Command) (p : Said) : List String → Except Halt Said
  | [] => p.settle.mapError .misuse
  | argument :: rest => (p.next (some c) argument).bind fun p => readAfter c p rest

/-- The call once its arguments are read. -/
def complete (c : Call) : Except Halt Call :=
  match c.conflict? <|> c.missing? with
  | some misuse => .error (.misuse misuse)
  | none => (c.before.settle.mapError .misuse).map fun before => { c with before }

/-- Reads the arguments of a program. -/
def read (p : Said) : List String → Except Halt Call
  | [] => (p.settle.bind fun _ => .error .noCommand).mapError .misuse
  | argument :: rest =>
    match if p.literal ∨ p.awaitsValue then none else Topic.ofName? argument with
    | some (.command command) => do
      let after ← readAfter command .nothing rest
      complete { command, before := p, after }
    | some _ => ((helpTopic rest).mapError .misuse).bind fun topic => .error (.help topic)
    | none => (p.next none argument).bind fun p => read p rest

/-- The value of a common switch, of which the later one counts. -/
def value? (c : Call) (s : Switch) : Option String :=
  c.after.value? s <|> c.before.value? s

/-- The value of a switch of the command. -/
def value (c : Call) (s : Switch) : String :=
  (c.after.value? s).getD ""

end Call

end DirectoryRights.CommandLine
