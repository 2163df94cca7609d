import DirectoryRights.AccessControl
import DirectoryRights.CommandLine.Failure
import DirectoryRights.CommandLine.Job
import DirectoryRights.Listing
import DirectoryRights.Catalog.Document
import DirectoryRights.Settings.File

/-!
# Doing a job

A job is done in an environment: files that can be read, variables and the time. Settings are the
standard ones, then those of the file if there is one, then those of the variables. Everything that
is printed is printed at the end, so a job prints or fails.
-/

set_option autoImplicit false

namespace DirectoryRights.CommandLine

/-- What a job is done in. -/
structure Environment (m : Type → Type) where
  /-- Reads a file. -/
  read : String → m (Except FileFault String)
  /-- The variables. -/
  vars : List (String × String)
  /-- The time in milliseconds. -/
  now : Int

/-- What becomes of the arguments. -/
inductive Outcome where
  /-- Something is printed, each text on lines of its own. -/
  | printed (texts : List String)
  /-- The job cannot be done. -/
  | failed (cause : Failure)
  /-- The arguments cannot be understood. -/
  | misused (cause : Misuse)

namespace Outcome

/-- The outcome of arguments that ask for no work. -/
def ofHalt : Halt → Outcome
  | .help topic => printed topic.lines
  | .misuse cause => misused cause

/-- The outcome of a job. -/
def ofResult : Except Failure (List String) → Outcome
  | .ok texts => printed texts
  | .error cause => failed cause

/-- The number with which the program ends. -/
def exitCode : Outcome → Nat
  | printed _ => 0
  | failed _ => 1
  | misused _ => 2

end Outcome

variable {m : Type → Type} [Monad m]

namespace Job

/-- Whether reading a file finds that there is nothing to read. -/
def absent : Except FileFault String → Bool
  | .error fault => fault.isAbsence
  | .ok _ => false

/-- The settings of a file in place of the standard ones; a file that is not there has none. -/
def fileSettings (path : String) (content : Except FileFault String) : Except Failure Settings :=
  if absent content then .ok .defaults
  else ((Settings.ofFile path content).map Settings.defaults.merge).mapError (.config path)

/-- The settings with those of variables, if they can be used. -/
def checkedSettings (vars : List (String × String)) (s : Settings) :
    Except Failure Settings :=
  match s.setAll vars with
  | (_, some e) => .error (.error e)
  | (s, none) =>
    match s.objection? with
    | some e => .error (.error e)
    | none => .ok s

/-- The settings of a job. -/
def settings (env : Environment m) (j : Job) : ExceptT Failure m Settings := do
  let s ← ExceptT.mk ((fileSettings j.config) <$> env.read j.config)
  ExceptT.mk (pure (checkedSettings env.vars s))

/-- The rights of a job. -/
def catalog (env : Environment m) (j : Job) (s : Settings) : ExceptT Failure m Catalog :=
  match j.rights <|> s.rightsFile with
  | none => throw .noRights
  | some path =>
    ExceptT.mk ((fun content => (Catalog.ofFile path content).mapError (.rights path))
      <$> env.read path)

/-- The world of a file. -/
def worldOfFile (path : String) (content : Except FileFault String) : Except Failure World :=
  match content with
  | .error fault => .error (.worldFile path fault)
  | .ok text => (World.parse text).mapError (.worldText path)

/-- The directory of a world in a file, with its grants. -/
def directory (env : Environment m) (s : Settings) (c : Catalog) (path : String) :
    ExceptT Failure m Directory := do
  let world ← ExceptT.mk (worldOfFile path <$> env.read path)
  ExceptT.mk (pure (((world.build c s.maxLifetime env.now).map (·.directory)).mapError .world))

end Job

/-- The grants stored on the entry of a name. -/
def storedGrants (c : Catalog) (d : Directory) (target : String) :
    Except Failure (List String) := do
  let entry ← (d.named target).mapError .world
  let set ← ((Store.ofDirectory d).read c entry).mapError .error
  return set.all.map Grant.line

/-- Who asks in a directory. -/
def Asker.principal (d : Directory) : Asker → Except WorldFault Principal
  | .named name => (d.named name).map .entry
  | .guest email password => .ok (.guest { email, password := some password, accessKey := none })
  | .anonymous => .ok .anonymous

namespace CheckTask

/-- The check that is asked for. -/
def request (t : CheckTask) (c : Catalog) (d : Directory) : Except Failure Request := do
  let right ← (c.lookup t.right).mapError .error
  let target ← (d.named t.target).mapError .world
  let principal ← (t.asker.principal d).mapError .world
  return { Request.ofRight principal target right with delegate := t.delegate, wantsVia := t.via }

/-- The answer of a check: a denied permission is a denial with its reason. -/
def answer (t : CheckTask) (right : Right) :
    Except Error Evaluation → Except Failure (List String)
  | .error e => if e.isDenial then .ok [s!"DENY ({e.text})"] else .error (.error e)
  | .ok evaluation =>
    .ok (if t.json then [evaluation.report.document]
      else evaluation.listing right.label.default)

/-- Does a check. -/
def run (t : CheckTask) (s : Settings) (c : Catalog) (d : Directory) :
    Except Failure (List String) := do
  let request ← t.request c d
  let start := AccessState.start d s.cache
  t.answer request.right ((AccessControl.ofSettings c s).evaluate request start).1

end CheckTask

/-- Does a job. -/
def Job.run (env : Environment m) (j : Job) : ExceptT Failure m (List String) := do
  let s ← j.settings env
  let c ← j.catalog env s
  match j.task with
  | .listRights userOnly => return c.listing userOnly
  | .readAce line =>
    ExceptT.mk (pure (((c.describe line).map fun r => [r.document]).mapError .error))
  | .showGrants world target => do
    let d ← Job.directory env s c world
    ExceptT.mk (pure (storedGrants c d target))
  | .check task => do
    let d ← Job.directory env s c task.world
    ExceptT.mk (pure (task.run s c d))

/-- What becomes of arguments. -/
def run (env : Environment m) (arguments : List String) : m Outcome :=
  match Job.ofArguments arguments with
  | .error halt => pure (.ofHalt halt)
  | .ok job => Outcome.ofResult <$> (job.run env).run

end DirectoryRights.CommandLine
