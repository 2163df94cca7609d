import DirectoryRights.Error
import DirectoryRights.Text.LowerCase
import DirectoryRights.Text.Numeral
import DirectoryRights.Text.Split

/-!
# Settings

The settings of access control, each with a default. They are set one by one under flat keys, in
which dots and dashes stand for underscores, from variables whose names begin with a mark, or all at
once from other settings, of which only what is not the default counts.
-/

set_option autoImplicit false

namespace DirectoryRights

/-- The settings of access control. -/
structure Settings where
  /-- Whether decisions are cached. -/
  cacheEnabled : Bool
  /-- The number of targets whose decisions are remembered. -/
  cacheTargets : Nat
  /-- The longest lifetime of a share in milliseconds, zero for no bound. -/
  maxLifetime : Int
  /-- The attributes that can never be granted. -/
  forbidden : List String
  /-- The file of right definitions. -/
  rightsFile : Option String
deriving DecidableEq

/-- One of the settings. -/
inductive SettingKey where
  /-- Whether decisions are cached. -/
  | cacheEnabled
  /-- The number of targets whose decisions are remembered. -/
  | cacheTargets
  /-- The longest lifetime of a share. -/
  | maxLifetime
  /-- The attributes that can never be granted. -/
  | forbidden
  /-- The file of right definitions. -/
  | rightsFile
deriving DecidableEq

namespace SettingKey

/-- Every setting. -/
def all : List SettingKey :=
  [cacheEnabled, cacheTargets, maxLifetime, forbidden, rightsFile]

/-- The flat key of a setting. -/
def code : SettingKey → String
  | cacheEnabled => "permission_cache_enabled"
  | cacheTargets => "permission_cache_max_targets"
  | maxLifetime => "grants_max_lifetime_ms"
  | forbidden => "hard_rules_forbidden_attrs"
  | rightsFile => "rights_file"

/-- A key with underscores for its dots and dashes. -/
def flat (key : String) : String :=
  String.ofList (key.toList.map fun c => if c = '-' ∨ c = '.' then '_' else c)

/-- The setting of a key. -/
def ofKey? (key : String) : Option SettingKey :=
  all.find? (·.code = flat key)

end SettingKey

namespace Settings

/-- The settings where nothing else is said. -/
def defaults : Settings where
  cacheEnabled := true
  cacheTargets := 4096
  maxLifetime := 0
  forbidden := ["zimbraIsAdminAccount"]
  rightsFile := none

/-- The names in a list separated by commas, without blanks around them and without empty ones. -/
def names (value : String) : List String :=
  ((Text.parts ',' value).map Text.trim).filter (· ≠ "")

/-- The settings with another value for one of them, if the value can be read. -/
def assign? (s : Settings) (key : SettingKey) (value : String) : Option Settings :=
  let trimmed := Text.trimList value.toList
  match key with
  | .cacheEnabled => (Text.truth? trimmed).map fun b => { s with cacheEnabled := b }
  | .cacheTargets => (Text.unsigned? trimmed).map fun n => { s with cacheTargets := n }
  | .maxLifetime => (Text.signed? trimmed).map fun n => { s with maxLifetime := n }
  | .forbidden => some { s with forbidden := names value }
  | .rightsFile => some { s with rightsFile := some value }

/-- The settings with another value under a key. -/
def set (s : Settings) (key value : String) : Except Error Settings :=
  match SettingKey.ofKey? key with
  | none => .error (.configKey key)
  | some setting =>
    match s.assign? setting value with
    | none => .error (.configValue key value)
    | some s => .ok s

/-- What the names of variables with settings begin with. -/
def variableMark : String := "WARDEN_"

/-- The settings with the values of variables, one after the other. The first that cannot be used
ends the run, and those before it stay. -/
def setAll (s : Settings) : List (String × String) → Settings × Option Error
  | [] => (s, none)
  | (name, value) :: rest =>
    match Text.dropBeginning? variableMark name with
    | none => s.setAll rest
    | some key =>
      match s.set (Text.lower key) value with
      | .error e => (s, some e)
      | .ok s => s.setAll rest

/-- The value of `other` unless it is the default. -/
def prefer {α : Type} [DecidableEq α] (standard current other : α) : α :=
  if other = standard then current else other

/-- The settings with those of `other` that are not the default. -/
def merge (s other : Settings) : Settings where
  cacheEnabled := prefer defaults.cacheEnabled s.cacheEnabled other.cacheEnabled
  cacheTargets := prefer defaults.cacheTargets s.cacheTargets other.cacheTargets
  maxLifetime := prefer defaults.maxLifetime s.maxLifetime other.maxLifetime
  forbidden := prefer defaults.forbidden s.forbidden other.forbidden
  rightsFile := prefer defaults.rightsFile s.rightsFile other.rightsFile

/-- The first thing that makes settings unusable. -/
def objection? (s : Settings) : Option Error :=
  if s.cacheTargets = 0 then some .cacheWithoutTargets
  else if s.maxLifetime < 0 then some .negativeLifetime
  else if s.forbidden = [] then some .nothingForbidden
  else none

end Settings

end DirectoryRights
