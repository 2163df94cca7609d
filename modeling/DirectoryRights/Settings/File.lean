import DirectoryRights.Settings
import DirectoryRights.Toml.Document
import DirectoryRights.Toml.Record

/-!
# Files of settings

A file of settings has sections; what it does not mention keeps its default. A file is read before
its name is looked at, and its name has to end as that of a TOML file or not at all.
-/

set_option autoImplicit false

namespace DirectoryRights.Settings

open Toml

/-- A section, which is empty where it is not there. -/
def decodeSection (root : Record) (name : String) (fields : List String) : Except Fault Record :=
  root.orElse name (fun _ => none) (Record.ofValue fields)

/-- The settings of a document. -/
def decode (root : Record) : Except Fault Settings := do
  let cache ← decodeSection root "permission_cache" ["enabled", "max_targets"]
  let cacheEnabled ← cache.orElse "enabled" defaults.cacheEnabled Decode.truth
  let cacheTargets ← cache.orElse "max_targets" defaults.cacheTargets Decode.natural
  let grants ← decodeSection root "grants" ["max_lifetime_ms"]
  let maxLifetime ← grants.orElse "max_lifetime_ms" defaults.maxLifetime Decode.integer
  let rules ← decodeSection root "hard_rules" ["forbidden_attrs"]
  let forbidden ← rules.orElse "forbidden_attrs" defaults.forbidden (Decode.list Decode.text)
  let rightsFile ← root.optional "rights_file" Decode.text
  return { cacheEnabled, cacheTargets, maxLifetime, forbidden, rightsFile }

/-- The settings in a text. -/
def ofText (text : String) : Except Error Settings :=
  ((Toml.parse text).bind fun root => decode root.get?).mapError .configText

/-- The settings of a file. -/
def ofFile (path : String) (content : Except FileFault String) : Except Error Settings :=
  match content with
  | .error fault => .error (.configFile path fault)
  | .ok text =>
    match fileExtension? path with
    | none | some "toml" => ofText text
    | some other => .error (.configFormat other)

end DirectoryRights.Settings
