import DirectoryRights.Catalog
import DirectoryRights.Toml.Document
import DirectoryRights.Toml.Record

/-!
# Documents of right definitions

A document lists the definitions of rights in the order in which they are to be defined.
-/

set_option autoImplicit false

namespace DirectoryRights

open Toml

namespace Definition

/-- A target type by its code. -/
def decodeTarget : Decode TargetType
  | .text code =>
    match TargetType.ofCode? code with
    | some target => .ok target
    | none => .error (.unexpected "a target type")
  | _ => .error (.unexpected "a target type")

/-- One target type or a list of them. -/
def decodeTargets : Decode WrittenTargets
  | .text code => (decodeTarget (.text code)).map .one
  | v => (Decode.list decodeTarget v).map .many

/-- The fields of a definition, in their order. -/
def fieldNames : List String :=
  ["name", "type", "user", "target", "grant_target", "default", "cache", "attrs", "rights",
    "description"]

/-- One definition. -/
def decode : Decode Definition := fun v => do
  let r ← Record.ofValue fieldNames v
  let name ← r.required "name" Decode.text
  let kind ← r.required "type" (Decode.choice RightKind.all RightKind.code)
  let user ← r.orElse "user" false Decode.truth
  let target ← r.optional "target" decodeTargets
  let grantTarget ← r.optional "grant_target" decodeTarget
  let default ← r.optional "default" (Decode.choice DefaultAnswer.all DefaultAnswer.code)
  let cache ← r.orElse "cache" false Decode.truth
  let attrs ← r.optional "attrs" (Decode.list Decode.text)
  let rights ← r.orElse "rights" [] (Decode.list Decode.text)
  let description ← r.optional "description" Decode.text
  return { name, kind, user, target, grantTarget, default, cache, attrs, rights, description }

/-- The definitions in a document. -/
def parseAll (text : String) : Except Error (List Definition) :=
  let definitions := do
    let root ← Toml.parse text
    Record.orElse root.get? "right" [] (Decode.list decode)
  definitions.mapError .definitionsText

end Definition

namespace Catalog

/-- The catalog of a document. -/
def ofText (text : String) : Except Error Catalog :=
  (Definition.parseAll text).bind ofDefinitions

/-- The catalog of a file. -/
def ofFile (path : String) (content : Except FileFault String) : Except Error Catalog :=
  match content with
  | .error fault => .error (.definitionsFile path fault)
  | .ok text => ofText text

end Catalog

end DirectoryRights
