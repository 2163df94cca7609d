import DirectoryRights.Toml.Document
import DirectoryRights.Toml.Record

/-!
# Worlds

A world describes a directory by names: its domains, classes of service, accounts and groups, who is
a member of which group, and the grants to make. It is written as a document.
-/

set_option autoImplicit false

namespace DirectoryRights

open Toml

/-- The admin rank of an account in a world. -/
inductive DeclaredRank where
  /-- No admin. -/
  | none
  /-- An admin by grants. -/
  | delegated
  /-- An admin who may do everything. -/
  | global
deriving DecidableEq

namespace DeclaredRank

/-- Every rank. -/
def all : List DeclaredRank :=
  [none, delegated, global]

/-- The name of a rank. -/
def code : DeclaredRank → String
  | none => "none"
  | delegated => "delegated"
  | global => "global"

end DeclaredRank

/-- An account of a world. -/
structure DeclaredAccount where
  /-- The address. -/
  email : String
  /-- The admin rank. -/
  admin : DeclaredRank
  /-- Whether it is a calendar resource. -/
  calendarResource : Bool
deriving DecidableEq

/-- A group of a world. -/
structure DeclaredGroup where
  /-- The address. -/
  email : String
  /-- Whether it is a dynamic group. -/
  dynamic : Bool
  /-- Whether it may hold admin rights. -/
  adminGroup : Bool
  /-- The names of its members. -/
  members : List String
deriving DecidableEq

/-- A grant of a world. -/
structure DeclaredGrant where
  /-- The name of the entry that stores the grant. -/
  target : String
  /-- Whom the grant is made to, by name or by id. -/
  grantee : String
  /-- The code of the grantee type. -/
  granteeType : String
  /-- The name of the right. -/
  right : String
  /-- The character of the modifier. -/
  modifier : Option Char
  /-- The password or the key of the grantee. -/
  secret : Option String
  /-- The end of the grant. -/
  expiry : Option String
deriving DecidableEq

/-- A directory described by names. -/
structure World where
  /-- The names of domains. -/
  domains : List String
  /-- The names of classes of service. -/
  cos : List String
  /-- The accounts. -/
  accounts : List DeclaredAccount
  /-- The groups. -/
  groups : List DeclaredGroup
  /-- The grants, in the order in which they are made. -/
  grants : List DeclaredGrant
deriving DecidableEq

/-- An account in a document. -/
def DeclaredAccount.decode : Decode DeclaredAccount := fun v => do
  let r ← Record.ofValue ["email", "admin", "calendar_resource"] v
  let email ← r.required "email" Decode.text
  let admin ← r.orElse "admin" .none (Decode.choice DeclaredRank.all DeclaredRank.code)
  let calendarResource ← r.orElse "calendar_resource" false Decode.truth
  return { email, admin, calendarResource }

/-- A group in a document. -/
def DeclaredGroup.decode : Decode DeclaredGroup := fun v => do
  let r ← Record.ofValue ["email", "dynamic", "admin_group", "members"] v
  let email ← r.required "email" Decode.text
  let dynamic ← r.orElse "dynamic" false Decode.truth
  let adminGroup ← r.orElse "admin_group" false Decode.truth
  let members ← r.orElse "members" [] (Decode.list Decode.text)
  return { email, dynamic, adminGroup, members }

/-- A grant in a document. -/
def DeclaredGrant.decode : Decode DeclaredGrant := fun v => do
  let r ← Record.ofValue
    ["target", "grantee", "type", "right", "modifier", "secret", "expiry"] v
  let target ← r.required "target" Decode.text
  let grantee ← r.orElse "grantee" "" Decode.text
  let granteeType ← r.required "type" Decode.text
  let right ← r.required "right" Decode.text
  let modifier ← r.optional "modifier" Decode.char
  let secret ← r.optional "secret" Decode.text
  let expiry ← r.optional "expiry" Decode.text
  return { target, grantee, granteeType, right, modifier, secret, expiry }

namespace World

/-- A world in a document. -/
def decode (root : Record) : Except Fault World := do
  let domains ← root.orElse "domains" [] (Decode.list Decode.text)
  let cos ← root.orElse "cos" [] (Decode.list Decode.text)
  let accounts ← root.orElse "accounts" [] (Decode.list DeclaredAccount.decode)
  let groups ← root.orElse "groups" [] (Decode.list DeclaredGroup.decode)
  let grants ← root.orElse "grants" [] (Decode.list DeclaredGrant.decode)
  return { domains, cos, accounts, groups, grants }

/-- The world in a text. -/
def parse (text : String) : Except Fault World :=
  (Toml.parse text).bind fun root => decode root.get?

end World

end DirectoryRights
