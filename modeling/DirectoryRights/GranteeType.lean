/-!
# Grantee types

Whom a grant is made to. A grantee type has a code, under which it is stored, and a set of
capabilities, which say in which searches its grants are looked at and what its grantee is.
-/

set_option autoImplicit false

namespace DirectoryRights

/-- What a grantee type can do or stands for. -/
inductive Capability where
  /-- May hold admin rights. -/
  | admin
  /-- Matches one principal. -/
  | individual
  /-- Matches through membership in a group. -/
  | group
  /-- Matches the accounts of a domain. -/
  | domain
  /-- Matches every authenticated account. -/
  | authUser
  /-- Matches everyone, callers without identity included. -/
  | everyone
  /-- Is named by the id of a directory entry. -/
  | entry
  /-- Carries a password or an access key. -/
  | secret
deriving DecidableEq

/-- The kind of grantee of a grant. -/
inductive GranteeType where
  /-- An account. -/
  | user
  /-- A group of the directory. -/
  | group
  /-- A group kept in an external directory. -/
  | externalGroup
  /-- All authenticated accounts. -/
  | authUser
  /-- The accounts of a domain of the directory. -/
  | domain
  /-- Principals whose address is in a domain elsewhere. -/
  | externalDomain
  /-- A guest with a password. -/
  | guest
  /-- The holder of an access key. -/
  | key
  /-- Everyone. -/
  | everyone
  /-- A mail address. -/
  | email
deriving DecidableEq

namespace GranteeType

/-- Every grantee type. -/
def all : List GranteeType :=
  [user, group, externalGroup, authUser, domain, externalDomain, guest, key, everyone, email]

/-- The code of a grantee type in a stored grant. -/
def code : GranteeType → String
  | user => "usr"
  | group => "grp"
  | externalGroup => "egp"
  | authUser => "all"
  | domain => "dom"
  | externalDomain => "edom"
  | guest => "gst"
  | key => "key"
  | everyone => "pub"
  | email => "email"

/-- The grantee type with a given code. -/
def ofCode? (text : String) : Option GranteeType :=
  all.find? (·.code = text)

/-- The name of a grantee type in reports. -/
def title : GranteeType → String
  | user => "User"
  | group => "Group"
  | externalGroup => "ExternalGroup"
  | authUser => "AuthUser"
  | domain => "Domain"
  | externalDomain => "ExternalDomain"
  | guest => "Guest"
  | key => "Key"
  | everyone => "Public"
  | email => "Email"

/-- The capabilities of a grantee type. -/
def capabilities : GranteeType → List Capability
  | user => [.admin, .individual, .entry]
  | group => [.admin, .group, .entry]
  | externalGroup => [.admin, .group]
  | authUser => [.authUser]
  | domain => [.admin, .domain, .entry]
  | externalDomain => [.individual]
  | guest => [.individual, .secret]
  | key => [.individual, .secret]
  | everyone => [.everyone]
  | email => [.individual]

/-- Whether the type has a capability. -/
def has (g : GranteeType) (c : Capability) : Bool :=
  g.capabilities.contains c

/-- Whether the type has all the capabilities of a list. -/
def hasAll (g : GranteeType) (cs : List Capability) : Bool :=
  cs.all g.has

/-- Whether the type may hold admin rights. -/
def mayHoldAdminRights (g : GranteeType) : Bool :=
  g.has .admin

/-- Whether grants to this type carry a secret. -/
def carriesSecret (g : GranteeType) : Bool :=
  g.has .secret

/-- Whether the grantee is named by the id of a directory entry. -/
def isEntry (g : GranteeType) : Bool :=
  g.has .entry

/-- Whether the grantee of a stored grant has to be an identifier. -/
def isNamedById : GranteeType → Bool
  | user | group | domain | authUser | everyone => true
  | _ => false

/-- Whether a grant to this type names someone in particular. -/
def namesSomeone : GranteeType → Bool
  | authUser | everyone => false
  | _ => true

/-- The text stored as the grantee of grants to all authenticated accounts. -/
def authUserId : String := "00000000-0000-0000-0000-000000000000"

/-- The text stored as the grantee of grants to everyone. -/
def everyoneId : String := "99999999-9999-9999-9999-999999999999"

/-- The fixed grantee of the types that name no one in particular. -/
def fixedId? : GranteeType → Option String
  | authUser => some authUserId
  | everyone => some everyoneId
  | _ => none

end GranteeType

end DirectoryRights
