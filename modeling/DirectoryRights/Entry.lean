import DirectoryRights.TargetType
import DirectoryRights.Uuid.Named
import DirectoryRights.Text.Fold

/-!
# Directory entries

An entry is an id, a name and a kind, with the id of the domain that owns it where there is one. A
pseudo entry is made up before it exists in the directory; its domain may be made up as well.
-/

set_option autoImplicit false

namespace DirectoryRights

/-- The id of a directory entry. -/
abbrev EntryId := Uuid

/-- The admin rank of an account. -/
structure AdminRank where
  /-- May do everything. -/
  isGlobal : Bool
  /-- May hold admin rights by grant. -/
  isDelegated : Bool
deriving DecidableEq

/-- The kind of an entry, with what checks read of it. -/
inductive EntryKind where
  /-- A user account. -/
  | account (admin : AdminRank)
  /-- A calendar resource. -/
  | calResource (admin : AdminRank)
  /-- A static distribution list. -/
  | distributionList (adminGroup : Bool)
  /-- A dynamic group. -/
  | dynamicGroup (adminGroup : Bool)
  /-- A mail domain. -/
  | domain
  /-- A class of service. -/
  | cos
  /-- A server. -/
  | server
  /-- A unified communications service. -/
  | ucService
  /-- An XMPP component. -/
  | xmppComponent
  /-- A zimlet. -/
  | zimlet
  /-- The global configuration. -/
  | config
  /-- The entry whose grants every other entry inherits. -/
  | globalGrant
deriving DecidableEq

namespace EntryKind

/-- The target type of an entry of this kind. -/
def targetType : EntryKind → TargetType
  | account _ => .account
  | calResource _ => .calResource
  | distributionList _ => .distributionList
  | dynamicGroup _ => .dynamicGroup
  | domain => .domain
  | cos => .cos
  | server => .server
  | ucService => .ucService
  | xmppComponent => .xmppComponent
  | zimlet => .zimlet
  | config => .config
  | globalGrant => .global

/-- The admin rank of accounts and calendar resources. -/
def rank? : EntryKind → Option AdminRank
  | account rank | calResource rank => some rank
  | _ => none

/-- Whether this is a group that may hold admin rights for its members. -/
def isAdminGroup : EntryKind → Bool
  | distributionList adminGroup | dynamicGroup adminGroup => adminGroup
  | _ => false

end EntryKind

/-- Which entry something is: its id, its name and its kind. -/
structure Identity where
  /-- The id in the directory. -/
  id : EntryId
  /-- A mail address, a domain name or a plain name, by kind. -/
  name : String
  /-- The kind of the entry. -/
  kind : EntryKind
deriving DecidableEq

/-- How much of a pseudo entry's surroundings exists. -/
inductive Pseudo where
  /-- The entry is made up inside a domain of the directory. -/
  | existing
  /-- The domain of the entry is made up too and stores no grants. -/
  | synthetic (domain : Identity)
deriving DecidableEq

/-- A directory entry as checks see it. -/
structure Entry extends Identity where
  /-- The id of the owning domain. -/
  domainId : Option EntryId
  /-- Set for an entry that does not exist in the directory. -/
  pseudo : Option Pseudo
deriving DecidableEq

namespace Entry

/-- An existing entry without an owning domain. -/
def ofIdentity (identity : Identity) : Entry :=
  { identity with domainId := none, pseudo := none }

/-- The target type of an entry. -/
def targetType (e : Entry) : TargetType :=
  e.kind.targetType

/-- Whether the entry is an account or a calendar resource. -/
def isAccount (e : Entry) : Bool :=
  e.kind.rank?.isSome

/-- Whether the entry is the account of a global admin. -/
def isGlobalAdmin (e : Entry) : Bool :=
  e.kind.rank?.any (·.isGlobal)

/-- Whether the entry is the account of a delegated admin. -/
def isDelegatedAdmin (e : Entry) : Bool :=
  e.kind.rank?.any (·.isDelegated)

/-- Whether the entry has members. -/
def isGroup (e : Entry) : Bool :=
  e.targetType.hasMembers

/-- Whether the entry is a group that may hold admin rights. -/
def isAdminGroup (e : Entry) : Bool :=
  e.kind.isAdminGroup

/-- Whether the entry is a domain. -/
def isDomain (e : Entry) : Bool :=
  e.targetType = .domain

/-- Whether the entry does not exist in the directory. -/
def isPseudo (e : Entry) : Bool :=
  e.pseudo.isSome

/-- The made-up domain of a pseudo entry. -/
def syntheticDomain? (e : Entry) : Option Entry :=
  match e.pseudo with
  | some (.synthetic domain) => some (Entry.ofIdentity domain)
  | _ => none

/-- The domain part of the name: the whole name of a domain, and what stands after the last at sign
of an address. -/
def homeName? (e : Entry) : Option String :=
  if e.isDomain then some e.name else Text.afterLast? '@' e.name

end Entry

end DirectoryRights
