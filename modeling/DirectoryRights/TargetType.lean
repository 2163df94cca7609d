/-!
# Target types

The kinds of directory entry a right is checked or granted on, and the table that says which kinds
inherit the grants stored on which. Every kind inherits from itself and from the global grant entry.
-/

set_option autoImplicit false

namespace DirectoryRights

/-- The kind of a directory entry. -/
inductive TargetType where
  /-- A user account. -/
  | account
  /-- A calendar resource, an account of its own kind. -/
  | calResource
  /-- A static distribution list. -/
  | distributionList
  /-- A dynamic group. -/
  | dynamicGroup
  /-- A mail domain. -/
  | domain
  /-- A class of service. -/
  | cos
  /-- A server. -/
  | server
  /-- A unified communications service. -/
  | ucService
  /-- An XMPP component. -/
  | xmppComponent
  /-- A zimlet. -/
  | zimlet
  /-- The global configuration. -/
  | config
  /-- The global grant entry, the last ancestor of every entry. -/
  | global
deriving DecidableEq

namespace TargetType

/-- Every kind, in the order in which sets of kinds are listed. -/
def all : List TargetType :=
  [account, calResource, distributionList, dynamicGroup, domain, cos, server, ucService,
    xmppComponent, zimlet, config, global]

/-- The name of a kind in right definitions and in attribute rights. -/
def code : TargetType → String
  | account => "account"
  | calResource => "calresource"
  | distributionList => "dl"
  | dynamicGroup => "group"
  | domain => "domain"
  | cos => "cos"
  | server => "server"
  | ucService => "ucservice"
  | xmppComponent => "xmppcomponent"
  | zimlet => "zimlet"
  | config => "config"
  | global => "global"

/-- The kind with a given name. -/
def ofCode? (text : String) : Option TargetType :=
  all.find? (·.code = text)

/-- The kinds that inherit grants stored on an entry of this kind, itself included. -/
def heirs : TargetType → List TargetType
  | distributionList => [account, calResource, distributionList]
  | dynamicGroup => [account, calResource, dynamicGroup]
  | domain => [account, calResource, distributionList, dynamicGroup, domain]
  | global => all
  | other => [other]

/-- Whether grants stored on the first kind reach entries of the second. -/
def reaches (source reached : TargetType) : Bool :=
  source.heirs.contains reached

/-- The kinds whose grants reach entries of this kind. -/
def sources (t : TargetType) : List TargetType :=
  all.filter (·.reaches t)

/-- The kinds that inherit from this one, itself left out. -/
def properHeirs (t : TargetType) : List TargetType :=
  t.heirs.filter (· ≠ t)

/-- Whether entries of this kind live in a domain. -/
def livesInDomain : TargetType → Bool
  | account | calResource | distributionList | dynamicGroup => true
  | _ => false

/-- Whether entries of this kind are addressed by a name or an id. -/
def isAddressed : TargetType → Bool
  | config | global => false
  | _ => true

/-- Whether entries of this kind have members. -/
def hasMembers : TargetType → Bool
  | distributionList | dynamicGroup => true
  | _ => false

/-- Whether an attribute right may be written for this kind. -/
def hasOwnAttributes (t : TargetType) : Bool :=
  t ≠ global

/-- The kind that stands for this one in user rights: calendar resources count as accounts and
dynamic groups as distribution lists. -/
def userClass : TargetType → TargetType
  | calResource => account
  | dynamicGroup => distributionList
  | other => other

/-- The other kind of the same class in user rights, or the kind itself where there is none. -/
def userTwin : TargetType → TargetType
  | account => calResource
  | calResource => account
  | distributionList => dynamicGroup
  | dynamicGroup => distributionList
  | other => other

end TargetType

end DirectoryRights
