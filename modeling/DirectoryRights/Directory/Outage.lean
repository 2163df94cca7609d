import DirectoryRights.Directory.View

/-!
# Operations out of service

A directory may refuse some of its operations, for all subjects or for one. A refused operation
fails with the error of the first outage that fits it and does nothing.
-/

set_option autoImplicit false

namespace DirectoryRights

/-- The operations of a directory that may be out of service. -/
inductive Operation where
  /-- Reading the values of an attribute. -/
  | readValues
  /-- Writing attributes. -/
  | modify
  /-- Finding the groups of an entry. -/
  | membership
  /-- Finding the domain of an entry. -/
  | homeDomain
  /-- Finding a domain by its name. -/
  | domainNamed
  /-- Finding an entry by its id. -/
  | entryById
  /-- Finding the global grant entry. -/
  | globalGrant
  /-- Asking an external group for a member. -/
  | externalContains
deriving DecidableEq

/-- An operation out of service. -/
structure Outage where
  /-- The operation. -/
  operation : Operation
  /-- The name or the id for which it is refused; all of them if absent. -/
  subject : Option String
  /-- How it fails. -/
  error : Error
deriving DecidableEq

namespace Outage

/-- Whether an operation on something known under the given names is refused. -/
def hits (o : Outage) (operation : Operation) (names : List String) : Bool :=
  o.operation = operation && o.subject.all names.contains

/-- An operation under outages: the error of the first that fits, or what the operation does. -/
def guard {α : Type} (outages : List Outage) (operation : Operation) (names : List String)
    (result : Except Error α) : Except Error α :=
  match outages.find? (·.hits operation names) with
  | some outage => .error outage.error
  | none => result

/-- The names under which an entry may be out of service. -/
def namesOf (e : Entry) : List String :=
  [e.name, e.id.text]

end Outage

/-- A view some of whose operations are out of service. -/
def View.under (v : View) (outages : List Outage) : View where
  membership e adminOnly :=
    Outage.guard outages .membership (Outage.namesOf e) (v.membership e adminOnly)
  homeDomain e := Outage.guard outages .homeDomain (Outage.namesOf e) (v.homeDomain e)
  domainNamed name := Outage.guard outages .domainNamed [name] (v.domainNamed name)
  entry id := Outage.guard outages .entryById [id.text] (v.entry id)
  globalGrant := Outage.guard outages .globalGrant [] v.globalGrant
  externalContains group p :=
    Outage.guard outages .externalContains [group.text] (v.externalContains group p)

end DirectoryRights
