import DirectoryRights.Table
import DirectoryRights.Membership
import DirectoryRights.Principal
import DirectoryRights.Grant.ExternalGroup
import DirectoryRights.Text.LowerCase

/-!
# The directory

A directory keeps entries by id, the ids of domains by name, attributes of entries, and who is a
direct member of which group. Membership in groups of groups is found level by level: the groups an
entry is put into come first, then the groups these are put into, each group once and at the level
where it is first met. A group that is not in the directory is passed over and leads nowhere.
-/

set_option autoImplicit false

namespace DirectoryRights

/-- The stored state of a directory. -/
structure Directory where
  /-- The entries, in the order of their arrival. -/
  entries : List Entry
  /-- The ids of domains by their name in lower case. -/
  domainIds : Table String EntryId
  /-- The values of the attributes of entries. -/
  attributes : Table (EntryId × String) (List String)
  /-- The groups into which an entry was put. -/
  parents : Table EntryId (List EntryId)
  /-- The members of groups in external directories, in lower case. -/
  externalGroups : Table String (List String)
  /-- The number of times attributes were written. -/
  writes : Nat

namespace Directory

/-- The name of the global grant entry. -/
def globalGrantName : String := "globalgrant"

/-- The entry whose grants every other entry inherits. -/
def globalGrant : Entry :=
  .ofIdentity { id := Uuid.ofName globalGrantName, name := globalGrantName, kind := .globalGrant }

/-- The directory that holds the global grant entry alone. -/
def empty : Directory where
  entries := [globalGrant]
  domainIds := .empty
  attributes := .empty
  parents := .empty
  externalGroups := .empty
  writes := 0

/-- The entries with `e` in place of the one of the same id, or else at the end. -/
def put (e : Entry) : List Entry → List Entry
  | [] => [e]
  | other :: rest => if other.id = e.id then e :: rest else other :: put e rest

/-- The directory with an entry, in place of the one of the same id. -/
def add (d : Directory) (e : Entry) : Directory :=
  { d with
    entries := put e d.entries
    domainIds := if e.isDomain then d.domainIds.insert (Text.lower e.name) e.id else d.domainIds }

/-- The groups into which an entry was put. -/
def parentsOf (d : Directory) (id : EntryId) : List EntryId :=
  (d.parents.get? id).getD []

/-- The directory with one more direct member of a group. -/
def enroll (d : Directory) (group memberId : EntryId) : Directory :=
  let known := d.parentsOf memberId
  if known.contains group then d
  else { d with parents := d.parents.insert memberId (known ++ [group]) }

/-- The values of an attribute of an entry. -/
def valuesOf (d : Directory) (id : EntryId) (attr : String) : List String :=
  (d.attributes.get? (id, attr)).getD []

/-- The directory with other values for an attribute of an entry. -/
def setValues (d : Directory) (id : EntryId) (attr : String) (values : List String) : Directory :=
  { d with attributes := d.attributes.insert (id, attr) values }

/-- The directory with a group of an external directory. -/
def registerGroup (d : Directory) (group : ExternalGroup) (members : List String) : Directory :=
  { d with externalGroups := d.externalGroups.insert group.text (members.map Text.lower) }

/-- The entry of an id. -/
def entry? (d : Directory) (id : EntryId) : Option Entry :=
  d.entries.find? (·.id = id)

/-- The oldest entry of a name, whatever the case of its letters. -/
def entryNamed? (d : Directory) (name : String) : Option Entry :=
  d.entries.find? (Text.sameFolded ·.name name)

/-- The domain of a name in any case. -/
def domainNamed? (d : Directory) (name : String) : Option Entry :=
  (d.domainIds.get? (Text.lower name)).bind d.entry?

/-- The domain that owns an entry. -/
def homeDomain? (d : Directory) (e : Entry) : Option Entry :=
  match e.syntheticDomain? with
  | some domain => some domain
  | none => e.domainId.bind d.entry?

/-- Writes attributes of an entry of the directory; an attribute without values is taken away. -/
def writeAttribute (d : Directory) (id : EntryId) (change : String × List String) : Directory :=
  match change with
  | (attr, []) => { d with attributes := d.attributes.erase (id, attr) }
  | (attr, values) => d.setValues id attr values

/-- Writes attributes of an entry; the entry has to be in the directory. -/
def modify (d : Directory) (e : Entry) (changes : List (String × List String)) :
    Except Error Directory :=
  match d.entry? e.id with
  | none => .error (.noEntry e.name e.id)
  | some _ =>
    let written := changes.foldl (fun d change => d.writeAttribute e.id change) d
    .ok { written with writes := written.writes + 1 }

/-- The groups of groups that come after a level, without those that were met before. -/
def nextLevel (d : Directory) (met level : List EntryId) : List EntryId :=
  let parents := (level.filter fun id => (d.entry? id).isSome).flatMap d.parentsOf
  parents.eraseDups.filter (!met.contains ·)

/-- At most `rounds` levels of groups, from a given one on. -/
def levels (d : Directory) : Nat → List EntryId → List EntryId → List (List EntryId)
  | 0, _, _ => []
  | rounds + 1, met, level =>
    if level = [] then []
    else
      let met := met ++ level
      level :: levels d rounds met (d.nextLevel met level)

/-- All levels of groups above an entry. A level without groups is the last, and every level but the
first comes from a group with groups of its own, so the number of rounds is that of these groups. -/
def levelsAbove (d : Directory) (id : EntryId) : List (List EntryId) :=
  d.levels (d.parents.size + 1) [] (d.parentsOf id).eraseDups

/-- A group of the directory as membership lists it. -/
def affiliation? (d : Directory) (direct : Bool) (id : EntryId) : Option Affiliation :=
  (d.entry? id).map fun group =>
    { id, adminGroup := group.isAdminGroup, dynamic := group.targetType = .dynamicGroup, direct }

/-- The groups an entry belongs to, nearest first. -/
def allGroups (d : Directory) (id : EntryId) : List Affiliation :=
  match d.levelsAbove id with
  | [] => []
  | first :: further =>
    first.filterMap (d.affiliation? true) ++ further.flatten.filterMap (d.affiliation? false)

/-- The groups an entry belongs to, or those of them that may hold admin rights. -/
def membership (d : Directory) (e : Entry) (adminOnly : Bool) : Membership :=
  ⟨(d.allGroups e.id).filter fun group => !adminOnly || group.adminGroup⟩

/-- Whether a principal is a member of an external group, if the group is known. -/
def externalContains? (d : Directory) (group : ExternalGroup) (p : Principal) : Option Bool :=
  (d.externalGroups.get? group.text).map (·.contains (Text.lower p.knownAs))

end Directory

end DirectoryRights
