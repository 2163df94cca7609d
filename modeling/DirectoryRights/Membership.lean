import DirectoryRights.Entry

/-!
# Group membership

The groups an entry belongs to, in the order in which they are found and each at most once.
-/

set_option autoImplicit false

namespace DirectoryRights

/-- A group and how an entry belongs to it. -/
structure Affiliation where
  /-- The id of the group. -/
  id : EntryId
  /-- Whether the group may hold admin rights. -/
  adminGroup : Bool
  /-- Whether the group is a dynamic one. -/
  dynamic : Bool
  /-- Whether the entry itself is a member, not only a group it belongs to. -/
  direct : Bool
deriving DecidableEq

/-- The groups of an entry. -/
structure Membership where
  /-- The groups, in the order in which they were found. -/
  groups : List Affiliation
deriving DecidableEq

namespace Membership

/-- No groups. -/
def empty : Membership := ⟨[]⟩

/-- Whether a group is among the groups. -/
def contains (m : Membership) (id : EntryId) : Bool :=
  m.groups.any (·.id = id)

/-- Whether the group whose id has the given canonical text is among the groups. -/
def containsText (m : Membership) (text : String) : Bool :=
  m.groups.any (·.id.text = text)

/-- The membership with one more group at the end, unless the group is there already. -/
def append (m : Membership) (group : Affiliation) : Membership :=
  if m.contains group.id then m else ⟨m.groups ++ [group]⟩

/-- The membership of a list of groups; the first mention of a group counts. -/
def ofList (groups : List Affiliation) : Membership :=
  groups.foldl append empty

/-- The number of groups. -/
def size (m : Membership) : Nat :=
  m.groups.length

end Membership

end DirectoryRights
