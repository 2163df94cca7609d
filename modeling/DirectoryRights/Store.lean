import DirectoryRights.Directory.Outage
import DirectoryRights.Reading

/-!
# The store of grants

The grants of an entry are the values of one attribute. A store is a directory with its outages and
a memo of the sets read so far. A set is read once and then taken from the memo; writing attributes
of an entry, or adding the entry anew, drops what the memo knows of it. Values replaced behind the
back of the store leave the memo as it is.
-/

set_option autoImplicit false

namespace DirectoryRights

/-- A directory in use. -/
structure Store where
  /-- The directory. -/
  directory : Directory
  /-- Its operations out of service, the first that fits decides. -/
  outages : List Outage
  /-- The sets read so far. -/
  memo : Table EntryId GrantSet

namespace Store

/-- The attribute that holds the grants of an entry. -/
def grantAttribute : String := "zimbraACE"

/-- The store over a directory, without outages and with nothing read yet. -/
def ofDirectory (d : Directory) : Store :=
  { directory := d, outages := [], memo := .empty }

/-- The directory as checks see it. -/
def view (s : Store) : View :=
  s.directory.view.under s.outages

/-- The store without the memo of one entry. -/
def forget (s : Store) (id : EntryId) : Store :=
  { s with memo := s.memo.erase id }

/-- The store that remembers a set as that of an entry. -/
def remember (s : Store) (id : EntryId) (set : GrantSet) : Store :=
  { s with memo := s.memo.insert id set }

/-- Whether the memo has the set of an entry. -/
def remembers (s : Store) (id : EntryId) : Bool :=
  s.memo.contains id

/-- The store with one more entry. -/
def add (s : Store) (e : Entry) : Store :=
  { s with directory := s.directory.add e }.forget e.id

/-- The values of an attribute of an entry. -/
def values (s : Store) (e : Entry) (attr : String) : Except Error (List String) :=
  Outage.guard s.outages .readValues (Outage.namesOf e) (.ok (s.directory.valuesOf e.id attr))

/-- Writes attributes of an entry. -/
def modify (s : Store) (e : Entry) (changes : List (String × List String)) : Except Error Store :=
  (Outage.guard s.outages .modify (Outage.namesOf e) (s.directory.modify e changes)).map
    fun directory => { s with directory }.forget e.id

/-- The grants stored on an entry. -/
def read (c : Catalog) (s : Store) (e : Entry) : Except Error GrantSet :=
  (s.values e grantAttribute).bind (GrantSet.parse c e)

/-- A set as checks see it: an empty one is none. -/
def present (set : GrantSet) : Option GrantSet :=
  if set.isEmpty then none else some set

/-- The grants of an entry as checks see them, always read from the directory. -/
def fresh (c : Catalog) (s : Store) (e : Entry) : GrantAnswer :=
  (s.read c e).map present

/-- The grants of an entry as checks see them, from the memo where it has them. -/
def grantsOf (c : Catalog) (e : Entry) (s : Store) : GrantAnswer × Store :=
  match s.memo.get? e.id with
  | some set => (.ok (present set), s)
  | none =>
    match s.read c e with
    | .error cause => (.error cause, s)
    | .ok set => (.ok (present set), s.remember e.id set)

end Store

end DirectoryRights
