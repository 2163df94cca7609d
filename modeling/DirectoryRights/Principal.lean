import DirectoryRights.Entry

/-!
# Principals

Whoever asks for a right: an entry of the directory, a guest who shows a password or an access key,
or a caller without identity.
-/

set_option autoImplicit false

namespace DirectoryRights

/-- What a guest shows. -/
structure Guest where
  /-- The address the guest claims. -/
  email : String
  /-- The password of a guest grant. -/
  password : Option String
  /-- The key of a key grant. -/
  accessKey : Option String
deriving DecidableEq

namespace Guest

/-- Whether the guest is the grantee of a guest grant with the given secret. -/
def answers (g : Guest) (grantee : String) (secret : Option String) : Bool :=
  Text.sameFolded g.email grantee && g.password = secret

/-- Whether the guest is the grantee of a key grant; a grant without a key has no holder. -/
def answersKey (g : Guest) (grantee : String) (key : Option String) : Bool :=
  Text.sameFolded g.email grantee && key.isSome && g.accessKey = key

end Guest

/-- Whoever asks for a right. -/
inductive Principal where
  /-- An account, a calendar resource or a group of the directory. -/
  | entry (e : Entry)
  /-- A guest with credentials. -/
  | guest (g : Guest)
  /-- A caller without identity. -/
  | anonymous
deriving DecidableEq

namespace Principal

/-- The directory entry behind a principal. -/
def entry? : Principal → Option Entry
  | entry e => some e
  | _ => none

/-- The id of the entry behind a principal. -/
def id? (p : Principal) : Option EntryId :=
  p.entry?.map (·.id)

/-- The id of the domain that owns the entry behind a principal. -/
def homeId? (p : Principal) : Option EntryId :=
  p.entry?.bind (·.domainId)

/-- The domain part of the principal's name or address. -/
def homeName? : Principal → Option String
  | entry e => e.homeName?
  | guest g => Text.afterLast? '@' g.email
  | anonymous => none

/-- Whether the principal is an account of the directory. -/
def isAuthenticated (p : Principal) : Bool :=
  p.entry?.any (·.isAccount)

/-- Whether the principal is a global admin. -/
def isGlobalAdmin (p : Principal) : Bool :=
  p.entry?.any (·.isGlobalAdmin)

/-- Whether the principal is a delegated admin. -/
def isDelegatedAdmin (p : Principal) : Bool :=
  p.entry?.any (·.isDelegatedAdmin)

/-- Whether admin rights granted to the principal take effect: an account needs an admin rank, any
other entry has to be an admin group. -/
def mayUseAdminRights (p : Principal) : Bool :=
  p.entry?.any fun e =>
    if e.isAccount then e.isDelegatedAdmin || e.isGlobalAdmin else e.isAdminGroup

/-- The name under which the principal is known. -/
def knownAs : Principal → String
  | entry e => e.name
  | guest g => g.email
  | anonymous => "anonymous"

end Principal

end DirectoryRights
