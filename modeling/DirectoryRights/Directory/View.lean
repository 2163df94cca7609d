import DirectoryRights.Directory

/-!
# What a check asks of a directory

A check reads a directory through a few questions, each of which may fail. A directory at hand
answers all of them.
-/

set_option autoImplicit false

namespace DirectoryRights

/-- The questions a check puts to a directory. -/
structure View where
  /-- The groups an entry belongs to, or those of them that may hold admin rights. -/
  membership : Entry → Bool → Except Error Membership
  /-- The domain that owns an entry. -/
  homeDomain : Entry → Except Error (Option Entry)
  /-- The domain of a name. -/
  domainNamed : String → Except Error (Option Entry)
  /-- The entry of an id. -/
  entry : EntryId → Except Error (Option Entry)
  /-- The entry whose grants every other entry inherits. -/
  globalGrant : Except Error Entry
  /-- Whether a principal is in an external group, if the group is known. -/
  externalContains : ExternalGroup → Principal → Except Error (Option Bool)

/-- The view of a directory that never fails. -/
def Directory.view (d : Directory) : View where
  membership e adminOnly := .ok (d.membership e adminOnly)
  homeDomain e := .ok (d.homeDomain? e)
  domainNamed name := .ok (d.domainNamed? name)
  entry id := .ok (d.entry? id)
  globalGrant := .ok Directory.globalGrant
  externalContains group p := .ok (d.externalContains? group p)

end DirectoryRights
