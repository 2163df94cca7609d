import DirectoryRights.Directory.View
import DirectoryRights.Grant
import DirectoryRights.Tier

/-!
# Matching principals and grantees

Whether a principal is the grantee of a grant. An id matches by its canonical text, a mail address
and the name of a domain elsewhere whatever the case of their letters, and a group through the
groups of the principal. Callers without identity match only grants to everyone, unless a group is
searched, where an external group is asked for them by their display name.
-/

set_option autoImplicit false

namespace DirectoryRights.Matching

/-- The groups of a principal, or the admin groups among them. A group counts as one of its own
groups; if its groups cannot be found it has no others. -/
def groupsOf (v : View) (p : Principal) (asAdmin : Bool) : Membership :=
  match p.entry? with
  | none => .empty
  | some e =>
    let found := match v.membership e asAdmin with
      | .ok membership => membership
      | .error _ => .empty
    if e.isGroup && (!asAdmin || e.isAdminGroup) then
      found.append { id := e.id, adminGroup := e.isAdminGroup, dynamic := false, direct := true }
    else
      found

/-- Whether the external group of a grant has the principal as a member. -/
def inExternalGroup (v : View) (p : Principal) (g : Grant) : Except Error Bool :=
  (ExternalGroup.parse g.grantee).bind fun group =>
    (v.externalContains group p).map (·.getD false)

/-- Whether the principal is found in the group of a grant. -/
def inGroup (v : View) (p : Principal) (asAdmin : Bool) (g : Grant) : Except Error Bool :=
  if (groupsOf v p asAdmin).containsText g.grantee then .ok true
  else if g.granteeType = .externalGroup then inExternalGroup v p g
  else .ok false

/-- Whether an identified principal is the grantee of a grant. -/
def isIdentifiedGrantee (v : View) (p : Principal) (asAdmin : Bool) (g : Grant) :
    Except Error Bool :=
  match g.granteeType with
  | .everyone => .ok true
  | .authUser => .ok p.isAuthenticated
  | .group => .ok ((groupsOf v p asAdmin).containsText g.grantee)
  | .externalGroup => inExternalGroup v p g
  | .domain => .ok (p.homeId?.any (·.text = g.grantee))
  | .externalDomain => .ok (p.homeName?.any (Text.sameFolded · g.grantee))
  | .user => .ok (p.id?.any (·.text = g.grantee))
  | .guest =>
    match p with
    | .guest guest => .ok (guest.answers g.grantee g.secret)
    | _ => .ok false
  | .key =>
    match p with
    | .guest guest => .ok (guest.answersKey g.grantee g.secret)
    | _ => .ok false
  | .email =>
    match p with
    | .guest guest => .ok (guest.answers g.grantee g.secret)
    | .entry e => .ok ((e.isAccount || e.isGroup) && Text.sameFolded e.name g.grantee)
    | .anonymous => .ok false

/-- Whether the principal is the grantee of a grant. -/
def isGrantee (v : View) (p : Principal) (asAdmin : Bool) (g : Grant) : Except Error Bool :=
  if p = .anonymous then .ok (g.granteeType = .everyone) else isIdentifiedGrantee v p asAdmin g

/-- Whether the principal is the grantee of a grant that is searched in a tier. -/
def inTier (v : View) (p : Principal) (asAdmin : Bool) (tier : Tier) (g : Grant) :
    Except Error Bool :=
  if tier.viaGroups then inGroup v p asAdmin g else isGrantee v p asAdmin g

end DirectoryRights.Matching
