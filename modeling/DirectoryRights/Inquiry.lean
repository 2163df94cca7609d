import DirectoryRights.Ancestry
import DirectoryRights.DomainBorder
import DirectoryRights.Matching
import DirectoryRights.Evaluation

/-!
# Checking a preset right

The grants that may decide are read level by level: those of the target, those of all its groups
together, those of each domain, those of the global grant entry. A level is searched tier by tier,
and the first grant whose grantee is the principal decides. If no grant decides, the answer is a
denial as soon as one grant was about the right at all, and open otherwise.

Of a group that is not a direct one, grants kept from nested groups do not count. Of a group of a
foreign domain, only denials count for an admin right, unless the target's domain is open to the
admin's domain.
-/

set_option autoImplicit false

namespace DirectoryRights

/-- A check of a preset right. -/
structure Inquiry where
  /-- The directory as the check sees it. -/
  view : View
  /-- Who asks. -/
  principal : Principal
  /-- The entry on which the right is checked. -/
  target : Entry
  /-- The right. -/
  right : Right
  /-- Whether the right is to be passed on rather than used. -/
  delegate : Bool

/-- What a search through levels of grants ends with. -/
inductive Finding where
  /-- A grant decides. -/
  | found (g : Grant)
  /-- No grant decides; `seen` says whether one was about the right. -/
  | none (seen : Bool)

namespace Finding

/-- The decision of a finding. -/
def decision : Finding → Decision
  | found g => if g.denies then .deny else .allow
  | none seen => if seen then .deny else .undecided

/-- The deciding grant of a finding. -/
def grant? : Finding → Option Grant
  | found g => some g
  | none _ => .none

end Finding

namespace Inquiry

/-- Whether the right is held by admins. -/
def isAdminRight (q : Inquiry) : Bool :=
  !q.right.isUserRight

/-- Whether a grant is about the right. A positive grant kept for the domains below counts exactly
where the target is one of them. -/
def concerns (q : Inquiry) (below : Bool) (g : Grant) : Bool :=
  q.right.suits q.target.targetType q.delegate
    && !(q.delegate && g.isForUse)
    && (g.denies || g.isSubDomain = below)
    && g.right.meets q.right

/-- The grants of a level that may decide, each with the tier in which it is searched, in the order
of the search. -/
def candidates (q : Inquiry) (below : Bool) (grants : List Grant) : List (Tier × Grant) :=
  (Tier.all q.right.isUserRight).flatMap fun tier =>
    (grants.filter fun g => tier.admits g.granteeType && q.concerns below g).map (tier, ·)

/-- The first candidate whose grantee is the principal. -/
def firstMatch (q : Inquiry) : List (Tier × Grant) → Except Error (Option Grant)
  | [] => .ok none
  | (tier, g) :: rest =>
    match Matching.inTier q.view q.principal q.isAdminRight tier g with
    | .error e => .error e
    | .ok true => .ok (some g)
    | .ok false => q.firstMatch rest

/-- Searches one level and, if no grant decides, goes on to the next. -/
def level (q : Inquiry) (below : Bool) (grants : List Grant) (seen : Bool)
    (next : Bool → Reader Finding) : Reader Finding :=
  let candidates := q.candidates below grants
  match q.firstMatch candidates with
  | .error e => throw e
  | .ok (some g) => return .found g
  | .ok none => next (seen || !candidates.isEmpty)

/-- The grants of a group that count. -/
def inherited (direct positive : Bool) (grants : List Grant) : List Grant :=
  grants.filter fun g => (direct || !g.isDisinherit) && (positive || g.denies)

/-- Whether positive grants of a group count; for a user right they always do. -/
def groupCounts (q : Inquiry) (holder targetHome : Option Entry) (group : Entry) :
    Reading Bool :=
  match holder with
  | none => return true
  | some domain => DomainBorder.groupCounts q.view domain targetHome group

/-- The grants that count of all groups of a target. -/
def gather (q : Inquiry) (holder targetHome : Option Entry) :
    List (Entry × Bool) → Reader (List Grant)
  | [] => return []
  | (group, direct) :: rest => do
    match ← Reader.grantsOf group with
    | none => q.gather holder targetHome rest
    | some set =>
      let positive ← q.groupCounts holder targetHome group
      return inherited direct positive set.all ++ (← q.gather holder targetHome rest)

/-- The entries above the groups of a target, each with whether its grants for the domains below
count: those of the domains above a domain do. -/
def stops (q : Inquiry) : List (Except Error (Entry × Bool)) :=
  (Ancestry.domains q.view q.target).map (fun domain => .ok (domain, q.target.isDomain))
    ++ (Ancestry.last q.view q.target).map (Except.map (·, false))

/-- Searches the levels above the groups. The grants of the groups, in `pool`, are searched as soon
as the entry of the first of these levels is known. -/
def climb (q : Inquiry) : List Grant → Bool → List (Except Error (Entry × Bool)) → Reader Finding
  | _, seen, [] => return .none seen
  | _, _, .error e :: _ => throw e
  | pool, seen, .ok (entry, below) :: rest =>
    q.level false pool seen fun seen => do
      match ← Reader.grantsOf entry with
      | none => q.climb [] seen rest
      | some set => q.level below set.all seen fun seen => q.climb [] seen rest

/-- The domain in which a target lives, for kinds that live in one. -/
def targetHome (q : Inquiry) : Except Error (Option Entry) :=
  if !q.target.targetType.livesInDomain then .ok none
  else
    match q.target.syntheticDomain? with
    | some domain => .ok (some domain)
    | none => q.view.homeDomain q.target

/-- Whether the groups of the target are read: always for admin rights, and for user rights on
other entries than accounts. -/
def expandsGroups (q : Inquiry) : Bool :=
  q.isAdminRight || q.right.presetTarget? ≠ some .account

/-- Searches the target and the levels above it, for a principal whose domain is `holder` where the
right is an admin right. -/
def search (q : Inquiry) (holder : Option Entry) : Reader Finding := do
  let onward := fun seen => do
    let targetHome ← ExceptT.mk (pure q.targetHome)
    let pool ← q.gather holder targetHome (Ancestry.groups q.view q.target q.expandsGroups)
    q.climb (Grant.ranked pool) seen q.stops
  match ← Reader.grantsOf q.target with
  | none => onward false
  | some set => q.level false set.all false onward

/-- The domain of a principal who may use admin rights. -/
def holderDomain (q : Inquiry) (e : Entry) : Except Error Entry :=
  match q.view.homeDomain e with
  | .error cause => .error cause
  | .ok (some domain) => .ok domain
  | .ok none => .error (.noDomain e.name)

/-- The decision of a check and the grant that made it. -/
def answer (q : Inquiry) : Reader (Decision × Option Grant) := do
  if q.isAdminRight then
    match q.principal.entry?.filter fun _ => q.principal.mayUseAdminRights with
    | none => return (.undecided, none)
    | some e =>
      let domain ← ExceptT.mk (pure (q.holderDomain e))
      if q.right.isCrossDomainAdmin then
        return (← DomainBorder.check domain q.target q.delegate, none)
      else
        let finding ← q.search (some domain)
        return (finding.decision, finding.grant?)
  else
    let finding ← q.search none
    return (finding.decision, finding.grant?)

end Inquiry

end DirectoryRights
