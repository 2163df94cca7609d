import DirectoryRights.Directory.View

/-!
# Ancestors

The entries whose grants a target inherits, in the order in which they are read: the target itself,
its groups, its domain or the domains above it, and the global grant entry at the end. What cannot
be found on the way is left out; only the end of the chain can fail.
-/

set_option autoImplicit false

namespace DirectoryRights

/-- One step of a chain of ancestors. -/
inductive Ancestor where
  /-- The target itself. -/
  | target (entry : Entry)
  /-- A group the target belongs to, directly or through other groups. -/
  | group (entry : Entry) (direct : Bool)
  /-- The domain of the target, or a domain above a domain. -/
  | domain (entry : Entry)
  /-- The global grant entry. -/
  | global (entry : Entry)
deriving DecidableEq

/-- The entry whose grants are read at a step. -/
def Ancestor.entry : Ancestor → Entry
  | target e => e
  | group e _ => e
  | domain e => e
  | global e => e

namespace Ancestry

/-- What stands after each of the dots of a name, longest first. -/
def suffixesAfterDots : List Char → List (List Char)
  | [] => []
  | c :: rest => if c = '.' then rest :: suffixesAfterDots rest else suffixesAfterDots rest

/-- The names of the domains above a domain, nearest first. -/
def parentNames (name : String) : List String :=
  (suffixesAfterDots name.toList).map String.ofList

/-- The groups of a target, each with whether the target is a direct member. Only accounts, calendar
resources and distribution lists inherit from groups. -/
def groups (v : View) (target : Entry) (expandGroups : Bool) : List (Entry × Bool) :=
  let inherits := match target.targetType with
    | .account | .calResource | .distributionList => true
    | _ => false
  if !(inherits && expandGroups) || target.isPseudo then []
  else
    match v.membership target false with
    | .error _ => []
    | .ok membership =>
      membership.groups.filterMap fun group =>
        match v.entry group.id with
        | .ok (some entry) => some (entry, group.direct)
        | _ => none

/-- The domain in which a target lives; a made-up domain stores no grants. -/
def home (v : View) (target : Entry) : List Entry :=
  if target.syntheticDomain?.isSome then []
  else
    match v.homeDomain target with
    | .ok (some domain) => [domain]
    | _ => []

/-- The domains above a domain, nearest first. -/
def domainsAbove (v : View) (target : Entry) : List Entry :=
  (parentNames target.name).filterMap fun name =>
    match v.domainNamed name with
    | .ok (some domain) => some domain
    | _ => none

/-- The domains whose grants a target inherits. -/
def domains (v : View) (target : Entry) : List Entry :=
  if target.targetType.livesInDomain then home v target
  else if target.isDomain then domainsAbove v target
  else []

/-- The end of the chain: the global grant entry, for every target but itself. -/
def last (v : View) (target : Entry) : List (Except Error Entry) :=
  if target.targetType = .global then [] else [v.globalGrant]

/-- The chain of ancestors of a target. -/
def chain (v : View) (target : Entry) (expandGroups : Bool) : List (Except Error Ancestor) :=
  .ok (.target target)
    :: (groups v target expandGroups).map (fun (entry, direct) => .ok (.group entry direct))
    ++ (domains v target).map (fun entry => .ok (.domain entry))
    ++ (last v target).map (Except.map .global)

end Ancestry

end DirectoryRights
