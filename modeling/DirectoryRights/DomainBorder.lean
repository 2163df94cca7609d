import DirectoryRights.Reading
import DirectoryRights.Decision
import DirectoryRights.Directory.View

/-!
# Administration across domains

An admin profits from grants made to a group of another domain only if the domain of the target
grants the cross-domain admin right to the domain of the admin. That right is read from the grants
stored on the domain itself, and a domain that says nothing denies it.
-/

set_option autoImplicit false

namespace DirectoryRights.DomainBorder

/-- Whether a grant is about the cross-domain admin right of the domain with a given id. -/
def concerns (domainId : String) (g : Grant) : Bool :=
  g.right.isCrossDomainAdmin && g.granteeType = .domain && g.grantee = domainId

/-- What the grants of a domain say of the cross-domain admin right of another. -/
def decide (domainId : String) (delegate : Bool) (grants : List Grant) : Decision :=
  match grants.find? fun g => concerns domainId g && !(delegate && g.isForUse) with
  | some g => if g.denies then .deny else .allow
  | none => .deny

/-- The cross-domain admin right of the domain `holder` on the domain `target`. -/
def check (holder target : Entry) (delegate : Bool) : Reader Decision :=
  if target.isDomain then do
    match ← Reader.grantsOf target with
    | some set => return decide holder.id.text delegate set.all
    | none => return .deny
  else
    throw (.crossDomainTarget target.targetType)

/-- Whether positive grants of a group count for an admin of the domain `holder` on a target in the
domain `target`. They do where there is no such domain, where the admin or the group belongs to it,
and where it grants the cross-domain admin right; a failure on the way counts as a refusal. -/
def groupCounts (v : View) (holder : Entry) (target : Option Entry) (group : Entry) :
    Reading Bool :=
  match target with
  | none => return true
  | some domain =>
    if holder.id = domain.id then return true
    else
      match v.homeDomain group with
      | .ok (some groupDomain) =>
        if groupDomain.id = domain.id then return true
        else do
          match ← (check holder domain false).run with
          | .ok decision => return decision = .allow
          | .error _ => return false
      | _ => return false

end DirectoryRights.DomainBorder
