import DirectoryRights.Catalog.Definition

/-!
# The standard rights

The rights that are defined where nothing else is said: those of users on their mail and their
lists, those of admins on accounts, lists, domains and classes of service, and two bundles for the
admins of a domain.
-/

set_option autoImplicit false

namespace DirectoryRights.Definition

/-- A definition with a description. -/
def about (d : Definition) (description : String) : Definition :=
  { d with description := some description }

/-- A definition whose decisions are cached. -/
def cached (d : Definition) : Definition :=
  { d with cache := true }

/-- A right held by users. -/
def ofUsers (name : String) (target : TargetType) : Definition :=
  preset name target true

/-- A right held by admins. -/
def ofAdmins (name : String) (target : TargetType) : Definition :=
  preset name target false

/-- An admin right on attributes, all of them where none are named. -/
def onAttrs (name : String) (kind : RightKind) (target : WrittenTargets)
    (attrs : Option (List String)) : Definition :=
  { ofAdmins name .account with kind, target := some target, attrs }

/-- The standard rights of users. -/
def standardUserRights : List Definition :=
  [(ofUsers "sendAs" .account).cached.about "send as the target account",
    (ofUsers "sendOnBehalfOf" .account).cached.about "send on behalf of the target account",
    { (ofUsers "viewFreeBusy" .account).cached with
      default := some .allow
      description := some "view the free/busy schedule of the target account" },
    { ofUsers "invite" .account with
      default := some .allow
      description := some "invite the target account to meetings" },
    (ofUsers "sendToDistList" .distributionList).cached.about
      "send mail to the target distribution list",
    (ofUsers "ownDistList" .distributionList).about "own the target distribution list"]

/-- The standard rights of admins. -/
def standardAdminRights : List Definition :=
  [(ofAdmins crossDomainAdmin .domain).about
      "administer targets in another domain through a group of this domain",
    (ofAdmins "createAccount" .domain).about "create accounts in the domain",
    (ofAdmins "listDomain" .domain).about "list the domain",
    (ofAdmins "createDistributionList" .domain).about "create distribution lists in the domain",
    (ofAdmins "listAccount" .account).cached.about "list the account",
    (ofAdmins "deleteAccount" .account).about "delete the account",
    (ofAdmins "renameAccount" .account).about "rename the account",
    (ofAdmins "adminLoginAs" .account).about "log in as the account",
    (ofAdmins "addDistributionListMember" .distributionList).about
      "add members to the distribution list",
    (ofAdmins "listCos" .cos).about "list the class of service",
    (onAttrs "getAccount" .getAttrs (.one .account) none).about "read every account attribute",
    (onAttrs "modifyAccount" .setAttrs (.one .account) none).about "write every account attribute",
    (onAttrs "setAccountQuota" .setAttrs (.many [.account, .cos]) (some ["zimbraMailQuota"])).about
      "change the mail quota"]

/-- The standard bundles. -/
def standardBundles : List Definition :=
  [(combo "domainAdminAccountRights"
      ["listAccount", "deleteAccount", "renameAccount", "getAccount", "modifyAccount"]).about
      "account rights of a domain admin",
    (combo "domainAdminRights"
      ["domainAdminAccountRights", "createAccount", "listDomain", "createDistributionList"]).about
      "all rights of a domain admin"]

/-- The standard rights, in the order of their definition. -/
def standard : List Definition :=
  standardUserRights ++ standardAdminRights ++ standardBundles

end DirectoryRights.Definition
