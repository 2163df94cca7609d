import DirectoryRights.AccessControl

/-!
# A small directory

Ann lets Bob send in her name; both are accounts without a domain. General statements are tried on
this directory, and those about admins on a second one: Alice's account lives in one domain and is a
member of a list of this domain and of a list of another, in which a delegated admin lives.
-/

set_option autoImplicit false

namespace DirectoryRights

namespace Sample

/-- The id all of whose digits are the last one of a number. -/
def idOf (n : Nat) : EntryId :=
  ⟨List.replicate 32 (Uuid.lastDigit n), List.length_replicate⟩

/-- An account without an admin rank. -/
def account (n : Nat) (name : String) : Entry :=
  .ofIdentity { id := idOf n, name, kind := .account { isGlobal := false, isDelegated := false } }

/-- Ann's account. -/
def ann : Entry := account 1 "ann@example.com"

/-- Bob's account. -/
def bob : Entry := account 2 "bob@example.com"

/-- The right to send in somebody's name. -/
def sendAs : Right :=
  .preset { name := "sendAs", description := none, default := none, slot := some 0 } .account
    (.users none)

/-- The definition of this right. -/
def definition : Definition :=
  { Definition.preset "sendAs" .account true with cache := true }

/-- The right, given to somebody for use. -/
def grantTo (grantee : String) : Grant :=
  .make grantee .user sendAs none none

/-- Access control over this right alone. -/
def control : AccessControl where
  catalog := ⟨[sendAs]⟩
  rules := .ofList []
  maxLifetime := 0

/-- The catalog comes from the definition. -/
theorem catalog_built : Catalog.ofDefinitions [definition] = .ok control.catalog := rfl

/-- The directory of Ann and Bob with the lines stored on Ann's account. -/
def directoryWith (lines : List String) : Directory :=
  (((Directory.empty.add ann).add bob).setValues ann.id Store.grantAttribute lines)

/-- The directory in which Ann lets Bob send in her name. -/
def directory : Directory :=
  directoryWith ["22222222-2222-2222-2222-222222222222 usr sendAs"]

/-- Bob asks whether he may send in Ann's name. -/
def request : Request :=
  .ofRight (.entry bob) ann sendAs

/-! ## Two domains

The admin and the list "team" live in the first domain, Alice and the list "staff" in the second. -/

/-- A domain of a name. -/
def domain (n : Nat) (name : String) : Entry :=
  .ofIdentity { id := idOf n, name, kind := .domain }

/-- An entry that lives in a domain. -/
def owned (n : Nat) (name : String) (kind : EntryKind) (home : Entry) : Entry :=
  { Entry.ofIdentity { id := idOf n, name, kind } with domainId := some home.id }

/-- The first domain. -/
def home : Entry := domain 3 "home.com"

/-- The second domain. -/
def away : Entry := domain 4 "away.com"

/-- The delegated admin, whose account lives in the first domain. -/
def admin : Entry :=
  owned 5 "admin@home.com" (.account { isGlobal := false, isDelegated := true }) home

/-- The list of the first domain. -/
def team : Entry := owned 6 "team@home.com" (.distributionList false) home

/-- The list of the second domain. -/
def staff : Entry := owned 7 "staff@away.com" (.distributionList false) away

/-- Alice's account, which lives in the second domain. -/
def alice : Entry :=
  owned 8 "alice@away.com" (.account { isGlobal := false, isDelegated := false }) away

/-- The admin right to see an account. -/
def listAccount : Right :=
  .preset { name := "listAccount", description := none, default := none, slot := none } .account
    .admins

/-- The admin right to add members to a list. -/
def addMember : Right :=
  .preset { name := "addDistributionListMember", description := none, default := none,
            slot := none } .distributionList .admins

/-- The right that opens a domain to the admins of another. -/
def opening : Right :=
  .preset { name := crossDomainAdmin, description := none, default := none, slot := none } .domain
    .admins

/-- Access control over these rights. -/
def office : AccessControl where
  catalog := ⟨[listAccount, addMember, opening]⟩
  rules := .ofList []
  maxLifetime := 0

/-- The definitions of these rights. -/
def officeDefinitions : List Definition :=
  [.preset "listAccount" .account false,
    .preset "addDistributionListMember" .distributionList false,
    .preset crossDomainAdmin .domain false]

/-- The catalog comes from the definitions. -/
theorem office_catalog_built : Catalog.ofDefinitions officeDefinitions = .ok office.catalog := rfl

/-- The directory into which some entries came, one after the other. -/
def directoryOf (entries : List Entry) : Directory :=
  entries.foldl Directory.add .empty

/-- The directory with one line as the grants of an entry. -/
def storing (e : Entry) (line : String) (d : Directory) : Directory :=
  d.setValues e.id Store.grantAttribute [line]

/-- The line that gives the admin the right to see accounts. -/
def adminLine : String := "55555555-5555-5555-5555-555555555555 usr listAccount"

/-- The line that gives the admin the right to add members to lists. -/
def memberLine : String := "55555555-5555-5555-5555-555555555555 usr addDistributionListMember"

/-- The line that opens a domain to the admins of the first one. -/
def openingLine : String := "33333333-3333-3333-3333-333333333333 dom crossDomainAdmin"

/-- The directory of the two domains, with Alice in both lists. -/
def domains : Directory :=
  ((directoryOf [home, away, admin, team, staff, alice]).enroll team.id alice.id).enroll
    staff.id alice.id

/-- The directory in which both lists let the admin see Alice's account. -/
def listed : Directory :=
  storing team adminLine (storing staff adminLine domains)

/-- The admin asks whether an entry may be seen. -/
def listing (target : Entry) : Request :=
  .ofRight (.entry admin) target listAccount

end Sample

end DirectoryRights
