import DirectoryRights.Store.Sharing
import DirectoryRights.World

/-!
# Building a world

A world is built in the order of its lists. Domains come first, and the domain of an address is made
where it is missing; members are put into groups when all entries exist, and grants are made last,
one by one, each checked as it is stored. Names are looked up as ids first where they are ids, then
as domains, then as other entries. The first thing that fails ends the work.
-/

set_option autoImplicit false

namespace DirectoryRights

/-- Why a world cannot be built. -/
inductive WorldFault where
  /-- An account or a group has no domain in its name. -/
  | notAddress (email : String)
  /-- A name is that of no entry. -/
  | noEntry (name : String)
  /-- A member of a group cannot be found. -/
  | member (group : String) (cause : WorldFault)
  /-- The character stands for no modifier. -/
  | modifier (c : Char)
  /-- A grant has no meaning. -/
  | grant (cause : Error)
  /-- A grant is refused by the store. -/
  | granting (right target : String) (cause : Error)
deriving DecidableEq

/-- What a fault says, from the outermost context to the innermost cause. -/
def WorldFault.chain : WorldFault → List String
  | notAddress email => [email ++ " is not an email address"]
  | noEntry name => ["no such entry: " ++ name]
  | member group cause => ("member of " ++ group) :: cause.chain
  | modifier c => ["unknown right modifier " ++ String.ofList [c]]
  | grant cause => [cause.text]
  | granting right target cause => [s!"granting {right} on {target}", cause.text]

namespace Directory

/-- The entry that a name, an id or the name of the global grant entry stands for. -/
def named? (d : Directory) (name : String) : Option Entry :=
  if Text.sameFolded name globalGrantName then some globalGrant
  else
    (Uuid.parse? name).bind d.entry?
      <|> d.domainNamed? name
      <|> d.entry? (Uuid.ofName name)

/-- The entry of a name, or the fault that there is none. -/
def named (d : Directory) (name : String) : Except WorldFault Entry :=
  match d.named? name with
  | some e => .ok e
  | none => .error (.noEntry name)

/-- A domain of the directory by its name, which is added where it is missing. -/
def withDomain (d : Directory) (name : String) : Directory × Entry :=
  match d.domainNamed? name with
  | some domain => (d, domain)
  | none =>
    let domain := Entry.ofIdentity { id := Uuid.ofName name, name, kind := .domain }
    (d.add domain, domain)

/-- The directory with an entry in the domain of its address. -/
def addAddress (d : Directory) (email : String) (kind : EntryKind) :
    Except WorldFault Directory :=
  match Text.afterFirst? '@' email with
  | none => .error (.notAddress email)
  | some domainName =>
    let (d, domain) := d.withDomain domainName
    .ok (d.add
      { id := Uuid.ofName email, name := email, kind, domainId := some domain.id, pseudo := none })

/-- The directory with a class of service. -/
def addCos (d : Directory) (name : String) : Directory :=
  d.add (.ofIdentity { id := Uuid.ofName name, name, kind := .cos })

/-- The directory with the members of a group. -/
def addMembers (d : Directory) (group : DeclaredGroup) : Except WorldFault Directory := do
  let entry ← d.named group.email
  group.members.foldlM (fun d name => do
    let member ← (d.named name).mapError (.member group.email)
    return d.enroll entry.id member.id) d

end Directory

/-- The admin rank that is declared. -/
def DeclaredRank.rank (declared : DeclaredRank) : AdminRank :=
  { isGlobal := declared = .global, isDelegated := declared = .delegated }

/-- The kind of the entry of an account. -/
def DeclaredAccount.kind (a : DeclaredAccount) : EntryKind :=
  if a.calendarResource then .calResource a.admin.rank else .account a.admin.rank

/-- The kind of the entry of a group. -/
def DeclaredGroup.kind (g : DeclaredGroup) : EntryKind :=
  if g.dynamic then .dynamicGroup g.adminGroup else .distributionList g.adminGroup

namespace DeclaredGrant

/-- The modifier of a grant. -/
def readModifier (g : DeclaredGrant) : Except WorldFault (Option Modifier) :=
  match g.modifier with
  | none => .ok none
  | some c =>
    match Modifier.ofChar? c with
    | some modifier => .ok (some modifier)
    | none => .error (.modifier c)

/-- The grantee of a grant, with the id of the entry in place of its name where the type asks for an
id. -/
def readGrantee (g : DeclaredGrant) (d : Directory) (granteeType : GranteeType) :
    Except WorldFault String :=
  if granteeType.isNamedById ∧ Uuid.parse? g.grantee = none then
    (d.named g.grantee).map (·.id.text)
  else
    .ok g.grantee

/-- The grant that is meant. -/
def read (g : DeclaredGrant) (c : Catalog) (d : Directory) : Except WorldFault Grant := do
  match GranteeType.ofCode? g.granteeType with
  | none => .error (.grant (.unknownGranteeType g.granteeType))
  | some granteeType =>
    let right ← (c.lookup g.right).mapError .grant
    let modifier ← g.readModifier
    let grantee ← g.readGrantee d granteeType
    return Grant.make grantee granteeType right modifier g.secret

/-- The store with a grant made. -/
def make (g : DeclaredGrant) (c : Catalog) (maxLifetime now : Int) (s : Store) :
    Except WorldFault Store := do
  let target ← s.directory.named g.target
  let grant ← g.read c s.directory
  match g.expiry with
  | some expiry =>
    let made := s.grantUntil c maxLifetime target [grant] (some expiry) now
    (made.map Prod.snd).mapError (.granting g.right g.target)
  | none => ((s.grant c target [grant]).map Prod.snd).mapError (.granting g.right g.target)

end DeclaredGrant

namespace World

/-- The entries of a world. -/
def entries (w : World) : Except WorldFault Directory := do
  let d := w.domains.foldl (fun d name => (d.withDomain name).1) Directory.empty
  let d := w.cos.foldl Directory.addCos d
  let d ← w.accounts.foldlM (fun d a => d.addAddress a.email a.kind) d
  w.groups.foldlM (fun d g => d.addAddress g.email g.kind) d

/-- The entries of a world with the members of its groups. -/
def directory (w : World) : Except WorldFault Directory := do
  w.groups.foldlM Directory.addMembers (← w.entries)

/-- The store of a world. -/
def build (w : World) (c : Catalog) (maxLifetime now : Int) : Except WorldFault Store := do
  w.grants.foldlM (fun s g => g.make c maxLifetime now s) (.ofDirectory (← w.directory))

end World

end DirectoryRights
