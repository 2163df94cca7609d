import DirectoryRights.Grant.Line
import DirectoryRights.Entry

/-!
# The grants of one entry

A grant set holds at most one grant per slot. A new grant replaces the grant of its slot and goes to
the end; a grant that says what is there already changes nothing. Denials are listed before grants
that can be passed on, and these before the others; within each group the order is that of arrival.
-/

set_option autoImplicit false

namespace DirectoryRights

/-- The grants stored on one entry, in the order of their arrival. -/
structure GrantSet where
  /-- The grants. -/
  grants : List Grant

namespace GrantSet

/-- The set without grants. -/
def empty : GrantSet := ⟨[]⟩

/-- The grants that deny. -/
def denied (s : GrantSet) : List Grant :=
  s.grants.filter (·.denies)

/-- The grants that can be passed on. -/
def delegable (s : GrantSet) : List Grant :=
  s.grants.filter (·.isDelegable)

/-- The grants that can be used only. -/
def forUse (s : GrantSet) : List Grant :=
  s.grants.filter (·.isForUse)

/-- All grants, denials first and those for use only last. -/
def all (s : GrantSet) : List Grant :=
  Grant.ranked s.grants

/-- The number of grants. -/
def size (s : GrantSet) : Nat :=
  s.grants.length

/-- Whether the set holds no grants. -/
def isEmpty (s : GrantSet) : Bool :=
  s.grants.isEmpty

/-- Whether the set holds a grant that says the same. -/
def holds (s : GrantSet) (g : Grant) : Bool :=
  s.grants.any (·.same g)

/-- The set with one more grant, in place of the one of its slot. -/
def insert (s : GrantSet) (g : Grant) : GrantSet :=
  if s.holds g then s else ⟨s.grants.filter (·.slot ≠ g.slot) ++ [g]⟩

/-- The set of a list of grants. -/
def ofList (gs : List Grant) : GrantSet :=
  gs.foldl insert empty

/-- The set with some more grants, and those of them that changed it. -/
def grant (s : GrantSet) : List Grant → GrantSet × List Grant
  | [] => (s, [])
  | g :: rest =>
    let (after, granted) := (s.insert g).grant rest
    (after, if s.holds g then granted else g :: granted)

/-- The set without some grants, and those that were in it. A grant is named by its slot and its
modifier; its secret does not matter. -/
def revoke (s : GrantSet) : List Grant → GrantSet × List Grant
  | [] => (s, [])
  | g :: rest =>
    let (after, revoked) := revoke ⟨s.grants.filter (!·.sameTerms g)⟩ rest
    (after, s.all.filter (·.sameTerms g) ++ revoked)

/-- The grants of the rights with the given names. -/
def ofRights (s : GrantSet) (names : List String) : List Grant :=
  s.all.filter (names.contains ·.right.name)

/-- The stored lines of the set. -/
def lines (s : GrantSet) : List String :=
  s.all.map Grant.line

/-- The set stored on an entry as lines; one line that cannot be read spoils the whole set. -/
def parse (c : Catalog) (entry : Entry) (lines : List String) : Except Error GrantSet :=
  let origin : Origin := { targetType := entry.targetType, targetName := entry.name }
  (lines.mapM (Grant.parse c)).map fun gs =>
    ofList (gs.map fun g => { g with origin := some origin })

/-- Whether two sets list the same grants in the same order. -/
def same (s t : GrantSet) : Bool :=
  s.size = t.size && (s.all.zip t.all).all fun (g, h) => g.same h

end GrantSet

end DirectoryRights
