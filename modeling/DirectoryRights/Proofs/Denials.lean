import DirectoryRights.Proofs.Keeping

/-!
# Entries that only deny

The grants of an entry that do not deny can be taken away, so that its denials are left. Among
denials alone the order of the search is the given one. So what is read of the entry afterwards are
the denials that were read before, in the same order.
-/

set_option autoImplicit false

namespace DirectoryRights

namespace Grant

/-- The order of the search leaves the denials in their order. -/
theorem filter_denies_ranked (gs : List Grant) :
    (ranked gs).filter denies = gs.filter denies := by
  have hpositive : ∀ p : Grant → Bool, (∀ g, p g = true → g.denies = false) →
      (gs.filter p).filter denies = [] := by
    intro p hp
    apply filter_eq_nil_of_forall
    intro g hg
    exact hp g (List.mem_filter.mp hg).2
  unfold ranked
  simp only [List.filter_append]
  rw [hpositive isDelegable fun g => not_denies_of_isDelegable,
    hpositive isForUse fun g => not_denies_of_isForUse]
  simp [List.filter_filter]

end Grant

namespace GrantSet

variable {c : Catalog}

/-- The set without the grants that do not deny. -/
def denials (s : GrantSet) : GrantSet :=
  ⟨s.denied⟩

/-- The lines that are left of stored ones when the grants that do not deny are taken away. Lines
that cannot be read stay as they are. -/
def denialLines (c : Catalog) (lines : List String) : List String :=
  match lines.mapM (Grant.parse c) with
  | .ok gs => (ofList gs).denials.lines
  | .error _ => lines

/-- To take the positive grants away is to keep the denials. -/
theorem denials_eq_kept (s : GrantSet) : s.denials = s.kept Grant.denies :=
  congrArg GrantSet.mk (Grant.filter_denies_ranked s.grants).symm

/-- The lines of the denials are those that are kept of the stored ones. -/
theorem denialLines_eq_keptLines (lines : List String) :
    denialLines c lines = keptLines c Grant.denies lines := by
  unfold denialLines keptLines
  cases lines.mapM (Grant.parse c) with
  | error cause => rfl
  | ok gs => exact congrArg GrantSet.lines (ofList gs).denials_eq_kept

/-- Without its positive grants an entry has the denials of before. -/
theorem elim_denials (set : Option GrantSet) :
    (set.bind fun set => Store.present set.denials).elim [] GrantSet.all =
      (set.elim [] GrantSet.all).filter Grant.denies := by
  simp only [denials_eq_kept]
  exact elim_kept set

end GrantSet

/-- The denials of an answer. -/
def GrantAnswer.denials (a : GrantAnswer) : GrantAnswer :=
  a.map fun set => set.bind fun set => Store.present set.denials

namespace Directory

/-- The directory in which the entries of some ids store no grants but denials. -/
def withoutPositive (c : Catalog) (ids : List EntryId) (d : Directory) : Directory :=
  { d with
    attributes := ⟨d.attributes.rows.map fun (key, values) =>
      (key, if key.1 ∈ ids ∧ key.2 = Store.grantAttribute then GrantSet.denialLines c values
        else values)⟩ }

variable (d : Directory) {c : Catalog} {ids : List EntryId}

/-- To take the positive grants away from some entries is to keep their denials. -/
theorem withoutPositive_eq_keeping :
    d.withoutPositive c ids = d.keeping c Grant.denies ids := by
  unfold withoutPositive keeping
  simp only [GrantSet.denialLines_eq_keptLines]

/-- Taking grants away changes nothing about the entries. -/
theorem sameEntries_withoutPositive : SameEntries d (d.withoutPositive c ids) := by
  rw [withoutPositive_eq_keeping]
  exact d.sameEntries_keeping

end Directory

namespace Store

variable {c : Catalog} {d : Directory} {ids : List EntryId}

/-- What is read after grants were taken away, without where it was found. -/
theorem fresh_withoutPositive (e : Entry) :
    (fresh c (.ofDirectory (d.withoutPositive c ids)) e).unplaced =
      if e.id ∈ ids then (fresh c (.ofDirectory d) e).unplaced.denials
      else (fresh c (.ofDirectory d) e).unplaced := by
  unfold GrantAnswer.denials
  simp only [GrantSet.denials_eq_kept]
  rw [d.withoutPositive_eq_keeping]
  exact fresh_keeping (fun _ => rfl) e

end Store

end DirectoryRights
