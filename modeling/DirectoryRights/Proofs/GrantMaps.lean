import DirectoryRights.GrantSet

/-!
# Changes of grants that leave sets as they are

A set of grants is put together and listed by what its grants are about, by their modifiers and by
their secrets. A change of grants that leaves these alone can be made before or after: the set of
the changed grants is the changed set.
-/

set_option autoImplicit false

namespace DirectoryRights

/-- A change of grants that leaves their slots, their modifiers and their secrets alone. -/
structure Grant.KeepsTerms (p : Grant → Grant) : Prop where
  /-- The changed grant is about the same. -/
  slot : ∀ g, (p g).slot = g.slot
  /-- Nothing else is special about it. -/
  modifier : ∀ g, (p g).modifier = g.modifier
  /-- It has the same secret. -/
  secret : ∀ g, (p g).secret = g.secret

/-- The set of the changed grants. -/
def GrantSet.map (p : Grant → Grant) (s : GrantSet) : GrantSet :=
  ⟨s.grants.map p⟩

namespace Grant

variable {p : Grant → Grant}

/-- A filter of the changed grants that keeps what the first one keeps of the grants. -/
theorem filter_map {t t' : Grant → Bool} (ht : ∀ g, t' (p g) = t g) (gs : List Grant) :
    (gs.map p).filter t' = (gs.filter t).map p := by
  rw [List.filter_map]
  congr 1
  exact List.filter_congr fun g _ => ht g

/-- The first changed grant that passes a test is the first grant that passes it, changed. -/
theorem find?_map {t t' : Grant → Bool} (ht : ∀ g, t' (p g) = t g) (gs : List Grant) :
    (gs.map p).find? t' = (gs.find? t).map p := by
  rw [List.find?_map]
  congr 1
  exact congrArg (List.find? · gs) (funext ht)

/-- The changed grant denies where the grant does. -/
theorem KeepsTerms.denies (hp : KeepsTerms p) (g : Grant) : (p g).denies = g.denies := by
  unfold Grant.denies
  rw [hp.modifier]

/-- The changed grant may be passed on where the grant may. -/
theorem KeepsTerms.isDelegable (hp : KeepsTerms p) (g : Grant) :
    (p g).isDelegable = g.isDelegable := by
  unfold Grant.isDelegable
  rw [hp.modifier]

/-- The changed grant is for use where the grant is. -/
theorem KeepsTerms.isForUse (hp : KeepsTerms p) (g : Grant) : (p g).isForUse = g.isForUse := by
  unfold Grant.isForUse
  rw [hp.isDelegable, hp.denies]

/-- The changed grants are searched in the order of the grants. -/
theorem KeepsTerms.ranked_map (hp : KeepsTerms p) (gs : List Grant) :
    ranked (gs.map p) = (ranked gs).map p := by
  unfold ranked
  rw [filter_map hp.denies, filter_map hp.isDelegable, filter_map hp.isForUse, List.map_append,
    List.map_append]

/-- Two changed grants say the same exactly if the grants do. -/
theorem KeepsTerms.same (hp : KeepsTerms p) (g h : Grant) : (p g).same (p h) = g.same h := by
  unfold Grant.same sameTerms
  rw [hp.slot, hp.slot, hp.modifier, hp.modifier, hp.secret, hp.secret]

end Grant

namespace GrantSet

variable {p : Grant → Grant} (hp : Grant.KeepsTerms p)

include hp

/-- The changed set lists the changed grants in the order of the set. -/
theorem all_map (s : GrantSet) : (s.map p).all = s.all.map p :=
  hp.ranked_map s.grants

/-- The changed set holds what the set held. -/
theorem holds_map (s : GrantSet) (g : Grant) : (s.map p).holds (p g) = s.holds g := by
  unfold holds map
  rw [List.any_map]
  congr 1
  funext other
  exact hp.same other g

/-- Adding a grant and changing the set can be done in either order. -/
theorem insert_map (s : GrantSet) (g : Grant) : (s.insert g).map p = (s.map p).insert (p g) := by
  unfold insert
  rw [holds_map hp]
  by_cases h : s.holds g = true
  · rw [if_pos h, if_pos h]
  · rw [if_neg h, if_neg h]
    have hfilter : (s.grants.map p).filter (fun x => decide (x.slot ≠ (p g).slot)) =
        (s.grants.filter fun x => decide (x.slot ≠ g.slot)).map p := by
      rw [hp.slot]
      refine Grant.filter_map (fun x => ?_) s.grants
      rw [hp.slot]
    simp only [map, List.map_append]
    exact congrArg (fun gs => GrantSet.mk (gs ++ [p g])) hfilter.symm

/-- The set made of changed grants is the changed set. -/
theorem ofList_map (gs : List Grant) : (ofList gs).map p = ofList (gs.map p) := by
  have hfold : ∀ s : GrantSet, (gs.foldl insert s).map p = (gs.map p).foldl insert (s.map p) := by
    induction gs with
    | nil => exact fun s => rfl
    | cons g rest ih =>
      intro s
      show (rest.foldl insert (s.insert g)).map p = _
      rw [ih, insert_map hp]
      rfl
  exact hfold empty

end GrantSet

end DirectoryRights
