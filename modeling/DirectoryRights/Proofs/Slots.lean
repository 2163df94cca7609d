import Mathlib.Data.List.Nodup
import DirectoryRights.GrantSet
import DirectoryRights.Proofs.FirstMatch

/-!
# One grant for each slot

A set of grants never holds two grants of one slot, however it was built. So a list of grants of
different slots is the set of itself, and putting a set in the order of the search and building it
anew from there gives the same order again. What a set holds after a change comes from the set
before it or from the change. At most one grant of a set is about the border of a given domain.
-/

set_option autoImplicit false

namespace DirectoryRights

namespace Grant

/-- Nothing is left of a list in which nothing passes the test. -/
theorem filter_eq_nil_of_forall {p : Grant → Bool} {gs : List Grant}
    (h : ∀ g ∈ gs, p g = false) : gs.filter p = [] := by
  rw [List.filter_eq_nil_iff]
  intro g hg
  rw [h g hg]
  exact Bool.false_ne_true

/-- The order of the search stays as it is when it is made once more. -/
theorem ranked_ranked (gs : List Grant) : ranked (ranked gs) = ranked gs := by
  have hkinds : ∀ g : Grant, (g.denies = true → g.isDelegable = false ∧ g.isForUse = false) ∧
      (g.isDelegable = true → g.denies = false ∧ g.isForUse = false) ∧
      (g.isForUse = true → g.denies = false ∧ g.isDelegable = false) := by
    intro g
    unfold denies isForUse isDelegable denies
    rcases g.modifier with _ | _ | _ | _ | _ <;> decide
  have hself : ∀ p : Grant → Bool, (gs.filter p).filter p = gs.filter p := fun p => by
    rw [List.filter_filter]
    simp only [Bool.and_self]
  have hother : ∀ p q : Grant → Bool, (∀ g, p g = true → q g = false) →
      (gs.filter p).filter q = [] := fun p q hpq =>
    filter_eq_nil_of_forall fun g hg => hpq g (List.mem_filter.mp hg).2
  unfold ranked
  simp only [List.filter_append]
  rw [hself, hself, hself, hother isDelegable denies fun g h => ((hkinds g).2.1 h).1,
    hother isForUse denies fun g h => ((hkinds g).2.2 h).1,
    hother denies isDelegable fun g h => ((hkinds g).1 h).1,
    hother isForUse isDelegable fun g h => ((hkinds g).2.2 h).2,
    hother denies isForUse fun g h => ((hkinds g).1 h).2,
    hother isDelegable isForUse fun g h => ((hkinds g).2.1 h).2]
  simp only [List.append_nil, List.nil_append]

/-- The order of the search is an order of the same grants. -/
theorem ranked_perm (gs : List Grant) : (ranked gs).Perm gs := by
  have hrest : (gs.filter isDelegable ++ gs.filter isForUse).Perm (gs.filter (!·.denies)) := by
    have hdelegable : (gs.filter (!·.denies)).filter isDelegable = gs.filter isDelegable := by
      rw [List.filter_filter]
      refine List.filter_congr fun g _ => ?_
      cases h : g.isDelegable with
      | true => rw [not_denies_of_isDelegable h]; rfl
      | false => rfl
    have hforUse : (gs.filter (!·.denies)).filter (!·.isDelegable) = gs.filter isForUse := by
      rw [List.filter_filter]
      rfl
    rw [← hdelegable, ← hforUse]
    exact List.filter_append_perm isDelegable _
  unfold ranked
  rw [List.append_assoc]
  exact (hrest.append_left _).trans (List.filter_append_perm denies gs)

end Grant

namespace GrantSet

/-- No two grants of the set have one slot. -/
def Distinct (s : GrantSet) : Prop :=
  (s.grants.map Grant.slot).Nodup

/-- In the empty set no slot has a grant. -/
theorem distinct_empty : empty.Distinct := List.nodup_nil

/-- After a grant was added the grants are this one and those of before. -/
theorem mem_insert {s : GrantSet} {g h : Grant} (hh : h ∈ (s.insert g).grants) :
    h ∈ s.grants ∨ h = g := by
  unfold insert at hh
  by_cases hheld : s.holds g = true
  · rw [if_pos hheld] at hh
    exact .inl hh
  · rw [if_neg hheld] at hh
    rcases List.mem_append.mp hh with hold | hnew
    · exact .inl (List.mem_filter.mp hold).1
    · exact .inr (List.mem_singleton.mp hnew)

/-- After a grant was added each slot still has one grant. -/
theorem Distinct.insert {s : GrantSet} (h : s.Distinct) (g : Grant) : (s.insert g).Distinct := by
  unfold GrantSet.insert
  by_cases hheld : s.holds g = true
  · rw [if_pos hheld]
    exact h
  · rw [if_neg hheld]
    unfold Distinct
    rw [List.map_append, List.nodup_append]
    refine ⟨h.sublist (List.filter_sublist.map _), List.pairwise_singleton _ _, ?_⟩
    intro slot hslot other hother
    obtain ⟨kept, hkept, rfl⟩ := List.mem_map.mp hslot
    rw [List.map_singleton, List.mem_singleton] at hother
    rw [hother]
    exact of_decide_eq_true (List.mem_filter.mp hkept).2

/-- A grant of a new slot goes to the end. -/
theorem insert_of_new {s : GrantSet} {g : Grant} (h : ∀ other ∈ s.grants, other.slot ≠ g.slot) :
    s.insert g = ⟨s.grants ++ [g]⟩ := by
  have hheld : ¬ s.holds g = true := by
    intro hheld
    obtain ⟨other, hother, hsame⟩ := List.any_eq_true.mp hheld
    exact h other hother (Grant.same_iff.mp hsame).1
  unfold insert
  rw [if_neg hheld, List.filter_eq_self.mpr fun other hother => decide_eq_true (h other hother)]

/-- After grants were added, one after the other, the grants are these and those of before. -/
theorem mem_foldl_insert {gs : List Grant} {s : GrantSet} {h : Grant}
    (hh : h ∈ (gs.foldl insert s).grants) : h ∈ s.grants ∨ h ∈ gs := by
  induction gs generalizing s with
  | nil => exact .inl hh
  | cons g rest ih =>
    rcases ih hh with hmem | hmem
    · rcases mem_insert hmem with hold | rfl
      · exact .inl hold
      · exact .inr List.mem_cons_self
    · exact .inr (List.mem_cons_of_mem _ hmem)

/-- The grants of a set that is made of a list are those of the list. -/
theorem mem_ofList {gs : List Grant} {h : Grant} (hh : h ∈ (ofList gs).grants) : h ∈ gs :=
  (mem_foldl_insert hh).resolve_left List.not_mem_nil

/-- In a set that is made of a list each slot has one grant. -/
theorem distinct_ofList (gs : List Grant) : (ofList gs).Distinct := by
  have hfold : ∀ s : GrantSet, s.Distinct → (gs.foldl insert s).Distinct := by
    induction gs with
    | nil => exact fun s hs => hs
    | cons g rest ih => exact fun s hs => ih (s.insert g) (hs.insert g)
  exact hfold empty distinct_empty

/-- A list of grants of different slots is the set of itself. -/
theorem ofList_of_nodup {gs : List Grant} (h : (gs.map Grant.slot).Nodup) : ofList gs = ⟨gs⟩ := by
  have hfold : ∀ before : List Grant, ((before ++ gs).map Grant.slot).Nodup →
      gs.foldl insert ⟨before⟩ = ⟨before ++ gs⟩ := by
    clear h
    induction gs with
    | nil => exact fun before _ => by rw [List.append_nil]; rfl
    | cons g rest ih =>
      intro before hnodup
      have hnew : ∀ other ∈ before, other.slot ≠ g.slot := by
        intro other hother
        rw [List.map_append, List.nodup_append] at hnodup
        exact hnodup.2.2 _ (List.mem_map_of_mem hother) _ List.mem_cons_self
      rw [List.foldl_cons, insert_of_new hnew, ih]
      · simp
      · simpa using hnodup
  exact hfold [] h

/-! ## Changes -/

/-- The set after some grants is the one after them all, one after the other. -/
theorem grant_fst (s : GrantSet) (gs : List Grant) : (s.grant gs).1 = gs.foldl insert s := by
  induction gs generalizing s with
  | nil => rfl
  | cons g rest ih => exact ih (s.insert g)

/-- After granting the grants are the new ones and those of before. -/
theorem mem_grant {s : GrantSet} {gs : List Grant} {h : Grant} (hh : h ∈ (s.grant gs).1.grants) :
    h ∈ s.grants ∨ h ∈ gs := by
  rw [grant_fst] at hh
  exact mem_foldl_insert hh

/-- After granting each slot still has one grant. -/
theorem Distinct.grant {s : GrantSet} (h : s.Distinct) (gs : List Grant) :
    (s.grant gs).1.Distinct := by
  induction gs generalizing s with
  | nil => exact h
  | cons g rest ih => exact ih (h.insert g)

/-- If no grant changed the set, it is what it was. -/
theorem grant_of_unchanged {s : GrantSet} {gs : List Grant} (h : (s.grant gs).2 = []) :
    (s.grant gs).1 = s := by
  induction gs generalizing s with
  | nil => rfl
  | cons g rest ih =>
    by_cases hheld : s.holds g = true
    · have hsame : s.insert g = s := by
        unfold insert
        rw [if_pos hheld]
      simp only [grant, if_pos hheld, hsame] at h ⊢
      exact ih h
    · simp only [grant, if_neg hheld] at h
      cases h

end GrantSet

namespace DomainBorder

/-- A grant that is about the border of a domain has the slot of this matter. -/
theorem slot_of_concerns {domainId : String} {g : Grant} (h : concerns domainId g = true) :
    g.slot = ⟨domainId, .domain, crossDomainAdmin⟩ := by
  unfold concerns Right.isCrossDomainAdmin at h
  simp only [Bool.and_eq_true, decide_eq_true_eq] at h
  unfold Grant.slot
  rw [h.1.1, h.1.2, h.2]

/-- Where each slot has one grant, there is one grant about the border of a domain at most. -/
theorem eq_of_concerns {domainId : String} {gs : List Grant}
    (hdistinct : (gs.map Grant.slot).Nodup) {g g' : Grant} (hg : g ∈ gs) (hg' : g' ∈ gs)
    (h : concerns domainId g = true) (h' : concerns domainId g' = true) : g = g' := by
  apply List.inj_on_of_nodup_map hdistinct hg hg'
  rw [slot_of_concerns h, slot_of_concerns h']

end DomainBorder

end DirectoryRights
