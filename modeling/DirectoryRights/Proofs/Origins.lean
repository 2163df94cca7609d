import DirectoryRights.Proofs.Alterations
import DirectoryRights.Proofs.Recall

/-!
# Where a grant was found

A grant that was read carries the kind and the name of the entry that stores it. Nothing in a check
looks at this: the entry is only reported. So a check goes the same way whether the grants carry it
or not, and two sources whose grants differ in nothing else lead to the same decision, to the same
errors and to the same deciding grant but for where it was found.
-/

set_option autoImplicit false

namespace DirectoryRights

/-- The grant without where it was found. -/
def Grant.unplaced (g : Grant) : Grant :=
  { g with origin := none }

/-- The set without where its grants were found. -/
def GrantSet.unplaced (s : GrantSet) : GrantSet :=
  ⟨s.grants.map Grant.unplaced⟩

/-- The answer without where its grants were found. -/
def GrantAnswer.unplaced (a : GrantAnswer) : GrantAnswer :=
  a.map (Option.map GrantSet.unplaced)

/-- Where a grant was found is none of its terms. -/
theorem Grant.keepsTerms_unplaced : Grant.KeepsTerms Grant.unplaced where
  slot _ := rfl
  modifier _ := rfl
  secret _ := rfl

namespace Grant

/-- A filter that does not look at where grants were found. -/
theorem filter_map_unplaced {p : Grant → Bool} (hp : ∀ g, p g.unplaced = p g) (gs : List Grant) :
    (gs.map unplaced).filter p = (gs.filter p).map unplaced :=
  filter_map hp gs

/-- The order of the search does not depend on where grants were found. -/
theorem ranked_map_unplaced (gs : List Grant) :
    ranked (gs.map unplaced) = (ranked gs).map unplaced :=
  keepsTerms_unplaced.ranked_map gs

end Grant

namespace GrantSet

/-- The grants of a set without their places are those of the set, without theirs. -/
theorem all_unplaced (s : GrantSet) : s.unplaced.all = s.all.map Grant.unplaced :=
  all_map Grant.keepsTerms_unplaced s

/-- A set can be made before or after the places are dropped. -/
theorem ofList_unplaced (gs : List Grant) :
    (ofList gs).unplaced = ofList (gs.map Grant.unplaced) :=
  ofList_map Grant.keepsTerms_unplaced gs

/-- An empty set and none have the same grants. -/
theorem elim_present (s : GrantSet) : (Store.present s).elim [] all = s.all := by
  unfold Store.present
  by_cases hempty : s.isEmpty = true
  · rw [if_pos hempty]
    have hnil : s.grants = [] := List.isEmpty_iff.mp hempty
    unfold all
    rw [hnil]
    rfl
  · rw [if_neg hempty]
    rfl

/-- A changed set is empty exactly if the set was. -/
theorem present_map (p : Grant → Grant) (s : GrantSet) :
    (Store.present s).map (GrantSet.map p) = Store.present (s.map p) := by
  unfold Store.present isEmpty map
  rw [List.isEmpty_map]
  cases s.grants.isEmpty <;> rfl

/-- A set without its places is empty exactly if the set is. -/
theorem present_unplaced (s : GrantSet) :
    (Store.present s).map unplaced = Store.present s.unplaced :=
  s.present_map Grant.unplaced

/-- What is stored is the same on every entry, but for where it is found. -/
theorem parse_unplaced (c : Catalog) (e f : Entry) (lines : List String) :
    (parse c e lines).map unplaced = (parse c f lines).map unplaced := by
  unfold parse
  cases lines.mapM (Grant.parse c) with
  | error cause => rfl
  | ok gs =>
    show Except.ok (ofList _).unplaced = Except.ok (ofList _).unplaced
    rw [ofList_unplaced, ofList_unplaced, List.map_map, List.map_map]
    rfl

end GrantSet

/-- Places are dropped once. -/
theorem GrantAnswer.unplaced_unplaced (a : GrantAnswer) : a.unplaced.unplaced = a.unplaced := by
  rcases a with e | set | set
  · rfl
  · rfl
  · show Except.ok (some (GrantSet.mk ((set.grants.map Grant.unplaced).map Grant.unplaced))) = _
    rw [List.map_map]
    rfl

/-- Where grants were found makes no difference at a border. -/
theorem DomainBorder.check_unplaced (source : Entry → GrantAnswer) (holder target : Entry)
    (delegate : Bool) :
    (check holder target delegate).eval (fun e => (source e).unplaced) =
      (check holder target delegate).eval source := by
  have hcheck : (check holder target delegate).eval (fun e => (source e).unplaced) =
      ((check holder target delegate).eval source).map id :=
    (follows_check Grant.keepsTerms_unplaced holder target delegate).eval fun _ => rfl
  rw [hcheck]
  cases (check holder target delegate).eval source <;> rfl

namespace Inquiry

variable (q : Inquiry)

/-- Where grants were found makes no difference to a search but for the place itself. -/
theorem alters_unplaced : q.Alters Grant.unplaced q.right where
  terms := Grant.keepsTerms_unplaced
  name := rfl
  isUserRight := rfl
  concerns _ _ := rfl

/-- Where grants were found makes no difference to whether a group counts. -/
theorem groupCounts_unplaced (source : Entry → GrantAnswer) (holder home : Option Entry)
    (group : Entry) :
    (q.groupCounts holder home group).eval (fun e => (source e).unplaced) =
      (q.groupCounts holder home group).eval source :=
  (q.alters_unplaced.groupCounts holder home group).eval fun _ => rfl

/-- Without where grants were found a check ends the same, but for where its grant was found. -/
theorem answer_unplaced (source : Entry → GrantAnswer) :
    q.answer.eval (fun e => (source e).unplaced) =
      (q.answer.eval source).map (Prod.map id (Option.map Grant.unplaced)) :=
  (q.alters_unplaced.answer rfl).eval fun _ => rfl

/-- Sources that differ only in where grants were found lead to the same decision or error. -/
theorem decision_congr {source other : Entry → GrantAnswer}
    (h : ∀ e, (source e).unplaced = (other e).unplaced) :
    (q.answer.eval source).map Prod.fst = (q.answer.eval other).map Prod.fst := by
  have hfirst := q.answer_unplaced source
  have hsecond := q.answer_unplaced other
  rw [funext h, hsecond] at hfirst
  have hmap := congrArg (Except.map Prod.fst) hfirst
  cases hs : q.answer.eval source <;> cases ho : q.answer.eval other <;> rw [hs, ho] at hmap <;>
    simpa [Except.map] using hmap.symm

end Inquiry

end DirectoryRights
