import DirectoryRights.Proofs.Ruling

/-!
# Grants that differ in their right

A search asks of the right of a grant only whether it meets the right that is checked, and at a
border whether it is the right that opens domains. Whether a grant of this kind matches, and what it
then says, is a matter of its grantee, its modifier and its secret. So two lists of grants lead to
the same decision if, whatever is asked of grantees, modifiers and secrets, the first grants of this
kind for which the answer is yes agree in them. This holds also if one list repeats a grant and the
other does not.
-/

set_option autoImplicit false

namespace DirectoryRights

namespace Grant

/-- The grant as if it gave a certain right, and without where it was found. -/
def about (r : Right) (g : Grant) : Grant :=
  { g with right := r, origin := none }

/-- The two lists cannot be told apart by the first grant, among those whose right is in question,
that passes a test of everything but the right. -/
def Alike (r : Right) (inQuestion : Right → Bool) (gs gs' : List Grant) : Prop :=
  ∀ test : Grant → Bool,
    (gs.find? fun g => test (g.about r) && inQuestion g.right).map (about r) =
      (gs'.find? fun g => test (g.about r) && inQuestion g.right).map (about r)

namespace Alike

variable {r : Right} {inQuestion : Right → Bool} {gs gs' hs hs' : List Grant}

/-- A list cannot be told apart from itself. -/
theorem refl (gs : List Grant) : Alike r inQuestion gs gs := fun _ => rfl

/-- Lists that cannot be told apart can be put together piece by piece. -/
theorem append (h : Alike r inQuestion gs gs') (h' : Alike r inQuestion hs hs') :
    Alike r inQuestion (gs ++ hs) (gs' ++ hs') := by
  intro test
  have hor : ∀ found other : Option Grant,
      (found.or other).map (about r) = (found.map (about r)).or (other.map (about r)) := by
    intro found other
    cases found <;> rfl
  rw [List.find?_append, List.find?_append, hor, hor, h, h']

/-- Two lists that cannot be told apart from a third one cannot be told apart. -/
theorem trans (h : Alike r inQuestion gs hs) (h' : Alike r inQuestion hs gs') :
    Alike r inQuestion gs gs' := fun test => (h test).trans (h' test)

/-- Each grant may be replaced by a list that says the same as it does. -/
theorem flatMap {f : Grant → List Grant} (h : ∀ g ∈ gs, Alike r inQuestion [g] (f g)) :
    Alike r inQuestion gs (gs.flatMap f) := by
  induction gs with
  | nil => exact .refl []
  | cons g rest ih =>
    have hrest := ih fun other hother => h other (List.mem_cons_of_mem _ hother)
    exact (h g List.mem_cons_self).append hrest

/-- A grant at the end says nothing new where the other list has one like it. -/
theorem absorb (h : Alike r inQuestion gs gs') {g other : Grant} (hother : other ∈ gs')
    (habout : other.about r = g.about r) (hright : inQuestion other.right = inQuestion g.right) :
    Alike r inQuestion (gs ++ [g]) gs' := by
  intro test
  rw [List.find?_append]
  cases hfound : gs.find? fun g => test (g.about r) && inQuestion g.right with
  | some first =>
    rw [Option.some_or, ← hfound]
    exact h test
  | none =>
    -- The one like it is not found in the other list, so that it is not found at the end here.
    have hnone : (gs'.find? fun g => test (g.about r) && inQuestion g.right) = none := by
      have hsame := h test
      rw [hfound] at hsame
      exact Option.map_eq_none_iff.mp hsame.symm
    have hout := List.find?_eq_none.mp hnone other hother
    rw [habout, hright] at hout
    rw [Option.none_or, List.find?_singleton, if_neg hout, hnone]

/-- The grants that pass a test of everything but the right cannot be told apart either. -/
theorem filter {p : Grant → Bool} (hp : ∀ g, p (g.about r) = p g)
    (h : Alike r inQuestion gs gs') : Alike r inQuestion (gs.filter p) (gs'.filter p) := by
  intro test
  have hfilter : ∀ list : List Grant,
      (list.filter p).find? (fun g => test (g.about r) && inQuestion g.right) =
        list.find? fun g => (p (g.about r) && test (g.about r)) && inQuestion g.right := by
    intro list
    rw [List.find?_filter]
    congr 1
    funext g
    rw [hp, Bool.and_assoc, Bool.decide_and, Bool.decide_eq_true, Bool.decide_eq_true]
  rw [hfilter, hfilter]
  exact h fun g => p g && test g

/-- The order of the search, in which denials come first, keeps such lists alike. -/
theorem ranked (h : Alike r inQuestion gs gs') :
    Alike r inQuestion (Grant.ranked gs) (Grant.ranked gs') := by
  have hdenies := h.filter (p := denies) fun _ => rfl
  have hdelegable := h.filter (p := isDelegable) fun _ => rfl
  have hforUse := h.filter (p := isForUse) fun _ => rfl
  exact (hdenies.append hdelegable).append hforUse

/-- Where grants were found makes no difference. -/
theorem of_unplaced (h : gs'.map unplaced = gs.map unplaced) : Alike r inQuestion gs gs' := by
  intro test
  have hplace : ∀ list : List Grant,
      (list.find? fun g => test (g.about r) && inQuestion g.right).map (about r) =
        ((list.map unplaced).find? fun g => test (g.about r) && inQuestion g.right).map
          (about r) := by
    intro list
    rw [List.find?_map, Option.map_map]
    rfl
  rw [hplace, hplace gs', h]

/-- A grant that passes a test is found in both lists or in none. -/
theorem find?_isSome (h : Alike r inQuestion gs gs') (test : Grant → Bool) :
    (gs.find? fun g => test (g.about r) && inQuestion g.right).isSome =
      (gs'.find? fun g => test (g.about r) && inQuestion g.right).isSome := by
  have hsame := congrArg Option.isSome (h test)
  rwa [Option.isSome_map, Option.isSome_map] at hsame

end Alike

end Grant

namespace GrantAnswer

/-- Either both entries cannot be read for one reason, or their grants are alike for the search of a
right and for borders. -/
inductive Alike (r : Right) : GrantAnswer → GrantAnswer → Prop where
  /-- Neither can be read. -/
  | error (e : Error) : Alike r (.error e) (.error e)
  /-- The grants are alike. -/
  | ok {set set' : Option GrantSet}
    (hsearch : Grant.Alike r (·.meets r) (set.elim [] GrantSet.all) (set'.elim [] GrantSet.all))
    (hborder : Grant.Alike r Right.isCrossDomainAdmin (set.elim [] GrantSet.all)
      (set'.elim [] GrantSet.all)) :
    Alike r (.ok set) (.ok set')

end GrantAnswer

namespace DomainBorder

variable {r : Right}

/-- Lists that are alike as to the right that opens domains say the same of a border. -/
theorem decide_of_alike {domainId : String} {delegate : Bool} {gs gs' : List Grant}
    (h : Grant.Alike r Right.isCrossDomainAdmin gs gs') :
    decide domainId delegate gs = decide domainId delegate gs' := by
  let test : Grant → Bool := fun g =>
    g.granteeType = .domain && g.grantee = domainId && !(delegate && g.isForUse)
  have htest : (fun g => concerns domainId g && !(delegate && g.isForUse)) =
      fun g => test (g.about r) && g.right.isCrossDomainAdmin := by
    funext g
    show (g.right.isCrossDomainAdmin && g.granteeType = .domain && g.grantee = domainId &&
        !(delegate && g.isForUse)) =
      (g.granteeType = .domain && g.grantee = domainId && !(delegate && g.isForUse) &&
        g.right.isCrossDomainAdmin)
    cases g.right.isCrossDomainAdmin with
    | true => rw [Bool.true_and, Bool.and_true]
    | false => rw [Bool.and_false, Bool.false_and, Bool.false_and, Bool.false_and]
  have hdecide : ∀ list : List Grant, decide domainId delegate list =
      ((list.find? fun g => test (g.about r) && g.right.isCrossDomainAdmin).map
        (Grant.about r)).elim .deny fun g => if g.denies then .deny else .allow := by
    intro list
    unfold decide
    rw [htest]
    cases list.find? fun g => test (g.about r) && g.right.isCrossDomainAdmin <;> rfl
  rw [hdecide, hdecide, h test]

/-- Where what is stored is alike, the check of a border ends the same way. -/
theorem check_of_alike {source other : Entry → GrantAnswer}
    (h : ∀ e, GrantAnswer.Alike r (source e) (other e)) (holder target : Entry) (delegate : Bool) :
    (check holder target delegate).eval other = (check holder target delegate).eval source := by
  rw [Inquiry.check_eval, Inquiry.check_eval]
  have hanswer := h target
  generalize source target = before at hanswer
  generalize other target = after at hanswer
  cases hanswer with
  | error e => rfl
  | ok _ hborder =>
    congr 1
    exact congrArg Except.ok (decide_of_alike hborder).symm

end DomainBorder

namespace Inquiry

variable {q : Inquiry}

/-! ## One level -/

/-- Whether a search ends with a grant, because it matches or because it cannot be asked. -/
def stopsAt (q : Inquiry) (tier : Tier) (g : Grant) : Bool :=
  match q.matching (tier, g) with
  | .ok false => false
  | _ => true

/-- What a search through one tier ends with, from the grant it ends with. -/
def outcome (q : Inquiry) (tier : Tier) : Option Grant → Except Error (Option Grant)
  | none => .ok none
  | some g => (q.matching (tier, g)).map fun _ => some g

/-- The first match in one tier is what becomes of the first grant at which the search of the tier
stops. -/
theorem firstMatch_eq_outcome (tier : Tier) (gs : List Grant) :
    q.firstMatch (gs.map (tier, ·)) = q.outcome tier (gs.find? (q.stopsAt tier)) := by
  induction gs with
  | nil => rfl
  | cons g rest ih =>
    rw [List.map_cons, firstMatch_cons, List.find?_cons]
    rcases hmatch : q.matching (tier, g) with e | _ | _
    · have hstop : q.stopsAt tier g = true := by simp only [stopsAt, hmatch]
      simp only [hstop, outcome, hmatch, Except.map]
    · have hpass : q.stopsAt tier g = false := by simp only [stopsAt, hmatch]
      rw [hpass]
      exact ih
    · have hstop : q.stopsAt tier g = true := by simp only [stopsAt, hmatch]
      simp only [hstop, outcome, hmatch, Except.map]

/-- Whether a grant of this kind is a candidate in a tier, whatever its right. -/
def admissible (q : Inquiry) (below : Bool) (tier : Tier) (g : Grant) : Bool :=
  tier.admits g.granteeType && (q.right.suits q.target.targetType q.delegate
    && !(q.delegate && g.isForUse) && (g.denies || g.isSubDomain = below))

/-- The candidates of a tier are the admissible grants whose right meets the one in question. -/
theorem tierCandidates_eq (below : Bool) (gs : List Grant) (tier : Tier) :
    q.tierCandidates below gs tier =
      (gs.filter fun g => q.admissible below tier g && g.right.meets q.right).map (tier, ·) := by
  have hconcerns : (fun g : Grant => tier.admits g.granteeType && q.concerns below g) =
      fun g => q.admissible below tier g && g.right.meets q.right := by
    funext g
    unfold admissible concerns
    simp only [Bool.and_assoc]
  unfold tierCandidates
  rw [hconcerns]

variable {gs gs' : List Grant}

/-- In one tier of lists that are alike the first match leads to the same decision. -/
theorem firstMatch_tierCandidates_of_alike (h : Grant.Alike q.right (·.meets q.right) gs gs')
    (below : Bool) (tier : Tier) :
    (q.firstMatch (q.tierCandidates below gs tier)).map
        (Option.map fun g => (Finding.found g).decision) =
      (q.firstMatch (q.tierCandidates below gs' tier)).map
        (Option.map fun g => (Finding.found g).decision) := by
  -- What makes a grant a candidate and whether it matches is asked of everything but its right.
  let test : Grant → Bool := fun g => q.admissible below tier g && q.stopsAt tier g
  have hout : ∀ found : Option Grant,
      (q.outcome tier found).map (Option.map fun g => (Finding.found g).decision) =
        (q.outcome tier (found.map (Grant.about q.right))).map
          (Option.map fun g => (Finding.found g).decision) := by
    rintro (_ | g)
    · rfl
    · show Except.map _ ((q.matching (tier, g)).map _) =
        Except.map _ ((q.matching (tier, g)).map _)
      cases q.matching (tier, g) <;> rfl
  have hfind : ∀ list : List Grant,
      ((list.filter fun g => q.admissible below tier g && g.right.meets q.right).find?
          (q.stopsAt tier)) =
        list.find? fun g => test (g.about q.right) && g.right.meets q.right := by
    intro list
    rw [List.find?_filter]
    congr 1
    funext g
    show Decidable.decide _ =
      (q.admissible below tier g && q.stopsAt tier g && g.right.meets q.right)
    rw [Bool.decide_and, Bool.decide_eq_true, Bool.decide_eq_true, Bool.and_right_comm]
  have hends : ∀ list : List Grant,
      (q.firstMatch (q.tierCandidates below list tier)).map
          (Option.map fun g => (Finding.found g).decision) =
        (q.outcome tier ((list.find? fun g =>
          test (g.about q.right) && g.right.meets q.right).map (Grant.about q.right))).map
          (Option.map fun g => (Finding.found g).decision) := by
    intro list
    rw [tierCandidates_eq, firstMatch_eq_outcome, hfind, hout]
  rw [hends, hends, h test]

/-- One tier has candidates in both lists or in none of them. -/
theorem isEmpty_tierCandidates_of_alike (h : Grant.Alike q.right (·.meets q.right) gs gs')
    (below : Bool) (tier : Tier) :
    (q.tierCandidates below gs tier).isEmpty = (q.tierCandidates below gs' tier).isEmpty := by
  have hempty : ∀ list : List Grant, (q.tierCandidates below list tier).isEmpty =
      !(list.find? fun g =>
        q.admissible below tier (g.about q.right) && g.right.meets q.right).isSome := by
    intro list
    rw [tierCandidates_eq, Bool.eq_iff_iff]
    simp only [List.isEmpty_iff, List.map_eq_nil_iff, List.filter_eq_nil_iff, Bool.not_eq_true',
      Option.isSome_eq_false_iff, Option.isNone_iff_eq_none, List.find?_eq_none]
    rfl
  rw [hempty, hempty, h.find?_isSome]

/-- Levels with grants that are alike lead a search on in the same way, as far as its decision
tells. -/
theorem sameSearch_of_alike (h : Grant.Alike q.right (·.meets q.right) gs gs') (below : Bool) :
    q.SameSearch Finding.decision (.ok ⟨below, gs⟩) (.ok ⟨below, gs'⟩) := by
  have hcandidates : ∀ list : List Grant, q.candidates below list =
      (Tier.all q.right.isUserRight).flatMap (q.tierCandidates below list) := fun _ => rfl
  apply SameSearch.ok
  · simp only [hcandidates]
    induction Tier.all q.right.isUserRight with
    | nil => rfl
    | cons tier rest ih =>
      have htier := firstMatch_tierCandidates_of_alike h below tier
      rw [List.flatMap_cons, List.flatMap_cons, firstMatch_append, firstMatch_append]
      rcases same_end htier with ⟨e, hfirst, hsecond⟩ | ⟨hfirst, hsecond⟩ |
        ⟨g, g', hfirst, hsecond, hout⟩
      · rw [hfirst, hsecond]
      · rw [hfirst, hsecond]
        exact ih
      · rw [hfirst, hsecond]
        exact congrArg (Except.ok ∘ some) hout
  · have hempty : ∀ list : List Grant, (q.candidates below list).isEmpty =
        (Tier.all q.right.isUserRight).all fun tier =>
          (q.tierCandidates below list tier).isEmpty := by
      intro list
      rw [hcandidates, Bool.eq_iff_iff]
      simp only [List.isEmpty_iff, List.flatMap_eq_nil_iff, List.all_eq_true]
    simp only [hempty, isEmpty_tierCandidates_of_alike h]

/-! ## All levels -/

variable {source other : Entry → GrantAnswer}

/-- The levels of an entry, read from two sources that are alike, lead a search on in the same way. -/
theorem sameSearch_ofAnswer_of_alike (h : ∀ e, GrantAnswer.Alike q.right (source e) (other e))
    (below : Bool) (e : Entry) :
    q.SameSearch Finding.decision (Level.ofAnswer below (source e))
      (Level.ofAnswer below (other e)) := by
  have hanswer := h e
  generalize source e = before at hanswer
  generalize other e = after at hanswer
  cases hanswer with
  | error e => exact .error e
  | ok hsearch _ => exact sameSearch_of_alike hsearch below

/-- What counts of the grants of a group stays alike. -/
theorem alike_inherited (h : Grant.Alike q.right (·.meets q.right) gs gs')
    (direct positive : Bool) :
    Grant.Alike q.right (·.meets q.right) (inherited direct positive gs)
      (inherited direct positive gs') :=
  h.filter fun _ => rfl

/-- From alike sources the grants of groups cannot be gathered for the same reason, or they are
alike. -/
theorem gather_of_alike (h : ∀ e, GrantAnswer.Alike q.right (source e) (other e))
    (holder home : Option Entry) (groups : List (Entry × Bool)) :
    (∃ e, (q.gather holder home groups).eval source = .error e ∧
        (q.gather holder home groups).eval other = .error e) ∨
      ∃ pool pool', (q.gather holder home groups).eval source = .ok pool ∧
        (q.gather holder home groups).eval other = .ok pool' ∧
        Grant.Alike q.right (·.meets q.right) pool pool' := by
  induction groups with
  | nil => exact .inr ⟨[], [], rfl, rfl, .refl []⟩
  | cons group rest ih =>
    obtain ⟨group, direct⟩ := group
    have hcounts : (q.groupCounts holder home group).eval other =
        (q.groupCounts holder home group).eval source := by
      apply q.groupCounts_of_borders
      intro domain target _ _ _
      rw [DomainBorder.check_of_alike h]
    rw [gather_cons, gather_cons, hcounts]
    have hanswer := h group
    generalize source group = before at hanswer
    generalize other group = after at hanswer
    cases hanswer with
    | error e => exact .inl ⟨e, rfl, rfl⟩
    | ok hsearch _ =>
      rcases ih with ⟨e, hpool, hpool'⟩ | ⟨pool, pool', hpool, hpool', halike⟩
      · rw [hpool, hpool']
        exact .inl ⟨e, rfl, rfl⟩
      · rw [hpool, hpool']
        exact .inr ⟨_, _, rfl, rfl, (alike_inherited hsearch direct _).append halike⟩

/-- The levels of the groups lead a search on in the same way. -/
theorem sameSearch_groupLevel_of_alike (h : ∀ e, GrantAnswer.Alike q.right (source e) (other e))
    (holder home : Option Entry) :
    q.SameSearch Finding.decision (q.groupLevel source holder home)
      (q.groupLevel other holder home) := by
  unfold groupLevel
  rcases gather_of_alike h holder home (Ancestry.groups q.view q.target q.expandsGroups) with
    ⟨e, hpool, hpool'⟩ | ⟨pool, pool', hpool, hpool', halike⟩
  · rw [hpool, hpool']
    exact .error e
  · rw [hpool, hpool']
    exact sameSearch_of_alike halike.ranked false

/-- Searches of alike sources end with the same decision or the same error. -/
theorem search_of_alike {d : Directory} (hview : q.view = d.view)
    (h : ∀ e, GrantAnswer.Alike q.right (source e) (other e)) (holder : Option Entry) :
    ((q.search holder).eval source).map Finding.decision =
      ((q.search holder).eval other).map Finding.decision := by
  obtain ⟨home, hhome⟩ := q.targetHome_ofDirectory hview
  have hlevels : List.Forall₂ (q.SameSearch Finding.decision)
      (q.levels source holder home (q.knownStops d))
      (q.levels other holder home (q.knownStops d)) := by
    unfold levels
    refine .cons (sameSearch_ofAnswer_of_alike h false q.target) (.cons ?_ ?_)
    · exact sameSearch_groupLevel_of_alike h holder home
    · rw [List.forall₂_map_left_iff, List.forall₂_map_right_iff, List.forall₂_same]
      exact fun stop _ => sameSearch_ofAnswer_of_alike h stop.2 stop.1
  rw [q.search_eval source holder home _ hhome (q.stops_ofDirectory hview),
    q.search_eval other holder home _ hhome (q.stops_ofDirectory hview)]
  exact q.scan_of_sameSearch hlevels false

/-- A check ends in the same way when all entries have grants that are alike. -/
theorem answer_of_alike {d : Directory} (hview : q.view = d.view)
    (h : ∀ e, GrantAnswer.Alike q.right (source e) (other e)) :
    (q.answer.eval source).map Prod.fst = (q.answer.eval other).map Prod.fst := by
  rw [answer_eq_follow]
  rcases q.course_cases with hcourse | ⟨e, hcourse⟩ | ⟨domain, hcourse, -⟩ | ⟨hcourse, -⟩
  · rw [hcourse]
    rfl
  · rw [hcourse]
    rfl
  · rw [hcourse, eval_follow_border, eval_follow_border, DomainBorder.check_of_alike h]
  · have hfst : ∀ finding : Except Error Finding,
        (finding.map fun found => (found.decision, found.grant?)).map Prod.fst =
          finding.map Finding.decision := by
      rintro (e | found) <;> rfl
    rw [hcourse, eval_follow_search, eval_follow_search, hfst, hfst]
    exact search_of_alike hview h q.holder

end Inquiry

end DirectoryRights
