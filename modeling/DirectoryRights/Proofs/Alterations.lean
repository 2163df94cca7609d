import DirectoryRights.Proofs.Following
import DirectoryRights.Proofs.GrantMaps
import DirectoryRights.Proofs.Levels

/-!
# Checks of altered grants

Grants may be altered in what a check does not look at, and the right in question may be altered
with them. As long as the same grants are about the right before and after, and groups are walked
through in both cases or in none, the check goes the same way: it asks for the same entries in the
same order, fails where it failed and ends at the altered grant.
-/

set_option autoImplicit false

namespace DirectoryRights

/-- The answer with its grants altered. -/
def GrantAnswer.altered (p : Grant → Grant) (a : GrantAnswer) : GrantAnswer :=
  a.map (Option.map (GrantSet.map p))

/-- The level with its grants altered. -/
def Level.altered (p : Grant → Grant) (level : Level) : Level :=
  { level with grants := level.grants.map p }

/-- The finding with its grant altered. -/
def Finding.altered (p : Grant → Grant) : Finding → Finding
  | found g => .found (p g)
  | none seen => .none seen

/-- The inquiry for another right. -/
def Inquiry.asking (q : Inquiry) (right : Right) : Inquiry :=
  { q with right }

/-- The altered grants are about the altered right where the grants are about the right. -/
structure Inquiry.Alters (q : Inquiry) (p : Grant → Grant) (right : Right) : Prop where
  /-- The grants are altered neither in what they are about nor in what is special about them. -/
  terms : Grant.KeepsTerms p
  /-- The altered right has the same name. -/
  name : right.name = q.right.name
  /-- It is a user right only where the right is one. -/
  isUserRight : right.isUserRight = q.right.isUserRight
  /-- The same grants are about it. -/
  concerns : ∀ below g, (q.asking right).concerns below (p g) = q.concerns below g

variable {p : Grant → Grant}

/-- The altered grant has a grantee of the same type. -/
theorem Grant.KeepsTerms.granteeType (hp : Grant.KeepsTerms p) (g : Grant) :
    (p g).granteeType = g.granteeType :=
  congrArg Slot.granteeType (hp.slot g)

/-- The altered grant is kept from nested groups exactly where the grant is. -/
theorem Grant.KeepsTerms.isDisinherit (hp : Grant.KeepsTerms p) (g : Grant) :
    (p g).isDisinherit = g.isDisinherit := by
  unfold Grant.isDisinherit
  rw [hp.modifier]

/-- Only the grantee and the secret of a grant are looked at. -/
theorem Matching.inTier_map (hp : Grant.KeepsTerms p) (v : View) (principal : Principal)
    (asAdmin : Bool) (tier : Tier) (g : Grant) :
    inTier v principal asAdmin tier (p g) = inTier v principal asAdmin tier g := by
  have hbare : ∀ g' : Grant, inTier v principal asAdmin tier g' =
      inTier v principal asAdmin tier
        ⟨g'.slot.grantee, g'.slot.granteeType, g.right, none, g'.secret, none⟩ := fun _ => rfl
  rw [hbare, hbare g, hp.slot, hp.secret]

/-- The level of an altered answer is the altered level of the answer. -/
theorem Level.ofAnswer_altered (hp : Grant.KeepsTerms p) (below : Bool) (a : GrantAnswer) :
    Level.ofAnswer below (a.altered p) = (Level.ofAnswer below a).map (Level.altered p) := by
  rcases a with e | set | set
  · rfl
  · rfl
  · show Except.ok (Level.mk below (set.map p).all) = _
    rw [GrantSet.all_map hp]
    rfl

/-- To ask for the grants of an entry is to be given the altered ones. -/
theorem Reader.Follows.grantsOf (e : Entry) :
    Reader.Follows (GrantAnswer.altered p) (Option.map (GrantSet.map p)) (grantsOf e)
      (grantsOf e) :=
  .ask e fun answer => .done answer

namespace DomainBorder

/-- What altered grants say of a border is what the grants say. -/
theorem decide_map (hp : Grant.KeepsTerms p) (domainId : String) (delegate : Bool)
    (gs : List Grant) : decide domainId delegate (gs.map p) = decide domainId delegate gs := by
  have htest : ∀ g : Grant, (concerns domainId (p g) && !(delegate && (p g).isForUse)) =
      (concerns domainId g && !(delegate && g.isForUse)) := by
    intro g
    have hconcerns : ∀ g' : Grant, concerns domainId g' =
        ((g'.slot.right = crossDomainAdmin : Bool) && (g'.slot.granteeType = .domain : Bool) &&
          (g'.slot.grantee = domainId : Bool)) := fun _ => rfl
    rw [hconcerns, hconcerns g, hp.slot, hp.isForUse]
  unfold decide
  rw [Grant.find?_map htest]
  cases gs.find? _ with
  | none => rfl
  | some g => simp only [Option.map_some, hp.denies]

/-- What is found out about a border does not change. -/
theorem follows_check (hp : Grant.KeepsTerms p) (holder target : Entry) (delegate : Bool) :
    Reader.Follows (GrantAnswer.altered p) id (check holder target delegate)
      (check holder target delegate) := by
  unfold check
  split
  · refine .bind (.grantsOf target) ?_
    rintro (_ | set)
    · exact .pure Decision.deny
    · show Reader.Follows _ _ _ (pure (decide holder.id.text delegate (set.map p).all))
      rw [GrantSet.all_map hp, decide_map hp]
      exact .pure _
  · exact .throw _

/-- Whether a group counts is found out in step with the source that gives altered grants. -/
theorem follows_groupCounts (hp : Grant.KeepsTerms p) (v : View) (holder : Entry)
    (target : Option Entry) (group : Entry) :
    Reading.Follows (GrantAnswer.altered p) id (groupCounts v holder target group)
      (groupCounts v holder target group) := by
  unfold groupCounts
  split
  · exact .done true
  · split
    · exact .done true
    · split
      · split
        · exact .done true
        · refine .bind (follows_check hp holder _ false) ?_
          rintro (e | decision)
          · exact .done false
          · exact .done _
      · exact .done false

end DomainBorder

namespace Inquiry

variable {q : Inquiry} {right : Right}

section Alters

variable (h : q.Alters p right)

include h

/-- The candidates among altered grants are the altered candidates. -/
theorem Alters.candidates (below : Bool) (gs : List Grant) :
    (q.asking right).candidates below (gs.map p) =
      (q.candidates below gs).map (Prod.map id p) := by
  unfold Inquiry.candidates
  show List.flatMap _ (Tier.all right.isUserRight) = _
  rw [List.map_flatMap, h.isUserRight]
  congr 1
  funext tier
  have hfilter : ∀ g : Grant,
      (tier.admits (p g).granteeType && (q.asking right).concerns below (p g)) =
        (tier.admits g.granteeType && q.concerns below g) := by
    intro g
    rw [h.terms.granteeType, h.concerns]
  rw [Grant.filter_map hfilter, List.map_map, List.map_map]
  rfl

/-- Whether the principal is the grantee does not change. -/
theorem Alters.matching (tier : Tier) (g : Grant) :
    Matching.inTier (q.asking right).view (q.asking right).principal (q.asking right).isAdminRight
        tier (p g) = Matching.inTier q.view q.principal q.isAdminRight tier g := by
  show Matching.inTier q.view q.principal (!right.isUserRight) tier (p g) = _
  rw [h.isUserRight, Matching.inTier_map h.terms]
  rfl

/-- The first match among altered candidates is the altered first match. -/
theorem Alters.firstMatch (cs : List (Tier × Grant)) :
    (q.asking right).firstMatch (cs.map (Prod.map id p)) =
      (q.firstMatch cs).map (Option.map p) := by
  induction cs with
  | nil => rfl
  | cons c rest ih =>
    obtain ⟨tier, g⟩ := c
    simp only [List.map_cons, Prod.map, id, Inquiry.firstMatch, h.matching]
    rcases Matching.inTier q.view q.principal q.isAdminRight tier g with e | _ | _
    · rfl
    · exact ih
    · rfl

/-! ## Levels laid out -/

/-- A search through altered levels finds the altered grant. -/
theorem Alters.scan (levels : List (Except Error Level)) (seen : Bool) :
    (q.asking right).scan (levels.map (Except.map (Level.altered p))) seen =
      (q.scan levels seen).map (Finding.altered p) := by
  induction levels generalizing seen with
  | nil => rfl
  | cons level rest ih =>
    cases level with
    | error e => rfl
    | ok level =>
      show (q.asking right).scan (.ok (level.altered p) :: _) seen = _
      simp only [Inquiry.scan, Level.altered, h.candidates, h.firstMatch, List.isEmpty_map]
      rcases q.firstMatch (q.candidates level.below level.grants) with e | g | g
      · rfl
      · exact ih _
      · rfl

/-! ## The search step by step -/

/-- The search of one level goes in step if what comes after the level does. -/
theorem Alters.level (below : Bool) (gs : List Grant) (seen : Bool)
    {next next' : Bool → Reader Finding}
    (hnext : ∀ seen, Reader.Follows (GrantAnswer.altered p) (Finding.altered p) (next seen)
      (next' seen)) :
    Reader.Follows (GrantAnswer.altered p) (Finding.altered p) (q.level below gs seen next)
      ((q.asking right).level below (gs.map p) seen next') := by
  unfold Inquiry.level
  simp only [h.candidates, h.firstMatch, List.isEmpty_map]
  rcases q.firstMatch (q.candidates below gs) with e | _ | g
  · exact .throw e
  · exact hnext _
  · exact .pure (Finding.found g)

/-- What counts of the altered grants of a group is what counts of the grants, altered. -/
theorem Alters.inherited (direct positive : Bool) (gs : List Grant) :
    Inquiry.inherited direct positive (gs.map p) =
      (Inquiry.inherited direct positive gs).map p := by
  refine Grant.filter_map (fun g => ?_) gs
  rw [h.terms.isDisinherit, h.terms.denies]

/-- Whether a group counts is found out in step for both rights. -/
theorem Alters.groupCounts (holder home : Option Entry) (group : Entry) :
    Reading.Follows (GrantAnswer.altered p) id (q.groupCounts holder home group)
      ((q.asking right).groupCounts holder home group) := by
  unfold Inquiry.groupCounts
  cases holder with
  | none => exact .done true
  | some domain => exact DomainBorder.follows_groupCounts h.terms q.view domain home group

/-- What is gathered of the groups is altered, grant by grant. -/
theorem Alters.gather (holder home : Option Entry) (groups : List (Entry × Bool)) :
    Reader.Follows (GrantAnswer.altered p) (List.map p) (q.gather holder home groups)
      ((q.asking right).gather holder home groups) := by
  induction groups with
  | nil => exact .pure []
  | cons group rest ih =>
    obtain ⟨group, direct⟩ := group
    unfold Inquiry.gather
    refine .bind (.grantsOf group) ?_
    rintro (_ | set)
    · exact ih
    · refine .bind (.liftM (h.groupCounts holder home group)) fun positive => ?_
      refine .bind ih fun pool => ?_
      show Reader.Follows _ _ _
        (pure (Inquiry.inherited direct positive (set.map p).all ++ pool.map p))
      rw [GrantSet.all_map h.terms, h.inherited, ← List.map_append]
      exact .pure _

/-- The search above the groups goes in step. -/
theorem Alters.climb (pool : List Grant) (seen : Bool)
    (stops : List (Except Error (Entry × Bool))) :
    Reader.Follows (GrantAnswer.altered p) (Finding.altered p) (q.climb pool seen stops)
      ((q.asking right).climb (pool.map p) seen stops) := by
  induction stops generalizing pool seen with
  | nil => exact .pure (Finding.none seen)
  | cons stop rest ih =>
    rcases stop with e | ⟨entry, below⟩
    · exact .throw e
    · unfold Inquiry.climb
      refine h.level false pool seen fun seen => .bind (.grantsOf entry) ?_
      rintro (_ | set)
      · exact ih [] seen
      · show Reader.Follows _ _ _ ((q.asking right).level below (set.map p).all seen _)
        rw [GrantSet.all_map h.terms]
        exact h.level below set.all seen fun seen => ih [] seen

/-- The whole search goes in step, where the same groups are read for both rights. -/
theorem Alters.search (holder : Option Entry)
    (hgroups : Ancestry.groups q.view q.target (q.asking right).expandsGroups =
      Ancestry.groups q.view q.target q.expandsGroups) :
    Reader.Follows (GrantAnswer.altered p) (Finding.altered p) (q.search holder)
      ((q.asking right).search holder) := by
  have honward : ∀ seen, Reader.Follows (GrantAnswer.altered p) (Finding.altered p)
      (do
        let targetHome ← ExceptT.mk (pure q.targetHome)
        let pool ← q.gather holder targetHome (Ancestry.groups q.view q.target q.expandsGroups)
        q.climb (Grant.ranked pool) seen q.stops)
      (do
        let targetHome ← ExceptT.mk (pure (q.asking right).targetHome)
        let pool ← (q.asking right).gather holder targetHome
          (Ancestry.groups q.view q.target (q.asking right).expandsGroups)
        (q.asking right).climb (Grant.ranked pool) seen (q.asking right).stops) := by
    intro seen
    have hhome : Reader.Follows (GrantAnswer.altered p) id (ExceptT.mk (pure q.targetHome))
        (ExceptT.mk (pure q.targetHome)) := by
      have hid : q.targetHome.map id = q.targetHome := by cases q.targetHome <;> rfl
      have hsame : Reader.Follows (GrantAnswer.altered p) id (ExceptT.mk (pure q.targetHome))
          (ExceptT.mk (pure (q.targetHome.map id))) := .mk_pure q.targetHome
      rwa [hid] at hsame
    rw [hgroups]
    refine .bind hhome fun home => ?_
    refine .bind (h.gather holder home _) fun pool => ?_
    rw [h.terms.ranked_map]
    exact h.climb _ seen q.stops
  unfold Inquiry.search
  refine .bind (.grantsOf q.target) ?_
  rintro (_ | set)
  · exact honward false
  · show Reader.Follows _ _ _ ((q.asking right).level false (set.map p).all false _)
    rw [GrantSet.all_map h.terms]
    exact h.level false set.all false honward

/-- A check of the altered right over altered grants does what the check of the right does. -/
theorem Alters.answer
    (hgroups : Ancestry.groups q.view q.target (q.asking right).expandsGroups =
      Ancestry.groups q.view q.target q.expandsGroups) :
    Reader.Follows (GrantAnswer.altered p) (Prod.map id (Option.map p)) q.answer
      (q.asking right).answer := by
  have hcourse : (q.asking right).course = q.course := by
    have hadmin : (q.asking right).isAdminRight = q.isAdminRight :=
      congrArg (!·) h.isUserRight
    have hcross : (q.asking right).right.isCrossDomainAdmin = q.right.isCrossDomainAdmin := by
      show decide (right.name = _) = _
      rw [h.name]
      rfl
    unfold course
    rw [hadmin, hcross]
    rfl
  rw [answer_eq_follow, answer_eq_follow, hcourse]
  cases q.course with
  | idle => exact .pure (Decision.undecided, none)
  | failed e => exact .throw e
  | border domain =>
    exact .bind (DomainBorder.follows_check h.terms domain q.target q.delegate)
      fun decision => .pure (decision, none)
  | search holder =>
    refine .bind (h.search holder hgroups) ?_
    rintro (g | seen)
    · show Reader.Follows _ _ _ (pure ((Finding.found (p g)).decision, some (p g)))
      have hdecision : (Finding.found (p g)).decision = (Finding.found g).decision := by
        show (if (p g).denies = true then Decision.deny else Decision.allow) = _
        rw [h.terms.denies]
        rfl
      rw [hdecision]
      exact .pure ((Finding.found g).decision, some g)
    · exact .pure ((Finding.none seen).decision, none)

end Alters

end Inquiry

end DirectoryRights
