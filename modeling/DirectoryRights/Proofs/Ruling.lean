import Mathlib.Data.List.Forall2
import DirectoryRights.Proofs.FirstMatch
import DirectoryRights.Proofs.Sample
import DirectoryRights.Proofs.Uncached

/-!
# The ruling of the grants

What a check decides can be said without the search. The grants that stand above a target form
levels: those of the target, those that count of all its groups together, those of each domain, and
those of the global grant entry. In the first level, and there in the first tier, that has a grant
which applies and whose grantee is the principal, the right is denied if one such grant denies it,
and allowed otherwise. Without such a grant it is denied as soon as a grant applies that any tier
looks at, and open if none does.

The search goes through the same levels, but it reads the entries on its way, pools the groups and
keeps in mind what it has seen. It is shown to end with the ruling by going through its levels one
after the other beside the levels of the ruling.
-/

set_option autoImplicit false

namespace DirectoryRights

/-- The grants of an entry that can be read. -/
def GrantAnswer.grants : GrantAnswer → List Grant
  | .ok (some set) => set.grants
  | _ => []

/-- The grants of an answer are those of its set, in whatever order. -/
theorem GrantAnswer.mem_grants {set : Option GrantSet} {g : Grant} :
    g ∈ GrantAnswer.grants (.ok set) ↔ g ∈ set.elim [] GrantSet.all := by
  cases set with
  | none => exact Iff.rfl
  | some set => exact Grant.mem_ranked.symm

namespace Inquiry

variable (q : Inquiry)

/-- A grant of a level is about the right that is checked. -/
structure Applies (below : Bool) (g : Grant) : Prop where
  /-- The right can be used on the target, or be passed on where this is asked for. -/
  suits : q.right.suits q.target.targetType q.delegate = true
  /-- The granted right is the right or a bundle that holds it. -/
  meets : g.right.meets q.right = true
  /-- A grant for use only does not let the right be passed on. -/
  passable : q.delegate = true → g.isForUse = false
  /-- A positive grant is kept for the domains below exactly where the target is one of them. -/
  placed : g.denies = true ∨ g.isSubDomain = below

/-- The principal is the grantee of a grant that is searched in a tier. -/
structure Answers (tier : Tier) (g : Grant) : Prop where
  /-- The tier looks at grantees of this type. -/
  admitted : tier.admits g.granteeType = true
  /-- The principal is the grantee. -/
  matched : Matching.inTier q.view q.principal q.isAdminRight tier g = .ok true

/-- A grant applies to a check exactly if the search takes it for one about the right. -/
theorem applies_iff {below : Bool} {g : Grant} :
    q.Applies below g ↔ q.concerns below g = true := by
  unfold concerns
  simp only [Bool.and_eq_true, Bool.or_eq_true, Bool.not_eq_true', decide_eq_true_eq]
  constructor
  · intro h
    refine ⟨⟨⟨h.suits, ?_⟩, h.placed⟩, h.meets⟩
    cases hpass : q.delegate with
    | true => exact h.passable hpass
    | false => rfl
  · rintro ⟨⟨⟨hsuits, hpass⟩, hplaced⟩, hmeets⟩
    refine ⟨hsuits, hmeets, fun hdelegate => ?_, hplaced⟩
    rw [hdelegate] at hpass
    exact hpass

instance (below : Bool) (g : Grant) : Decidable (q.Applies below g) :=
  decidable_of_iff _ q.applies_iff.symm

/-- What it takes to be the grantee in a tier, as one statement. -/
theorem answers_iff {tier : Tier} {g : Grant} :
    q.Answers tier g ↔ tier.admits g.granteeType = true ∧
      Matching.inTier q.view q.principal q.isAdminRight tier g = .ok true :=
  ⟨fun h => ⟨h.admitted, h.matched⟩, fun h => ⟨h.1, h.2⟩⟩

/-- Whether a match was found without an error. -/
def isMatch : Except Error Bool → Bool
  | .ok matched => matched
  | .error _ => false

/-- A match is one that was found without an error. -/
theorem isMatch_eq_true {x : Except Error Bool} : isMatch x = true ↔ x = .ok true := by
  rcases x with e | _ | _ <;> simp [isMatch]

instance (tier : Tier) (g : Grant) : Decidable (q.Answers tier g) :=
  decidable_of_iff (tier.admits g.granteeType = true ∧
    isMatch (Matching.inTier q.view q.principal q.isAdminRight tier g) = true) <| by
      rw [q.answers_iff, isMatch_eq_true]

/-- What the grants of a level say that are searched in one tier. -/
def verdict? (level : Level) (tier : Tier) : Option Decision :=
  if ∃ g ∈ level.grants, q.Applies level.below g ∧ q.Answers tier g ∧ g.denies = true then
    some .deny
  else if ∃ g ∈ level.grants, q.Applies level.below g ∧ q.Answers tier g then some .allow
  else none

/-- Some grant of a level is about the right and searched in some tier. -/
def Mentioned (level : Level) : Prop :=
  ∃ g ∈ level.grants, q.Applies level.below g ∧
    ∃ tier ∈ Tier.all q.right.isUserRight, tier.admits g.granteeType = true

instance (level : Level) : Decidable (q.Mentioned level) := by
  unfold Mentioned
  infer_instance

/-- The decision that follows from the grants of some levels. -/
def ruling (levels : List Level) : Decision :=
  match levels.findSome? fun level =>
      (Tier.all q.right.isUserRight).findSome? (q.verdict? level) with
  | some decision => decision
  | none => if ∃ level ∈ levels, q.Mentioned level then .deny else .undecided

/-- The domain of a principal who asks for an admin right. -/
def holder : Option Entry :=
  if q.isAdminRight then
    q.principal.entry?.bind fun e => (q.view.homeDomain e).toOption.join
  else none

/-- The domain in which the target lives, as far as it is known. -/
def home : Option Entry :=
  q.targetHome.toOption.join

/-- The grants that an ancestor adds to the level of the groups: those of a group, without the
positive ones where the group does not count for the right, and without those kept from nested
groups where the target is not a direct member. -/
def groupShare (source : Entry → GrantAnswer) : Ancestor → List Grant
  | .group e direct =>
    (source e).grants.filter fun g =>
      g.denies || (q.groupCounts q.holder q.home e).eval source && (direct || !g.isDisinherit)
  | _ => []

/-- The level that an ancestor above the groups forms. -/
def levelAbove? (source : Entry → GrantAnswer) : Ancestor → Option Level
  | .domain e => some ⟨q.target.isDomain, (source e).grants⟩
  | .global e => some ⟨false, (source e).grants⟩
  | _ => none

/-- The levels of grants above a target. -/
def standing (source : Entry → GrantAnswer) : List Level :=
  let chain := (Ancestry.chain q.view q.target q.expandsGroups).filterMap Except.toOption
  ⟨false, (source q.target).grants⟩ :: ⟨false, chain.flatMap (q.groupShare source)⟩
    :: chain.filterMap (q.levelAbove? source)

/-! ## One level -/

/-- The decision of a deciding grant. -/
theorem decision_found (g : Grant) :
    (Finding.found g).decision = if g.denies then .deny else .allow := rfl

/-- The grants of one tier of a level, in the order of the search. -/
def tierCandidates (below : Bool) (gs : List Grant) (tier : Tier) : List (Tier × Grant) :=
  (gs.filter fun g => tier.admits g.granteeType && q.concerns below g).map (tier, ·)

/-- The candidates of a tier are the grants that apply and whose grantees the tier admits. -/
theorem mem_tierCandidates {below : Bool} {gs : List Grant} {tier : Tier} {c : Tier × Grant} :
    c ∈ q.tierCandidates below gs tier ↔
      c.1 = tier ∧ c.2 ∈ gs ∧ tier.admits c.2.granteeType = true ∧ q.Applies below c.2 := by
  unfold tierCandidates
  simp only [List.mem_map, List.mem_filter, Bool.and_eq_true, q.applies_iff]
  constructor
  · rintro ⟨g, ⟨hg, hadmits, hconcerns⟩, rfl⟩
    exact ⟨rfl, hg, hadmits, hconcerns⟩
  · rintro ⟨htier, hg, hadmits, hconcerns⟩
    exact ⟨c.2, ⟨hg, hadmits, hconcerns⟩, by rw [← htier]⟩

/-- Where no grant of a tier matches the tier has no verdict. -/
theorem verdict?_eq_none {level : Level} {gs : List Grant} {tier : Tier}
    (hmem : ∀ g, g ∈ gs ↔ g ∈ level.grants)
    (h : q.firstMatch (q.tierCandidates level.below gs tier) = .ok none) :
    q.verdict? level tier = none := by
  have hnone : ∀ g ∈ level.grants, q.Applies level.below g → ¬ q.Answers tier g := by
    intro g hg happlies hanswers
    have hfalse := q.firstMatch_eq_none.mp h (tier, g)
      (q.mem_tierCandidates.mpr ⟨rfl, (hmem g).mpr hg, hanswers.admitted, happlies⟩)
    unfold matching at hfalse
    rw [hanswers.matched] at hfalse
    cases hfalse
  unfold verdict?
  rw [if_neg, if_neg]
  · rintro ⟨g, hg, happlies, hanswers⟩
    exact hnone g hg happlies hanswers
  · rintro ⟨g, hg, happlies, hanswers, -⟩
    exact hnone g hg happlies hanswers

/-- The first match of a tier gives its verdict. -/
theorem verdict?_eq_some {level : Level} {gs : List Grant} {tier : Tier} {g : Grant}
    (hmem : ∀ g, g ∈ gs ↔ g ∈ level.grants) (hfirst : Grant.DenialsFirst gs)
    (h : q.firstMatch (q.tierCandidates level.below gs tier) = .ok (some g)) :
    q.verdict? level tier = some (Finding.found g).decision := by
  obtain ⟨before, found, after, hsplit, hbefore, hmatch⟩ := q.firstMatch_eq_some.mp h
  have hg : (found, g) ∈ q.tierCandidates level.below gs tier := by
    rw [hsplit]
    simp
  obtain ⟨rfl, hgs, hadmits, happlies⟩ := q.mem_tierCandidates.mp hg
  have hanswers : q.Answers found g := ⟨hadmits, hmatch⟩
  unfold verdict?
  rw [decision_found]
  cases hdeny : g.denies with
  | true => rw [if_pos ⟨g, (hmem g).mp hgs, happlies, hanswers, hdeny⟩, if_pos rfl]
  | false =>
    rw [if_neg, if_pos ⟨g, (hmem g).mp hgs, happlies, hanswers⟩, if_neg Bool.false_ne_true]
    -- A denial that matches would have stood before the grant that was found.
    rintro ⟨other, hother, happliesOther, hanswersOther, hdenyOther⟩
    have hmemOther : (found, other) ∈ q.tierCandidates level.below gs found :=
      q.mem_tierCandidates.mpr
        ⟨rfl, (hmem other).mpr hother, hanswersOther.admitted, happliesOther⟩
    have hpairs : (q.tierCandidates level.below gs found).Pairwise
        fun c d => d.2.denies = true → c.2.denies = true := by
      unfold tierCandidates
      rw [List.pairwise_map]
      exact hfirst.filter _
    rw [hsplit] at hmemOther hpairs
    rcases List.mem_append.mp hmemOther with hin | hin
    · have hfalse := hbefore _ hin
      unfold matching at hfalse
      rw [hanswersOther.matched] at hfalse
      cases hfalse
    · rcases List.mem_cons.mp hin with hsame | hafter
      · rw [← (Prod.mk.inj hsame).2, hdenyOther] at hdeny
        cases hdeny
      · have hrest := (List.pairwise_append.mp hpairs).2.1
        rw [(List.pairwise_cons.mp hrest).1 _ hafter hdenyOther] at hdeny
        cases hdeny

/-- The first match through all tiers gives the verdict of the first tier that has one. -/
theorem findSome?_verdict {level : Level} {gs : List Grant} {found : Option Grant}
    (hmem : ∀ g, g ∈ gs ↔ g ∈ level.grants) (hfirst : Grant.DenialsFirst gs) (tiers : List Tier)
    (h : q.firstMatch (tiers.flatMap (q.tierCandidates level.below gs)) = .ok found) :
    tiers.findSome? (q.verdict? level) = found.map fun g => (Finding.found g).decision := by
  induction tiers with
  | nil =>
    cases h
    rfl
  | cons tier rest ih =>
    rw [List.flatMap_cons, firstMatch_append] at h
    rw [List.findSome?_cons]
    cases htier : q.firstMatch (q.tierCandidates level.below gs tier) with
    | error e =>
      rw [htier] at h
      cases h
    | ok first =>
      rw [htier] at h
      cases first with
      | none =>
        rw [q.verdict?_eq_none hmem htier]
        exact ih h
      | some g =>
        cases h
        rw [q.verdict?_eq_some hmem hfirst htier]
        rfl

/-! ## All levels -/

/-- What the search reads as a level holds the grants of a level of the ruling, denials first. -/
structure Holds (level read : Level) : Prop where
  /-- Both stand at the same place. -/
  below : read.below = level.below
  /-- Both have the same grants. -/
  mem : ∀ g, g ∈ read.grants ↔ g ∈ level.grants
  /-- The denials are read first. -/
  denialsFirst : Grant.DenialsFirst read.grants

/-- The search reads a level as one that holds its grants, unless it cannot read it. -/
def ReadAs (level : Level) (read : Except Error Level) : Prop :=
  ∀ found, read = .ok found → Holds level found

/-- A level mentions the right exactly if the search has a candidate in it. -/
theorem mentioned_iff {level read : Level} (h : Holds level read) :
    q.Mentioned level ↔ (q.candidates read.below read.grants).isEmpty = false := by
  rw [List.isEmpty_eq_false_iff_exists_mem]
  constructor
  · rintro ⟨g, hg, happlies, tier, htier, hadmits⟩
    refine ⟨(tier, g), q.mem_candidates.mpr ⟨htier, (h.mem g).mpr hg, hadmits, ?_⟩⟩
    rw [h.below]
    exact q.applies_iff.mp happlies
  · rintro ⟨⟨tier, g⟩, hc⟩
    obtain ⟨htier, hg, hadmits, hconcerns⟩ := q.mem_candidates.mp hc
    rw [h.below] at hconcerns
    exact ⟨g, (h.mem g).mp hg, q.applies_iff.mpr hconcerns, tier, htier, hadmits⟩

/-- A search that ends without an error ends with the ruling of its levels. -/
theorem scan_eq_ruling {levels : List Level} {reads : List (Except Error Level)}
    (h : List.Forall₂ ReadAs levels reads) (seen : Bool) {finding : Finding}
    (hscan : q.scan reads seen = .ok finding) :
    finding.decision =
      match levels.findSome? fun level =>
          (Tier.all q.right.isUserRight).findSome? (q.verdict? level) with
      | some decision => decision
      | none =>
        if seen = true ∨ ∃ level ∈ levels, q.Mentioned level then .deny else .undecided := by
  induction h generalizing seen with
  | nil =>
    cases hscan
    cases seen <;> simp [Finding.decision]
  | @cons level _ levels reads hread _ ih =>
    obtain ⟨read, rfl, hstep⟩ := q.scan_cons_eq_ok hscan
    have hholds := hread read rfl
    -- The match among the candidates that are read is the verdict of the level.
    have hverdict : ∀ found, q.firstMatch (q.candidates read.below read.grants) = .ok found →
        (Tier.all q.right.isUserRight).findSome? (q.verdict? level) =
          found.map fun g => (Finding.found g).decision := by
      intro found hmatch
      refine q.findSome?_verdict hholds.mem hholds.denialsFirst _ ?_
      rw [← hholds.below]
      exact hmatch
    rw [List.findSome?_cons]
    rcases hstep with ⟨g, hmatch, rfl⟩ | ⟨hmatch, hrest⟩
    · rw [hverdict _ hmatch]
      rfl
    · rw [hverdict _ hmatch, ih _ hrest]
      simp only [Option.map_none]
      cases levels.findSome? fun level =>
          (Tier.all q.right.isUserRight).findSome? (q.verdict? level) with
      | some decision => rfl
      | none =>
        have hmentioned : ((seen || !(q.candidates read.below read.grants).isEmpty) = true ∨
            ∃ level ∈ levels, q.Mentioned level) ↔
            (seen = true ∨ ∃ other ∈ level :: levels, q.Mentioned other) := by
          rw [List.exists_mem_cons_iff, q.mentioned_iff hholds, Bool.or_eq_true,
            Bool.not_eq_true', or_assoc]
        simp only [hmentioned]

/-- The grants that the search reads of an entry. -/
theorem readAs_ofAnswer (below : Bool) (answer : GrantAnswer) :
    ReadAs ⟨below, answer.grants⟩ (Level.ofAnswer below answer) := by
  rintro found hfound
  rcases answer with e | set | set
  · cases hfound
  · cases hfound
    exact ⟨rfl, fun _ => Iff.rfl, List.Pairwise.nil⟩
  · cases hfound
    exact ⟨rfl, fun _ => Grant.mem_ranked, Grant.denialsFirst_ranked _⟩

/-- The grants that the search gathers from the groups of a target. -/
theorem mem_gather {source : Entry → GrantAnswer} {groups : List (Entry × Bool)}
    {pool : List Grant} (h : (q.gather q.holder q.home groups).eval source = .ok pool)
    (g : Grant) :
    g ∈ pool ↔ g ∈ groups.flatMap fun (e, direct) => q.groupShare source (.group e direct) := by
  induction groups generalizing pool with
  | nil =>
    cases h
    simp
  | cons group rest ih =>
    obtain ⟨group, direct⟩ := group
    obtain ⟨set, gathered, hanswer, hrest, rfl⟩ := q.gather_cons_eq_ok h
    rw [List.flatMap_cons, List.mem_append, List.mem_append, ih hrest]
    refine or_congr ?_ Iff.rfl
    unfold inherited groupShare
    rw [List.mem_filter, List.mem_filter, ← GrantAnswer.mem_grants, hanswer]
    refine and_congr Iff.rfl ?_
    -- A denial is never kept from nested groups.
    have hkept : g.denies = true → g.isDisinherit = false := by
      intro hdeny
      unfold Grant.denies at hdeny
      unfold Grant.isDisinherit
      rw [of_decide_eq_true hdeny]
      rfl
    cases hdeny : g.denies with
    | true => simp [hkept hdeny]
    | false => simp only [Bool.or_false, Bool.false_or, Bool.and_comm]

/-- In a directory at hand no step of the chain of ancestors fails. -/
theorem chain_ofDirectory {d : Directory} (hview : q.view = d.view) :
    (Ancestry.chain q.view q.target q.expandsGroups).filterMap Except.toOption =
      .target q.target
        :: ((Ancestry.groups q.view q.target q.expandsGroups).map fun (e, direct) =>
            Ancestor.group e direct)
        ++ (Ancestry.domains d.view q.target).map Ancestor.domain
        ++ if q.target.targetType = .global then [] else [.global Directory.globalGrant] := by
  have htarget : Except.toOption (Except.ok (ε := Error) (Ancestor.target q.target)) =
      some (.target q.target) := rfl
  unfold Ancestry.chain Ancestry.last
  rw [hview, List.filterMap_append, List.filterMap_append, List.filterMap_cons_some htarget,
    List.filterMap_map, List.filterMap_map, List.filterMap_map]
  congr 1
  · congr 1
    · exact congrArg (Ancestor.target q.target :: ·)
        (List.filterMap_eq_map_iff_forall_eq_some.mpr fun _ _ => rfl)
    · exact List.filterMap_eq_map_iff_forall_eq_some.mpr fun _ _ => rfl
  · by_cases hglobal : q.target.targetType = .global
    · rw [if_pos hglobal, if_pos hglobal]
      rfl
    · rw [if_neg hglobal, if_neg hglobal]
      rfl

/-- The levels of the ruling, from the groups and the entries above them. -/
theorem standing_ofDirectory {d : Directory} (hview : q.view = d.view)
    (source : Entry → GrantAnswer) :
    q.standing source = ⟨false, (source q.target).grants⟩
      :: ⟨false, (Ancestry.groups q.view q.target q.expandsGroups).flatMap fun (e, direct) =>
          q.groupShare source (.group e direct)⟩
      :: (q.knownStops d).map fun (e, below) => ⟨below, (source e).grants⟩ := by
  have hlast : ∀ ancestor ∈ (Ancestry.domains d.view q.target).map Ancestor.domain
      ++ (if q.target.targetType = .global then [] else [.global Directory.globalGrant]),
      q.groupShare source ancestor = [] := by
    intro ancestor hmem
    rcases List.mem_append.mp hmem with h | h
    · obtain ⟨e, -, rfl⟩ := List.mem_map.mp h
      rfl
    · by_cases hglobal : q.target.targetType = .global
      · rw [if_pos hglobal] at h
        cases h
      · rw [if_neg hglobal, List.mem_singleton] at h
        rw [h]
        rfl
  unfold standing knownStops
  rw [q.chain_ofDirectory hview]
  simp only [List.append_assoc]
  rw [List.cons_append, List.flatMap_cons, List.flatMap_append, List.filterMap_cons_none rfl,
    List.filterMap_append, List.filterMap_append, List.flatMap_map, List.filterMap_map,
    List.filterMap_map, List.map_append, List.map_map]
  congr 2
  · rw [List.flatMap_eq_nil_iff.mpr hlast, List.append_nil]
    rfl
  · have hgroups : (Ancestry.groups q.view q.target q.expandsGroups).filterMap
        (q.levelAbove? source ∘ fun x => Ancestor.group x.1 x.2) = [] :=
      List.filterMap_eq_nil_iff.mpr fun _ _ => rfl
    rw [hgroups, List.nil_append]
    congr 1
    · exact List.filterMap_eq_map_iff_forall_eq_some.mpr fun _ _ => rfl
    · by_cases hglobal : q.target.targetType = .global
      · rw [if_pos hglobal, if_pos hglobal]
        rfl
      · rw [if_neg hglobal, if_neg hglobal]
        rfl

/-- The search reads the levels of the ruling. -/
theorem readAs_levels {d : Directory} (hview : q.view = d.view) (source : Entry → GrantAnswer) :
    List.Forall₂ ReadAs (q.standing source)
      (q.levels source q.holder q.home (q.knownStops d)) := by
  rw [q.standing_ofDirectory hview]
  unfold levels
  refine .cons (readAs_ofAnswer false _) (.cons ?_ ?_)
  · intro found hfound
    obtain ⟨pool, hpool, rfl⟩ := q.groupLevel_eq_ok hfound
    exact ⟨rfl, fun g => Grant.mem_ranked.trans (q.mem_gather hpool g),
      Grant.denialsFirst_ranked pool⟩
  · rw [List.forall₂_map_left_iff, List.forall₂_map_right_iff, List.forall₂_same]
    exact fun stop _ => readAs_ofAnswer stop.2 (source stop.1)

/-- In a directory at hand the search asks for the domain in which the target lives. -/
theorem targetHome_eq_home {d : Directory} (hview : q.view = d.view) :
    q.targetHome = .ok q.home := by
  obtain ⟨home, hhome⟩ := q.targetHome_ofDirectory hview
  unfold Inquiry.home
  rw [hhome]
  rfl

/-- A search that ends without an error ends with the ruling of the levels above the target. -/
theorem search_eq_ruling {d : Directory} (hview : q.view = d.view) (source : Entry → GrantAnswer)
    {finding : Finding} (h : (q.search q.holder).eval source = .ok finding) :
    finding.decision = q.ruling (q.standing source) := by
  rw [q.search_eval source q.holder q.home _ (q.targetHome_eq_home hview)
    (q.stops_ofDirectory hview)] at h
  rw [q.scan_eq_ruling (q.readAs_levels hview source) false h]
  unfold ruling
  simp only [Bool.false_eq_true, false_or]

/-- A check ends at once, looks at the border from the domain of the principal if the right is the
one that opens domains, or searches for this domain. -/
theorem course_cases :
    q.course = .idle ∨ (∃ e, q.course = .failed e) ∨
      (∃ domain, q.course = .border domain ∧ q.holder = some domain ∧
        q.right.isCrossDomainAdmin = true) ∨
      q.course = .search q.holder ∧ (q.holder = none ∨ q.right.isCrossDomainAdmin = false) := by
  unfold course holder
  by_cases hadmin : q.isAdminRight = true
  · rw [if_pos hadmin, if_pos hadmin]
    cases hentry : q.principal.entry?.filter fun _ => q.principal.mayUseAdminRights with
    | none => exact .inl rfl
    | some e =>
      have hprincipal : q.principal.entry? = some e := (Option.filter_eq_some_iff.mp hentry).1
      unfold holderDomain
      rw [hprincipal]
      simp only [Option.bind_some]
      rcases q.view.homeDomain e with cause | _ | domain
      · exact .inr (.inl ⟨cause, rfl⟩)
      · exact .inr (.inl ⟨_, rfl⟩)
      · by_cases hcross : q.right.isCrossDomainAdmin = true
        · exact .inr (.inr (.inl ⟨domain, if_pos hcross, rfl, hcross⟩))
        · have hother : q.right.isCrossDomainAdmin = false := by simpa using hcross
          exact .inr (.inr (.inr ⟨if_neg hcross, .inr hother⟩))
  · rw [if_neg hadmin, if_neg hadmin]
    exact .inr (.inr (.inr ⟨rfl, .inl rfl⟩))

/-- A check that searches and ends without an error decides by the ruling. -/
theorem answer_eq_ruling {d : Directory} (hview : q.view = d.view)
    (hcourse : q.course = .search q.holder) {source : Entry → GrantAnswer} {decision : Decision}
    (h : (q.answer.eval source).map Prod.fst = .ok decision) :
    decision = q.ruling (q.standing source) := by
  rw [answer_eq_follow, hcourse, eval_follow_search] at h
  obtain ⟨answer, hanswer, rfl⟩ := exists_of_map_eq_ok h
  obtain ⟨finding, hfound, rfl⟩ := exists_of_map_eq_ok hanswer
  exact q.search_eq_ruling hview source hfound

end Inquiry

namespace Sample

/-- The directory in which the list "team" lets the admin see Alice's account, and the second domain,
in which she lives, stores the lines. -/
def governed (lines : List String) : Directory :=
  (storing team adminLine domains).setValues away.id Store.grantAttribute lines

/-- The second domain denies the admin the right to see accounts. -/
def closed : Directory :=
  governed ["55555555-5555-5555-5555-555555555555 usr -listAccount"]

/-- The second domain denies it as well, but is open to the admins of the first one. -/
def unlocked : Directory :=
  governed ["55555555-5555-5555-5555-555555555555 usr -listAccount", openingLine]

end Sample

namespace AccessControl

/-- A principal to whom no rule applies before the grants may use admin rights. -/
theorem mayUseAdminRights_of_verdict {r : Request} (hadmin : r.right.isUserRight = false)
    (h : PriorRules.verdict r.principal r.target r.right r.asAdmin = .ok none) :
    ∃ e, r.principal.entry? = some e ∧ r.principal.mayUseAdminRights = true := by
  unfold PriorRules.verdict at h
  rw [hadmin] at h
  by_cases hglobal : (r.asAdmin && r.principal.isGlobalAdmin) = true
  · rw [if_pos hglobal] at h
    cases h
  · rw [if_neg hglobal, if_neg Bool.false_ne_true] at h
    by_cases hrank : (!(r.asAdmin && r.principal.isDelegatedAdmin)) = true
    · rw [if_pos hrank] at h
      cases h
    · simp only [Bool.not_eq_true', Bool.not_eq_false, Bool.and_eq_true] at hrank
      have hdelegated := hrank.2
      unfold Principal.isDelegatedAdmin at hdelegated
      cases hentry : r.principal.entry? with
      | none =>
        rw [hentry] at hdelegated
        cases hdelegated
      | some e =>
        rw [hentry] at hdelegated
        refine ⟨e, rfl, ?_⟩
        have haccount : e.isAccount = true := by
          simp only [Option.any_some, Entry.isDelegatedAdmin] at hdelegated
          unfold Entry.isAccount
          cases hrank : e.kind.rank? with
          | none =>
            rw [hrank] at hdelegated
            cases hdelegated
          | some rank => rfl
        unfold Principal.mayUseAdminRights
        rw [hentry]
        simp only [Option.any_some] at hdelegated ⊢
        rw [if_pos haccount, hdelegated, Bool.true_or]

/-- Where no rule applies before the grants, a check of another right than the one that opens
domains searches the levels, unless the domain of an admin is not known. -/
theorem course_of_verdict {d : Directory} {r : Request}
    (hrules : PriorRules.verdict r.principal r.target r.right r.asAdmin = .ok none)
    (hcross : r.right.isCrossDomainAdmin = false) :
    (∃ e, (r.inquiry d.view).course = .failed e) ∨
      (r.inquiry d.view).course = .search (r.inquiry d.view).holder := by
  rcases (r.inquiry d.view).course_cases with hidle | hfailed | ⟨domain, -, -, hopens⟩ |
    ⟨hsearch, -⟩
  · -- Somebody who may use admin rights asks.
    unfold Inquiry.course at hidle
    by_cases hadmin : (r.inquiry d.view).isAdminRight = true
    · have huser : r.right.isUserRight = false := Bool.not_eq_true' _ ▸ hadmin
      obtain ⟨e, hentry, hmay⟩ := mayUseAdminRights_of_verdict huser hrules
      have hasks : ((r.inquiry d.view).principal.entry?.filter
          fun _ => (r.inquiry d.view).principal.mayUseAdminRights) = some e := by
        show (r.principal.entry?.filter fun _ => r.principal.mayUseAdminRights) = some e
        rw [hentry, Option.filter_some, if_pos hmay]
      rw [if_pos hadmin, hasks] at hidle
      simp only at hidle
      split at hidle
      · cases hidle
      · split at hidle <;> cases hidle
    · rw [if_neg hadmin] at hidle
      cases hidle
  · exact .inl hfailed
  · have hcrossed : r.right.isCrossDomainAdmin = true := hopens
    rw [hcross] at hcrossed
    cases hcrossed
  · exact .inr hsearch

/-- Where no rule applies before the grants, a check of another right than the one that opens
domains that ends without an error decides by the ruling of the levels above its target. -/
theorem decided_eq_ruling {d : Directory} {source : Entry → GrantAnswer} {r : Request}
    {decision : Decision}
    (hrules : PriorRules.verdict r.principal r.target r.right r.asAdmin = .ok none)
    (hcross : r.right.isCrossDomainAdmin = false) (h : decided d source r = .ok decision) :
    decision = (r.inquiry d.view).ruling ((r.inquiry d.view).standing source) := by
  unfold decided Request.settled answered at h
  simp only [hrules] at h
  by_cases hpreset : r.right.isPreset = true
  · simp only [if_pos hpreset] at h
    rcases course_of_verdict (d := d) hrules hcross with ⟨e, hfailed⟩ | hsearch
    · rw [Inquiry.answer_eq_follow, hfailed] at h
      cases h
    · exact (r.inquiry d.view).answer_eq_ruling rfl hsearch h
  · simp only [if_neg hpreset] at h
    cases h

/-- A check that remembers no decisions, of another right than the one that opens domains and with
no rule before the grants, decides by the ruling of the levels above its target whenever it ends
without an error. -/
theorem evaluate_eq_ruling (k : AccessControl) {s : Store} {r : Request} {evaluation : Evaluation}
    (hs : s.outages = [])
    (hrules : PriorRules.verdict r.principal r.target r.right r.asAdmin = .ok none)
    (hcross : r.right.isCrossDomainAdmin = false)
    (h : (k.evaluate r { store := s, cache := none }).1 = .ok evaluation) :
    evaluation.decision = (r.inquiry s.directory.view).ruling
      ((r.inquiry s.directory.view).standing (Store.recalled k.catalog s)) := by
  have hdecided := k.decision_of_store hs r
  rw [h] at hdecided
  exact decided_eq_ruling hrules hcross hdecided.symm

/-- The list "team" of the first domain lets the admin see Alice's account, and her own domain denies
it. While this domain is closed the list does not count and the domain decides; once it is open, the
list decides before the domain is asked. -/
theorem evaluate_eq_ruling_sample :
    (Decision.deny = ((Sample.listing Sample.alice).inquiry Sample.closed.view).ruling
      (((Sample.listing Sample.alice).inquiry Sample.closed.view).standing
        (Store.recalled Sample.office.catalog (.ofDirectory Sample.closed)))) ∧
      Decision.allow = ((Sample.listing Sample.alice).inquiry Sample.unlocked.view).ruling
        (((Sample.listing Sample.alice).inquiry Sample.unlocked.view).standing
          (Store.recalled Sample.office.catalog (.ofDirectory Sample.unlocked))) := by
  have hdeny : (Sample.office.evaluate (Sample.listing Sample.alice)
      { store := .ofDirectory Sample.closed, cache := none }).1 = .ok (.bare .deny) := by
    decide +kernel
  have hallow : (Sample.office.evaluate (Sample.listing Sample.alice)
      { store := .ofDirectory Sample.unlocked, cache := none }).1 = .ok (.bare .allow) := by
    decide +kernel
  have hrules : PriorRules.verdict (.entry Sample.admin) Sample.alice Sample.listAccount true =
      .ok none := by
    decide +kernel
  have hcross : Sample.listAccount.isCrossDomainAdmin = false := by decide +kernel
  exact ⟨evaluate_eq_ruling Sample.office rfl hrules hcross hdeny,
    evaluate_eq_ruling Sample.office rfl hrules hcross hallow⟩

end AccessControl

end DirectoryRights
