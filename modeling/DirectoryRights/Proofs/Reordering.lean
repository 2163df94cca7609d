import Mathlib.Data.List.Find
import Mathlib.Data.List.Perm.Basic
import DirectoryRights.Proofs.Belonging
import DirectoryRights.Proofs.Loosening
import DirectoryRights.Proofs.Rereading

/-!
# The order of lines and of groups

Neither the order in which an entry was put into its groups nor the order of its stored lines has an
effect on decisions. A principal and a target belong to the same groups in both orders, though they
find them one after the other in different ways. So the levels above a target hold the same grants,
and the ruling of the levels asks for no more than that. The grants that open a domain are searched
in a row. As no two grants of a set have one slot, at most one of them is about a given domain, and
it is found wherever it stands.
-/

set_option autoImplicit false

namespace DirectoryRights

namespace Directory

/-- The second directory differs from the first one in attributes and in the order in which entries
were put into groups. -/
structure Regrouped (d d' : Directory) : Prop where
  /-- Everything else is the same. -/
  frame : d' = { d with attributes := d'.attributes, parents := d'.parents, writes := d'.writes }
  /-- Every entry was put into the same groups. -/
  parents : ∀ id, (d'.parentsOf id).Perm (d.parentsOf id)

variable {d d' : Directory}

/-- Which of the two directories comes first does not matter. -/
theorem Regrouped.symm (h : d.Regrouped d') : d'.Regrouped d := by
  refine ⟨?_, fun id => (h.parents id).symm⟩
  rw [h.frame]

/-- The two directories find the same entries by ids. -/
theorem Regrouped.entry? (h : d.Regrouped d') : d'.entry? = d.entry? := by
  rw [h.frame]
  rfl

/-- An entry was put into the same groups in both directories. -/
theorem Regrouped.mem_parentsOf (h : d.Regrouped d') {id group : EntryId} :
    group ∈ d'.parentsOf id ↔ group ∈ d.parentsOf id :=
  (h.parents id).mem_iff

/-- What belongs to a group in one directory belongs to it in the other. -/
theorem Regrouped.belongs (h : d.Regrouped d') {member group : EntryId}
    (hgroup : d.Belongs member group) : d'.Belongs member group := by
  induction hgroup with
  | put hput => exact .put (h.mem_parentsOf.mpr hput)
  | through _ hentry houter ih =>
    rw [← h.entry?] at hentry
    exact .through ih hentry (h.mem_parentsOf.mpr houter)

/-- An entry has the same groups, and the same ones among them are direct. -/
theorem Regrouped.mem_membership (h : d.Regrouped d') {e : Entry} {adminOnly : Bool}
    {group : Affiliation} :
    group ∈ (d'.membership e adminOnly).groups ↔ group ∈ (d.membership e adminOnly).groups := by
  have hbelongs : d'.Belongs e.id group.id ↔ d.Belongs e.id group.id :=
    ⟨h.symm.belongs, h.belongs⟩
  have hdirect : decide (group.id ∈ d'.parentsOf e.id) = decide (group.id ∈ d.parentsOf e.id) :=
    decide_eq_decide.mpr h.mem_parentsOf
  have haffiliation : d'.affiliation? = d.affiliation? := by
    unfold affiliation?
    rw [h.entry?]
  unfold membership
  rw [List.mem_filter, List.mem_filter, mem_allGroups, mem_allGroups, hbelongs, hdirect,
    haffiliation]

/-- Nothing else that a check asks of a directory depends on the order of groups. -/
theorem Regrouped.view (h : d.Regrouped d') :
    d'.view = { d.view with membership := d'.view.membership } := by
  have hrest : ∀ m, { d'.view with membership := m } = { d.view with membership := m } := by
    intro m
    rw [h.frame]
    rfl
  exact hrest d'.view.membership

/-- A principal has the same groups in both directories. -/
theorem Regrouped.containsText_groupsOf (h : d.Regrouped d') (p : Principal) (asAdmin : Bool)
    (text : String) :
    (Matching.groupsOf d'.view p asAdmin).containsText text =
      (Matching.groupsOf d.view p asAdmin).containsText text := by
  have hmem : ∀ group, group ∈ (Matching.groupsOf d'.view p asAdmin).groups ↔
      group ∈ (Matching.groupsOf d.view p asAdmin).groups := by
    intro group
    unfold Matching.groupsOf
    cases p.entry? with
    | none => exact Iff.rfl
    | some e =>
      have hfound : ∀ group, group ∈ (d'.membership e asAdmin).groups ↔
          group ∈ (d.membership e asAdmin).groups := fun _ => h.mem_membership
      have hcontains : ∀ id, (d'.membership e asAdmin).contains id =
          (d.membership e asAdmin).contains id := by
        intro id
        unfold Membership.contains
        rw [Bool.eq_iff_iff, List.any_eq_true, List.any_eq_true]
        exact exists_congr fun group => and_congr_left fun _ => hfound group
      simp only [Directory.view]
      by_cases hown : (e.isGroup && (!asAdmin || e.isAdminGroup)) = true
      · rw [if_pos hown, if_pos hown]
        unfold Membership.append
        rw [hcontains]
        split
        · exact hfound group
        · rw [List.mem_append, List.mem_append, hfound group]
      · rw [if_neg hown, if_neg hown]
        exact hfound group
  unfold Membership.containsText
  rw [Bool.eq_iff_iff, List.any_eq_true, List.any_eq_true]
  exact exists_congr fun group => and_congr_left fun _ => hmem group

/-- A grant matches a principal in both directories or in none. -/
theorem Regrouped.inTier (h : d.Regrouped d') (p : Principal) (asAdmin : Bool) (tier : Tier)
    (g : Grant) :
    Matching.inTier d'.view p asAdmin tier g = Matching.inTier d.view p asAdmin tier g := by
  have hexternal : Matching.inExternalGroup d'.view p g = Matching.inExternalGroup d.view p g := by
    unfold Matching.inExternalGroup
    rw [h.view]
  unfold Matching.inTier Matching.inGroup Matching.isGrantee Matching.isIdentifiedGrantee
  rw [h.containsText_groupsOf, hexternal]

/-- A target has the same groups in both directories, but perhaps in another order. -/
theorem Regrouped.mem_groups (h : d.Regrouped d') {target : Entry} {expands : Bool}
    {group : Entry × Bool} :
    group ∈ Ancestry.groups d'.view target expands ↔
      group ∈ Ancestry.groups d.view target expands := by
  have hentry : d'.view.entry = d.view.entry := by rw [h.view]
  unfold Ancestry.groups
  simp only [List.mem_ite_nil_left]
  rw [hentry]
  refine and_congr Iff.rfl ?_
  show group ∈ (d'.membership target false).groups.filterMap _ ↔
    group ∈ (d.membership target false).groups.filterMap _
  rw [List.mem_filterMap, List.mem_filterMap]
  exact exists_congr fun affiliation => and_congr_left fun _ => h.mem_membership

end Directory

namespace GrantSet

variable {c : Catalog}

/-- No two lines stand for grants of one slot. -/
def DistinctLines (c : Catalog) (lines : List String) : Prop :=
  lines.Pairwise fun line other => ∀ g h, Grant.parse c line = .ok g →
    Grant.parse c other = .ok h → g.slot ≠ h.slot

/-- Lines in another order are read as the same grants in another order. -/
theorem mapM_parse_of_perm {lines lines' : List String} {gs : List Grant}
    (hperm : lines'.Perm lines) (h : lines.mapM (Grant.parse c) = .ok gs) :
    ∃ gs', lines'.mapM (Grant.parse c) = .ok gs' ∧ gs'.Perm gs := by
  obtain ⟨gs', hgs', hpermuted⟩ := List.perm_comp_forall₂ hperm (mapM_eq_ok.mp h)
  exact ⟨gs', mapM_eq_ok.mpr hgs', hpermuted⟩

/-- Lines of different slots are read as grants of different slots. -/
theorem nodup_of_distinctLines {lines : List String} {gs : List Grant}
    (hdistinct : DistinctLines c lines) (h : lines.mapM (Grant.parse c) = .ok gs) :
    (gs.map Grant.slot).Nodup := by
  rw [mapM_eq_ok] at h
  induction h with
  | nil => exact List.nodup_nil
  | @cons line g rest others hline hrest ih =>
    obtain ⟨hfirst, hothers⟩ := List.pairwise_cons.mp hdistinct
    rw [List.map_cons, List.nodup_cons]
    refine ⟨?_, ih hothers⟩
    intro hmem
    obtain ⟨other, hother, hslot⟩ := List.mem_map.mp hmem
    obtain ⟨line', hline', hparse⟩ := exists_line_of_mapM (mapM_eq_ok.mpr hrest) hother
    exact hfirst line' hline' g other hline hparse hslot.symm

end GrantSet

namespace GrantAnswer

/-- Either both entries cannot be read, or they have the same grants, each slot once. -/
inductive Rearranged : GrantAnswer → GrantAnswer → Prop where
  /-- Neither can be read. -/
  | error (e e' : Error) : Rearranged (.error e) (.error e')
  /-- The grants are the same. -/
  | ok {set set' : Option GrantSet}
    (hperm : (set'.elim [] GrantSet.all).Perm (set.elim [] GrantSet.all))
    (hdistinct : ((set.elim [] GrantSet.all).map Grant.slot).Nodup) :
    Rearranged (.ok set) (.ok set')

/-- Two entries that are alike up to the order have the same grants. -/
theorem Rearranged.mem_iff {a a' : GrantAnswer} (h : Rearranged a a') {g : Grant} :
    g ∈ a'.grants ↔ g ∈ a.grants := by
  cases h with
  | error e e' => exact Iff.rfl
  | ok hperm _ => rw [mem_grants, mem_grants, hperm.mem_iff]

end GrantAnswer

namespace DomainBorder

/-- Where every slot is taken once the order of grants does not matter to a border. -/
theorem decide_of_perm {domainId : String} {delegate : Bool} {gs gs' : List Grant}
    (hperm : gs'.Perm gs) (hdistinct : (gs.map Grant.slot).Nodup) :
    decide domainId delegate gs' = decide domainId delegate gs := by
  have hfind : (gs.find? fun g => concerns domainId g && !(delegate && g.isForUse)) =
      gs'.find? fun g => concerns domainId g && !(delegate && g.isForUse) := by
    apply List.find?_eq_find?_of_perm hperm.symm
    rintro g ⟨hg, hconcerns⟩ g' ⟨hg', hconcerns'⟩
    rw [Bool.and_eq_true] at hconcerns hconcerns'
    exact eq_of_concerns hdistinct hg hg' hconcerns.1 hconcerns'.1
  unfold decide
  rw [hfind]

end DomainBorder

namespace Directory

/-- The second directory differs from the first one in the order of stored lines and of groups, and
in other attributes than the grants. No two lines of an entry stand for grants of one slot. -/
structure Reordered (c : Catalog) (d d' : Directory) : Prop extends Regrouped d d' where
  /-- Every entry has the same lines. -/
  lines : ∀ id, (d'.valuesOf id Store.grantAttribute).Perm (d.valuesOf id Store.grantAttribute)
  /-- Every line of an entry has its own slot. -/
  distinct : ∀ id, GrantSet.DistinctLines c (d.valuesOf id Store.grantAttribute)

end Directory

namespace GrantSet

variable {c : Catalog}

/-- Lines of different slots say the same in any order. -/
theorem rearranged_parse (e : Entry) {lines lines' : List String} (hperm : lines'.Perm lines)
    (hdistinct : DistinctLines c lines) :
    GrantAnswer.Rearranged ((parse c e lines).map Store.present)
      ((parse c e lines').map Store.present) := by
  unfold parse
  cases hgs : lines.mapM (Grant.parse c) with
  | error cause =>
    cases hgs' : lines'.mapM (Grant.parse c) with
    | error cause' => exact .error cause cause'
    | ok gs' =>
      obtain ⟨gs, hgs'', -⟩ := mapM_parse_of_perm hperm.symm hgs'
      rw [hgs''] at hgs
      cases hgs
  | ok gs =>
    obtain ⟨gs', hgs', hsame⟩ := mapM_parse_of_perm hperm hgs
    rw [hgs']
    have hslots := nodup_of_distinctLines hdistinct hgs
    have hset : ∀ {grants : List Grant}, (grants.map Grant.slot).Nodup →
        ofList (grants.map (Grant.foundOn e)) = ⟨grants.map (Grant.foundOn e)⟩ := by
      intro grants hgrants
      apply ofList_of_nodup
      rw [List.map_map]
      exact hgrants
    refine .ok ?_ ?_
    · rw [elim_present, elim_present]
      show (ofList (gs'.map (Grant.foundOn e))).all.Perm (ofList (gs.map (Grant.foundOn e))).all
      rw [hset hslots, hset ((hsame.map Grant.slot).nodup_iff.mpr hslots)]
      exact (Grant.ranked_perm _).trans ((hsame.map _).trans (Grant.ranked_perm _).symm)
    · rw [elim_present]
      show ((ofList (gs.map (Grant.foundOn e))).all.map Grant.slot).Nodup
      rw [hset hslots]
      have hranked := (Grant.ranked_perm (gs.map (Grant.foundOn e))).map Grant.slot
      rw [List.map_map] at hranked
      exact hranked.nodup_iff.mpr hslots

end GrantSet

/-- What is read of an entry in the two directories is the same up to the order. -/
theorem Directory.Reordered.fresh {c : Catalog} {d d' : Directory} (h : d.Reordered c d')
    (e : Entry) :
    GrantAnswer.Rearranged (Store.fresh c (.ofDirectory d) e)
      (Store.fresh c (.ofDirectory d') e) := by
  rw [Store.fresh_eq, Store.fresh_eq]
  exact GrantSet.rearranged_parse e (h.lines e.id) (h.distinct e.id)

namespace Inquiry

variable {source source' : Entry → GrantAnswer}

/-- What a domain says of its border, if its grants can be read. -/
theorem check_of_rearranged (h : ∀ e, GrantAnswer.Rearranged (source e) (source' e))
    (holder target : Entry) (delegate : Bool) :
    ((DomainBorder.check holder target delegate).eval source').toOption =
      ((DomainBorder.check holder target delegate).eval source).toOption := by
  rw [check_eval, check_eval]
  by_cases hdomain : target.isDomain = true
  · rw [if_pos hdomain, if_pos hdomain]
    have hanswer := h target
    generalize source target = before at hanswer
    generalize source' target = after at hanswer
    cases hanswer with
    | error e e' => rfl
    | ok hperm hdistinct => exact congrArg some (DomainBorder.decide_of_perm hperm hdistinct)
  · rw [if_neg hdomain, if_neg hdomain]

/-! ## One check over two directories -/

/-- One check over two directories that differ in the order of groups. -/
structure Twins (d d' : Directory) (q q' : Inquiry) : Prop where
  /-- The directories. -/
  regrouped : d.Regrouped d'
  /-- The first check sees the first directory. -/
  first : q.view = d.view
  /-- The second check is the first one, but it sees the second directory. -/
  second : q' = { q with view := d'.view }

namespace Twins

variable {d d' : Directory} {q q' : Inquiry}

/-- A grant applies to both checks or to none. -/
theorem applies (h : Twins d d' q q') {below : Bool} {g : Grant} :
    q'.Applies below g ↔ q.Applies below g := by
  rw [applies_iff, applies_iff, h.second]
  rfl

/-- The principal is the grantee in both checks or in none. -/
theorem answers (h : Twins d d' q q') {tier : Tier} {g : Grant} :
    q'.Answers tier g ↔ q.Answers tier g := by
  rw [answers_iff, answers_iff, h.second, h.first]
  simp only [h.regrouped.inTier]
  rfl

/-- Both checks ask for the same right. -/
theorem right (h : Twins d d' q q') : q'.right = q.right := by rw [h.second]

/-- Levels at one place with the same grants. -/
def SameGrants (level level' : Level) : Prop :=
  level'.below = level.below ∧ ∀ g, g ∈ level'.grants ↔ g ∈ level.grants

/-- A tier has the same verdict in both checks, where the levels have the same grants. -/
theorem verdict? (h : Twins d d' q q') {level level' : Level} (hlevel : SameGrants level level')
    (tier : Tier) : q'.verdict? level' tier = q.verdict? level tier := by
  unfold Inquiry.verdict?
  simp only [h.applies, h.answers, hlevel.1, hlevel.2]

/-- A grant of a level is about the right in both checks or in none. -/
theorem mentioned (h : Twins d d' q q') {level level' : Level} (hlevel : SameGrants level level') :
    q'.Mentioned level' ↔ q.Mentioned level := by
  unfold Mentioned
  simp only [h.applies, h.right, hlevel.1, hlevel.2]

/-- The first verdict of all levels is the same in both checks. -/
theorem findSome? (h : Twins d d' q q') {levels levels' : List Level}
    (hlevels : List.Forall₂ SameGrants levels levels') (tiers : List Tier) :
    (levels'.findSome? fun level => tiers.findSome? (q'.verdict? level)) =
      levels.findSome? fun level => tiers.findSome? (q.verdict? level) := by
  induction hlevels with
  | nil => rfl
  | cons hlevel _ ih =>
    rw [List.findSome?_cons, List.findSome?_cons, ih, funext (h.verdict? hlevel)]

/-- A grant of some level is about the right in both checks or in none. -/
theorem exists_mentioned (h : Twins d d' q q') {levels levels' : List Level}
    (hlevels : List.Forall₂ SameGrants levels levels') :
    (∃ level ∈ levels', q'.Mentioned level) ↔ ∃ level ∈ levels, q.Mentioned level := by
  induction hlevels with
  | nil => simp
  | cons hlevel _ ih =>
    rw [List.exists_mem_cons_iff, List.exists_mem_cons_iff, ih, h.mentioned hlevel]

/-- The ruling asks for no more of a level than which grants it holds. -/
theorem ruling (h : Twins d d' q q') {levels levels' : List Level}
    (hlevels : List.Forall₂ SameGrants levels levels') : q'.ruling levels' = q.ruling levels := by
  have hverdicts := h.findSome? hlevels (Tier.all q.right.isUserRight)
  have hmentioned := h.exists_mentioned hlevels
  unfold Inquiry.ruling
  rw [h.right, hverdicts]
  simp only [hmentioned]

/-- The principal has the same domain in both checks. -/
theorem holder (h : Twins d d' q q') : q'.holder = q.holder := by
  unfold Inquiry.holder
  rw [h.second, h.first, h.regrouped.view]
  rfl

/-- The target has the same domain in both checks. -/
theorem home (h : Twins d d' q q') : q'.home = q.home := by
  unfold Inquiry.home targetHome
  rw [h.second, h.first, h.regrouped.view]

/-- Both checks take the same course. -/
theorem course (h : Twins d d' q q') : q'.course = q.course := by
  unfold Inquiry.course holderDomain
  rw [h.second, h.first, h.regrouped.view]
  rfl

/-- The entries above the groups are the same for both checks. -/
theorem knownStops (h : Twins d d' q q') : q'.knownStops d' = q.knownStops d := by
  unfold Inquiry.knownStops
  rw [h.second, h.regrouped.view]
  rfl

/-- A group counts in both checks or in none. -/
theorem groupCounts (h : Twins d d' q q')
    (hsource : ∀ e, GrantAnswer.Rearranged (source e) (source' e)) (holder home : Option Entry)
    (group : Entry) :
    (q'.groupCounts holder home group).eval source' =
      (q.groupCounts holder home group).eval source := by
  have hsame : q'.groupCounts holder home group = q.groupCounts holder home group := by
    unfold Inquiry.groupCounts DomainBorder.groupCounts
    rw [h.second, h.first, h.regrouped.view]
  have hallow : ∀ x : Except Error Decision, x = .ok .allow ↔ x.toOption = some .allow := by
    intro x
    cases x <;> simp [Except.toOption]
  rw [hsame]
  apply q.groupCounts_of_borders
  intro domain target _ _ _
  rw [hallow, hallow, check_of_rearranged hsource]

/-- The same grants of a group count in both checks. -/
theorem mem_groupShare (h : Twins d d' q q')
    (hsource : ∀ e, GrantAnswer.Rearranged (source e) (source' e)) (group : Entry × Bool)
    (g : Grant) :
    g ∈ q'.groupShare source' (.group group.1 group.2) ↔
      g ∈ q.groupShare source (.group group.1 group.2) := by
  unfold groupShare
  rw [List.mem_filter, List.mem_filter, (hsource group.1).mem_iff, h.holder, h.home,
    h.groupCounts hsource]

/-- The levels of both checks have the same grants, place by place. -/
theorem standing (h : Twins d d' q q')
    (hsource : ∀ e, GrantAnswer.Rearranged (source e) (source' e)) :
    List.Forall₂ SameGrants (q.standing source) (q'.standing source') := by
  have hview : q'.view = d'.view := by rw [h.second]
  have htarget : q'.target = q.target := by rw [h.second]
  have hexpands : q'.expandsGroups = q.expandsGroups := by
    rw [h.second]
    rfl
  rw [q.standing_ofDirectory h.first, q'.standing_ofDirectory hview, h.knownStops, htarget,
    hexpands]
  refine .cons ⟨rfl, fun g => (hsource q.target).mem_iff⟩ (.cons ⟨rfl, fun g => ?_⟩ ?_)
  · simp only [List.mem_flatMap]
    apply exists_congr
    intro group
    rw [hview, h.first, h.regrouped.mem_groups, h.mem_groupShare hsource]
  · rw [List.forall₂_map_left_iff, List.forall₂_map_right_iff, List.forall₂_same]
    exact fun stop _ => ⟨rfl, fun g => (hsource stop.1).mem_iff⟩

end Twins

end Inquiry

namespace Inquiry

/-- Two checks of one question that both end decide alike. -/
theorem Twins.decision {source source' : Entry → GrantAnswer} {d d' : Directory} {q q' : Inquiry}
    (h : Twins d d' q q') (hsource : ∀ e, GrantAnswer.Rearranged (source e) (source' e))
    {first second : Decision} (hfirst : (q.answer.eval source).map Prod.fst = .ok first)
    (hsecond : (q'.answer.eval source').map Prod.fst = .ok second) : first = second := by
  have hview : q'.view = d'.view := by rw [h.second]
  have htarget : q'.target = q.target := by rw [h.second]
  have hdelegate : q'.delegate = q.delegate := by rw [h.second]
  rcases q.course_cases with hcourse | ⟨e, hcourse⟩ | ⟨domain, hcourse, -⟩ | ⟨hcourse, -⟩
  · rw [answer_eq_follow, hcourse] at hfirst
    rw [answer_eq_follow, h.course, hcourse] at hsecond
    cases hfirst
    cases hsecond
    rfl
  · rw [answer_eq_follow, hcourse] at hfirst
    cases hfirst
  · rw [answer_eq_follow, hcourse, eval_follow_border] at hfirst
    rw [answer_eq_follow, h.course, hcourse, eval_follow_border, htarget, hdelegate] at hsecond
    obtain ⟨answer, hanswer, rfl⟩ := exists_of_map_eq_ok hfirst
    obtain ⟨before, hbefore, rfl⟩ := exists_of_map_eq_ok hanswer
    obtain ⟨answer', hanswer', rfl⟩ := exists_of_map_eq_ok hsecond
    obtain ⟨after, hafter, rfl⟩ := exists_of_map_eq_ok hanswer'
    have hcheck := check_of_rearranged hsource domain q.target q.delegate
    rw [hbefore, hafter] at hcheck
    exact (Option.some.inj hcheck).symm
  · -- Which grant is found first may differ, but both are found by one ruling.
    have hcourse' : q'.course = .search q'.holder := by rw [h.course, h.holder, hcourse]
    have hruling := h.ruling (h.standing hsource)
    rw [q.answer_eq_ruling h.first hcourse hfirst, q'.answer_eq_ruling hview hcourse' hsecond,
      hruling]

end Inquiry

namespace Sample

/-- The directory of the two domains with the lists that Alice is in, and the lines of the list
"staff", in given orders. -/
def arranged (groups : List EntryId) (lines : List String) : Directory :=
  { domains with
    parents := ⟨[(alice.id, groups)]⟩
    attributes := ⟨[((staff.id, Store.grantAttribute), lines)]⟩ }

/-- In the arranged directory nobody is in groups but Alice. -/
theorem parentsOf_arranged (groups : List EntryId) (lines : List String) (id : EntryId) :
    (arranged groups lines).parentsOf id = if id = alice.id then groups else [] := by
  unfold arranged Directory.parentsOf Table.get?
  by_cases h : id = alice.id
  · simp [h]
  · have hother : ¬ alice.id = id := fun e => h e.symm
    simp [h, hother]

/-- In the arranged directory nothing stores grants but the list "staff". -/
theorem valuesOf_arranged (groups : List EntryId) (lines : List String) (id : EntryId) :
    (arranged groups lines).valuesOf id Store.grantAttribute =
      if id = staff.id then lines else [] := by
  unfold arranged Directory.valuesOf Table.get?
  by_cases h : id = staff.id
  · simp [h]
  · have hother : ¬ staff.id = id := fun e => h e.symm
    simp [h, hother]

/-- The two lines of the admin are about different rights. -/
theorem distinct_adminLine_memberLine :
    GrantSet.DistinctLines office.catalog [adminLine, memberLine] := by
  have hslots : (Grant.parse office.catalog adminLine).toOption.map Grant.slot ≠
      (Grant.parse office.catalog memberLine).toOption.map Grant.slot := by
    decide +kernel
  unfold GrantSet.DistinctLines
  rw [List.pairwise_pair]
  intro g h hg hh hslot
  rw [hg, hh] at hslots
  exact hslots (congrArg some hslot)

/-- The arranged directories differ in the order of lines and of groups alone. -/
theorem reordered_arranged :
    (arranged [team.id, staff.id] [adminLine, memberLine]).Reordered office.catalog
      (arranged [staff.id, team.id] [memberLine, adminLine]) := by
  refine ⟨⟨?_, fun id => ?_⟩, fun id => ?_, fun id => ?_⟩
  · unfold arranged
    generalize domains = d
    rfl
  · rw [parentsOf_arranged, parentsOf_arranged]
    split
    · exact .swap _ _ _
    · exact .nil
  · rw [valuesOf_arranged, valuesOf_arranged]
    split
    · exact .swap _ _ _
    · exact .nil
  · rw [valuesOf_arranged]
    split
    · exact distinct_adminLine_memberLine
    · exact .nil

end Sample

namespace AccessControl

variable {k : AccessControl}

/-- Whatever the order in which grants are answered, two checks that both end decide alike. -/
theorem decided_of_rearranged {d d' : Directory} {source source' : Entry → GrantAnswer}
    {r : Request} {first second : Decision} (h : d.Regrouped d')
    (hsource : ∀ e, GrantAnswer.Rearranged (source e) (source' e))
    (hfirst : decided d source r = .ok first) (hsecond : decided d' source' r = .ok second) :
    first = second := by
  unfold decided at hfirst hsecond
  cases hsettled : r.settled with
  | error e =>
    rw [hsettled] at hfirst
    cases hfirst
  | ok verdict =>
    rw [hsettled] at hfirst hsecond
    cases verdict with
    | some decision => exact (Except.ok.inj hfirst).symm.trans (Except.ok.inj hsecond)
    | none =>
      have htwins : Inquiry.Twins d d' (r.inquiry d.view) (r.inquiry d'.view) := ⟨h, rfl, rfl⟩
      exact htwins.decision hsource hfirst hsecond

/-- Two checks over directories that differ in the order of stored lines and of groups decide alike,
if both end without an error. -/
theorem decision_of_reordered {d d' : Directory} {r : Request} {first second : Evaluation}
    (h : d.Reordered k.catalog d') (hfirst : k.uncached d r = .ok first)
    (hsecond : k.uncached d' r = .ok second) : first.decision = second.decision := by
  have hbefore := k.decision_uncached d r
  have hafter := k.decision_uncached d' r
  rw [hfirst] at hbefore
  rw [hsecond] at hafter
  exact decided_of_rearranged h.toRegrouped h.fresh hbefore.symm hafter.symm

/-- The admin may see Alice's account in both orders. -/
theorem decision_of_reordered_sample :
    ∃ first second,
      Sample.office.uncached
        (Sample.arranged [Sample.team.id, Sample.staff.id] [Sample.adminLine, Sample.memberLine])
        (Sample.listing Sample.alice) = .ok first ∧
      Sample.office.uncached
        (Sample.arranged [Sample.staff.id, Sample.team.id] [Sample.memberLine, Sample.adminLine])
        (Sample.listing Sample.alice) = .ok second ∧
      first.decision = .allow ∧ first.decision = second.decision := by
  have hfirst : Sample.office.uncached
      (Sample.arranged [Sample.team.id, Sample.staff.id] [Sample.adminLine, Sample.memberLine])
      (Sample.listing Sample.alice) = .ok (.bare .allow) := by
    decide +kernel
  have hsecond : Sample.office.uncached
      (Sample.arranged [Sample.staff.id, Sample.team.id] [Sample.memberLine, Sample.adminLine])
      (Sample.listing Sample.alice) = .ok (.bare .allow) := by
    decide +kernel
  exact ⟨_, _, hfirst, hsecond, rfl,
    decision_of_reordered Sample.reordered_arranged hfirst hsecond⟩

end AccessControl

end DirectoryRights
